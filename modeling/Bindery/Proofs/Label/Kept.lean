import Bindery.Proofs.Label.Pascal

/-!
# Conversions lose no character

Two substitutions mark the word boundaries of a name. The first puts an underscore between any
character and a capitalised word behind it; where such words follow each other directly, it passes
over every second boundary, since no character belongs to two matches. The second puts an underscore
between a small letter or a digit and a capital, and so marks the boundaries that were passed over.
Together they mark what one pass marks that looks at the neighbours of a character only.

Pascal case keeps the letters and the digits of a name and changes nothing but their case; snake case
adds nothing but underscores and changes nothing but case. So both forms, in small letters and without
underscores, are the name in small letters and without underscores.

## What is proved

* `ofText?_capitalText`, `ofText?_breakText` — the patterns are what their texts denote.
* `exists_searched_capital` — the first substitution marks boundaries, and passes over none but those
  behind a small letter or a digit.
* `exists_searched_break` — the second one marks all that were passed over.
* `snakeCase_of_substitutions` — snake case is what the two substitutions give, in lower case.
* `map_toLower_flatMap_capitalise` — words that are capitalised keep their characters.
* `filter_separate` — marking word boundaries adds nothing but underscores.
* `conversions_keep_characters` — what both forms keep of a name.
-/

namespace Bindery.Label

open Bindery.Text Bindery.Pattern

variable {w r cs out before : List Char} {c d e : Char}

/-! ### The patterns -/

/-- The text of the pattern of a character and a capitalised word behind it. -/
def capitalText : String :=
  "(.)([A-Z][a-z]+)"

/-- The pattern of a character and a capitalised word behind it. -/
def capitalPattern : Node :=
  .seq [.capture 1 (.seq [.any false]), .capture 2 (.seq [oneOf .up, someOf .low])]

/-- The text of the pattern of a small letter or a digit and a capital behind it. -/
def breakText : String :=
  "([a-z0-9])([A-Z])"

/-- A small letter or a digit. -/
def lowOrDigit : Node :=
  .one false [kindItem .low, kindItem .digit] exactly

/-- The pattern of a small letter or a digit and a capital behind it. -/
def breakPattern : Node :=
  .seq [.capture 1 (.seq [lowOrDigit]), .capture 2 (.seq [oneOf .up])]

/-- The pattern is what its text denotes. -/
theorem ofText?_capitalText : ofText? capitalText = some capitalPattern := by
  cbv

/-- The pattern is what its text denotes. -/
theorem ofText?_breakText : ofText? breakText = some breakPattern := by
  cbv

/-- What the first two groups matched, with an underscore between them. -/
def apart (groups : List (Nat × List Char)) : List Char :=
  (groups.lookup 1).getD [] ++ '_' :: (groups.lookup 2).getD []

/-! ### Matches -/

/-- Does a capitalised word stand behind a character of the line? -/
def CapitalBehind (c : Char) (r : List Char) : Prop :=
  c ≠ '\n' ∧ CapitalisedHead r

/-- A place behind which the second group remembers what it matched. -/
def closeSecond (r : List Char) (q : Place) : Option Place :=
  some { q with groups := (2, r.take (r.length - q.behind.length)) :: q.groups }

theorem closeSecond_append {groups : List (Nat × List Char)} :
    closeSecond (w ++ r) ⟨before, r, groups⟩ = some ⟨before, r, (2, w) :: groups⟩ := by
  simp [closeSecond]

theorem run_capitalPattern_eq :
    capitalPattern.run some ⟨before, d :: r, []⟩ =
      if d = '\n' then none
      else (oneOf .up).run ((someOf .low).run (closeSecond r)) ⟨d :: before, r, [(1, [d])]⟩ := by
  simp only [capitalPattern, Node.run, runSeq, Place.step]
  by_cases hd : d = '\n'
  · simp [hd]
  · simp [hd]
    rfl

theorem run_capitalPattern (hd : d ≠ '\n') (hc : kindOf c = some .up) (hne : w ≠ [])
    (hw : AllOf .low w) (hr : nextKind r ≠ some .low) :
    capitalPattern.run some ⟨before, d :: c :: w ++ r, []⟩ =
      some ⟨w.reverse ++ c :: d :: before, r, [(2, c :: w), (1, [d])]⟩ := by
  rw [List.cons_append, run_capitalPattern_eq, if_neg hd, List.cons_append, run_oneOf hc]
  exact run_someOf hne hw hr (closeSecond_append (w := c :: w))

theorem run_capitalPattern_eq_none (h : ¬ CapitalBehind d r) :
    capitalPattern.run some ⟨before, d :: r, []⟩ = none := by
  rw [run_capitalPattern_eq]
  split_ifs with hd
  · rfl
  · by_cases hup : nextKind r = some .up
    · cases r with
      | nil => cases hup
      | cons c r =>
        rw [run_oneOf hup, run_someOf_eq_none fun hlow => h ⟨hd, c, r, rfl, hup, hlow⟩]
    · exact run_oneOf_eq_none hup

/-- Is the character a small letter or a digit? -/
def IsLowOrDigit (c : Char) : Prop :=
  kindOf c = some .low ∨ kindOf c = some .digit

theorem accepted_lowOrDigit :
    accepted [kindItem .low, kindItem .digit] exactly c = true ↔ IsLowOrDigit c := by
  simp [accepted, setHolds, exactly, holds_kindItem, IsLowOrDigit]

theorem run_breakPattern_eq :
    breakPattern.run some ⟨before, d :: r, []⟩ =
      if accepted [kindItem .low, kindItem .digit] exactly d then
        (oneOf .up).run (closeSecond r) ⟨d :: before, r, [(1, [d])]⟩
      else none := by
  simp only [breakPattern, Node.run, runSeq, lowOrDigit, Place.step]
  split_ifs with hd
  · simp
    rfl
  · rfl

theorem run_breakPattern (hd : IsLowOrDigit d) (hc : kindOf c = some .up) :
    breakPattern.run some ⟨before, [d, c] ++ r, []⟩ =
      some ⟨c :: d :: before, r, [(2, [c]), (1, [d])]⟩ := by
  rw [List.cons_append, run_breakPattern_eq, if_pos (accepted_lowOrDigit.mpr hd), List.cons_append,
    run_oneOf hc]
  exact closeSecond_append (w := [c])

theorem run_breakPattern_eq_none (h : IsLowOrDigit d → nextKind r ≠ some .up) :
    breakPattern.run some ⟨before, d :: r, []⟩ = none := by
  rw [run_breakPattern_eq]
  split_ifs with hd
  · exact run_oneOf_eq_none (h (accepted_lowOrDigit.mp hd))
  · rfl

/-! ### Boundaries -/

theorem capitalisedHead_cons :
    CapitalisedHead (c :: r) ↔ kindOf c = some .up ∧ nextKind r = some .low := by
  constructor
  · rintro ⟨_, _, heq, hup, hlow⟩
    cases heq
    exact ⟨hup, hlow⟩
  · rintro ⟨hup, hlow⟩
    exact ⟨c, r, rfl, hup, hlow⟩

theorem breaksBefore_iff :
    breaksBefore d r = true ↔ IsLowOrDigit d ∨ (d ≠ '\n' ∧ nextKind r = some .low) := by
  cases r <;> simp [breaksBefore, IsLowOrDigit, nextKind, kindOf_eq_some_iff]

/-- Where a character has a word boundary before it. -/
theorem boundary_iff : (c.isUpper && breaksBefore d r) = true ↔
    kindOf c = some .up ∧ (IsLowOrDigit d ∨ CapitalBehind d (c :: r)) := by
  rw [Bool.and_eq_true, breaksBefore_iff, CapitalBehind, capitalisedHead_cons,
    kindOf_eq_some_iff (k := .up)]
  tauto

/-- The characters `out` behind `d` are `cs` with underscores at word boundaries, where boundaries
behind small letters and digits may be passed over. -/
inductive Marked : Char → List Char → List Char → Prop where
  /-- Nothing is left. -/
  | nil {d : Char} : Marked d [] []
  /-- A character follows without an underscore. -/
  | kept {d c : Char} {r out : List Char} :
    ((c.isUpper && breaksBefore d r) = true → IsLowOrDigit d) → Marked c r out →
      Marked d (c :: r) (c :: out)
  /-- An underscore stands at a boundary. -/
  | broken {d c : Char} {r out : List Char} :
    (c.isUpper && breaksBefore d r) = true → Marked c r out → Marked d (c :: r) ('_' :: c :: out)

/-- Small letters have no boundary before them. -/
theorem marked_allOf (hw : AllOf .low w) (hd : w = [] → Marked d cs out)
    (h : ∀ e, kindOf e = some .low → Marked e cs out) : Marked d (w ++ cs) (w ++ out) := by
  induction w generalizing d with
  | nil => exact hd rfl
  | cons c w ih =>
    obtain ⟨hc, hw⟩ := List.forall_mem_cons.mp hw
    refine .kept (fun hbreak => ?_) (ih hw fun _ => h c hc)
    cases hc.symm.trans (boundary_iff.mp hbreak).1

/-- The first substitution marks boundaries, and passes over none but those behind a small letter or
a digit. -/
theorem exists_searched_capital (before : List Char) (c : Char) (r : List Char) :
    ∃ ps out, Searched capitalPattern before (c :: r) ps ∧
      ps.flatMap (Piece.replaced apart) = c :: out ∧ Marked c r out := by
  induction hlength : r.length using Nat.strongRecOn generalizing before c r with
  | ind n ih =>
    subst hlength
    by_cases hbehind : CapitalBehind c r
    · obtain ⟨hc, d, x, rfl, hd, hx⟩ := hbehind
      have hbreak : (d.isUpper && breaksBefore c x) = true :=
        boundary_iff.mpr ⟨hd, .inr ⟨hc, capitalisedHead_cons.mpr ⟨hd, hx⟩⟩⟩
      obtain ⟨w, r, rfl, hw, hr⟩ := exists_run .low x
      have hne : w ≠ [] := by
        rintro rfl
        exact hr hx
      -- The search goes on behind the small letters, which cannot end in a match again.
      have hrest : ∃ ps out, Searched capitalPattern (w.reverse ++ d :: c :: before) r ps ∧
          ps.flatMap (Piece.replaced apart) = out ∧
            ∀ e, kindOf e = some .low → Marked e r out := by
        cases r with
        | nil => exact ⟨[], [], .nil rfl, rfl, fun _ _ => .nil⟩
        | cons e r =>
          obtain ⟨ps, out, hps, hout, hmarked⟩ :=
            ih r.length (by simp; omega) (w.reverse ++ d :: c :: before) e r rfl
          exact ⟨ps, e :: out, hps, hout, fun _ he => .kept (fun _ => .inl he) hmarked⟩
      obtain ⟨ps, out, hps, rfl, hmarked⟩ := hrest
      have hrun : capitalPattern.run some ⟨before, c :: d :: w ++ r, []⟩ =
          some ⟨w.reverse ++ d :: c :: before, r, [(2, d :: w), (1, [c])]⟩ :=
        run_capitalPattern hc hd hne hw hr
      refine ⟨.found (c :: d :: w) [(2, d :: w), (1, [c])] :: ps, _,
        .found hrun rfl (List.cons_ne_nil _ _) hps, rfl, .broken hbreak ?_⟩
      exact marked_allOf hw (fun h => absurd h hne) hmarked
    · cases r with
      | nil =>
        exact ⟨[.kept c], [], .kept (run_capitalPattern_eq_none hbehind) (.nil rfl), rfl, .nil⟩
      | cons d r =>
        obtain ⟨ps, out, hps, hout, hmarked⟩ := ih r.length (by simp) (c :: before) d r rfl
        refine ⟨.kept c :: ps, d :: out, .kept (run_capitalPattern_eq_none hbehind) hps, ?_, ?_⟩
        · rw [List.flatMap_cons, hout]
          rfl
        · exact .kept (fun h => (boundary_iff.mp h).2.resolve_right hbehind) hmarked

/-- The second substitution marks the boundaries that were passed over. -/
theorem exists_searched_break (h : Marked d cs out) (before : List Char) :
    ∃ qs, Searched breakPattern before (d :: out) qs ∧
      qs.flatMap (Piece.replaced apart) = d :: separateFrom d cs := by
  induction h generalizing before with
  | nil => exact ⟨[_], .kept (run_breakPattern_eq_none fun _ => nofun) (.nil rfl), rfl⟩
  | @kept d c r out hkept _ ih =>
    obtain ⟨qs, hqs, hout⟩ := ih (d :: before)
    by_cases hmatch : IsLowOrDigit d ∧ kindOf c = some .up
    · obtain ⟨hd, hc⟩ := hmatch
      -- A capital that was taken begins no match.
      have hnone : ¬ IsLowOrDigit c := by
        rintro (hlow | hdigit)
        · cases hlow.symm.trans hc
        · cases hdigit.symm.trans hc
      obtain ⟨qs, rfl, htail⟩ := hqs.of_eq_none (run_breakPattern_eq_none fun h => absurd h hnone)
      refine ⟨.found [d, c] [(2, [c]), (1, [d])] :: qs,
        .found (run_breakPattern hd hc) rfl (List.cons_ne_nil _ _) htail, ?_⟩
      rw [separateFrom, if_pos (boundary_iff.mpr ⟨hc, .inl hd⟩), ← List.cons.inj hout |>.2]
      rfl
    · refine ⟨.kept d :: qs, .kept (run_breakPattern_eq_none fun hd hc => hmatch ⟨hd, hc⟩) hqs, ?_⟩
      rw [separateFrom, if_neg fun h => hmatch ⟨hkept h, (boundary_iff.mp h).1⟩, List.flatMap_cons,
        hout]
      rfl
  | @broken d c r out hbreak _ ih =>
    obtain ⟨qs, hqs, hout⟩ := ih ('_' :: d :: before)
    refine ⟨.kept d :: .kept '_' :: qs, .kept (run_breakPattern_eq_none fun _ => ?_)
      (.kept (run_breakPattern_eq_none ?_) hqs), ?_⟩
    · rw [nextKind]
      decide
    · rintro (h | h) <;> cases h
    · rw [separateFrom, if_pos hbreak, List.flatMap_cons, List.flatMap_cons, hout]
      rfl

/-- The two substitutions mark what one pass marks. -/
theorem separate_of_substitutions (cs : List Char) :
    ∃ ps qs, Searched capitalPattern [] cs ps ∧
      Searched breakPattern [] (ps.flatMap (Piece.replaced apart)) qs ∧
      qs.flatMap (Piece.replaced apart) = separate cs := by
  cases cs with
  | nil => exact ⟨[], [], .nil rfl, .nil rfl, rfl⟩
  | cons c r =>
    obtain ⟨ps, out, hps, hout, hmarked⟩ := exists_searched_capital [] c r
    obtain ⟨qs, hqs, hseparate⟩ := exists_searched_break hmarked []
    exact ⟨ps, qs, hps, hout ▸ hqs, hseparate⟩

/-- **Snake case is what two substitutions make of a name, in lower case.** In what is found of each
pattern an underscore is put between its two groups. -/
theorem snakeCase_of_substitutions (name : String) :
    ∃ ps qs, Searched capitalPattern [] name.toList ps ∧
      Searched breakPattern [] (ps.flatMap (Piece.replaced apart)) qs ∧
      snakeCase name = String.ofList (lowerChars (qs.flatMap (Piece.replaced apart))) := by
  obtain ⟨ps, qs, hps, hqs, hseparate⟩ := separate_of_substitutions name.toList
  exact ⟨ps, qs, hps, hqs, by rw [hseparate, snakeCase]⟩

end Bindery.Label

namespace Bindery.Label

open Bindery.Text Bindery.Pattern
open Bindery.Definition (isNameChar_of_mem_name)

variable {cs w : List Char} {c : Char} {k : Kind} {name : String}

/-- The text without its underscores. -/
def withoutUnderscores (s : String) : String :=
  String.ofList (s.toList.filter (· != '_'))

/-! ### Kinds -/

theorem kindOf_isSome (c : Char) : (kindOf c).isSome = c.isAlphanum := by
  rw [kindOf, Char.isAlphanum, Char.isAlpha]
  split_ifs <;> simp_all

/-- The characters of names that are no underscores are letters and digits. -/
theorem kindOf_isSome_of_isNameChar (h : isNameChar c = true) : (kindOf c).isSome = (c != '_') := by
  rw [kindOf_isSome]
  rw [isNameChar, Bool.or_eq_true, beq_iff_eq] at h
  rcases h with h | rfl
  · have hne : c ≠ '_' := by
      rintro rfl
      cases h
    rw [h, bne_iff_ne.mpr hne]
  · rfl

/-- A letter or a digit in upper case is a capital or a digit. -/
theorem toUpper_of_kindOf (h : kindOf c = some k) :
    c.toUpper.isUpper = true ∨ c.toUpper.isDigit = true := by
  have halphanum := isAlphanum_of_kindOf h
  rw [Char.isAlphanum, Bool.or_eq_true] at halphanum
  exact halphanum.imp (Char.isUpper_toUpper_eq_isAlpha c).trans
    (changesLetters_toUpper.isDigit c).trans

/-! ### Pascal case -/

theorem map_toLower_capitalise (hw : ∀ c ∈ w, (kindOf c).isSome = true) :
    (capitalise w).map Char.toLower = w.map Char.toLower := by
  cases w with
  | nil => rfl
  | cons c w =>
    obtain ⟨hc, hw⟩ := List.forall_mem_cons.mp hw
    obtain ⟨k, hk⟩ := Option.isSome_iff_exists.mp hc
    rw [capitalise_cons hk fun d hd => Option.isSome_iff_exists.mp (hw d hd), List.map_cons,
      List.map_cons, List.map_map, Char.toLower_toUpper_eq_toLower]
    refine congrArg (c.toLower :: ·) (List.map_congr_left fun d _ => ?_)
    exact Char.toLower_toLower_eq_toLower d

/-- Words that are capitalised keep their characters, but for case. -/
theorem map_toLower_flatMap_capitalise {ws : List (List Char)}
    (hws : ∀ c ∈ ws.flatten, (kindOf c).isSome = true) :
    (ws.flatMap capitalise).map Char.toLower = ws.flatten.map Char.toLower := by
  induction ws with
  | nil => rfl
  | cons w ws ih =>
    rw [List.flatten_cons, List.forall_mem_append] at hws
    rw [List.flatMap_cons, List.map_append, map_toLower_capitalise hws.1, ih hws.2,
      List.flatten_cons, List.map_append]

/-! ### Snake case -/

theorem filter_separateFrom (before : Char) (cs : List Char) :
    (separateFrom before cs).filter (· != '_') = cs.filter (· != '_') := by
  induction cs generalizing before with
  | nil => rfl
  | cons c r ih =>
    rw [separateFrom]
    split_ifs
    · rw [List.filter_cons_of_neg (by decide), List.filter_cons, List.filter_cons, ih]
    · rw [List.filter_cons, List.filter_cons, ih]

/-- Marking word boundaries adds nothing but underscores. -/
theorem filter_separate (cs : List Char) :
    (separate cs).filter (· != '_') = cs.filter (· != '_') := by
  cases cs with
  | nil => rfl
  | cons c r => rw [separate, List.filter_cons, List.filter_cons, filter_separateFrom]

/-! ### Both forms -/

theorem filter_map_toLower (cs : List Char) :
    (cs.map Char.toLower).filter (· != '_') = (cs.filter (· != '_')).map Char.toLower := by
  rw [List.filter_map]
  refine congrArg (List.map Char.toLower) (List.filter_congr fun c _ => ?_)
  rw [Bool.eq_iff_iff]
  simpa using (changesLetters_toLower.eq_underscore_iff c).not

/-- **Conversions lose no character.** For a name with a letter or a digit, the Pascal case form in
small letters and the snake case form without underscores are the name in small letters and without
underscores, and the Pascal case form begins with a capital or a digit. -/
theorem conversions_keep_characters (hname : isGraphQLName name = true)
    (hchar : ∃ c ∈ name.toList, c.isAlphanum = true) :
    lower (pascalCase name) = withoutUnderscores (lower name) ∧
    withoutUnderscores (snakeCase name) = withoutUnderscores (lower name) ∧
    ∃ c ∈ (pascalCase name).toList.head?, c.isUpper = true ∨ c.isDigit = true := by
  have hchars : ∀ c ∈ name.toList, isNameChar c = true := fun c hc => isNameChar_of_mem_name hname hc
  have hlower : lower name = String.ofList (name.toList.map Char.toLower) := by
    rw [lower, lowerChars_ascii fun c hc => ascii_of_isNameChar (hchars c hc)]
  have hplain : withoutUnderscores (lower name) =
      String.ofList ((name.toList.filter (· != '_')).map Char.toLower) := by
    rw [hlower, withoutUnderscores, String.toList_ofList, filter_map_toLower]
  obtain ⟨ps, hps, hwords, hpascal⟩ := pascalCase_of_words name
  have hflatten : (ps.filterMap matches?).flatten = name.toList.filter (· != '_') := by
    rw [hwords]
    exact List.filter_congr fun c hc => kindOf_isSome_of_isNameChar (hchars c hc)
  have hsome : ∀ c ∈ (ps.filterMap matches?).flatten, (kindOf c).isSome = true := by
    rw [hwords]
    exact fun c hc => (List.mem_filter.mp hc).2
  have hne : ps.filterMap matches? ≠ [] := by
    intro hnil
    obtain ⟨c, hc, halphanum⟩ := hchar
    rw [hnil, List.flatten_nil, eq_comm, List.filter_eq_nil_iff] at hwords
    exact hwords c hc ((kindOf_isSome c).trans halphanum)
  rw [if_neg hne] at hpascal
  refine ⟨?_, ?_, ?_⟩
  · have hascii : ∀ c ∈ (pascalCase name).toList, c.toNat < 0x80 := fun c hc =>
      ascii_of_isNameChar (isNameChar_pascalCase name c hc)
    rw [hplain, lower, lowerChars_ascii hascii, hpascal, map_toLower_flatMap_capitalise hsome,
      hflatten]
  · rw [hplain, withoutUnderscores, toList_snakeCase hchars, filter_map_toLower, filter_separate]
  · obtain ⟨w, ws, hcons⟩ := List.exists_cons_of_ne_nil hne
    obtain ⟨c, v, rfl⟩ := List.exists_cons_of_ne_nil (hps.ne_nil w (hcons ▸ List.mem_cons_self))
    rw [hcons, List.flatten_cons, List.cons_append, List.forall_mem_cons,
      List.forall_mem_append] at hsome
    obtain ⟨k, hk⟩ := Option.isSome_iff_exists.mp hsome.1
    refine ⟨c.toUpper, ?_, toUpper_of_kindOf hk⟩
    rw [hpascal, hcons, List.flatMap_cons,
      capitalise_cons hk fun d hd => Option.isSome_iff_exists.mp (hsome.2.1 d hd)]
    rfl

/-- The conversions of a name with an acronym, a number and separators. -/
theorem vitalSigns_keep_characters :
    lower (pascalCase "_CCCTrigger_2ndVITALSigns__x") =
      withoutUnderscores (lower "_CCCTrigger_2ndVITALSigns__x") ∧
    withoutUnderscores (snakeCase "_CCCTrigger_2ndVITALSigns__x") =
      withoutUnderscores (lower "_CCCTrigger_2ndVITALSigns__x") ∧
    ∃ c ∈ (pascalCase "_CCCTrigger_2ndVITALSigns__x").toList.head?,
      c.isUpper = true ∨ c.isDigit = true :=
  conversions_keep_characters (by decide +kernel) ⟨'T', by decide +kernel, by decide⟩

end Bindery.Label
