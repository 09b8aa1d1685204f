import Bindery.Pattern.Reader
import Bindery.Proofs.Label.Spelling
import Bindery.Proofs.Pattern.Search

/-!
# The words of a name

The words of a name are what a search for a pattern of four branches finds: capitals in front of a
capitalised word, small letters with perhaps one capital in front, capitals, and digits. The branches
are tried in this order and the repetitions give characters back, but of each run of letters or
digits the pattern takes all but perhaps the last capital. So the words can be found in one pass that
looks at the neighbours of a character only, and no letter or digit is left out or taken twice.

## What is proved

* `ofText?_wordText` — the pattern is what its text denotes.
* `run_of_word`, `exists_word` — the pattern matches a word wherever a letter or a digit stands.
* `pascalFrom_of_word` — one pass capitalises a word.
* `pascalCase_of_words` — Pascal case joins the words that the search finds, capitalised.
-/

namespace Bindery.Label

open Bindery.Text Bindery.Pattern

variable {w r cs before : List Char} {c d : Char} {k : Kind} {b : Option Kind}
  {groups : List (Nat × List Char)} {f : Follow} {q : Place}

/-! ### The pattern -/

/-- The text of the pattern of words. -/
def wordText : String :=
  "[A-Z]+(?=[A-Z][a-z])|[A-Z]?[a-z]+|[A-Z]+|[0-9]+"

/-- The characters of a kind as a range. -/
def kindItem : Kind → SetItem
  | .low => .range 97 122
  | .up => .range 65 90
  | .digit => .range 48 57

/-- The comparison that regards case. -/
def exactly : Comparison := ⟨false, false⟩

/-- A character of a kind. -/
def oneOf (k : Kind) : Node :=
  .one false [kindItem k] exactly

/-- Characters of a kind, as many as there are. -/
def someOf (k : Kind) : Node :=
  .many 1 none .most (oneOf k)

/-- A capital and a small letter come next. -/
def capitalisedNext : Node :=
  .look none false (.seq [oneOf .up, oneOf .low])

/-- Perhaps a capital. -/
def perhapsCapital : Node :=
  .many 0 (some 1) .most (oneOf .up)

/-- The pattern of words. -/
def wordPattern : Node :=
  .alt [.seq [someOf .up, capitalisedNext], .seq [perhapsCapital, someOf .low],
    .seq [someOf .up], .seq [someOf .digit]]

/-- The pattern is what its text denotes. -/
theorem ofText?_wordText : ofText? wordText = some wordPattern := by
  cbv

/-! ### Runs of one kind -/

/-- Are all characters of the kind? -/
def AllOf (k : Kind) (w : List Char) : Prop :=
  ∀ c ∈ w, kindOf c = some k

theorem kindOf_eq_some_iff : kindOf c = some k ↔
    match k with
    | .low => c.isLower = true
    | .up => c.isUpper = true
    | .digit => c.isDigit = true := by
  have hlower : c.isLower = true ↔ 97 ≤ c.toNat ∧ c.toNat ≤ 122 := by
    simp [Char.isLower, UInt32.le_iff_toNat_le]
  have hupper : c.isUpper = true ↔ 65 ≤ c.toNat ∧ c.toNat ≤ 90 := decide_eq_true_iff
  have hdigit : c.isDigit = true ↔ 48 ≤ c.toNat ∧ c.toNat ≤ 57 := by
    simp [Char.isDigit, UInt32.le_iff_toNat_le]
  rw [kindOf]
  split_ifs <;> cases k <;> simp_all <;> omega

theorem holds_kindItem : SetItem.holds false c (kindItem k) = true ↔ kindOf c = some k := by
  rw [kindOf_eq_some_iff]
  cases k <;> simp [kindItem, SetItem.holds, Char.isLower, Char.isUpper, Char.isDigit,
    UInt32.le_iff_toNat_le]

theorem accepted_kindItem : accepted [kindItem k] exactly c = true ↔ kindOf c = some k := by
  simp [accepted, setHolds, exactly, holds_kindItem]

theorem not_accepted_head (h : nextKind r ≠ some k) :
    ∀ c ∈ r.head?, accepted [kindItem k] exactly c = false := by
  intro c hc
  obtain ⟨r, rfl⟩ := List.head?_eq_some_iff.mp hc
  exact Bool.eq_false_iff.mpr fun hacc => h (accepted_kindItem.mp hacc)

/-- A text begins with a run of any kind, perhaps an empty one. -/
theorem exists_run (k : Kind) (cs : List Char) :
    ∃ w r, cs = w ++ r ∧ AllOf k w ∧ nextKind r ≠ some k := by
  induction cs with
  | nil => exact ⟨[], [], rfl, nofun, nofun⟩
  | cons c cs ih =>
    by_cases hc : kindOf c = some k
    · obtain ⟨w, r, rfl, hw, hr⟩ := ih
      exact ⟨c :: w, r, rfl, List.forall_mem_cons.mpr ⟨hc, hw⟩, hr⟩
    · exact ⟨[], c :: cs, rfl, nofun, hc⟩

theorem run_someOf (hne : w ≠ []) (hw : AllOf k w) (hr : nextKind r ≠ some k)
    (hf : f ⟨w.reverse ++ before, r, groups⟩ = some q) :
    (someOf k).run f ⟨before, w ++ r, groups⟩ = some q := by
  refine run_repeat_eq_some (u := []) ?_ (not_accepted_head hr) (List.length_pos_iff.mpr hne) hf ?_
  · intro c hc
    rw [List.append_nil] at hc
    exact accepted_kindItem.mpr (hw c hc)
  · intro v v' hv hne
    exact absurd (List.append_eq_nil_iff.mp hv.symm).1 hne

theorem run_someOf_eq_none (hcs : nextKind cs ≠ some k) :
    (someOf k).run f ⟨before, cs, groups⟩ = none :=
  run_repeat_eq_none (w := []) nofun (not_accepted_head hcs) fun v v' hv hle => by
    rw [(List.append_eq_nil_iff.mp hv.symm).1] at hle
    exact absurd hle (by decide)

/-! ### The branches -/

/-- The branches are tried in order. -/
theorem run_wordPattern (p : Place) :
    wordPattern.run some p =
      ((someOf .up).run (capitalisedNext.run some) p).or
        ((perhapsCapital.run ((someOf .low).run some) p).or
          (((someOf .up).run some p).or ((someOf .digit).run some p))) := by
  simp only [wordPattern, Node.run, runAlt, runSeq, Option.or_none]

theorem run_oneOf (hc : kindOf c = some k) :
    (oneOf k).run f ⟨before, c :: r, groups⟩ = f ⟨c :: before, r, groups⟩ := by
  rw [oneOf, run_one, stepping_cons_of_accepts (accepted_kindItem.mpr hc)]

theorem run_oneOf_eq_none (hcs : nextKind cs ≠ some k) :
    (oneOf k).run f ⟨before, cs, groups⟩ = none := by
  rw [oneOf, run_one, stepping_of_not_accepts (not_accepted_head hcs)]

theorem run_perhapsCapital (f : Follow) (p : Place) :
    perhapsCapital.run f p = ((oneOf .up).run f p).or (f p) := by
  rw [perhapsCapital, oneOf, run_option, run_one]

/-- Do a capital and a small letter come next? -/
def CapitalisedHead (cs : List Char) : Prop :=
  ∃ c r, cs = c :: r ∧ kindOf c = some .up ∧ nextKind r = some .low

theorem run_capitalisedNext_eq (p : Place) :
    capitalisedNext.run some p = ((oneOf .up).run ((oneOf .low).run some) p).bind fun q =>
      some { p with groups := q.groups } := by
  simp only [capitalisedNext, Node.run, runSeq]
  rfl

theorem not_capitalisedHead (h : nextKind cs ≠ some .up) : ¬ CapitalisedHead cs := by
  rintro ⟨c, r, rfl, hup, -⟩
  exact h hup

theorem run_capitalisedNext (h : CapitalisedHead cs) :
    capitalisedNext.run some ⟨before, cs, []⟩ = some ⟨before, cs, []⟩ := by
  obtain ⟨c, r, rfl, hc, hr⟩ := h
  cases r with
  | nil => cases hr
  | cons d r =>
    rw [run_capitalisedNext_eq, run_oneOf hc, run_oneOf hr]
    rfl

theorem run_capitalisedNext_eq_none (h : ¬ CapitalisedHead cs) :
    capitalisedNext.run some ⟨before, cs, []⟩ = none := by
  rw [run_capitalisedNext_eq]
  by_cases hup : nextKind cs = some .up
  · cases cs with
    | nil => cases hup
    | cons c r =>
      rw [run_oneOf hup, run_oneOf_eq_none fun hlow => h ⟨c, r, rfl, hup, hlow⟩]
      rfl
  · rw [run_oneOf_eq_none hup]
    rfl

/-- Capitals stand in front of a capitalised word, whose capital is not taken. -/
theorem run_acronym (hne : w ≠ []) (hw : AllOf .up w) (hc : kindOf c = some .up)
    (hd : kindOf d = some .low) :
    (someOf .up).run (capitalisedNext.run some) ⟨before, w ++ (c :: d :: r), []⟩ =
      some ⟨w.reverse ++ before, c :: d :: r, []⟩ := by
  refine run_repeat_eq_some (u := [c]) (r := d :: r) (fun e he => accepted_kindItem.mpr ?_)
    (not_accepted_head ?_) (List.length_pos_iff.mpr hne)
    (run_capitalisedNext ⟨c, d :: r, rfl, hc, hd⟩) ?_
  · rcases List.mem_append.mp he with he | he
    · exact hw e he
    · rwa [List.mem_singleton.mp he]
  · rw [nextKind, hd]
    decide
  · intro v v' hv hne
    obtain ⟨rfl, rfl⟩ : v = [c] ∧ v' = [] := by
      rcases List.singleton_eq_append_iff.mp hv with ⟨rfl, -⟩ | hv
      · exact absurd rfl hne
      · exact hv
    refine run_capitalisedNext_eq_none ?_
    rintro ⟨_, _, heq, hup, -⟩
    cases heq
    rw [hd] at hup
    cases hup

/-- No capitals stand in front of a capitalised word where a run of capitals is no longer than one
or has no small letter behind it. -/
theorem run_acronym_eq_none (hw : AllOf .up w) (hr : nextKind r ≠ some .up)
    (hlow : nextKind r = some .low → w.length ≤ 1) :
    (someOf .up).run (capitalisedNext.run some) ⟨before, w ++ r, []⟩ = none := by
  refine run_repeat_eq_none (fun c hc => accepted_kindItem.mpr (hw c hc)) (not_accepted_head hr) ?_
  rintro v v' rfl hle
  refine run_capitalisedNext_eq_none ?_
  rintro ⟨c, x, heq, hup, hnext⟩
  -- The capital and the small letter cannot both stand behind the capitals that are taken.
  cases v' with
  | nil =>
    rw [List.nil_append] at heq
    rw [heq] at hr
    exact hr hup
  | cons e v' =>
    obtain ⟨rfl, rfl⟩ := List.cons.inj heq
    cases v' with
    | nil =>
      have hlength := hlow hnext
      rw [List.length_append, List.length_singleton] at hlength
      omega
    | cons d v' =>
      have hd : kindOf d = some .up := hw d (by simp)
      exact absurd (hd.symm.trans hnext) (by decide)

theorem run_acronym_eq_none_of_head (h : nextKind cs ≠ some .up) :
    (someOf .up).run (capitalisedNext.run some) ⟨before, cs, []⟩ = none :=
  run_acronym_eq_none (w := []) nofun h fun _ => Nat.zero_le 1

/-- There is no word of small letters where they stand neither in front nor behind a capital. -/
theorem run_lower_eq_none (hlow : nextKind cs ≠ some .low) (hcap : ¬ CapitalisedHead cs) :
    perhapsCapital.run ((someOf .low).run some) ⟨before, cs, []⟩ = none := by
  rw [run_perhapsCapital, run_someOf_eq_none hlow, Option.or_none]
  by_cases hup : nextKind cs = some .up
  · cases cs with
    | nil => cases hup
    | cons c r =>
      rw [run_oneOf hup, run_someOf_eq_none fun hnext => hcap ⟨c, r, rfl, hup, hnext⟩]
  · exact run_oneOf_eq_none hup

/-! ### Words -/

/-- The characters `w` are a word in front of `r`. -/
inductive IsWord : List Char → List Char → Prop where
  /-- Capitals in front of a capitalised word. -/
  | acronym {w r : List Char} {c d : Char} : w ≠ [] → AllOf .up w → kindOf c = some .up →
    kindOf d = some .low → IsWord w (c :: d :: r)
  /-- Small letters. -/
  | lower {w r : List Char} : w ≠ [] → AllOf .low w → nextKind r ≠ some .low → IsWord w r
  /-- A capital and small letters. -/
  | capitalised {w r : List Char} {c : Char} : kindOf c = some .up → w ≠ [] → AllOf .low w →
    nextKind r ≠ some .low → IsWord (c :: w) r
  /-- Capitals in front of no letter. -/
  | upper {w r : List Char} : w ≠ [] → AllOf .up w → nextKind r ≠ some .up →
    nextKind r ≠ some .low → IsWord w r
  /-- Digits. -/
  | number {w r : List Char} : w ≠ [] → AllOf .digit w → nextKind r ≠ some .digit → IsWord w r

theorem nextKind_append (hne : w ≠ []) (hw : AllOf k w) : nextKind (w ++ r) = some k := by
  cases w with
  | nil => exact absurd rfl hne
  | cons c w => exact hw c List.mem_cons_self

/-- The pattern matches a word. -/
theorem run_of_word (h : IsWord w r) :
    wordPattern.run some ⟨before, w ++ r, []⟩ = some ⟨w.reverse ++ before, r, []⟩ := by
  rw [run_wordPattern]
  cases h with
  | acronym hne hw hc hd =>
    rw [run_acronym hne hw hc hd, Option.some_or]
  | lower hne hw hr =>
    have hkind := nextKind_append (r := r) hne hw
    rw [run_acronym_eq_none_of_head (by simp [hkind]), Option.none_or, run_perhapsCapital,
      run_oneOf_eq_none (by simp [hkind]), Option.none_or, run_someOf hne hw hr rfl, Option.some_or]
  | @capitalised w _ c hc hne hw hr =>
    have hkind := nextKind_append (r := r) hne hw
    have hfirst : (someOf .up).run (capitalisedNext.run some) ⟨before, c :: (w ++ r), []⟩ = none :=
      run_acronym_eq_none (w := [c]) (by simpa [AllOf]) (by simp [hkind]) fun _ => Nat.le_refl 1
    rw [List.cons_append, hfirst, Option.none_or, run_perhapsCapital, run_oneOf hc,
      run_someOf hne hw hr rfl, Option.some_or, Option.some_or, List.reverse_cons, List.append_assoc,
      List.singleton_append]
  | upper hne hw hup hlow =>
    have hkind := nextKind_append (r := r) hne hw
    rw [run_acronym_eq_none hw hup fun h => absurd h hlow, Option.none_or,
      run_lower_eq_none (by simp [hkind]), Option.none_or, run_someOf hne hw hup rfl, Option.some_or]
    -- Behind the first capital stands another one, or what stands behind the word.
    rintro ⟨c, x, heq, -, hnext⟩
    cases w with
    | nil => exact hne rfl
    | cons c w =>
      obtain ⟨rfl, rfl⟩ := List.cons.inj heq
      cases w with
      | nil => exact hlow hnext
      | cons d w =>
        have hd : kindOf d = some .up := hw d (by simp)
        exact absurd (hd.symm.trans hnext) (by decide)
  | number hne hw hr =>
    have hkind := nextKind_append (r := r) hne hw
    rw [run_acronym_eq_none_of_head (by simp [hkind]), Option.none_or,
      run_lower_eq_none (by simp [hkind]) (not_capitalisedHead (by simp [hkind])), Option.none_or,
      run_someOf_eq_none (by simp [hkind]), Option.none_or, run_someOf hne hw hr rfl]

/-- The pattern matches nowhere but at a letter or a digit. -/
theorem run_wordPattern_eq_none (h : nextKind cs = none) :
    wordPattern.run some ⟨before, cs, []⟩ = none := by
  rw [run_wordPattern, run_someOf_eq_none (by simp [h]), run_someOf_eq_none (by simp [h]),
    run_someOf_eq_none (by simp [h]),
    run_lower_eq_none (by simp [h]) (not_capitalisedHead (by simp [h]))]
  rfl

/-- Wherever a letter or a digit stands, there is a word. -/
theorem exists_word (h : nextKind cs = some k) : ∃ w r, cs = w ++ r ∧ IsWord w r := by
  obtain ⟨w, r, rfl, hw, hr⟩ := exists_run k cs
  have hne : w ≠ [] := by
    rintro rfl
    exact hr h
  cases k with
  | low => exact ⟨w, r, rfl, .lower hne hw hr⟩
  | digit => exact ⟨w, r, rfl, .number hne hw hr⟩
  | up =>
    by_cases hlow : nextKind r = some .low
    · -- The last capital belongs to the small letters behind it.
      obtain ⟨v, c, rfl⟩ := List.eq_nil_or_concat w |>.resolve_left hne
      rw [List.concat_eq_append] at hw ⊢
      have hc : kindOf c = some .up := hw c (by simp)
      cases v with
      | nil =>
        obtain ⟨w, r, rfl, hw', hr'⟩ := exists_run .low r
        refine ⟨c :: w, r, rfl, .capitalised hc ?_ hw' hr'⟩
        rintro rfl
        exact hr' hlow
      | cons e v =>
        cases r with
        | nil => cases hlow
        | cons d r =>
          refine ⟨e :: v, c :: d :: r, by simp, .acronym (List.cons_ne_nil e v) ?_ hc hlow⟩
          exact fun x hx => hw x (List.mem_append_left _ hx)
    · exact ⟨w, r, rfl, .upper hne hw hr hlow⟩

/-! ### One pass -/

/-- A word with its first character in upper case and the others in lower case. -/
def capitalise : List Char → List Char
  | [] => []
  | c :: r => upperChars [c] ++ lowerChars r

/-- Behind a character of kind `b` the next letter or digit begins a word. -/
def BeginsWord (b : Option Kind) (cs : List Char) : Prop :=
  ∀ c r k, cs = c :: r → kindOf c = some k → startsWord b k (nextKind r) = true

theorem beginsWord_none : BeginsWord none cs := by
  intro _ _ k _ _
  cases k <;> rfl

/-- Behind characters of a kind a word begins, unless more of them follow or the characters are
capitals and small letters follow. -/
theorem beginsWord_of_nextKind (hnext : nextKind r ≠ some k)
    (hlow : k = .up → nextKind r ≠ some .low) : BeginsWord (some k) r := by
  rintro c r k' rfl hk
  have hne : k' ≠ k := by
    rintro rfl
    exact hnext hk
  cases k with
  | low => cases k' <;> first | rfl | exact absurd rfl hne
  | digit => cases k' <;> first | rfl | exact absurd rfl hne
  | up =>
    cases k' with
    | low => exact absurd hk (hlow rfl)
    | up => exact absurd rfl hne
    | digit => rfl

theorem ascii_of_kindOf (h : kindOf c = some k) : c.toNat < 0x80 :=
  ascii_of_isAlphanum (isAlphanum_of_kindOf h)

theorem capitalise_cons (hc : kindOf c = some k) (hw : ∀ d ∈ w, ∃ k, kindOf d = some k) :
    capitalise (c :: w) = c.toUpper :: w.map Char.toLower := by
  have hascii : ∀ d ∈ w, d.toNat < 0x80 := fun d hd => by
    obtain ⟨k, hk⟩ := hw d hd
    exact ascii_of_kindOf hk
  rw [capitalise, lowerChars_ascii hascii, upperChars_ascii (by simpa using ascii_of_kindOf hc)]
  rfl

theorem pascalFrom_cons (hc : kindOf c = some k) :
    pascalFrom b (c :: r) =
      (if startsWord b k (nextKind r) then c.toUpper else c.toLower) :: pascalFrom (some k) r := by
  rw [pascalFrom, hc]

/-- A word goes on through characters of its kind, of capitals those with no small letter behind. -/
theorem pascalFrom_allOf (hw : AllOf k w) (hlow : k = .up → nextKind r ≠ some .low) :
    pascalFrom (some k) (w ++ r) = w.map Char.toLower ++ pascalFrom (some k) r := by
  induction w with
  | nil => rfl
  | cons c w ih =>
    obtain ⟨hc, hw⟩ := List.forall_mem_cons.mp hw
    have hstarts : startsWord (some k) k (nextKind (w ++ r)) = false := by
      cases k with
      | low => rfl
      | digit => rfl
      | up =>
        cases w with
        | nil => simpa [startsWord] using hlow rfl
        | cons d w =>
          have hd : nextKind (d :: w ++ r) = some .up := hw d List.mem_cons_self
          rw [hd]
          rfl
    rw [List.cons_append, pascalFrom_cons hc, hstarts, ih hw]
    rfl

/-- The pass capitalises characters of one kind, of capitals those with no small letter behind. -/
theorem pascalFrom_of_allOf (hb : BeginsWord b (w ++ r)) (hne : w ≠ []) (hw : AllOf k w)
    (hlow : k = .up → nextKind r ≠ some .low) :
    pascalFrom b (w ++ r) = capitalise w ++ pascalFrom (some k) r := by
  obtain ⟨c, w, rfl⟩ := List.exists_cons_of_ne_nil hne
  obtain ⟨hc, hw⟩ := List.forall_mem_cons.mp hw
  rw [List.cons_append, pascalFrom_cons hc, hb c (w ++ r) k rfl hc, pascalFrom_allOf hw hlow,
    capitalise_cons hc fun d hd => ⟨k, hw d hd⟩]
  rfl

/-- The pass capitalises a word, and a word begins behind it. -/
theorem pascalFrom_of_word (h : IsWord w r) (hb : BeginsWord b (w ++ r)) :
    ∃ b', pascalFrom b (w ++ r) = capitalise w ++ pascalFrom b' r ∧ BeginsWord b' r := by
  cases h with
  | @acronym _ r c d hne hw hc hd =>
    have hlow : nextKind (c :: d :: r) ≠ some .low := by
      rw [nextKind, hc]
      decide
    refine ⟨some .up, pascalFrom_of_allOf hb hne hw fun _ => hlow, ?_⟩
    -- A capital follows capitals here: it begins a word since a small letter follows it.
    rintro _ _ k heq hk
    cases heq
    rw [nextKind, hd]
    cases hc.symm.trans hk
    rfl
  | lower hne hw hr =>
    exact ⟨some .low, pascalFrom_of_allOf hb hne hw nofun, beginsWord_of_nextKind hr nofun⟩
  | @capitalised w _ c hc hne hw hr =>
    refine ⟨some .low, ?_, beginsWord_of_nextKind hr nofun⟩
    obtain ⟨d, w, rfl⟩ := List.exists_cons_of_ne_nil hne
    have hd : kindOf d = some .low := hw d List.mem_cons_self
    rw [List.cons_append, pascalFrom_cons hc, hb c (d :: w ++ r) .up rfl hc, List.cons_append,
      pascalFrom_cons hd, pascalFrom_allOf (List.forall_mem_cons.mp hw).2 nofun,
      capitalise_cons hc fun e he => ⟨.low, hw e he⟩]
    rfl
  | upper hne hw hup hlow =>
    exact ⟨some .up, pascalFrom_of_allOf hb hne hw fun _ => hlow,
      beginsWord_of_nextKind hup fun _ => hlow⟩
  | number hne hw hr =>
    exact ⟨some .digit, pascalFrom_of_allOf hb hne hw nofun, beginsWord_of_nextKind hr nofun⟩

/-! ### The search -/

theorem IsWord.ne_nil (h : IsWord w r) : w ≠ [] := by
  cases h with
  | capitalised => exact List.cons_ne_nil _ _
  | _ => assumption

theorem IsWord.kindOf_isSome (h : IsWord w r) : ∀ c ∈ w, (kindOf c).isSome = true := by
  have hall : ∀ {k : Kind} {v : List Char}, AllOf k v → ∀ c ∈ v, (kindOf c).isSome = true :=
    fun hv c hc => by rw [hv c hc]; rfl
  cases h with
  | acronym _ hw => exact hall hw
  | lower _ hw => exact hall hw
  | capitalised hc _ hw => exact List.forall_mem_cons.mpr ⟨by rw [hc]; rfl, hall hw⟩
  | upper _ hw => exact hall hw
  | number _ hw => exact hall hw

/-- The search finds words that together are the letters and the digits of the text, and the pass
capitalises them. -/
theorem exists_searched (before : List Char) (hb : BeginsWord b cs) :
    ∃ ps, Searched wordPattern before cs ps ∧
      (ps.filterMap matches?).flatten = cs.filter (fun c => (kindOf c).isSome) ∧
      pascalFrom b cs = (ps.filterMap matches?).flatMap capitalise := by
  induction hlength : cs.length using Nat.strongRecOn generalizing cs before b with
  | ind n ih =>
    subst hlength
    cases hkind : nextKind cs with
    | none =>
      cases cs with
      | nil => exact ⟨[], .nil (run_wordPattern_eq_none rfl), rfl, rfl⟩
      | cons c r =>
        have hnext : BeginsWord none r := beginsWord_none
        have hc : kindOf c = none := hkind
        obtain ⟨ps, hps, hall, hpass⟩ := ih r.length (by simp) (c :: before) hnext rfl
        refine ⟨.kept c :: ps, .kept (run_wordPattern_eq_none hkind) hps, ?_, ?_⟩
        · rw [List.filter_cons_of_neg (by rw [hc]; decide)]
          exact hall
        · rw [pascalFrom, hc]
          exact hpass
    | some k =>
      obtain ⟨w, r, rfl, hword⟩ := exists_word hkind
      have hlt : r.length < (w ++ r).length := by
        rw [List.length_append]
        exact Nat.lt_add_of_pos_left (List.length_pos_iff.mpr hword.ne_nil)
      obtain ⟨b', hpass, hb'⟩ := pascalFrom_of_word hword hb
      obtain ⟨ps, hps, hall, hrest⟩ := ih r.length hlt (w.reverse ++ before) hb' rfl
      refine ⟨.found w [] :: ps, .found (run_of_word hword) rfl hword.ne_nil hps, ?_, ?_⟩
      · rw [List.filter_append, List.filter_eq_self.mpr hword.kindOf_isSome, ← hall]
        rfl
      · rw [hpass, hrest]
        rfl

/-- **Pascal case joins the words of a name, each capitalised.** The words are what a search for the
pattern finds in the name, and together they are its letters and its digits; where there is no word,
the underscores remain. -/
theorem pascalCase_of_words (name : String) :
    ∃ ps, Searched wordPattern [] name.toList ps ∧
      (ps.filterMap matches?).flatten = name.toList.filter (fun c => (kindOf c).isSome) ∧
      (pascalCase name).toList =
        if ps.filterMap matches? = [] then name.toList.filter (· == '_')
        else (ps.filterMap matches?).flatMap capitalise := by
  have hb : BeginsWord none name.toList := beginsWord_none
  obtain ⟨ps, hps, hall, hpass⟩ := exists_searched [] hb
  refine ⟨ps, hps, hall, ?_⟩
  rw [pascalCase, String.toList_ofList, pascalChars, hpass]
  by_cases hwords : ps.filterMap matches? = []
  · rw [hwords, List.flatten_nil] at hall
    rw [if_neg, if_pos hwords]
    simpa [List.filter_eq_nil_iff] using hall.symm
  · rw [if_pos, if_neg hwords]
    obtain ⟨w, ws, hcons⟩ := List.exists_cons_of_ne_nil hwords
    obtain ⟨c, v, rfl⟩ := List.exists_cons_of_ne_nil (hps.ne_nil w (hcons ▸ List.mem_cons_self))
    have hc : c ∈ name.toList.filter fun c => (kindOf c).isSome := by
      rw [← hall, hcons]
      simp
    obtain ⟨hmem, hsome⟩ := List.mem_filter.mp hc
    exact List.any_eq_true.mpr ⟨c, hmem, hsome⟩

end Bindery.Label
