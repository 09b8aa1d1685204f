import Bindery.Proofs.Literal.Denotes

/-!
# The keys of a mapping

The keys of a mapping are written without quotes, and a key is refused only where a blank stands in
it. Proved here: what is read as the key of an object is a name, so a mapping whose values stand for
literals is read back exactly where its keys are names.

## What is proved

* `isGraphQLName_of_mem_tokens?` — the names among the tokens of a text are names.
* `keys_of_literalOf?` — the keys of an object that a text is read as are names.
* `mapping_reads_back_iff` — a mapping is refused for its first key with a blank, and is else read
  back as the object of its entries exactly where every key is a name.
-/

namespace Bindery.Definition

open Bindery.Text

/-! ### Names among tokens -/

theorem readNumber_ne_name {cs r : List Char} {n : String} :
    readNumber cs ≠ some (.name n, r) := by
  intro h
  unfold readNumber at h
  simp only [Option.bind_eq_bind, Option.bind_eq_some_iff] at h
  obtain ⟨_, _, _, _, _, _, h⟩ := h
  split at h
  · cases h
  · split at h <;> cases h

theorem isGraphQLName_of_readToken {cs r : List Char} {n : String}
    (h : readToken cs = some (.name n, r)) : isGraphQLName n = true := by
  unfold readToken at h
  split at h
  · cases h
  · cases h
  · simp only [Option.bind_eq_bind, Option.bind_eq_some_iff] at h
    obtain ⟨_, _, h⟩ := h
    cases h
  · simp only [Option.bind_eq_bind, Option.bind_eq_some_iff] at h
    obtain ⟨_, _, h⟩ := h
    cases h
  · rename_i c r₀ _ _ _
    split at h
    · cases h
    · split at h
      · rename_i hc
        cases h
        simp [isGraphQLName, isGraphQLNameChars, hc]
      · split at h
        · exact absurd h readNumber_ne_name
        · cases h

/-- The names among the tokens of a text are names. -/
theorem isGraphQLName_of_mem_tokens? {cs : List Char} {ts : List Token} (h : tokens? cs = some ts)
    {n : String} (hn : .name n ∈ ts) : isGraphQLName n = true := by
  rw [tokens?] at h
  generalize cs.length + 1 = fuel at h
  induction fuel generalizing cs ts with
  | zero =>
    cases cs with
    | nil => cases h; cases hn
    | cons => cases h
  | succ fuel ih =>
    cases cs with
    | nil => cases h; cases hn
    | cons c r =>
      unfold tokensWith at h
      split at h
      · exact ih hn h
      · split at h
        · exact ih hn h
        · simp only [Option.bind_eq_bind, Option.bind_eq_some_iff] at h
          obtain ⟨⟨t, r'⟩, ht, ts', hts, h⟩ := h
          cases h
          rcases List.mem_cons.mp hn with rfl | hn
          · exact isGraphQLName_of_readToken ht
          · exact ih hn hts

/-! ### Keys of what is read -/

section Readers

variable {constant : Bool} {fuel : Nat} {ts rest : List Token}

theorem eq_of_accept {t : Token} {b : Bool} (h : accept t ts = some (b, rest)) :
    (b = true ∧ ts = t :: rest) ∨ (b = false ∧ rest = ts) := by
  cases ts with
  | nil => cases h; exact Or.inr ⟨rfl, rfl⟩
  | cons x r =>
    by_cases hx : x = t
    · subst hx
      rw [accept_self] at h
      cases h
      exact Or.inl ⟨rfl, rfl⟩
    · rw [accept_other _ (by simpa using hx)] at h
      cases h
      exact Or.inr ⟨rfl, rfl⟩

theorem eq_of_expect {t : Token} {u : Unit} (h : expect t ts = some (u, rest)) :
    ts = t :: rest := by
  cases ts with
  | nil => cases h
  | cons x r =>
    simp only [expect] at h
    split at h
    · rename_i hx
      cases h
      rw [beq_iff_eq.mp hx]
    · cases h

theorem eq_of_readName {n : String} (h : readName ts = some (n, rest)) :
    ts = .name n :: rest := by
  unfold readName at h
  split at h
  · cases h; rfl
  · cases h

/-- What a reader in front of another has read, and what the other reads behind it. -/
theorem Reader.exists_of_bind {α β : Type} {x : Reader α} {f : α → Reader β} {b : β}
    (h : (x >>= f) ts = some (b, rest)) : ∃ a us, x ts = some (a, us) ∧ f a us = some (b, rest) := by
  rw [Reader.bind_apply, Option.bind_eq_some_iff] at h
  obtain ⟨⟨a, us⟩, hx, hf⟩ := h
  exact ⟨a, us, hx, hf⟩

/-- The items of a list: a closing bracket, or an item and the other items. -/
theorem cases_of_readItems {xs : List Literal}
    (h : readItems constant (fuel + 1) ts = some (xs, rest)) :
    ts = .sign ']' :: rest ∨ ∃ x us ys, readLiteral constant fuel ts = some (x, us) ∧
      readItems constant fuel us = some (ys, rest) := by
  rw [readItems] at h
  obtain ⟨b, us, hb, hread⟩ := Reader.exists_of_bind h
  rcases eq_of_accept hb with ⟨rfl, rfl⟩ | ⟨rfl, rfl⟩
  · cases hread
    exact Or.inl rfl
  · rw [if_neg (by simp)] at hread
    obtain ⟨x, us', hx, hread⟩ := Reader.exists_of_bind hread
    obtain ⟨ys, us'', hys, hread⟩ := Reader.exists_of_bind hread
    cases hread
    exact Or.inr ⟨x, us', ys, hx, hys⟩

/-- The fields of an object: a closing brace, or a field under a name and the other fields. -/
theorem cases_of_readFields {fs : List (String × Literal)}
    (h : readFields constant (fuel + 1) ts = some (fs, rest)) :
    (fs = [] ∧ ts = .sign '}' :: rest) ∨ ∃ n us x us' gs, ts = .name n :: .sign ':' :: us ∧
      readLiteral constant fuel us = some (x, us') ∧
      readFields constant fuel us' = some (gs, rest) ∧ fs = (n, x) :: gs := by
  rw [readFields] at h
  obtain ⟨b, us, hb, hread⟩ := Reader.exists_of_bind h
  rcases eq_of_accept hb with ⟨rfl, rfl⟩ | ⟨rfl, rfl⟩
  · cases hread
    exact Or.inl ⟨rfl, rfl⟩
  · rw [if_neg (by simp)] at hread
    obtain ⟨n, us₁, hn, hread⟩ := Reader.exists_of_bind hread
    obtain ⟨u, us₂, hu, hread⟩ := Reader.exists_of_bind hread
    obtain ⟨x, us₃, hx, hread⟩ := Reader.exists_of_bind hread
    obtain ⟨gs, us₄, hgs, hread⟩ := Reader.exists_of_bind hread
    cases hread
    refine Or.inr ⟨n, us₂, x, us₃, gs, ?_, hx, hgs, rfl⟩
    rw [eq_of_readName hn, eq_of_expect hu]

/-- The readers of literals leave a part of the tokens at the end. -/
theorem suffix_of_readers (constant : Bool) (fuel : Nat) :
    (∀ ts x rest, readLiteral constant fuel ts = some (x, rest) → rest <:+ ts) ∧
    (∀ ts xs rest, readItems constant fuel ts = some (xs, rest) → rest <:+ ts) ∧
    (∀ ts fs rest, readFields constant fuel ts = some (fs, rest) → rest <:+ ts) := by
  induction fuel with
  | zero => refine ⟨?_, ?_, ?_⟩ <;> · intro _ _ _ h; cases h
  | succ fuel ih =>
    obtain ⟨ihLiteral, ihItems, ihFields⟩ := ih
    refine ⟨fun ts x rest h => ?_, fun ts xs rest h => ?_, fun ts fs rest h => ?_⟩
    · rw [readLiteral] at h
      dsimp only at h
      split at h
      · obtain ⟨⟨xs, us⟩, hxs, h⟩ := Option.map_eq_some_iff.mp h
        cases h
        exact (ihItems _ _ _ hxs).trans (List.suffix_cons _ _)
      · obtain ⟨⟨fs, us⟩, hfs, h⟩ := Option.map_eq_some_iff.mp h
        cases h
        exact (ihFields _ _ _ hfs).trans (List.suffix_cons _ _)
      all_goals try (cases h; exact List.suffix_cons _ _)
      · split at h
        · cases h
        · cases h
          exact (List.suffix_cons _ _).trans (List.suffix_cons _ _)
      · cases h
    · rcases cases_of_readItems h with rfl | ⟨x, us, ys, hx, hys⟩
      · exact List.suffix_cons _ _
      · exact (ihItems _ _ _ hys).trans (ihLiteral _ _ _ hx)
    · rcases cases_of_readFields h with ⟨-, rfl⟩ | ⟨n, us, x, us', gs, rfl, hx, hgs, -⟩
      · exact List.suffix_cons _ _
      · have := (ihFields _ _ _ hgs).trans (ihLiteral _ _ _ hx)
        exact this.trans ((List.suffix_cons _ _).trans (List.suffix_cons _ _))

/-- The keys of the fields are names among the tokens. -/
theorem mem_of_readFields {fs : List (String × Literal)}
    (h : readFields constant fuel ts = some (fs, rest)) {k : String} (hk : k ∈ fs.map Prod.fst) :
    .name k ∈ ts := by
  induction fuel generalizing ts fs with
  | zero => cases h
  | succ fuel ih =>
    rcases cases_of_readFields h with ⟨rfl, -⟩ | ⟨n, us, x, us', gs, rfl, hx, hgs, rfl⟩
    · cases hk
    · rw [List.map_cons] at hk
      rcases List.mem_cons.mp hk with rfl | hk
      · exact List.mem_cons_self ..
      · have hsuffix := (suffix_of_readers constant fuel).1 _ _ _ hx
        exact List.mem_cons_of_mem _ (List.mem_cons_of_mem _ (hsuffix.mem (ih hgs hk)))

end Readers

end Bindery.Definition

namespace Bindery.Query

open Bindery.Definition (Token tokens? isGraphQLName_of_mem_tokens? mem_of_readFields itemVariables
  fieldVariables)
open Bindery.Text

/-- The keys of an object that a text is read as are names. -/
theorem keys_of_literalOf? {s : String} {fs : List (String × Definition.Literal)}
    (h : literalOf? s = some (.object fs)) : ∀ k ∈ fs.map Prod.fst, isGraphQLName k = true := by
  intro k hk
  simp only [literalOf?, Option.bind_eq_bind, Option.bind_eq_some_iff] at h
  obtain ⟨ts, hts, ⟨y, rest⟩, hread, h⟩ := h
  split at h
  · cases h
    refine isGraphQLName_of_mem_tokens? hts ?_
    rw [Definition.readValue, Definition.Reader.bind_apply] at hread
    have hliteral : Definition.readLiteral false (ts.length + 1) ts = some (.object fs, rest) :=
      hread
    rw [Definition.readLiteral] at hliteral
    dsimp only at hliteral
    split at hliteral
    · obtain ⟨p, _, hp⟩ := Option.map_eq_some_iff.mp hliteral
      cases hp
    · obtain ⟨⟨gs, us⟩, hgs, hp⟩ := Option.map_eq_some_iff.mp hliteral
      cases hp
      exact List.mem_cons_of_mem _ (mem_of_readFields hgs hk)
    all_goals cases hliteral
  · cases h

/-! ### Mappings -/

/-- The texts of the keys of a mapping. -/
def keyTexts (es : List (Value × Value)) : List String :=
  es.map fun e => e.1.plain

/-- Does a blank stand in the key? -/
def hasBlank (key : String) : Bool :=
  key.toList.any isBlank

/-- Each value of the entries stands for the literal at its place, and the variables in that have
names. -/
def ValuesStandFor (es : List (Value × Value)) (ys : List Definition.Literal) : Prop :=
  List.Forall₂ (fun e y => Denotes none e.2 y ∧ ∀ n ∈ y.variables, isGraphQLName n = true) es ys

variable {es : List (Value × Value)} {ys : List Definition.Literal}

theorem literalEntries_cons {v : Value} {x : Literal} (hx : v.literal none = .ok x) (k : Value)
    (es : List (Value × Value)) : literalEntries ((k, v) :: es) =
      if hasBlank k.plain then .error (.blankInKey k.plain)
      else (literalEntries es).map fun xs => (k.plain, x) :: xs := by
  rw [literalEntries, hx, hasBlank]
  cases literalEntries es <;> rfl

/-- The first key in which a blank stands is refused. -/
theorem ValuesStandFor.literalEntries_error (h : ValuesStandFor es ys) {key : String}
    (hk : (keyTexts es).find? hasBlank = some key) :
    literalEntries es = .error (.blankInKey key) := by
  induction h with
  | nil => cases hk
  | @cons e y es ys he hes ih =>
    obtain ⟨k, v⟩ := e
    obtain ⟨x, hx, -⟩ := he.1.literal
    rw [literalEntries_cons hx]
    rw [show keyTexts ((k, v) :: es) = k.plain :: keyTexts es from rfl, List.find?_cons] at hk
    by_cases hb : hasBlank k.plain = true
    · rw [hb] at hk ⊢
      cases hk
      rfl
    · rw [Bool.not_eq_true] at hb
      rw [hb] at hk ⊢
      rw [ih hk]
      rfl

/-- Where no blank stands in a key, the entries have a literal. -/
theorem ValuesStandFor.literalEntries_ok (h : ValuesStandFor es ys)
    (hk : (keyTexts es).find? hasBlank = none) : ∃ xs, literalEntries es = .ok xs := by
  induction h with
  | nil => exact ⟨[], rfl⟩
  | @cons e y es ys he hes ih =>
    obtain ⟨k, v⟩ := e
    obtain ⟨x, hx, -⟩ := he.1.literal
    rw [List.find?_eq_none] at hk
    have hb : hasBlank k.plain = false := by
      simpa using hk k.plain (List.mem_cons_self ..)
    obtain ⟨xs, hxs⟩ := ih (List.find?_eq_none.mpr fun k hm => hk k (List.mem_cons_of_mem _ hm))
    rw [literalEntries_cons hx, hb, hxs]
    exact ⟨_, rfl⟩

theorem ValuesStandFor.denoteEntries (h : ValuesStandFor es ys)
    (hk : ∀ k ∈ keyTexts es, isGraphQLName k = true) :
    DenoteEntries es ((keyTexts es).zip ys) := by
  induction h with
  | nil => exact .nil
  | @cons e y es ys he _ ih =>
    have := ih fun k hm => hk k (List.mem_cons_of_mem _ hm)
    exact .cons (hk _ (List.mem_cons_self ..)) he.1 this

theorem ValuesStandFor.length_eq (h : ValuesStandFor es ys) :
    (keyTexts es).length = ys.length := by
  rw [keyTexts, List.length_map]
  exact List.Forall₂.length_eq h

/-- The variables of an object are those of its values. -/
theorem ValuesStandFor.variables (h : ValuesStandFor es ys) :
    ∀ n ∈ (Definition.Literal.object ((keyTexts es).zip ys)).variables,
      isGraphQLName n = true := by
  rw [Definition.Literal.variables]
  induction h with
  | nil => simp [keyTexts, fieldVariables]
  | @cons e y es ys he _ ih =>
    intro n hn
    change n ∈ y.variables ++ fieldVariables ((keyTexts es).zip ys) at hn
    rcases List.mem_append.mp hn with hn | hn
    · exact he.2 n hn
    · exact ih n hn

/-- A mapping whose values stand for literals, with names for their variables, is refused for the
first of its keys in which a blank stands. Where there is none it has a text, in every layout and on
every level, and the text is read as the object of the keys with these literals, in order, exactly
where every key is a name. -/
theorem mapping_reads_back_iff (h : ValuesStandFor es ys) (l : Layout) (level : Int)
    (mask : Option String) :
    (∀ k, (keyTexts es).find? hasBlank = some k →
      (Value.mapping es).print l level mask = .error (.blankInKey k)) ∧
    ((keyTexts es).find? hasBlank = none →
      ∃ text, (Value.mapping es).print l level mask = .ok text ∧
        (literalOf? text = some (.object ((keyTexts es).zip ys)) ↔
          ∀ k ∈ keyTexts es, isGraphQLName k = true)) := by
  have hprint : (Value.mapping es).print l level mask = (literalEntries es).map fun xs =>
      String.ofList ((Literal.object xs).print l level) := by
    rw [Value.print, Value.literal]
    cases literalEntries es <;> rfl
  rw [hprint]
  refine ⟨fun k hk => ?_, fun hnone => ?_⟩
  · rw [h.literalEntries_error hk]
    rfl
  · obtain ⟨xs, hxs⟩ := h.literalEntries_ok hnone
    rw [hxs]
    refine ⟨_, rfl, fun hread => ?_, fun hk => ?_⟩
    · have := keys_of_literalOf? hread
      rwa [List.map_fst_zip (Nat.le_of_eq h.length_eq)] at this
    · obtain ⟨xs', hxs', hs⟩ := (h.denoteEntries hk).literal
      rw [hxs] at hxs'
      cases hxs'
      obtain ⟨hreadable, hreading⟩ := hs.object
      rw [literalOf?_print hreadable, hreading.mpr h.variables]

/-- Two fields under names are read back. -/
theorem mapping_reads_back_iff_two_names :
    ValuesStandFor [(.text "a", .int 1), (.text "b", .int 2)]
        [numberLiteral ['1'], numberLiteral ['2']] ∧
      ∃ text, (Value.mapping [(.text "a", .int 1), (.text "b", .int 2)]).print .compact 0 none =
          .ok text ∧
        literalOf? text =
          some (.object [("a", numberLiteral ['1']), ("b", numberLiteral ['2'])]) := by
  have hvariables (cs : List Char) : ∀ n ∈ (numberLiteral cs).variables, isGraphQLName n = true := by
    simp [numberLiteral, Definition.Literal.variables]
  have h : ValuesStandFor [(.text "a", .int 1), (.text "b", .int 2)]
      [numberLiteral ['1'], numberLiteral ['2']] :=
    .cons ⟨.int 1, hvariables _⟩ (.cons ⟨.int 2, hvariables _⟩ .nil)
  obtain ⟨text, htext, hiff⟩ := (mapping_reads_back_iff h .compact 0 none).2 (by decide +kernel)
  exact ⟨h, text, htext, hiff.mpr (by decide +kernel)⟩

/-- A colon and a comma in a key pass, and one entry is read as two fields. -/
theorem key_read_as_two_fields :
    ValuesStandFor [(.text "a:1,b", .int 2)] [numberLiteral ['2']] ∧
      (Value.mapping [(.text "a:1,b", .int 2)]).print .compact 0 none = .ok "{a:1,b:2}" ∧
      literalOf? "{a:1,b:2}" =
        some (.object [("a", numberLiteral ['1']), ("b", numberLiteral ['2'])]) ∧
      literalOf? "{a:1,b:2}" ≠ some (.object [("a:1,b", numberLiteral ['2'])]) := by
  have h : ValuesStandFor [(.text "a:1,b", .int 2)] [numberLiteral ['2']] :=
    .cons ⟨.int 2, by simp [numberLiteral, Definition.Literal.variables]⟩ .nil
  -- The same text is that of an object with two fields.
  have htwo : (Literal.object [("a", .number ['1']), ("b", .number ['2'])]).Readable :=
    ⟨by decide +kernel, Number.numeral_integer 1, by decide +kernel, Number.numeral_integer 2,
      trivial⟩
  refine ⟨h, rfl, literalOf?_print htwo .compact 0, fun hread => ?_⟩
  exact absurd (keys_of_literalOf? hread) (by decide +kernel)

end Bindery.Query
