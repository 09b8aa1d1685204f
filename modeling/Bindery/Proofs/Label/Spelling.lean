import Bindery.Proofs.Label.Forms
import Bindery.Proofs.Lexical.Word
import Bindery.Proofs.Text.Identifier

/-!
# What spellings keep of a name

Snake case and upper case insert underscores in front of capitals and change letters to letters. So a
name of characters of names is spelt with such characters, and a digit that stands behind underscores
in front stays there. Pascal case leaves letters and digits of any name.

## What is proved

* `toList_snakeCase`, `toList_upperCase` — the characters of the two forms.
* `isNameChar_snakeCase`, `isNameChar_pascalCase` — these are characters of names.
* `snakeCase_eq_self_iff` — the names whose snake case form is `self`.
* `isSpelling_apply` — what each spelling keeps of a name.
-/

namespace Bindery.Label

open Bindery.Text
open Bindery.Definition (exists_cons_of_isGraphQLNameChars isNameChar_of_mem_name)

variable {cs form : List Char} {c d : Char} {name : String}

theorem ascii_of_isNameChar (h : isNameChar c = true) : c.toNat < 0x80 := by
  rw [isNameChar, Bool.or_eq_true, beq_iff_eq] at h
  rcases h with h | rfl
  · exact ascii_of_isAlphanum h
  · decide

/-! ### Letters -/

/-- The mapping changes letters only, and makes letters of them. -/
def ChangesLetters (f : Char → Char) : Prop :=
  ∀ c, f c = c ∨ c.isAlpha = true ∧ (f c).isAlpha = true

theorem changesLetters_toLower : ChangesLetters Char.toLower := by
  intro c
  by_cases hupper : c.isUpper = true
  · exact .inr (by simp [Char.isAlpha, hupper])
  · exact .inl (Char.toLower_eq_of_not_isUpper hupper)

theorem changesLetters_toUpper : ChangesLetters Char.toUpper := by
  intro c
  by_cases hlower : c.isLower = true
  · exact .inr (by simp [Char.isAlpha, hlower])
  · exact .inl (Char.toUpper_eq_of_not_isLower hlower)

/-- A letter is no digit. -/
theorem isDigit_of_isAlpha (h : c.isAlpha = true) : c.isDigit = false := by
  simp only [Char.isAlpha, Char.isUpper, Char.isLower, Bool.or_eq_true, Bool.and_eq_true,
    decide_eq_true_eq, UInt32.le_iff_toNat_le, ge_iff_le] at h
  simp only [Char.isDigit, Bool.and_eq_false_iff, decide_eq_false_iff_not, UInt32.le_iff_toNat_le,
    ge_iff_le]
  change (65 ≤ c.toNat ∧ c.toNat ≤ 90) ∨ (97 ≤ c.toNat ∧ c.toNat ≤ 122) at h
  change ¬ 48 ≤ c.toNat ∨ ¬ c.toNat ≤ 57
  omega

namespace ChangesLetters

variable {f : Char → Char}

theorem eq_underscore_iff (h : ChangesLetters f) (c : Char) : f c = '_' ↔ c = '_' := by
  rcases h c with h | ⟨hc, hf⟩
  · rw [h]
  · constructor
    · intro heq
      rw [heq] at hf
      cases hf
    · rintro rfl
      cases hc

theorem isDigit (h : ChangesLetters f) (c : Char) : (f c).isDigit = c.isDigit := by
  rcases h c with h | ⟨hc, hf⟩
  · rw [h]
  · rw [isDigit_of_isAlpha hc, isDigit_of_isAlpha hf]

theorem isNameChar (h : ChangesLetters f) (hc : Text.isNameChar c = true) :
    Text.isNameChar (f c) = true := by
  rcases h c with h | ⟨-, hf⟩
  · rwa [h]
  · simp [Text.isNameChar, Char.isAlphanum, hf]

end ChangesLetters

/-! ### Snake case and upper case -/

theorem isNameChar_separate (h : ∀ c ∈ cs, isNameChar c = true) :
    ∀ c ∈ separate cs, isNameChar c = true := by
  cases cs with
  | nil => exact h
  | cons c r =>
    rw [List.forall_mem_cons] at h
    refine List.forall_mem_cons.mpr ⟨h.1, fun d hd => ?_⟩
    rcases mem_separateFrom hd with hd | rfl
    · exact h.2 d hd
    · rfl

/-- ASCII characters are put into upper case one by one. -/
theorem upperChars_ascii (h : ∀ c ∈ cs, c.toNat < 0x80) : upperChars cs = cs.map Char.toUpper := by
  induction cs with
  | nil => rfl
  | cons c cs ih =>
    rw [List.forall_mem_cons] at h
    rw [upperChars, List.flatMap_cons, upperChar, if_pos h.1, ← upperChars, ih h.2]
    rfl

section Forms

variable (h : ∀ c ∈ name.toList, isNameChar c = true)

include h

theorem toList_snakeCase : (snakeCase name).toList = (separate name.toList).map Char.toLower := by
  rw [snakeCase, String.toList_ofList,
    lowerChars_ascii fun c hc => ascii_of_isNameChar (isNameChar_separate h c hc)]

theorem isNameChar_snakeCase : ∀ c ∈ (snakeCase name).toList, isNameChar c = true := by
  rw [toList_snakeCase h]
  intro d hd
  obtain ⟨c, hc, rfl⟩ := List.mem_map.mp hd
  exact changesLetters_toLower.isNameChar (isNameChar_separate h c hc)

theorem toList_upperCase : (upperCase name).toList = (snakeCase name).toList.map Char.toUpper := by
  rw [upperCase, upper, String.toList_ofList,
    upperChars_ascii fun c hc => ascii_of_isNameChar (isNameChar_snakeCase h c hc)]

end Forms

/-! ### A name in snake case -/

/-- Where no underscore comes out, nothing was separated. -/
theorem separateFrom_eq_self {before : Char} (h : '_' ∉ separateFrom before cs) :
    separateFrom before cs = cs := by
  induction cs generalizing before with
  | nil => rfl
  | cons c r ih =>
    rw [separateFrom] at h ⊢
    split_ifs at h ⊢
    · simp at h
    · rw [ih fun hmem => h (List.mem_cons_of_mem _ hmem)]

theorem separate_eq_self (h : '_' ∉ separate cs) : separate cs = cs := by
  cases cs with
  | nil => rfl
  | cons c r =>
    rw [separate] at h ⊢
    rw [separateFrom_eq_self fun hmem => h (List.mem_cons_of_mem _ hmem)]

/-- A character is the small letter that it becomes or the capital of that. -/
theorem eq_or_eq_toUpper_of_toLower (h : c.toLower = d) : c = d ∨ c = d.toUpper := by
  subst h
  by_cases hupper : c.isUpper = true
  · exact .inr (toUpper_toLower hupper).symm
  · exact .inl (Char.toLower_eq_of_not_isUpper hupper).symm

/-- The spellings of the name by which a method refers to its object. -/
def selfNames : List String := ["self", "Self", "SELF"]

/-- A name becomes `self` in snake case if it is that word in small letters, with one capital in
front or in capitals. -/
theorem snakeCase_eq_self_iff (h : ∀ c ∈ name.toList, isNameChar c = true) :
    snakeCase name = "self" ↔ name ∈ selfNames := by
  constructor
  · intro heq
    have hlower : (separate name.toList).map Char.toLower = ['s', 'e', 'l', 'f'] := by
      rw [← toList_snakeCase h, heq]
      rfl
    have hsame : separate name.toList = name.toList := by
      refine separate_eq_self fun hmem => ?_
      have hunderscore := List.mem_map_of_mem (f := Char.toLower) hmem
      rw [hlower] at hunderscore
      revert hunderscore
      decide
    have hletters : List.Forall₂ (fun c d => c ∈ [d, d.toUpper]) name.toList ['s', 'e', 'l', 'f'] := by
      rw [hsame, ← List.forall₂_eq_eq_eq, List.forall₂_map_left_iff] at hlower
      exact hlower.imp fun c d hc => by simpa using eq_or_eq_toUpper_of_toLower hc
    -- Of the sixteen ways to write the letters three have no boundary between words.
    have hforms : ∀ cs ∈ List.sections (['s', 'e', 'l', 'f'].map fun d => [d, d.toUpper]),
        separate cs = cs → String.ofList cs ∈ selfNames := by
      decide +kernel
    rw [← String.ofList_toList (s := name)]
    exact hforms _ (List.mem_sections.mpr (List.forall₂_map_right_iff.mpr hletters)) hsame
  · have hforms : ∀ n ∈ selfNames, snakeCase n = "self" := by
      decide +kernel
    exact hforms name

/-! ### Pascal case -/

theorem isAlphanum_of_kindOf {k : Kind} (h : kindOf c = some k) : c.isAlphanum = true := by
  rw [kindOf] at h
  split_ifs at h with hlower hupper hdigit
  · simp [Char.isAlphanum, Char.isAlpha, hlower]
  · simp [Char.isAlphanum, Char.isAlpha, hupper]
  · simp [Char.isAlphanum, hdigit]

theorem isNameChar_pascalFrom {before : Option Kind} :
    ∀ c ∈ pascalFrom before cs, isNameChar c = true := by
  induction cs generalizing before with
  | nil => exact nofun
  | cons c r ih =>
    rw [pascalFrom]
    cases hkind : kindOf c with
    | none => exact ih
    | some k =>
      have hc : isNameChar c = true := by rw [isNameChar, isAlphanum_of_kindOf hkind, Bool.true_or]
      refine List.forall_mem_cons.mpr ⟨?_, ih⟩
      split_ifs
      · exact changesLetters_toUpper.isNameChar hc
      · exact changesLetters_toLower.isNameChar hc

/-- The Pascal case form of any text consists of characters of names. -/
theorem isNameChar_pascalCase (name : String) :
    ∀ c ∈ (pascalCase name).toList, isNameChar c = true := by
  rw [pascalCase, String.toList_ofList, pascalChars]
  split_ifs
  · exact isNameChar_pascalFrom
  · intro c hc
    rw [beq_iff_eq.mp (List.mem_filter.mp hc).2]
    rfl

/-! ### The first character that is no underscore -/

/-- The first character that is no underscore. -/
def initial? (cs : List Char) : Option Char :=
  (cs.dropWhile (· == '_')).head?

theorem initial?_cons (h : c ≠ '_') (r : List Char) : initial? (c :: r) = some c := by
  simp [initial?, h]

theorem initial?_underscore (r : List Char) : initial? ('_' :: r) = initial? r := by
  simp [initial?]

theorem initial?_ne (h : initial? cs = some c) : c ≠ '_' := by
  intro hc
  have hhead := List.head?_dropWhile_not (· == '_') cs
  rw [initial?] at h
  rw [h] at hhead
  simp [hc] at hhead

theorem ChangesLetters.initial?_map {f : Char → Char} (h : ChangesLetters f) (cs : List Char) :
    initial? (cs.map f) = (initial? cs).map f := by
  have hsame : ((· == '_') ∘ f) = (· == '_') := by
    funext c
    rw [Bool.eq_iff_iff]
    simpa using h.eq_underscore_iff c
  rw [initial?, List.dropWhile_map, hsame, List.head?_map, initial?]

/-- Words are separated by underscores in front of capitals. -/
theorem initial?_separateFrom (before : Char) (r : List Char) :
    initial? (separateFrom before r) = initial? r := by
  induction r generalizing before with
  | nil => rfl
  | cons c r ih =>
    rw [separateFrom]
    by_cases hc : c = '_'
    · subst hc
      rw [if_neg (by simp), initial?_underscore, initial?_underscore, ih]
    · split_ifs
      · rw [initial?_underscore, initial?_cons hc, initial?_cons hc]
      · rw [initial?_cons hc, initial?_cons hc]

theorem initial?_separate (cs : List Char) : initial? (separate cs) = initial? cs := by
  cases cs with
  | nil => rfl
  | cons c r =>
    rw [separate]
    by_cases hc : c = '_'
    · subst hc
      rw [initial?_underscore, initial?_underscore, initial?_separateFrom]
    · rw [initial?_cons hc, initial?_cons hc]

/-! ### Spellings -/

/-- How a name is spelt before it is made safe. -/
inductive Spelling where
  /-- In snake case, as attributes and parameters are. -/
  | snakeCase
  /-- In upper case, as constants and members of enumerations are. -/
  | upperCase
  /-- As it is, as members of enumerations can be. -/
  | asWritten
  deriving DecidableEq, Repr

/-- The name in the spelling. -/
def Spelling.apply : Spelling → String → String
  | .snakeCase, name => Label.snakeCase name
  | .upperCase, name => Label.upperCase name
  | .asWritten, name => name

/-- What a spelling leaves of a name: it is not empty and consists of characters of names, and a digit
stands behind the underscores in front where one stood there. -/
structure IsSpelling (name form : List Char) : Prop where
  /-- It is not empty. -/
  nonempty : form ≠ []
  /-- It consists of characters of names. -/
  nameChars : ∀ c ∈ form, isNameChar c = true
  /-- A digit stays behind the underscores in front. -/
  digit : (initial? form).any Char.isDigit = (initial? name).any Char.isDigit

theorem IsSpelling.map {f : Char → Char} (hf : ChangesLetters f) (h : IsSpelling cs form) :
    IsSpelling cs (form.map f) where
  nonempty := by simpa using h.nonempty
  nameChars := by
    intro d hd
    obtain ⟨c, hc, rfl⟩ := List.mem_map.mp hd
    exact hf.isNameChar (h.nameChars c hc)
  digit := by
    rw [hf.initial?_map, ← h.digit]
    cases initial? form with
    | none => rfl
    | some c => exact hf.isDigit c

/-- What each spelling keeps of a name. -/
theorem isSpelling_apply (h : isGraphQLName name = true) (spelling : Spelling) :
    IsSpelling name.toList (spelling.apply name).toList := by
  obtain ⟨c, r, hname, -⟩ := exists_cons_of_isGraphQLNameChars h
  have hchars : ∀ c ∈ name.toList, isNameChar c = true := fun c hc => isNameChar_of_mem_name h hc
  have hseparate : IsSpelling name.toList (separate name.toList) :=
    ⟨by simp [hname, separate], isNameChar_separate hchars, by rw [initial?_separate]⟩
  have hsnake := hseparate.map changesLetters_toLower
  rw [← toList_snakeCase hchars] at hsnake
  cases spelling with
  | snakeCase => exact hsnake
  | upperCase =>
    rw [Spelling.apply, toList_upperCase hchars]
    exact hsnake.map changesLetters_toUpper
  | asWritten => exact ⟨by simp [Spelling.apply, hname], hchars, rfl⟩

end Bindery.Label
