import Bindery.Proofs.Catalog.ClassNames
import Bindery.Proofs.Label.Spelling
import Bindery.Proofs.Source.Import

/-!
# Class names are words

Pascal case leaves letters and digits, a name that is taken gets a word or a number behind it, and
only usable names can be given. So a class name is a word where the texts around all class names
are, and these are words if one class name is.

## What is proved

* `isWord_pascalCase`, `isWord_attemptName` — names that are made are words.
* `worded_of_make` — the names that are given for types or assigned to them are words.
* `Worded.isWord_className`, `isWord_directiveClassName` — class names are words if one is.
-/

namespace Bindery.Catalog

open Bindery.Schema Bindery.Label Bindery.Source Bindery.Text

variable {c : Catalog} {t : TypeDefinition} {a a' : Assignment} {configuration : Configuration}
  {s : Schema}

/-! ### Names that are made -/

theorem isWord_append {a b : String} :
    isWord (a ++ b) = true ↔ isWord a = true ∧ isWord b = true := by
  simp [isWord, String.toList_append]

theorem isWordChar_of_isNameChar {c : Char} (h : isNameChar c = true) : isWordChar c = true := by
  rw [isWordChar_eq, inClass, if_pos (ascii_of_isNameChar h), h]

theorem isWord_pascalCase (name : String) : isWord (pascalCase name) = true :=
  List.all_eq_true.mpr fun c hc => isWordChar_of_isNameChar (isNameChar_pascalCase name c hc)

theorem isWord_toString (n : Nat) : isWord (toString n) = true := by
  rw [isWord, Nat.toString_eq_repr, Nat.toList_repr, List.all_eq_true]
  intro d hd
  have hdigit := Nat.isDigit_of_mem_toDigits (by decide) (by decide) hd
  exact isWordChar_of_isNameChar (by rw [isNameChar, Char.isAlphanum, hdigit, Bool.or_true]; rfl)

theorem isWord_attemptName {candidate : String} (h : isWord candidate = true) (isInput : Bool)
    (n : Nat) : isWord (attemptName candidate isInput n) = true := by
  rw [attemptName_eq, isWord_append]
  refine ⟨h, ?_⟩
  match n with
  | 0 => rfl
  | 1 =>
    rw [attemptEnding, collisionWord]
    split_ifs <;> decide
  | n + 2 => exact isWord_toString (n + 2)

/-! ### Names that are given and assigned -/

/-- The names that are given for types or assigned to them are words. -/
structure Worded (c : Catalog) : Prop where
  /-- A name that is given. -/
  given : ∀ k n, c.configuration.classNames.get? k = some n → isWord n = true
  /-- A name that is assigned. -/
  renamed : ∀ k n, c.renamed.get? k = some n → isWord n = true

theorem isWord_of_isUsableName {name : String} (h : isUsableName name = true) :
    isWord name = true :=
  (word_of_isIdentifier (Bool.and_eq_true_iff.mp h).1).1

/-- Only usable names are passed. -/
theorem usable_of_checkMapping {known : String → Bool} {es : List (String × String)}
    (h : (checkMapping known es).2 = none) : ∀ e ∈ es, isUsableName e.2 = true := by
  induction es with
  | nil => exact nofun
  | cons e es ih =>
    obtain ⟨type, name⟩ := e
    rw [checkMapping] at h
    split_ifs at h with husable
    all_goals exact List.forall_mem_cons.mpr ⟨by simpa using husable, ih h⟩

/-- The name that is assigned to one more type is an attempt. -/
theorem renamed_of_assignName {natural : List String} (h : c.assignName natural a t = .ok a') :
    a'.renamed = a.renamed ∨ ∃ n, a'.renamed =
      a.renamed.put t.name (attemptName (pascalCase t.name) (t.kind == .inputObject) n) := by
  rw [assignName] at h
  split_ifs at h with hclasses
  · rw [← pure_eq_ok.mp h]
    exact .inl rfl
  · split at h
    · rw [← pure_eq_ok.mp h]
      exact .inl rfl
    · obtain ⟨members, -, h⟩ := bind_eq_ok.mp h
      rw [← pure_eq_ok.mp h]
      dsimp only
      split_ifs
      · exact .inl rfl
      · exact .inr ⟨_, rfl⟩

/-- Assigned names stay words. -/
theorem words_of_assignName {natural : List String} (h : c.assignName natural a t = .ok a')
    (ha : ∀ k n, a.renamed.get? k = some n → isWord n = true) :
    ∀ k n, a'.renamed.get? k = some n → isWord n = true := by
  intro k n hn
  rcases renamed_of_assignName h with heq | ⟨round, heq⟩
  · rw [heq] at hn
    exact ha k n hn
  · rw [heq, Keyed.get?_put] at hn
    split_ifs at hn
    · rw [← Option.some.inj hn]
      exact isWord_attemptName (isWord_pascalCase _) _ _
    · exact ha k n hn

/-- Only usable names are given in a catalog. -/
theorem usable_of_make (h : (make configuration s).2 = .ok c) {type name : String}
    (hgiven : configuration.classNames.get? type = some name) : isUsableName name = true := by
  obtain ⟨hpassed, -⟩ := make_eq_ok_iff.mp h
  exact usable_of_checkMapping hpassed _ (Keyed.mem_entries_of_get? hgiven)

theorem worded_of_make (h : (make configuration s).2 = .ok c) : Worded c := by
  constructor
  case given =>
    intro k n hn
    rw [configuration_of_make h] at hn
    exact isWord_of_isUsableName (usable_of_make h hn)
  case renamed =>
    obtain ⟨-, renamed, referenced, hrenamed, -, rfl⟩ := make_eq_ok_iff.mp h
    obtain ⟨a, hrun, ha⟩ := bind_eq_ok.mp hrenamed
    rw [← pure_eq_ok.mp ha]
    refine keeps_of_foldlM words_of_assignName (fun k n hn => ?_) hrun
    rw [Keyed.get?_empty] at hn
    cases hn

/-! ### Class names -/

/-- The texts around a class name that is a word are words. -/
theorem of_isWord_fullName {name suffix : String}
    (h : isWord (configuration.fullName name suffix) = true) :
    isWord configuration.classPrefix = true ∧ isWord configuration.classSuffix = true := by
  simp only [Configuration.fullName, isWord_append] at h
  exact ⟨h.1.1.1, h.2⟩

theorem isWord_fullName {name suffix : String} (hfront : isWord configuration.classPrefix = true)
    (hback : isWord configuration.classSuffix = true) (hname : isWord name = true)
    (hend : isWord suffix = true) : isWord (configuration.fullName name suffix) = true := by
  simp only [Configuration.fullName, isWord_append]
  exact ⟨⟨⟨hfront, hname⟩, hend⟩, hback⟩

section

variable (hfront : isWord c.configuration.classPrefix = true)
  (hback : isWord c.configuration.classSuffix = true)

include hfront hback

theorem Worded.isWord_className (h : Worded c) (name : String) {suffix : String}
    (hend : isWord suffix = true) : isWord (c.className name suffix) = true := by
  refine isWord_fullName hfront hback ?_ hend
  split
  · rename_i n hgiven
    exact h.given name n hgiven
  · cases hrenamed : c.renamed.get? name with
    | none => exact isWord_pascalCase name
    | some n =>
      rw [Option.filter_some]
      split_ifs
      · exact h.renamed name n hrenamed
      · exact isWord_pascalCase name

theorem isWord_directiveClassName (d : DirectiveDefinition) :
    isWord (c.directiveClassName d) = true :=
  isWord_fullName hfront hback (isWord_pascalCase d.name) (by decide)

end

end Bindery.Catalog
