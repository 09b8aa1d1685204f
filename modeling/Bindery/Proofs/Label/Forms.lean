import Bindery.Label.Case
import Mathlib

/-!
# Names that can be read off their forms

Snake case marks the beginning of a word by an underscore, but not where capitals stand in a row:
`AB` and `Ab` have one form. Of names in plain Pascal case, in which no two capitals do, each can be
restored from its form. Pascal case begins each word with a capital and drops what stands between
words, so that many names have one form: `cacheFor`, `cache_for` and `CACHE_FOR` do. Of names in camel
case, whose words all begin with a capital or a digit, each can be restored from its form by its first
letter.

## What is proved

* `lowerChars_ascii` — ASCII characters are put into lower case one by one.
* `joinWords_separateFrom` — the words of a plain name can be joined again.
* `snakeCase_injective_of_plain` — plain names with one snake case form are one name.
* `snakeCase_ne_of_plain` — the form of a plain name does not start with an underscore.
* `pascalFrom_of_keepsCase` — words that have their capitals already stay as they are.
* `lowerFirst_pascalCase` — a name in camel case is its Pascal case form with a small letter first.
* `pascalCase_injective_of_camel` — names in camel case with one Pascal case form are one name.
-/

namespace Bindery.Label

open Bindery.Text

/-! ### Lower case -/

theorem lowerAt_ascii {before after : List Char} {c : Char} (h : c.toNat < 0x80) :
    lowerAt before c after = [c.toLower] := by
  have hsigma : c ≠ capitalSigma := by
    rintro rfl
    revert h
    decide
  rw [lowerAt, if_neg (by simpa using hsigma), lowerChar, if_pos h]

theorem toLower_ascii {c : Char} (h : c.toNat < 0x80) : c.toLower.toNat < 0x80 := by
  by_cases hupper : c.isUpper = true
  · have hrange : 65 ≤ c.toNat ∧ c.toNat ≤ 90 := of_decide_eq_true hupper
    rw [Char.toLower_eq_of_isUpper hupper, Char.toNat_ofNat]
    split_ifs <;> omega
  · rwa [Char.toLower_eq_of_not_isUpper hupper]

/-- ASCII characters are put into lower case one by one. -/
theorem lowerChars_ascii {cs : List Char} (h : ∀ c ∈ cs, c.toNat < 0x80) :
    lowerChars cs = cs.map Char.toLower := by
  suffices key : ∀ before, lowerFrom before cs = cs.map Char.toLower from key []
  induction cs with
  | nil => exact fun _ => rfl
  | cons c cs ih =>
    rw [List.forall_mem_cons] at h
    intro before
    rw [lowerFrom, lowerAt_ascii h.1, ih h.2, List.map_cons, List.singleton_append]

/-! ### Plain Pascal case -/

/-- Are the characters after `before` ASCII letters and digits, with no two capitals in a row? -/
def isPlainFrom (before : Char) : List Char → Bool
  | [] => true
  | c :: r => c.isAlphanum && !(before.isUpper && c.isUpper) && isPlainFrom c r

/-- Is the name in plain Pascal case: does a capital begin it, and do ASCII letters and digits
follow with no two capitals in a row? -/
def isPlain (name : String) : Bool :=
  match name.toList with
  | [] => false
  | c :: r => c.isUpper && isPlainFrom c r

/-- The characters of words that underscores separate, joined with a capital at the beginning of
each word but the first. -/
def joinWords : List Char → List Char
  | [] => []
  | [c] => [c]
  | c :: d :: r => if c == '_' then d.toUpper :: joinWords r else c :: joinWords (d :: r)

theorem joinWords_cons {c : Char} (h : c ≠ '_') (r : List Char) :
    joinWords (c :: r) = c :: joinWords r := by
  cases r with
  | nil => rfl
  | cons d r => rw [joinWords, if_neg (by simpa using h)]

theorem ascii_of_isAlphanum {c : Char} (h : c.isAlphanum = true) : c.toNat < 0x80 := by
  simp only [Char.isAlphanum, Char.isAlpha, Char.isUpper, Char.isLower, Char.isDigit,
    Bool.or_eq_true, Bool.and_eq_true, decide_eq_true_eq, UInt32.le_iff_toNat_le, ge_iff_le] at h
  change ((65 ≤ c.toNat ∧ c.toNat ≤ 90) ∨ (97 ≤ c.toNat ∧ c.toNat ≤ 122)) ∨
    (48 ≤ c.toNat ∧ c.toNat ≤ 57) at h
  omega

theorem toUpper_toLower {c : Char} (h : c.isUpper = true) : c.toLower.toUpper = c := by
  rw [Char.toUpper_toLower_eq_toUpper,
    Char.toUpper_eq_of_not_isLower (Char.not_isLower_of_isUpper h)]

theorem separateFrom_ascii {before : Char} {r : List Char} (h : ∀ c ∈ r, c.toNat < 0x80) :
    ∀ c ∈ separateFrom before r, c.toNat < 0x80 := by
  induction r generalizing before with
  | nil => exact h
  | cons c r ih =>
    rw [List.forall_mem_cons] at h
    rw [separateFrom]
    split_ifs
    · rw [List.forall_mem_cons, List.forall_mem_cons]
      exact ⟨by decide, h.1, ih h.2⟩
    · rw [List.forall_mem_cons]
      exact ⟨h.1, ih h.2⟩

theorem isPlainFrom_cons {before c : Char} {r : List Char} :
    isPlainFrom before (c :: r) = true ↔
      c.isAlphanum = true ∧ (before.isUpper = true → c.isUpper = false) ∧
        isPlainFrom c r = true := by
  simp only [isPlainFrom, Bool.and_eq_true, and_assoc]
  cases before.isUpper <;> simp

theorem ascii_of_isPlainFrom {before : Char} {r : List Char} (h : isPlainFrom before r = true) :
    ∀ c ∈ r, c.toNat < 0x80 := by
  induction r generalizing before with
  | nil => exact nofun
  | cons c r ih =>
    obtain ⟨hc, -, hr⟩ := isPlainFrom_cons.mp h
    exact List.forall_mem_cons.mpr ⟨ascii_of_isAlphanum hc, ih hr⟩

/-- The words of a plain name can be joined again. -/
theorem joinWords_separateFrom {before : Char} {r : List Char} (hbefore : before.isAlphanum = true)
    (h : isPlainFrom before r = true) :
    joinWords ((separateFrom before r).map Char.toLower) = r := by
  induction r generalizing before with
  | nil => rfl
  | cons c r ih =>
    obtain ⟨hc, hcapitals, hr⟩ := isPlainFrom_cons.mp h
    rw [separateFrom]
    by_cases hupper : c.isUpper = true
    · -- The character before a capital is a small letter or a digit, so a word begins here.
      have hbreaks : breaksBefore before r = true := by
        have hnot : before.isUpper = false := by
          by_contra hbefore
          rw [hcapitals (by simpa using hbefore)] at hupper
          cases hupper
        simp only [Char.isAlphanum, Char.isAlpha, hnot, Bool.false_or] at hbefore
        simp [breaksBefore, hbefore]
      rw [if_pos (by simp [hupper, hbreaks]), List.map_cons, List.map_cons, joinWords,
        if_pos (by decide), toUpper_toLower hupper, ih hc hr]
    · have hne : c ≠ '_' := by
        rintro rfl
        revert hc
        decide
      rw [if_neg (by simp [hupper]), List.map_cons, Char.toLower_eq_of_not_isUpper hupper,
        joinWords_cons hne, ih hc hr]

theorem isPlain_iff {name : String} :
    isPlain name = true ↔
      ∃ c r, name.toList = c :: r ∧ c.isUpper = true ∧ isPlainFrom c r = true := by
  rw [isPlain]
  cases name.toList with
  | nil => simp
  | cons c r => simp

theorem isAlphanum_of_isUpper {c : Char} (h : c.isUpper = true) : c.isAlphanum = true := by
  simp [Char.isAlphanum, Char.isAlpha, h]

/-- The snake case form of a name of ASCII characters. -/
theorem snakeCase_ascii {name : String} {c : Char} {r : List Char} (hname : name.toList = c :: r)
    (hascii : ∀ d ∈ c :: r, d.toNat < 0x80) :
    (snakeCase name).toList = c.toLower :: (separateFrom c r).map Char.toLower := by
  rw [List.forall_mem_cons] at hascii
  have hseparate : ∀ d ∈ c :: separateFrom c r, d.toNat < 0x80 :=
    List.forall_mem_cons.mpr ⟨hascii.1, separateFrom_ascii hascii.2⟩
  rw [snakeCase, String.toList_ofList, hname, separate, lowerChars_ascii hseparate, List.map_cons]

/-- The snake case form of a plain name. -/
theorem snakeCase_plain {name : String} {c : Char} {r : List Char} (hname : name.toList = c :: r)
    (hc : c.isUpper = true) (hr : isPlainFrom c r = true) :
    (snakeCase name).toList = c.toLower :: (separateFrom c r).map Char.toLower :=
  snakeCase_ascii hname (List.forall_mem_cons.mpr
    ⟨ascii_of_isAlphanum (isAlphanum_of_isUpper hc), ascii_of_isPlainFrom hr⟩)

/-- Plain names with one snake case form are one name. -/
theorem snakeCase_injective_of_plain {a b : String} (ha : isPlain a = true) (hb : isPlain b = true)
    (h : snakeCase a = snakeCase b) : a = b := by
  obtain ⟨c, r, hac, hc, hr⟩ := isPlain_iff.mp ha
  obtain ⟨d, s, hbd, hd, hs⟩ := isPlain_iff.mp hb
  have hform := congrArg String.toList h
  rw [snakeCase_plain hac hc hr, snakeCase_plain hbd hd hs, List.cons.injEq] at hform
  have hfirst : c = d := by
    rw [← toUpper_toLower hc, hform.1, toUpper_toLower hd]
  have hrest : r = s := by
    rw [← joinWords_separateFrom (isAlphanum_of_isUpper hc) hr, hform.2,
      joinWords_separateFrom (isAlphanum_of_isUpper hd) hs]
  rw [← String.toList_inj, hac, hbd, hfirst, hrest]

/-- The snake case form of a plain name does not start with an underscore. -/
theorem snakeCase_ne_of_plain {a form : String} (ha : isPlain a = true)
    (h : form.toList.head? = some '_') : snakeCase a ≠ form := by
  obtain ⟨c, r, hac, hc, hr⟩ := isPlain_iff.mp ha
  rintro rfl
  rw [snakeCase_plain hac hc hr, List.head?_cons, Option.some.injEq] at h
  have hlower := Char.isLower_toLower_eq_isAlpha (c := c)
  rw [h, Char.isAlpha, hc, Bool.true_or] at hlower
  revert hlower
  decide

/-! ### Pascal case -/

/-- Do the characters behind one of the given kind have capitals exactly where words begin? -/
def keepsCase (before : Option Kind) : List Char → Bool
  | [] => true
  | c :: r =>
    match kindOf c with
    | none => false
    | some k =>
      (k == .digit || ((k == .up) == startsWord before k (nextKind r))) && keepsCase (some k) r

/-- Is the name in camel case: does a small letter begin it, and do ASCII letters and digits follow
with capitals exactly where words begin? -/
def isCamel (name : String) : Bool :=
  match name.toList with
  | [] => false
  | c :: r => c.isLower && keepsCase (some .low) r

theorem isCamel_iff {name : String} :
    isCamel name = true ↔
      ∃ c r, name.toList = c :: r ∧ c.isLower = true ∧ keepsCase (some .low) r = true := by
  rw [isCamel]
  cases name.toList with
  | nil => simp
  | cons c r => simp

theorem kindOf_of_isLower {c : Char} (h : c.isLower = true) : kindOf c = some .low := by
  rw [kindOf, if_pos h]

/-- Only small letters change in upper case, and only capitals in lower case. -/
theorem cased_of_kindOf {c : Char} {k : Kind} (h : kindOf c = some k) :
    (k ≠ .low → c.toUpper = c) ∧ (k ≠ .up → c.toLower = c) := by
  rw [kindOf] at h
  split_ifs at h with hlower hupper <;> cases h
  · exact ⟨fun hne => absurd rfl hne,
      fun _ => Char.toLower_eq_of_not_isUpper (Char.not_isUpper_of_isLower hlower)⟩
  · exact ⟨fun _ => Char.toUpper_eq_of_not_isLower hlower, fun hne => absurd rfl hne⟩
  · exact ⟨fun _ => Char.toUpper_eq_of_not_isLower hlower,
      fun _ => Char.toLower_eq_of_not_isUpper hupper⟩

/-- Words that have their capitals already stay as they are. -/
theorem pascalFrom_of_keepsCase {before : Option Kind} {cs : List Char}
    (h : keepsCase before cs = true) : pascalFrom before cs = cs := by
  induction cs generalizing before with
  | nil => rfl
  | cons c r ih =>
    rw [keepsCase] at h
    cases hkind : kindOf c with
    | none =>
      rw [hkind] at h
      cases h
    | some k =>
      obtain ⟨hupper, hlower⟩ := cased_of_kindOf hkind
      rw [hkind] at h
      obtain ⟨hcase, hrest⟩ := Bool.and_eq_true_iff.mp h
      simp only [pascalFrom, hkind, ih hrest]
      -- The character is a digit, or a capital exactly if a word begins here.
      cases k with
      | digit => rw [hupper (by decide), hlower (by decide), ite_self]
      | up =>
        have hstarts : true = startsWord before .up (nextKind r) := beq_iff_eq.mp hcase
        rw [if_pos hstarts.symm, hupper (by decide)]
      | low =>
        have hstarts : false = startsWord before .low (nextKind r) := beq_iff_eq.mp hcase
        rw [← hstarts, if_neg Bool.false_ne_true, hlower (by decide)]

/-- The Pascal case form of a name in camel case. -/
theorem pascalCase_camel {name : String} {c : Char} {r : List Char} (hname : name.toList = c :: r)
    (hc : c.isLower = true) (hr : keepsCase (some .low) r = true) :
    (pascalCase name).toList = c.toUpper :: r := by
  have hkind := kindOf_of_isLower hc
  have hword : ((c :: r).any fun c => (kindOf c).isSome) = true := by
    rw [List.any_cons, hkind, Option.isSome_some, Bool.true_or]
  rw [pascalCase, String.toList_ofList, hname, pascalChars, if_pos hword]
  simp only [pascalFrom, hkind, pascalFrom_of_keepsCase hr]
  rfl

/-- A name in camel case is its Pascal case form with a small letter first. -/
theorem lowerFirst_pascalCase {name : String} (h : isCamel name = true) :
    lowerFirst (pascalCase name) = name := by
  obtain ⟨c, r, hname, hc, hr⟩ := isCamel_iff.mp h
  have hupper : c.toUpper.isUpper = true := by
    rw [Char.isUpper_toUpper_eq_isAlpha, Char.isAlpha, hc, Bool.or_true]
  have hascii : ∀ d ∈ [c.toUpper], d.toNat < 0x80 := by
    rw [List.forall_mem_singleton]
    exact ascii_of_isAlphanum (isAlphanum_of_isUpper hupper)
  rw [lowerFirst, pascalCase_camel hname hc hr, lowerFirstChars, lowerChars_ascii hascii,
    List.map_singleton, Char.toLower_toUpper_eq_toLower,
    Char.toLower_eq_of_not_isUpper (Char.not_isUpper_of_isLower hc), List.singleton_append, ← hname,
    String.ofList_toList]

/-- Names in camel case with one Pascal case form are one name. -/
theorem pascalCase_injective_of_camel {a b : String} (ha : isCamel a = true) (hb : isCamel b = true)
    (h : pascalCase a = pascalCase b) : a = b := by
  rw [← lowerFirst_pascalCase ha, h, lowerFirst_pascalCase hb]

end Bindery.Label
