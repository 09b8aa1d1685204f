import Bindery.Proofs.Number.Shown
import Bindery.Query.Literal

/-!
# What numbers in documents are worth

A number of the grammar is worth a rational: its whole part and its fraction times the power of ten
that its exponent names. The parts of a number can be told from its text, so it is worth one rational
only. The text of a finite decimal number is worth that number, however large its exponent is. The
special values are written as words: they are no numbers of the grammar, but nothing refuses them.

## What is proved

* `parts_unique` — the parts of a number can be told from its text.
* `Worth.unique` — a text is worth one rational at most.
* `worth_decimal` — the text of a finite decimal number is worth that number.
* `not_numeral_decimal` — the text of any other one is no number.
* `decimal_argument_worth_iff` — what the text of a decimal number is worth as an argument.
-/

namespace Bindery.Number

open Bindery.Definition (IsDigits IsWhole IsFraction IsExponent Numeral NoDigit isDigit_ne
  readWhole_append readFraction_append tail_of_whole)

variable {cs : List Char} {q r : ℚ} {d : Decimal}

/-! ### Texts of numbers -/

/-- The factor that the sign of a number stands for. -/
def signFactor : List Char → ℚ
  | ['-'] => -1
  | _ => 1

/-- The characters are a number of the grammar that is worth `q`. -/
def Worth (cs : List Char) (q : ℚ) : Prop :=
  ∃ minus whole f e, cs = minus ++ (whole ++ (f ++ e)) ∧ (minus = [] ∨ minus = ['-']) ∧
    IsWhole whole ∧ IsFraction f ∧ IsExponent e ∧
    q = signFactor minus * ((readDigits 0 whole + fractionValue f) * (10 : ℚ) ^ exponentValue e)

theorem Worth.numeral (h : Worth cs q) : Numeral cs := by
  obtain ⟨minus, whole, f, e, hcs, hm, hw, hf, he, -⟩ := h
  exact ⟨minus, whole, f, e, hcs, hm, hw, hf, he⟩

/-- The sign of a number can be told from its text, since digits follow it. -/
theorem sign_unique {minus minus' rest rest' whole whole' : List Char}
    (hm : minus = [] ∨ minus = ['-']) (hm' : minus' = [] ∨ minus' = ['-']) (hw : IsWhole whole)
    (hw' : IsWhole whole') (h : minus ++ (whole ++ rest) = minus' ++ (whole' ++ rest')) :
    minus = minus' ∧ whole ++ rest = whole' ++ rest' := by
  obtain ⟨c, ds, rfl, hc⟩ := hw.head
  obtain ⟨c', ds', rfl, hc'⟩ := hw'.head
  have hne : c ≠ '-' := isDigit_ne hc (by decide)
  have hne' : c' ≠ '-' := isDigit_ne hc' (by decide)
  rcases hm with rfl | rfl <;> rcases hm' with rfl | rfl
  · exact ⟨rfl, h⟩
  · exact absurd (List.cons.inj h).1 hne
  · exact absurd (List.cons.inj h).1.symm hne'
  · exact ⟨rfl, (List.cons.inj h).2⟩

/-- The parts of a number can be told from its text: each reader takes one of them. -/
theorem parts_unique {minus whole f e minus' whole' f' e' : List Char}
    (hm : minus = [] ∨ minus = ['-']) (hm' : minus' = [] ∨ minus' = ['-']) (hw : IsWhole whole)
    (hw' : IsWhole whole') (hf : IsFraction f) (hf' : IsFraction f') (he : IsExponent e)
    (he' : IsExponent e')
    (h : minus ++ (whole ++ (f ++ e)) = minus' ++ (whole' ++ (f' ++ e'))) :
    minus = minus' ∧ whole = whole' ∧ f = f' ∧ e = e' := by
  have htail {f e : List Char} (hf : IsFraction f) (he : IsExponent e) :
      NoDigit (f ++ e) ∧ NoDigit e ∧ e.head? ≠ some '.' := by
    have htail := tail_of_whole hf he (.inl rfl)
    rw [List.append_nil] at htail
    exact ⟨htail.1, htail.2.1, htail.2.2.1⟩
  obtain ⟨hfe, hnoDigit, hdot⟩ := htail hf he
  obtain ⟨hfe', hnoDigit', hdot'⟩ := htail hf' he'
  obtain ⟨hminus, hunsigned⟩ := sign_unique hm hm' hw hw' h
  have hwhole := readWhole_append hw hfe
  rw [hunsigned, readWhole_append hw' hfe'] at hwhole
  obtain ⟨hwhole, hrest⟩ := Prod.mk.inj (Option.some.inj hwhole)
  have hfraction := readFraction_append hf hnoDigit hdot
  rw [← hrest, readFraction_append hf' hnoDigit' hdot'] at hfraction
  obtain ⟨hfraction, hexponent⟩ := Prod.mk.inj (Option.some.inj hfraction)
  exact ⟨hminus, hwhole.symm, hfraction.symm, hexponent.symm⟩

/-- A text is worth one rational at most. -/
theorem Worth.unique (h : Worth cs q) (h' : Worth cs r) : q = r := by
  obtain ⟨minus, whole, f, e, rfl, hm, hw, hf, he, rfl⟩ := h
  obtain ⟨minus', whole', f', e', hcs, hm', hw', hf', he', rfl⟩ := h'
  obtain ⟨rfl, rfl, rfl, rfl⟩ := parts_unique hm hm' hw hw' hf hf' he he' hcs
  rfl

/-! ### Decimal numbers -/

/-- The rational that a finite decimal number is. -/
def Decimal.value? : Decimal → Option ℚ
  | .finite negative c e => some ((if negative then -1 else 1) * (c * (10 : ℚ) ^ e))
  | _ => none

theorem signFactor_signChars (negative : Bool) :
    signFactor (signChars negative) = if negative then -1 else 1 := by
  cases negative <;> rfl

/-- The text of a finite decimal number is worth that number. -/
theorem worth_decimal (h : d.value? = some q) : Worth d.chars q := by
  cases d with
  | infinite => cases h
  | nan => cases h
  | finite negative c e =>
    cases h
    obtain ⟨w, f, x, hs, hw, hf, hx, hv⟩ := scientific_parts (isWhole_digitsOf c) e
    refine ⟨_, w, f, x, by rw [Decimal.chars, hs], signChars_cases _, hw, hf, hx, ?_⟩
    rw [hv, readDigits_digitsOf, signFactor_signChars]

/-- A letter stands in the text of an infinity and of what is no number, behind the sign if there is
one, where numbers have a digit. -/
theorem not_numeral_decimal (h : d.value? = none) : ¬ Numeral d.chars := by
  obtain ⟨negative, c, r, hchars, hdigit, hminus⟩ : ∃ negative c r,
      d.chars = signChars negative ++ c :: r ∧ c.isDigit = false ∧ c ≠ '-' := by
    cases d with
    | finite => cases h
    | infinite negative => exact ⟨negative, 'I', _, rfl, rfl, by decide⟩
    | nan signaling negative p =>
      cases signaling
      · exact ⟨negative, 'N', _, List.append_assoc _ _ _, rfl, by decide⟩
      · exact ⟨negative, 's', _, List.append_assoc _ _ _, rfl, by decide⟩
  rintro ⟨minus, whole, f, e, hparts, hm, hw, -⟩
  obtain ⟨d, ds, rfl, hd⟩ := hw.head
  rw [hchars] at hparts
  rcases signChars_cases negative with hsign | hsign <;> rw [hsign] at hparts <;>
    rcases hm with rfl | rfl
  · rw [(List.cons.inj hparts).1, hd] at hdigit
    cases hdigit
  · exact hminus (List.cons.inj hparts).1
  · have hne : d ≠ '-' := isDigit_ne hd (by decide)
    exact hne (List.cons.inj hparts).1.symm
  · rw [(List.cons.inj (List.cons.inj hparts).2).1, hd] at hdigit
    cases hdigit

end Bindery.Number

namespace Bindery.Query

open Bindery.Number

/-- **What the text of a decimal number is worth as an argument.** No decimal number is refused. The
text of a finite one is a number of the grammar that is worth exactly it, in every layout and on every
level; the text of an infinity or of what is no number is none, and is not worth anything. -/
theorem decimal_argument_worth_iff (l : Layout) (level : Int) (mask : Option String) (d : Decimal) :
    ∃ text, (Value.decimal d).print l level mask = .ok text ∧
      ∀ q, Worth text.toList q ↔ d.value? = some q := by
  refine ⟨String.ofList d.chars, rfl, fun q => ?_⟩
  rw [String.toList_ofList]
  constructor
  · intro hworth
    cases hvalue : d.value? with
    | none => exact absurd hworth.numeral (not_numeral_decimal hvalue)
    | some r => rw [(worth_decimal hvalue).unique hworth]
  · exact worth_decimal

example : (Value.decimal (.nan false false 0)).print .compact 0 none = .ok "NaN" := rfl

end Bindery.Query
