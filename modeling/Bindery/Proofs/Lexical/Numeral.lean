import Bindery.Proofs.Lexical.Word

/-!
# Numbers as tokens

The grammar of numbers: an optional minus sign, digits without a zero in front, and perhaps a
fraction and an exponent. Proved here: a text of that form is read as one token, with or without a
fraction as its form says, while a minus sign in front of a letter is no token at all.
-/

namespace Bindery.Definition

open Bindery.Text

/-- Digits, at least one. -/
def IsDigits (ds : List Char) : Prop := ds ≠ [] ∧ ds.all Char.isDigit = true

/-- Digits of which none follows a zero at the start. -/
def IsWhole (ds : List Char) : Prop := IsDigits ds ∧ (ds.head? = some '0' → ds = ['0'])

/-- The fraction of a number, or nothing. -/
def IsFraction (f : List Char) : Prop := f = [] ∨ ∃ ds, f = '.' :: ds ∧ IsDigits ds

/-- The exponent of a number, or nothing. -/
def IsExponent (e : List Char) : Prop :=
  e = [] ∨ ∃ c sign ds, e = c :: (sign ++ ds) ∧ (c = 'e' ∨ c = 'E') ∧
    (sign = [] ∨ sign = ['+'] ∨ sign = ['-']) ∧ IsDigits ds

/-- The characters are a number: a sign, a whole part, a fraction and an exponent. -/
def Numeral (cs : List Char) : Prop :=
  ∃ minus whole f e, cs = minus ++ (whole ++ (f ++ e)) ∧ (minus = [] ∨ minus = ['-']) ∧
    IsWhole whole ∧ IsFraction f ∧ IsExponent e

/-- Does the number have a fraction or an exponent? -/
def isFractional (cs : List Char) : Bool :=
  cs.any fun c => c == '.' || c == 'e' || c == 'E'

/-- The token of a number. -/
def numberToken (cs : List Char) : Token :=
  if isFractional cs then .float (String.ofList cs) else .int (String.ofList cs)

/-- No digit comes next. -/
def NoDigit (rest : List Char) : Prop := ∀ c ∈ rest.head?, c.isDigit = false

theorem isDigit_ne {c d : Char} (h : c.isDigit = true) (hd : d.isDigit = false) : c ≠ d := by
  rintro rfl
  simp [h] at hd

theorem not_isFractional_digits {ds : List Char} (h : ds.all Char.isDigit = true) :
    isFractional ds = false := by
  simp only [isFractional, List.any_eq_false, List.all_eq_true] at h ⊢
  intro c hc
  have h₁ := isDigit_ne (d := '.') (h c hc) (by decide)
  have h₂ := isDigit_ne (d := 'e') (h c hc) (by decide)
  have h₃ := isDigit_ne (d := 'E') (h c hc) (by decide)
  simp [h₁, h₂, h₃]

theorem isFractional_parts {minus whole f e : List Char} (hm : minus = [] ∨ minus = ['-'])
    (hw : IsWhole whole) (hf : IsFraction f) (he : IsExponent e) :
    isFractional (minus ++ (whole ++ (f ++ e))) = !(f.isEmpty && e.isEmpty) := by
  have h₁ : isFractional minus = false := by rcases hm with rfl | rfl <;> rfl
  have h₂ := not_isFractional_digits hw.1.2
  have h₃ : isFractional f = !f.isEmpty := by rcases hf with rfl | ⟨ds, rfl, -⟩ <;> rfl
  have h₄ : isFractional e = !e.isEmpty := by
    rcases he with rfl | ⟨c, sign, ds, rfl, rfl | rfl, -⟩ <;> rfl
  simp only [isFractional, List.any_append] at h₁ h₂ h₃ h₄ ⊢
  rw [h₁, h₂, h₃, h₄]
  cases f.isEmpty <;> cases e.isEmpty <;> rfl

theorem noDigit_of_breaks {rest : List Char} (h : rest = [] ∨ breaks rest = true) :
    NoDigit rest := by
  rintro c hc
  rcases h with rfl | h
  · simp at hc
  · cases rest with
    | nil => cases h
    | cons d r =>
      simp only [List.head?_cons, Option.mem_def, Option.some.injEq] at hc
      subst hc
      simp only [breaks, isNameChar, Char.isAlphanum, Bool.not_eq_true', Bool.or_eq_false_iff] at h
      exact h.1.1.1.2

theorem readDigits_append {ds rest : List Char} (h : IsDigits ds) (hr : NoDigit rest) :
    readDigits (ds ++ rest) = some (ds, rest) := by
  have htake : (ds ++ rest).takeWhile Char.isDigit = ds := by
    rw [List.takeWhile_append_of_pos (by simpa using h.2)]
    cases rest with
    | nil => simp
    | cons c r => simp [hr c (by simp)]
  simp [readDigits, htake, h.1]

theorem readWhole_append {ds rest : List Char} (h : IsWhole ds) (hr : NoDigit rest) :
    readWhole (ds ++ rest) = some (ds, rest) := by
  unfold readWhole
  split
  · rename_i r heq
    have hd : ds = ['0'] := by
      apply h.2
      cases ds with
      | nil => exact absurd rfl h.1.1
      | cons c ds => simp only [List.cons_append, List.cons.injEq] at heq; simp [heq.1]
    subst hd
    simp only [List.cons_append, List.nil_append, List.cons.injEq, true_and] at heq
    subst heq
    rw [if_neg]
    cases rest with
    | nil => simp
    | cons c r => simp [hr c (by simp)]
  · exact readDigits_append h.1 hr

theorem readFraction_append {f rest : List Char} (h : IsFraction f) (hr : NoDigit rest)
    (hdot : rest.head? ≠ some '.') : readFraction (f ++ rest) = some (f, rest) := by
  rcases h with rfl | ⟨ds, rfl, hd⟩
  · rw [List.nil_append]
    unfold readFraction
    split
    · simp at hdot
    · rfl
  · rw [List.cons_append, readFraction, readDigits_append hd hr]
    rfl

theorem readExponentSign_append {sign ds : List Char}
    (hs : sign = [] ∨ sign = ['+'] ∨ sign = ['-']) (hd : IsDigits ds) (rest : List Char) :
    readExponentSign (sign ++ (ds ++ rest)) = (sign, ds ++ rest) := by
  rcases hs with rfl | rfl | rfl
  · cases ds with
    | nil => exact absurd rfl hd.1
    | cons c ds =>
      have hc : c.isDigit = true := by have := hd.2; simp at this; exact this.1
      rw [List.nil_append, List.cons_append]
      unfold readExponentSign
      split
      · rename_i heq; cases heq; exact absurd hc (by decide)
      · rename_i heq; cases heq; exact absurd hc (by decide)
      · rfl
  · rfl
  · rfl

theorem readExponent_append {e rest : List Char} (h : IsExponent e) (hr : NoDigit rest)
    (he : ∀ c ∈ rest.head?, c ≠ 'e' ∧ c ≠ 'E') : readExponent (e ++ rest) = some (e, rest) := by
  rcases h with rfl | ⟨c, sign, ds, rfl, hc, hs, hd⟩
  · cases rest with
    | nil => rfl
    | cons c r => simp [readExponent, he c (by simp)]
  · rw [List.cons_append, List.append_assoc, readExponent,
      if_pos (by rcases hc with rfl | rfl <;> rfl), readExponentSign_append hs hd]
    simp only [readDigits_append hd hr]
    rfl

theorem IsWhole.head {ds : List Char} (h : IsWhole ds) :
    ∃ c r, ds = c :: r ∧ c.isDigit = true := by
  cases ds with
  | nil => exact absurd rfl h.1.1
  | cons c r =>
    have := h.1.2
    simp only [List.all_cons, Bool.and_eq_true] at this
    exact ⟨c, r, rfl, this.1⟩

/-- What follows the whole part of a number shows that no digit is missing. -/
theorem tail_of_whole {f e rest : List Char} (hf : IsFraction f) (he : IsExponent e)
    (hr : rest = [] ∨ breaks rest = true) :
    NoDigit (f ++ (e ++ rest)) ∧ NoDigit (e ++ rest) ∧ (e ++ rest).head? ≠ some '.' ∧
      (∀ c ∈ rest.head?, c ≠ 'e' ∧ c ≠ 'E') := by
  have hr' : NoDigit rest := noDigit_of_breaks hr
  have hdot : rest.head? ≠ some '.' := by
    rcases hr with rfl | hr
    · simp
    · cases rest with
      | nil => simp
      | cons c r => rintro h; cases h; cases hr
  have hexp : ∀ c ∈ rest.head?, c ≠ 'e' ∧ c ≠ 'E' := by
    rcases hr with rfl | hr
    · simp
    · cases rest with
      | nil => simp
      | cons c r =>
        rintro d hd
        cases hd
        constructor <;> (rintro rfl; cases hr)
  have he' : NoDigit (e ++ rest) ∧ (e ++ rest).head? ≠ some '.' := by
    rcases he with rfl | ⟨c, sign, ds, rfl, hc, -, -⟩
    · exact ⟨hr', hdot⟩
    · rcases hc with rfl | rfl <;> exact ⟨by rintro d hd; cases hd; rfl, by simp⟩
  refine ⟨?_, he'.1, he'.2, hexp⟩
  rcases hf with rfl | ⟨ds, rfl, -⟩
  · exact he'.1
  · rintro d hd; cases hd; rfl

theorem readNumber_numeral {cs rest : List Char} (h : Numeral cs)
    (hr : rest = [] ∨ breaks rest = true) :
    readNumber (cs ++ rest) = some (numberToken cs, rest) := by
  obtain ⟨minus, whole, f, e, rfl, hm, hw, hf, he⟩ := h
  obtain ⟨h₁, h₂, h₃, h₄⟩ := tail_of_whole hf he hr
  have hsign : (if ((minus ++ (whole ++ (f ++ e)) ++ rest).head? == some '-') = true then
      (['-'], (minus ++ (whole ++ (f ++ e)) ++ rest).tail)
      else ([], minus ++ (whole ++ (f ++ e)) ++ rest)) = (minus, whole ++ (f ++ (e ++ rest))) := by
    rcases hm with rfl | rfl
    · obtain ⟨c, r, rfl, hc⟩ := hw.head
      have hne : c ≠ '-' := isDigit_ne hc (by decide)
      simp [hne]
    · simp
  have hcont : (rest.head?.map continuesNumber).getD false = false := by
    rcases hr with rfl | hr
    · rfl
    · cases rest with
      | nil => rfl
      | cons c r =>
        simp only [breaks, Bool.not_eq_true', Bool.or_eq_false_iff] at hr
        have : isNameStart c = false := by
          rw [← Bool.not_eq_true]
          intro hs
          rw [isNameChar_of_isNameStart hs] at hr
          simp at hr
        simp [continuesNumber, this, hr.1.2]
  unfold readNumber
  simp only [hsign, readWhole_append hw h₁, readFraction_append hf h₂ h₃,
    readExponent_append he (noDigit_of_breaks hr) h₄, Option.bind_eq_bind, Option.bind_some, hcont,
    Bool.false_eq_true, if_false]
  rw [numberToken, isFractional_parts hm hw hf he]
  cases hfe : f.isEmpty && e.isEmpty <;> simp [List.append_assoc]

theorem mem_of_isDigit {c : Char} (h : c.isDigit = true) :
    c ∈ ['0', '1', '2', '3', '4', '5', '6', '7', '8', '9'] := by
  simp only [Char.isDigit, Bool.and_eq_true, decide_eq_true_eq] at h
  have h₁ : 48 ≤ c.toNat := h.1
  have h₂ : c.toNat ≤ 57 := h.2
  rw [← Char.ofNat_toNat c]
  generalize c.toNat = n at h₁ h₂
  interval_cases n <;> decide

/-- A character that begins a number begins nothing else. -/
theorem begins_number {c : Char} (h : c = '-' ∨ c.isDigit = true) :
    c ≠ '.' ∧ c ≠ '"' ∧ c ≠ '#' ∧ isIgnored c = false ∧ signs.contains c = false ∧
      isNameStart c = false ∧ (c == '-' || c.isDigit) = true := by
  have hc : c ∈ ['-', '0', '1', '2', '3', '4', '5', '6', '7', '8', '9'] := by
    rcases h with rfl | h
    · decide
    · exact List.mem_cons_of_mem _ (mem_of_isDigit h)
  clear h
  simp only [List.mem_cons, List.not_mem_nil, or_false] at hc
  rcases hc with rfl | rfl | rfl | rfl | rfl | rfl | rfl | rfl | rfl | rfl | rfl <;> decide

theorem readToken_number {c : Char} (h : c = '-' ∨ c.isDigit = true) (r : List Char) :
    readToken (c :: r) = readNumber (c :: r) := by
  obtain ⟨h₁, h₂, -, -, h₃, h₄, h₅⟩ := begins_number h
  unfold readToken
  split
  · contradiction
  · rename_i heq; cases heq; exact absurd rfl h₁
  · rename_i heq; cases heq; exact absurd rfl h₂
  · rename_i heq; cases heq; exact absurd rfl h₂
  · rename_i heq
    cases heq
    rw [h₃, h₄, h₅]
    rfl

/-- A number begins with a minus sign or a digit. -/
theorem Numeral.exists_cons {cs : List Char} (h : Numeral cs) :
    ∃ c r, cs = c :: r ∧ (c = '-' ∨ c.isDigit = true) := by
  obtain ⟨minus, whole, f, e, rfl, hm, hw, -⟩ := h
  rcases hm with rfl | rfl
  · obtain ⟨c, r, rfl, hc⟩ := hw.head
    exact ⟨c, _, rfl, Or.inr hc⟩
  · exact ⟨'-', _, rfl, Or.inl rfl⟩

/-- A number is written with digits, a point and the signs of its parts. -/
theorem Numeral.not_mem {cs : List Char} (h : Numeral cs) {c : Char} (hd : c.isDigit = false)
    (hc : c ∉ ['-', '+', '.', 'e', 'E']) : c ∉ cs := by
  simp only [List.mem_cons, List.not_mem_nil, or_false, not_or] at hc
  obtain ⟨hminus, hplus, hdot, he, hE⟩ := hc
  have hdigits : ∀ ds, IsDigits ds → c ∉ ds := fun ds hds hm => by
    rw [List.all_eq_true.mp hds.2 c hm] at hd
    cases hd
  obtain ⟨minus, whole, f, e, rfl, hm, hw, hf, he'⟩ := h
  simp only [List.mem_append, not_or]
  refine ⟨?_, hdigits _ hw.1, ?_, ?_⟩
  · rcases hm with rfl | rfl <;> simp [hminus]
  · rcases hf with rfl | ⟨ds, rfl, hds⟩
    · simp
    · simp [hdot, hdigits ds hds]
  · rcases he' with rfl | ⟨x, sign, ds, rfl, hx, hs, hds⟩
    · simp
    · have hsign : c ∉ sign := by rcases hs with rfl | rfl | rfl <;> simp [hplus, hminus]
      have hx : c ≠ x := by rcases hx with rfl | rfl <;> assumption
      simp [hx, hsign, hdigits ds hds]

/-- A number in front of what breaks it off is read as a number. -/
theorem readToken_numeral {cs rest : List Char} (h : Numeral cs)
    (hr : rest = [] ∨ breaks rest = true) :
    readToken (cs ++ rest) = some (numberToken cs, rest) := by
  have hread := readNumber_numeral h hr
  obtain ⟨c, r, rfl, hc⟩ := h.exists_cons
  rw [List.cons_append] at hread ⊢
  rw [readToken_number hc, hread]

/-- A number is read as a number. -/
theorem scans_numeral {cs : List Char} (h : Numeral cs) :
    Scans cs (some [numberToken cs]) := by
  intro rest hr
  have hread := readToken_numeral h hr
  obtain ⟨c, r, rfl, hc⟩ := h.exists_cons
  obtain ⟨-, -, hcomment, hignored, -⟩ := begins_number hc
  rw [List.cons_append] at hread ⊢
  rw [tokens?_token hignored hcomment, hread]
  rfl

/-- A minus sign before a letter begins no token. -/
theorem readToken_signedWord {c : Char} (hc : isNameStart c = true) (r : List Char) :
    readToken ('-' :: c :: r) = none := by
  have hd : c.isDigit = false := by
    rw [← Bool.not_eq_true]
    intro hd
    obtain ⟨-, -, -, -, -, hname, -⟩ := begins_number (Or.inr hd)
    rw [hc] at hname
    cases hname
  have hw : readWhole (c :: r) = none := by
    unfold readWhole
    split
    · rename_i heq; cases heq; exact absurd hd (by decide)
    · simp [readDigits, hd]
  rw [readToken_number (Or.inl rfl)]
  simp [readNumber, hw]

theorem scans_signedWord {c : Char} (hc : isNameStart c = true) (r : List Char) :
    Scans ('-' :: c :: r) none := by
  intro rest _
  rw [List.cons_append, List.cons_append, tokens?_token (by decide) (by decide),
    readToken_signedWord hc]
  rfl

/-- The characters are a number or a word, perhaps with a minus sign in front. -/
def Spelt (cs : List Char) : Prop :=
  Numeral cs ∨ ∃ minus w, cs = minus ++ w ∧ (minus = [] ∨ minus = ['-']) ∧
    isGraphQLNameChars w = true

/-- A number or a word has tokens of its own, or can have none. -/
theorem Spelt.scans {cs : List Char} (h : Spelt cs) : ∃ ts, Scans cs ts := by
  rcases h with h | ⟨minus, w, rfl, rfl | rfl, hw⟩
  · exact ⟨_, scans_numeral h⟩
  · exact ⟨_, scans_name hw⟩
  · cases w with
    | nil => cases hw
    | cons c w =>
      simp only [isGraphQLNameChars, Bool.and_eq_true] at hw
      exact ⟨_, scans_signedWord hw.1 w⟩

end Bindery.Definition
