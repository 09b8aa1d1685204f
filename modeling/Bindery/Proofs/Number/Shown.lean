import Bindery.Number.Binary64
import Bindery.Proofs.Lexical.Numeral
import Mathlib.Algebra.Order.Field.Rat
import Mathlib.Algebra.Order.Field.Power
import Mathlib.Tactic.FieldSimp
import Mathlib.Tactic.Linarith
import Mathlib.Tactic.Positivity
import Mathlib.Tactic.Ring

/-!
# Shown numbers are numbers

The text of an integer, of a finite decimal number and of a finite number of double precision has
the form that the grammar of documents asks of a number.

## What is proved

* `pointed_parts`, `scientific_parts` — digits with a point among them, and perhaps an exponent, are
  the parts of a number, and what these are worth.
* `numeral_integer`, `numeral_decimal` and `numeral_double` — the three kinds of text.
* `onGrid_isSome` — seventeen digits are enough for every mantissa of fifty-three bits, so the
  search for the shortest digits finds some before it gives up.
* `spelt_decimal` — the text of any decimal number, finite or not, is a number or a word.
-/

namespace Bindery.Number

open Bindery.Definition (IsDigits IsWhole IsFraction IsExponent Numeral Spelt)

theorem isDigits_digitsOf (n : Nat) : IsDigits (digitsOf n) :=
  ⟨Nat.toDigits_ne_nil, List.all_eq_true.mpr fun _ hc =>
    Nat.isDigit_of_mem_toDigits (by decide) (by decide) hc⟩

theorem head_digitsOf {n : Nat} (h : (digitsOf n).head? = some '0') : n = 0 := by
  induction n using Nat.strong_induction_on with
  | _ n ih =>
    by_cases hn : n < 10
    · rw [digitsOf, Nat.toDigits_of_lt_base hn] at h
      simp only [List.head?_cons, Option.some.injEq] at h
      interval_cases n <;> first | rfl | cases h
    · have hne : Nat.toDigits 10 (n / 10) ≠ [] := Nat.toDigits_ne_nil
      rw [digitsOf, Nat.toDigits_of_base_le (by decide) (by omega),
        List.head?_append_of_ne_nil _ hne] at h
      have := ih (n / 10) (by omega) h
      omega

/-- The digits of a number have no zero in front of them. -/
theorem isWhole_digitsOf (n : Nat) : IsWhole (digitsOf n) := by
  refine ⟨isDigits_digitsOf n, ?_⟩
  intro h
  rw [head_digitsOf h]
  rfl

theorem isDigits_append {ds es : List Char} (h : IsDigits ds) (h' : es.all Char.isDigit = true) :
    IsDigits (ds ++ es) :=
  ⟨by simp [h.1], by rw [List.all_append, h.2, h']; rfl⟩

theorem all_zeros (n : Nat) : (zeros n).all Char.isDigit = true := by
  rw [zeros, List.all_eq_true]
  intro c hc
  rw [List.eq_of_mem_replicate hc]
  rfl

theorem isDigits_paddedDigits (width n : Nat) : IsDigits (paddedDigits width n) := by
  have h := isDigits_digitsOf n
  refine ⟨by simp [paddedDigits, h.1], ?_⟩
  have hz := all_zeros (width - (digitsOf n).length)
  rw [zeros] at hz
  rw [paddedDigits, List.all_append, hz, h.2]
  rfl

/-- The digits of a whole number with more digits behind them, unless it is zero. -/
theorem isWhole_append {ds es : List Char} (h : IsWhole ds) (hz : ds = ['0'] → es = [])
    (h' : es.all Char.isDigit = true) : IsWhole (ds ++ es) := by
  refine ⟨isDigits_append h.1 h', ?_⟩
  intro hh
  rw [List.head?_append_of_ne_nil _ h.1.1] at hh
  have hd := h.2 hh
  rw [hz hd, hd]
  rfl

/-! ### What digits are worth -/

theorem readDigits_digitsOf (n : Nat) : readDigits 0 (digitsOf n) = n := by
  have h := Nat.ofDigitChars_ten_toDigits (n := n)
  rw [Nat.ofDigitChars_eq_foldl] at h
  exact h

/-- What stands in front of digits is worth as many powers of ten as there are digits. -/
theorem readDigits_eq (n : Nat) (ds : List Char) :
    readDigits n ds = n * 10 ^ ds.length + readDigits 0 ds := by
  induction ds generalizing n with
  | nil => simp [readDigits]
  | cons c ds ih =>
    change readDigits (10 * n + digitValue c) ds = _ + readDigits (10 * 0 + digitValue c) ds
    rw [ih, ih (10 * 0 + digitValue c), List.length_cons, pow_succ]
    ring

theorem readDigits_append (ds es : List Char) :
    readDigits 0 (ds ++ es) = readDigits 0 ds * 10 ^ es.length + readDigits 0 es := by
  rw [← readDigits_eq, readDigits, readDigits, readDigits, List.foldl_append]

theorem readDigits_zeros (n : Nat) : readDigits 0 (zeros n) = 0 := by
  induction n with
  | zero => rfl
  | succ n ih => exact ih

/-- What a fraction is worth: its digits stand behind a point. -/
def fractionValue : List Char → ℚ
  | [] => 0
  | _ :: ds => readDigits 0 ds / 10 ^ ds.length

/-- Digits with a point among them are a whole part and perhaps a fraction. They are worth as much as
the digits without a point times a power of ten. -/
theorem pointed_parts {ds : List Char} (h : IsWhole ds) (place : Int)
    (hz : ds = ['0'] → place ≤ 1) :
    ∃ whole f, pointed ds place = whole ++ f ∧ IsWhole whole ∧ IsFraction f ∧
      readDigits 0 whole + fractionValue f =
        (readDigits 0 ds : ℚ) * (10 : ℚ) ^ (place - ds.length) := by
  have hlen : 0 < ds.length := List.length_pos_iff.mpr h.1.1
  unfold pointed
  split_ifs with h₁ h₂
  · refine ⟨['0'], _, rfl, ⟨⟨by simp, rfl⟩, fun _ => rfl⟩, Or.inr ⟨_, rfl, ?_⟩, ?_⟩
    · refine ⟨by simp [h.1.1], ?_⟩
      rw [List.all_append, all_zeros, h.1.2]
      rfl
    · have hplace : place - ds.length = -(((-place).toNat + ds.length : ℕ) : ℤ) := by omega
      have hlength : (zeros (-place).toNat).length = (-place).toNat := List.length_replicate
      have hzero : readDigits 0 ['0'] = 0 := rfl
      rw [fractionValue, readDigits_append, readDigits_zeros, hzero, List.length_append, hlength,
        hplace, zpow_neg, zpow_natCast, Nat.zero_mul, Nat.zero_add, Nat.cast_zero, zero_add,
        div_eq_mul_inv]
  · refine ⟨ds ++ zeros (place - ds.length).toNat, [], by simp, ?_, Or.inl rfl, ?_⟩
    · refine isWhole_append h (fun hd => ?_) (all_zeros _)
      have hp := hz hd
      rw [hd] at h₂ ⊢
      have : (place - ['0'].length).toNat = 0 := by simp at h₂ ⊢; omega
      rw [this]
      rfl
    · have hplace : place - ds.length = ((place - ds.length).toNat : ℤ) := by omega
      have hlength (n : ℕ) : (zeros n).length = n := List.length_replicate
      rw [fractionValue, add_zero, readDigits_append, readDigits_zeros, hlength, hplace,
        zpow_natCast, Int.toNat_natCast, Nat.add_zero, Nat.cast_mul, Nat.cast_pow, Nat.cast_ofNat]
  · have hp : 0 < place.toNat ∧ place.toNat < ds.length := by omega
    have htake : (ds.take place.toNat).all Char.isDigit = true := by
      rw [List.all_eq_true]
      exact fun c hc => List.all_eq_true.mp h.1.2 c (List.mem_of_mem_take hc)
    have hdrop : (ds.drop place.toNat).all Char.isDigit = true := by
      rw [List.all_eq_true]
      exact fun c hc => List.all_eq_true.mp h.1.2 c (List.mem_of_mem_drop hc)
    refine ⟨ds.take place.toNat, _, rfl, ⟨⟨?_, htake⟩, fun hh => ?_⟩,
      Or.inr ⟨_, rfl, ?_, hdrop⟩, ?_⟩
    · rw [← List.length_pos_iff, List.length_take]; omega
    · rw [List.head?_take, if_neg (by omega)] at hh
      have := congrArg List.length (h.2 hh)
      simp only [List.length_cons, List.length_nil] at this
      omega
    · rw [← List.length_pos_iff, List.length_drop]; omega
    · have hdigits := readDigits_append (ds.take place.toNat) (ds.drop place.toNat)
      rw [List.take_append_drop] at hdigits
      have hplace : place - ds.length = -((ds.drop place.toNat).length : ℤ) := by
        rw [List.length_drop]
        omega
      rw [fractionValue, hdigits, hplace, zpow_neg, zpow_natCast]
      push_cast
      field_simp

theorem isExponent_nil : IsExponent [] := Or.inl rfl

theorem isExponent_exponentChars (e : Int) : IsExponent (exponentChars e) := by
  refine Or.inr ⟨'E', [if e < 0 then '-' else '+'], digitsOf e.natAbs, rfl, Or.inr rfl, ?_,
    isDigits_digitsOf _⟩
  split_ifs <;> simp

theorem isExponent_shortExponentChars (e : Int) : IsExponent (shortExponentChars e) := by
  refine Or.inr ⟨'e', [if e < 0 then '-' else '+'], paddedDigits 2 e.natAbs, rfl, Or.inl rfl, ?_,
    isDigits_paddedDigits _ _⟩
  split_ifs <;> simp

theorem signChars_cases (negative : Bool) :
    signChars negative = [] ∨ signChars negative = ['-'] := by
  cases negative
  · exact Or.inl rfl
  · exact Or.inr rfl

/-- The text of an integer is a number. -/
theorem numeral_integer (n : Int) : Numeral (integerChars n) := by
  refine ⟨signChars (n < 0), digitsOf n.natAbs, [], [], ?_, signChars_cases _,
    isWhole_digitsOf _, Or.inl rfl, isExponent_nil⟩
  by_cases hn : n < 0 <;> simp [integerChars, signChars, hn]

/-- What an exponent is worth: its digits with their sign. -/
def exponentValue : List Char → Int
  | [] => 0
  | _ :: '-' :: ds => -readDigits 0 ds
  | _ :: '+' :: ds => readDigits 0 ds
  | _ :: ds => readDigits 0 ds

theorem exponentValue_exponentChars (e : Int) : exponentValue (exponentChars e) = e := by
  by_cases he : e < 0
  · simp only [exponentChars, he, if_true, exponentValue, readDigits_digitsOf]
    omega
  · simp only [exponentChars, he, if_false, exponentValue, readDigits_digitsOf]
    omega

/-- The text of digits times a power of ten is a whole part, a fraction and an exponent, which are
worth as much. -/
theorem scientific_parts {ds : List Char} (h : IsWhole ds) (e : Int) :
    ∃ whole f x, scientific ds e = whole ++ (f ++ x) ∧ IsWhole whole ∧ IsFraction f ∧
      IsExponent x ∧ (readDigits 0 whole + fractionValue f) * (10 : ℚ) ^ exponentValue x =
        readDigits 0 ds * (10 : ℚ) ^ e := by
  have hlen : ds = ['0'] → ds.length = 1 := fun hd => by rw [hd]; rfl
  unfold scientific
  dsimp only
  split_ifs with h₁ h₂
  · simp only [Bool.and_eq_true, decide_eq_true_eq] at h₁
    obtain ⟨w, f, hp, hw, hf, hv⟩ := pointed_parts h (e + ds.length)
      (fun hd => by have := hlen hd; omega)
    refine ⟨w, f, [], by rw [hp, List.append_nil], hw, hf, isExponent_nil, ?_⟩
    rw [hv, exponentValue, zpow_zero, mul_one, add_sub_cancel_right]
  · obtain ⟨w, f, hp, hw, hf, hv⟩ := pointed_parts h 1 (fun _ => Int.le_refl 1)
    refine ⟨w, f, [], by rw [hp, List.append_nil, List.append_nil], hw, hf, isExponent_nil, ?_⟩
    rw [beq_iff_eq] at h₂
    rw [hv, exponentValue, zpow_zero, mul_one, ← h₂, add_sub_cancel_right]
  · obtain ⟨w, f, hp, hw, hf, hv⟩ := pointed_parts h 1 (fun _ => Int.le_refl 1)
    refine ⟨w, f, _, by rw [hp, List.append_assoc], hw, hf, isExponent_exponentChars _, ?_⟩
    rw [hv, exponentValue_exponentChars, mul_assoc, ← zpow_add₀ (by norm_num)]
    congr 2
    omega

/-- The text of a finite decimal number is a number. -/
theorem numeral_decimal {d : Decimal} (h : d.isFinite = true) : Numeral d.chars := by
  cases d with
  | infinite => cases h
  | nan => cases h
  | finite negative c e =>
    obtain ⟨w, f, x, hs, hw, hf, hx, -⟩ := scientific_parts (isWhole_digitsOf c) e
    exact ⟨_, w, f, x, by rw [Decimal.chars, hs], signChars_cases _, hw, hf, hx⟩

/-! ### Numbers of double precision -/

theorem scaleBy_powers (b : Nat) (e : Int) (num den : Nat) : scaleBy b e num den =
    if e ≥ 0 then (num * b ^ e.toNat, den) else (num, den * b ^ (-e).toNat) := by
  simp only [scaleBy, Nat.pow_eq]

theorem scaleBy_pos {b : Nat} (hb : 0 < b) (e : Int) (num : Nat) {d : Nat} (hd : 0 < d) :
    0 < (scaleBy b e num d).2 := by
  rw [scaleBy_powers]
  split_ifs <;> simp only <;> positivity

/-- Scaling multiplies a fraction by a power of the base. -/
theorem scaleBy_eq {b : Nat} (hb : 0 < b) (e : Int) (num : Nat) {d : Nat} (hd : 0 < d) :
    ((scaleBy b e num d).1 : ℚ) / (scaleBy b e num d).2 = num / d * (b : ℚ) ^ e := by
  have hb' : (b : ℚ) ≠ 0 := by positivity
  have hd' : (d : ℚ) ≠ 0 := by positivity
  rw [scaleBy_powers]
  split_ifs with h
  · obtain ⟨n, rfl⟩ := Int.eq_ofNat_of_zero_le h
    simp only [Int.toNat_natCast, Nat.cast_mul, Nat.cast_pow, zpow_natCast]
    field_simp
  · obtain ⟨n, rfl⟩ : ∃ n : Nat, e = -n := ⟨(-e).toNat, by omega⟩
    simp only [neg_neg, Int.toNat_natCast, Nat.cast_mul, Nat.cast_pow, zpow_neg, zpow_natCast]
    field_simp

theorem lt_pow_length (n : Nat) : n < 10 ^ (digitsOf n).length :=
  (Nat.length_toDigits_le_iff (by decide) Nat.length_toDigits_pos).mp (Nat.le_refl _)

theorem pow_length_le {n : Nat} (h : 0 < n) : 10 ^ ((digitsOf n).length - 1) ≤ n := by
  by_contra hlt
  have hpos : 0 < (digitsOf n).length := Nat.length_toDigits_pos
  by_cases h1 : (digitsOf n).length = 1
  · rw [h1] at hlt; simp at hlt; omega
  · have := (Nat.length_toDigits_le_iff (n := n) (k := (digitsOf n).length - 1) (b := 10)
      (by decide) (by omega)).mpr (by omega)
    change (digitsOf n).length ≤ _ at this
    omega

/-- A fraction is no less than the power of ten of its leading digit. -/
theorem pow_decimalPlace_le {num den : Nat} (hn : 0 < num) (hd : 0 < den) :
    (10 : ℚ) ^ (decimalPlace num den - 1) ≤ num / den := by
  have hd' : (0 : ℚ) < den := by positivity
  unfold decimalPlace
  dsimp only
  generalize hg : ((digitsOf num).length : Int) - (digitsOf den).length = guess
  have hs := scaleBy_eq (b := 10) (by decide) (-guess) num hd
  have hp := scaleBy_pos (b := 10) (by decide) (-guess) num hd
  have hten : (0 : ℚ) < 10 ^ guess := by positivity
  rw [zpow_neg] at hs
  split_ifs with h
  · have h₁ : ((10 : ℚ) ^ (((digitsOf num).length : Int) - 1)) ≤ num := by
      have := pow_length_le hn
      have hpos : 0 < (digitsOf num).length := Nat.length_toDigits_pos
      have hlength : ((digitsOf num).length : Int) - 1 =
          (((digitsOf num).length - 1 : Nat) : Int) := by omega
      rw [hlength, zpow_natCast]
      exact_mod_cast this
    have h₂ : (den : ℚ) ≤ (10 : ℚ) ^ ((digitsOf den).length : Int) := by
      rw [zpow_natCast]
      exact_mod_cast (lt_pow_length den).le
    rw [le_div_iff₀ hd']
    calc (10 : ℚ) ^ (guess - 1) * den
        ≤ (10 : ℚ) ^ (guess - 1) * (10 : ℚ) ^ ((digitsOf den).length : Int) := by gcongr
      _ = (10 : ℚ) ^ (((digitsOf num).length : Int) - 1) := by
          rw [← zpow_add₀ (by norm_num)]; congr 1; omega
      _ ≤ num := h₁
  · have h₁ : (1 : ℚ) ≤ (scaleBy 10 (-guess) num den).1 / (scaleBy 10 (-guess) num den).2 := by
      rw [le_div_iff₀ (by exact_mod_cast hp), one_mul]
      exact_mod_cast Nat.le_of_not_lt h
    rw [hs] at h₁
    rw [add_sub_cancel_right]
    have := mul_le_mul_of_nonneg_right h₁ hten.le
    push_cast at this
    rwa [one_mul, mul_assoc, inv_mul_cancel₀ hten.ne', mul_one] at this

theorem scaleBy_num_pos {b : Nat} (hb : 0 < b) (e : Int) {n : Nat} (hn : 0 < n)
    (den : Nat) : 0 < (scaleBy b e n den).1 := by
  rw [scaleBy_powers]
  split_ifs <;> simp only <;> positivity

theorem onGrid_pos {m : Nat} {e k : Int} {d : Nat} (h : onGrid m e k = some d) : 0 < d := by
  unfold onGrid at h
  dsimp only at h
  split at h
  · rename_i hd _
    simp only [Bool.and_eq_true, bne_iff_ne, ne_eq] at hd
    split at h
    · cases h; exact Nat.pos_of_ne_zero hd.1
    · cases h; exact Nat.succ_pos _
  · rename_i hd _
    simp only [Bool.and_eq_true, bne_iff_ne, ne_eq] at hd
    cases h
    exact Nat.pos_of_ne_zero hd.1
  · cases h; exact Nat.succ_pos _
  · cases h

theorem RoundingInterval.holds_of_lt {i : RoundingInterval} {num den : Nat}
    (h : i.low * den < num) (h' : num < i.high * den) : i.holds num den = true := by
  unfold RoundingInterval.holds
  split_ifs
  · simp [h.le, h'.le]
  · simp [h, h']

/-- Of the two multiples of a unit next to a mantissa one rounds to it, where the unit is small
enough. All are in parts of which the mantissa's own unit has `gd` and the given one `gn`. -/
theorem holds_near {m gn gd d : Nat} {e : Int} (hm : m < 2 ^ 53) (hgn : 0 < gn) (hgd : 0 < gd)
    (hgrid : gn * 10 ^ 16 ≤ m * gd) (hbelow : d * gn ≤ m * gd) (habove : m * gd < d * gn + gn)
    (hd : d ≠ 0) :
    (roundingInterval m e).holds (4 * d * gn) gd = true ∨
      (roundingInterval m e).holds (4 * (d + 1) * gn) gd = true := by
  have hpos : 0 < d * gn := Nat.mul_pos (Nat.pos_of_ne_zero hd) hgn
  have hbits : m * gd ≤ (2 ^ 53 - 1) * gd := Nat.mul_le_mul_right _ (by omega)
  have hlow : 4 * d * gn = 4 * (d * gn) := Nat.mul_assoc _ _ _
  have hup : 4 * (d + 1) * gn = 4 * (d * gn) + 4 * gn := by
    rw [Nat.mul_assoc, Nat.add_mul, Nat.one_mul, Nat.mul_add]
  have hhigh : (4 * m + 2) * gd = 4 * (m * gd) + 2 * gd := by rw [Nat.add_mul, Nat.mul_assoc]
  have hsub (below : Nat) : (4 * m - below) * gd = 4 * (m * gd) - below * gd := by
    rw [Nat.sub_mul, Nat.mul_assoc]
  rw [hlow, hup]
  by_cases hfar : 4 * (d * gn) + 4 * gn < 4 * (m * gd) + 2 * gd
  · refine Or.inr (RoundingInterval.holds_of_lt ?_ (by rw [← hhigh] at hfar; exact hfar))
    show (4 * m - _) * gd < _
    rw [hsub]
    omega
  · refine Or.inl (RoundingInterval.holds_of_lt ?_ ?_)
    · show (4 * m - _) * gd < _
      rw [hsub]
      split_ifs with hpower
      · simp only [Bool.and_eq_true, beq_iff_eq] at hpower
        have hm : m = 2 ^ 52 := hpower.1
        rw [hm] at hgrid hbelow habove hfar
        omega
      · omega
    · show _ < (4 * m + 2) * gd
      rw [hhigh]
      omega

/-- A grid on which a mantissa is at least ten to the sixteenth has a point that rounds to it. -/
theorem onGrid_isSome {m : Nat} {e k : Int} (hm : m < 2 ^ 53)
    (hk : (10 : ℚ) ^ (k + 16) ≤ m * (2 : ℚ) ^ e) : ∃ d, onGrid m e k = some d := by
  have hden := scaleBy_pos (b := 10) (by decide) k 1 (d := 1) (by decide)
  have hnum := scaleBy_num_pos (b := 10) (by decide) k (n := 1) (by decide) 1
  have hgd := scaleBy_pos (b := 2) (by decide) (-e) (scaleBy 10 k 1 1).1 hden
  have hgn := scaleBy_num_pos (b := 2) (by decide) (-e) hnum (scaleBy 10 k 1 1).2
  have hunit := scaleBy_eq (b := 2) (by decide) (-e) (scaleBy 10 k 1 1).1 hden
  rw [scaleBy_eq (b := 10) (by decide) k 1 (by decide)] at hunit
  unfold onGrid
  dsimp only
  generalize scaleBy 2 (-e) (scaleBy 10 k 1 1).1 (scaleBy 10 k 1 1).2 = g at hgd hgn hunit
  obtain ⟨gn, gd⟩ := g
  dsimp only at hgd hgn hunit ⊢
  have hgrid : gn * 10 ^ 16 ≤ m * gd := by
    have htwo : (0 : ℚ) < 2 ^ e := by positivity
    have hgd' : (0 : ℚ) < gd := by exact_mod_cast hgd
    have hle : (gn : ℚ) / gd * 10 ^ 16 ≤ m := by
      rw [hunit, zpow_neg]
      push_cast
      rw [div_one, one_mul, mul_right_comm, ← div_eq_mul_inv, div_le_iff₀ htwo]
      calc (10 : ℚ) ^ k * 10 ^ 16 = (10 : ℚ) ^ (k + 16) := by
            rw [zpow_add₀ (by norm_num)]; norm_num
        _ ≤ m * 2 ^ e := hk
    rw [div_mul_eq_mul_div, div_le_iff₀ hgd'] at hle
    exact_mod_cast hle
  have hbelow : m * gd / gn * gn ≤ m * gd := Nat.div_mul_le_self _ _
  have habove : m * gd < m * gd / gn * gn + gn := Nat.lt_div_mul_add hgn
  have hone : m * gd / gn ≠ 0 := (Nat.div_pos (by omega) hgn).ne'
  have hnear := holds_near (e := e) hm hgn hgd hgrid hbelow habove hone
  generalize m * gd / gn = d at hbelow habove hone hnear ⊢
  rw [show (d != 0) = true by simpa using hone, Bool.true_and]
  rcases hnear with h | h
  · rw [h]
    cases (roundingInterval m e).holds (4 * (d + 1) * gn) gd <;> exact ⟨_, rfl⟩
  · rw [h]
    cases (roundingInterval m e).holds (4 * d * gn) gd <;> exact ⟨_, rfl⟩

theorem shortestFrom_pos {m : Nat} {e place : Int} {fuel n : Nat} (hm : m < 2 ^ 53)
    (hn : fuel + n = 17) (hp : (10 : ℚ) ^ (place - 1) ≤ m * (2 : ℚ) ^ e) :
    0 < (shortestFrom m e place fuel n).1 := by
  induction fuel generalizing n with
  | zero =>
    obtain ⟨d, hd⟩ := onGrid_isSome (k := place - n) hm
      (by rw [show place - n + 16 = place - 1 by omega]; exact hp)
    rw [shortestFrom, hd]
    exact onGrid_pos hd
  | succ fuel ih =>
    unfold shortestFrom
    split
    · rename_i hd
      exact onGrid_pos hd
    · exact ih (by omega)

theorem dropZeroEnd_cons {c : Char} (hc : c ≠ '0') (r : List Char) :
    dropZeroEnd (c :: r) = c :: dropZeroEnd r := by
  simp only [dropZeroEnd, List.reverse_cons, List.dropWhile_append]
  have hc' : (c == '0') = false := by simpa using hc
  split_ifs with h
  · rw [List.isEmpty_iff] at h
    simp [h, hc']
  · simp

theorem all_dropZeroEnd {ds : List Char} (h : ds.all Char.isDigit = true) :
    (dropZeroEnd ds).all Char.isDigit = true := by
  rw [List.all_eq_true] at h ⊢
  intro c hc
  rw [dropZeroEnd, List.mem_reverse] at hc
  exact h c (List.mem_reverse.mp ((List.dropWhile_sublist _).subset hc))

/-- The digits of a positive number without zeros at the end begin with the same digit. -/
theorem isWhole_dropZeroEnd {n : Nat} (h : 0 < n) :
    IsWhole (dropZeroEnd (digitsOf n)) ∧ dropZeroEnd (digitsOf n) ≠ ['0'] := by
  have hd := isDigits_digitsOf n
  cases hds : digitsOf n with
  | nil => exact absurd hds hd.1
  | cons c r =>
    have hc : c ≠ '0' := by
      rintro rfl
      have := head_digitsOf (n := n) (by rw [hds]; rfl)
      omega
    rw [hds] at hd
    have hr := all_dropZeroEnd hd.2
    rw [dropZeroEnd_cons hc] at hr ⊢
    refine ⟨⟨⟨by simp, hr⟩, fun hh => ?_⟩, fun hh => ?_⟩
    · exact absurd (Option.some.inj hh) hc
    · exact hc (List.cons.inj hh).1

/-- The shortest digits begin with one that is not zero. -/
theorem isWhole_shortestDigits {m : Nat} {e : Int} (h0 : 0 < m) (hm : m < 2 ^ 53) :
    IsWhole (shortestDigits m e).1 ∧ (shortestDigits m e).1 ≠ ['0'] := by
  have hnum := scaleBy_num_pos (b := 2) (by decide) e h0 1
  have hden := scaleBy_pos (b := 2) (by decide) e m (d := 1) (by decide)
  have hplace := pow_decimalPlace_le hnum hden
  rw [scaleBy_eq (by decide) e m (by decide)] at hplace
  push_cast at hplace
  rw [div_one] at hplace
  have hpos := shortestFrom_pos hm (rfl : 16 + 1 = 17) hplace
  exact isWhole_dropZeroEnd hpos

/-- Digits with a point and perhaps an exponent are a number. -/
theorem numeral_placedChars {ds : List Char} (h : IsWhole ds) (hz : ds ≠ ['0']) (place : Int)
    {minus : List Char} (hm : minus = [] ∨ minus = ['-']) :
    Numeral (minus ++ placedChars ds place) := by
  unfold placedChars
  split_ifs with h₁ h₂
  · refine ⟨minus, ds ++ zeros (place - ds.length).toNat, ['.', '0'], [], by simp, hm,
      isWhole_append h (fun hd => absurd hd hz) (all_zeros _), Or.inr ⟨['0'], rfl, by simp, rfl⟩,
      isExponent_nil⟩
  · obtain ⟨w, f, hp, hw, hf, -⟩ := pointed_parts h place (fun hd => absurd hd hz)
    exact ⟨minus, w, f, [], by rw [hp, List.append_nil], hm, hw, hf, isExponent_nil⟩
  · obtain ⟨w, f, hp, hw, hf, -⟩ := pointed_parts h 1 (fun hd => absurd hd hz)
    exact ⟨minus, w, f, _, by rw [hp, List.append_assoc], hm, hw, hf,
      isExponent_shortExponentChars _⟩

/-- Is the number finite, with a mantissa that has at most fifty-three bits? -/
def Binary64.isDouble : Binary64 → Bool
  | .finite _ m _ => m < 2 ^ 53
  | _ => false

/-- The text of a finite number of double precision is a number. -/
theorem numeral_double {x : Binary64} (h : x.isDouble = true) : Numeral x.chars := by
  cases x with
  | infinite => cases h
  | nan => cases h
  | finite negative m e =>
    simp only [Binary64.isDouble, decide_eq_true_eq] at h
    simp only [Binary64.chars]
    split_ifs with h0
    · exact ⟨signChars negative, ['0'], ['.', '0'], [], rfl, signChars_cases _,
        ⟨⟨by simp, rfl⟩, fun _ => rfl⟩, Or.inr ⟨['0'], rfl, by simp, rfl⟩, isExponent_nil⟩
    · have h0' : 0 < m := Nat.pos_of_ne_zero (by simpa using h0)
      obtain ⟨hw, hz⟩ := isWhole_shortestDigits (e := e) h0' h
      exact numeral_placedChars hw hz _ (signChars_cases _)

/-- The text of any decimal number, finite or not, is a number or a word. -/
theorem spelt_decimal (d : Decimal) : Spelt d.chars := by
  cases hf : d.isFinite with
  | true => exact Or.inl (numeral_decimal hf)
  | false =>
    obtain ⟨negative, w, hd, hw⟩ : ∃ negative w, d.chars = signChars negative ++ w ∧
        Text.isGraphQLNameChars w = true := by
      cases d with
      | finite => cases hf
      | infinite negative => exact ⟨negative, _, rfl, by decide⟩
      | nan sig negative p =>
        refine ⟨negative, _, List.append_assoc _ _ _, ?_⟩
        have hp : (if (p == 0) = true then [] else digitsOf p).all Text.isNameChar = true := by
          split_ifs
          · rfl
          · rw [List.all_eq_true]
            intro c hc
            have := List.all_eq_true.mp (isDigits_digitsOf p).2 c hc
            simp [Text.isNameChar, Char.isAlphanum, this]
        generalize (if (p == 0) = true then [] else digitsOf p) = payload at hp
        cases sig
        · show (Text.isNameStart 'N' && ("aN".toList ++ payload).all Text.isNameChar) = true
          rw [List.all_append, hp]
          rfl
        · show (Text.isNameStart 's' && ("NaN".toList ++ payload).all Text.isNameChar) = true
          rw [List.all_append, hp]
          rfl
    exact Or.inr ⟨signChars negative, w, hd, signChars_cases negative, hw⟩

end Bindery.Number
