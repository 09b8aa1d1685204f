import Bindery.Number.Decimal

/-!
# Binary floating-point numbers

Double precision numbers as a sign, a mantissa below two to the fifty-third and a power of two. A
decimal number is rounded to the nearest one, to even in a tie. Written back, a number takes the
fewest digits that round to it, and of those the nearest; the search over the number of digits
compares exact fractions.
-/

namespace Bindery.Number

open Bindery.Text

/-- A double precision number. -/
inductive Binary64 where
  /-- The number `± mantissa · 2 ^ exponent`. -/
  | finite (negative : Bool) (mantissa : Nat) (exponent : Int)
  /-- An infinity. -/
  | infinite (negative : Bool)
  /-- No number. -/
  | nan
  deriving DecidableEq, Repr

/-- Is the number neither infinite nor no number? -/
def Binary64.isFinite : Binary64 → Bool
  | .finite .. => true
  | _ => false

/-- The nearest integer to a fraction, to even in a tie. -/
def roundHalfEven (num den : Nat) : Nat :=
  let q := num / den
  let r := num % den
  if 2 * r > den || (2 * r == den && q % 2 == 1) then q + 1 else q

/-- A numerator and a denominator multiplied by a power of `base`. -/
def scaleBy (base : Nat) (e : Int) (num den : Nat) : Nat × Nat :=
  if e ≥ 0 then (num * base.pow e.toNat, den) else (num, den * base.pow (-e).toNat)

/-- The least power of two that a double precision number is a multiple of. -/
def leastExponent : Int := -1074

/-- The power of two by which a positive fraction has a mantissa of fifty-three bits, or the least
power where the fraction is too small for that. -/
def mantissaExponent (num den : Nat) : Int :=
  let guess : Int := (num.log2 : Int) - den.log2 - 53
  let (n, d) := scaleBy 2 (-guess) num den
  let e := if n / d < Nat.pow 2 53 then guess else guess + 1
  max e leastExponent

/-- The number of double precision nearest to a positive fraction. -/
def Binary64.ofFraction (negative : Bool) (num den : Nat) : Binary64 :=
  let e := mantissaExponent num den
  let (n, d) := scaleBy 2 (-e) num den
  let m := roundHalfEven n d
  let (m, e) := if m == Nat.pow 2 53 then (Nat.pow 2 52, e + 1) else (m, e)
  if e > 971 then .infinite negative else .finite negative m e

/-- The number of double precision nearest to a decimal number. -/
def Binary64.ofDecimal : Decimal → Binary64
  | .finite neg c e =>
    if c == 0 then .finite neg 0 leastExponent
    else if e > 400 then .infinite neg
    else if e + (digitsOf c).length < -400 then .finite neg 0 leastExponent
    else
      let (n, d) := scaleBy 10 e c 1
      .ofFraction neg n d
  | .infinite neg => .infinite neg
  | .nan .. => .nan

/-- The double precision number that a text writes; single underscores may stand between digits. -/
def Binary64.ofText? (s : String) : Option Binary64 :=
  let cs := plainDigits (trimBlanks s.toList)
  let (neg, rest) := splitSign cs
  let grouped := rest.splitBy fun a b => (a.isDigit || a == '_') == (b.isDigit || b == '_')
  let plain := grouped.mapM fun part =>
    if part.any (· == '_') then groupedDigits? part else some part
  match (plain.bind fun parts => readUnsigned neg parts.flatten),
      readSpecial neg (rest.map Char.toLower) with
  | some d, _ => some (.ofDecimal d)
  | none, some (.infinite neg) => some (.infinite neg)
  | none, some (.nan false _ 0) =>
    if rest.length == 3 then some .nan else none
  | _, _ => none

/-! ### The fewest digits -/

/-- Twice the bounds of the numbers that round to a mantissa, and whether they round to it
themselves. All are in units of half the mantissa's power of two, doubled at a power of two, where
the numbers below are closer together. -/
structure RoundingInterval where
  /-- Four times the mantissa. -/
  middle : Nat
  /-- Four times the lower bound. -/
  low : Nat
  /-- Four times the upper bound. -/
  high : Nat
  /-- Are the bounds rounded to the mantissa? -/
  closed : Bool

/-- The numbers that round to a positive mantissa. -/
def roundingInterval (m : Nat) (e : Int) : RoundingInterval :=
  let below := if m == Nat.pow 2 52 && e > leastExponent then 1 else 2
  ⟨4 * m, 4 * m - below, 4 * m + 2, m % 2 == 0⟩

/-- Does the fraction `num / den` lie in the interval, whose bounds are multiplied by `den`? -/
def RoundingInterval.holds (i : RoundingInterval) (num den : Nat) : Bool :=
  if i.closed then i.low * den ≤ num && num ≤ i.high * den
  else i.low * den < num && num < i.high * den

/-- The number of decimal digits before the point of a positive fraction, not positive where zeros
follow the point. -/
def decimalPlace (num den : Nat) : Int :=
  let guess : Int := ((digitsOf num).length : Int) - (digitsOf den).length
  let (n, d) := scaleBy 10 (-guess) num den
  if n < d then guess else guess + 1

/-- The multiple of ten to the `k` that rounds to the mantissa and is nearest to it, if one of the
two multiples next to the mantissa rounds to it. -/
def onGrid (m : Nat) (e k : Int) : Option Nat :=
  let i := roundingInterval m e
  -- a multiple `d` of the grid is `d · 10 ^ k / 2 ^ e` in units of the mantissa
  let (gn, gd) := scaleBy 10 k 1 1
  let (gn, gd) := scaleBy 2 (-e) gn gd
  let value (d : Nat) := 4 * d * gn
  let d := m * gd / gn
  let down := d != 0 && i.holds (value d) gd
  let up := i.holds (value (d + 1)) gd
  let middle := i.middle * gd
  match down, up with
  | true, true =>
    let below := middle - value d
    let above := value (d + 1) - middle
    some (if below < above || (below == above && d % 2 == 0) then d else d + 1)
  | true, false => some d
  | false, true => some (d + 1)
  | false, false => none

/-- The digits and the power of ten of the shortest decimal that rounds to a positive mantissa,
trying grids from coarse to fine. -/
def shortestFrom (m : Nat) (e place : Int) : (fuel digits : Nat) → Nat × Int
  | 0, n => ((onGrid m e (place - n)).getD 0, place - n)
  | fuel + 1, n =>
    match onGrid m e (place - n) with
    | some d => (d, place - n)
    | none => shortestFrom m e place fuel (n + 1)

/-- The digits without zeros at the end. -/
def dropZeroEnd (ds : List Char) : List Char :=
  (ds.reverse.dropWhile (· == '0')).reverse

/-- The digits of the shortest decimal that rounds to a positive mantissa, and where its point
stands. -/
def shortestDigits (m : Nat) (e : Int) : List Char × Int :=
  let (n, d) := scaleBy 2 e m 1
  let place := decimalPlace n d
  let (c, k) := shortestFrom m e place 16 1
  let ds := digitsOf c
  (dropZeroEnd ds, ds.length + k)

/-- The exponent of a number in scientific form, with a sign and at least two digits. -/
def shortExponentChars (e : Int) : List Char :=
  'e' :: (if e < 0 then '-' else '+') :: paddedDigits 2 e.natAbs

/-- Digits with a point after `place` of them, positionally up to sixteen digits before the point
and three zeros after it. -/
def placedChars (ds : List Char) (place : Int) : List Char :=
  if -4 < place && place ≤ 16 then
    if place ≥ ds.length then ds ++ zeros (place - ds.length).toNat ++ ['.', '0']
    else pointed ds place
  else pointed ds 1 ++ shortExponentChars (place - 1)

/-- The shortest text that reads back as the number. -/
def Binary64.chars : Binary64 → List Char
  | .finite neg m e =>
    signChars neg ++
      if m == 0 then "0.0".toList
      else
        let (ds, place) := shortestDigits m e
        placedChars ds place
  | .infinite neg => signChars neg ++ "inf".toList
  | .nan => "nan".toList

end Bindery.Number
