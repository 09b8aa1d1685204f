import Bindery.Number.Digits
import Bindery.Text.Blank

/-!
# Decimal numbers

Numbers of any precision with a sign, a coefficient and a power of ten, and the special values. The
text of a number keeps its exponent: it is written positionally when the exponent is not positive
and the leading digit stands no further than six places after the point, and scientifically
otherwise.
-/

namespace Bindery.Number

open Bindery.Text

/-- A decimal number. -/
inductive Decimal where
  /-- The number `± coefficient · 10 ^ exponent`. -/
  | finite (negative : Bool) (coefficient : Nat) (exponent : Int)
  /-- An infinity. -/
  | infinite (negative : Bool)
  /-- No number; the payload is a number that is carried along. -/
  | nan (signaling negative : Bool) (payload : Nat)
  deriving DecidableEq, Repr

/-- A minus sign for negative numbers. -/
def signChars (negative : Bool) : List Char :=
  if negative then ['-'] else []

/-- An exponent with its sign. -/
def exponentChars (e : Int) : List Char :=
  'E' :: (if e < 0 then '-' else '+') :: digitsOf e.natAbs

/-- The digits with a point after the first `place` of them, where zeros are added on either side as
needed; no point is written after the last digit. -/
def pointed (ds : List Char) (place : Int) : List Char :=
  if place ≤ 0 then '0' :: '.' :: (zeros (-place).toNat ++ ds)
  else if place ≥ ds.length then ds ++ zeros (place - ds.length).toNat
  else ds.take place.toNat ++ '.' :: ds.drop place.toNat

/-- The text of the digits `ds` times a power of ten. -/
def scientific (ds : List Char) (exponent : Int) : List Char :=
  let place := exponent + ds.length
  if exponent ≤ 0 && place > -6 then pointed ds place
  else pointed ds 1 ++ (if place == 1 then [] else exponentChars (place - 1))

/-- The text of a decimal number. -/
def Decimal.chars : Decimal → List Char
  | .finite neg c e => signChars neg ++ scientific (digitsOf c) e
  | .infinite neg => signChars neg ++ "Infinity".toList
  | .nan sig neg p =>
    signChars neg ++ (if sig then "sNaN".toList else "NaN".toList) ++
      (if p == 0 then [] else digitsOf p)

/-- Is the number neither infinite nor no number? -/
def Decimal.isFinite : Decimal → Bool
  | .finite .. => true
  | _ => false

/-! ### Reading -/

/-- A sign and the characters after it. -/
def splitSign : List Char → Bool × List Char
  | '-' :: r => (true, r)
  | '+' :: r => (false, r)
  | cs => (false, cs)

/-- The exponent that the characters after the digits write; nothing at all is exponent zero. -/
def readExponent : List Char → Option Int
  | [] => some 0
  | c :: r =>
    if c.toLower != 'e' then none
    else
      let (neg, ds) := splitSign r
      if ds.isEmpty || !ds.all Char.isDigit then none
      else some (if neg then -(readDigits 0 ds : Int) else readDigits 0 ds)

/-- The number written by digits, a point, digits and an exponent. -/
def readUnsigned (negative : Bool) (cs : List Char) : Option Decimal :=
  let whole := cs.takeWhile Char.isDigit
  let rest := cs.dropWhile Char.isDigit
  let (fraction, rest) := match rest with
    | '.' :: r => (r.takeWhile Char.isDigit, r.dropWhile Char.isDigit)
    | r => ([], r)
  if whole.isEmpty && fraction.isEmpty then none
  else (readExponent rest).map fun e =>
    .finite negative (readDigits 0 (whole ++ fraction)) (e - fraction.length)

/-- The special value that the lower-case characters name. -/
def readSpecial (negative : Bool) (cs : List Char) : Option Decimal :=
  if cs == "inf".toList || cs == "infinity".toList then some (.infinite negative)
  else
    let (sig, rest) := match cs with
      | 's' :: r => (true, r)
      | r => (false, r)
    match rest with
    | 'n' :: 'a' :: 'n' :: ds =>
      if ds.all Char.isDigit then some (.nan sig negative (readDigits 0 ds)) else none
    | _ => none

/-- The decimal number that a text writes; blanks around it and underscores in it are ignored. -/
def Decimal.ofText? (s : String) : Option Decimal :=
  let cs := plainDigits ((trimBlanks s.toList).filter (· != '_'))
  let (neg, rest) := splitSign cs
  (readUnsigned neg rest).or (readSpecial neg (rest.map Char.toLower))

end Bindery.Number
