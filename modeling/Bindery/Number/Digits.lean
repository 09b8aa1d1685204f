import Bindery.Text.Range
import Bindery.Text.Table.Alphanumeric

/-!
# Digits

Decimal digits and the numbers that runs of digits write.
-/

namespace Bindery.Number

open Bindery.Text

/-- The value of an ASCII digit. -/
def digitValue (c : Char) : Nat :=
  c.toNat - 48

/-- The number that a run of ASCII digits continues from `n`. -/
def readDigits (n : Nat) (cs : List Char) : Nat :=
  cs.foldl (fun acc c => 10 * acc + digitValue c) n

/-- The decimal digits of a number. -/
def digitsOf (n : Nat) : List Char :=
  Nat.toDigits 10 n

/-- The decimal digits of a number, padded with zeros to a width. -/
def paddedDigits (width n : Nat) : List Char :=
  let ds := digitsOf n
  List.replicate (width - ds.length) '0' ++ ds

/-- That many zeros. -/
def zeros (n : Nat) : List Char :=
  List.replicate n '0'

/-- The decimal text of an integer. -/
def integerChars (n : Int) : List Char :=
  if n < 0 then '-' :: digitsOf n.natAbs else digitsOf n.natAbs

/-- The ASCII digit with the value of a decimal digit of any script. -/
def plainDigit? (c : Char) : Option Char :=
  if c.isDigit then some c
  else (Table.decimalDigit.find? fun r => r.has c.toNat).map fun r =>
    Char.ofNat (48 + (c.toNat - r.1) % 10)

/-- The characters with every decimal digit written in ASCII. -/
def plainDigits (cs : List Char) : List Char :=
  cs.map fun c => (plainDigit? c).getD c

/-- The digits of a run in which single underscores may stand between digits. -/
def groupedDigits? : List Char → Option (List Char)
  | [] => none
  | c :: r =>
    if !c.isDigit then none
    else match r with
      | [] => some [c]
      | '_' :: r' => (groupedDigits? r').map (c :: ·)
      | d :: r' => (groupedDigits? (d :: r')).map (c :: ·)

end Bindery.Number
