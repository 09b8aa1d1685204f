import Bindery.Pattern.Syntax
import Bindery.Text.Blank
import Bindery.Text.Casing
import Bindery.Text.Table.Alphanumeric

/-!
# Characters of a set

Which characters a set holds. Where case is left aside, characters are compared by their lower-case
forms, and some lower-case forms count as one.
-/

namespace Bindery.Pattern

open Bindery.Text

/-- The code points whose lower-case forms count as one. -/
def sameLower : List (List Nat) :=
  [[105, 305], [115, 383], [181, 956], [837, 953, 8126], [912, 8147], [944, 8163], [946, 976],
    [949, 1013], [952, 977], [954, 1008], [960, 982], [961, 1009], [962, 963], [966, 981],
    [1074, 7296], [1076, 7297], [1086, 7298], [1089, 7299], [1090, 7300, 7301], [1098, 7302],
    [1123, 7303], [7304, 42571], [7777, 7835], [64261, 64262]]

/-- The code points that count as one with a lower-case code point. -/
def lowerClass (n : Nat) : List Nat :=
  (sameLower.find? fun l => l.contains n).getD [n]

/-- The lower-case form of a code point. -/
def lowerCode (ascii : Bool) (n : Nat) : Nat :=
  if n < 0x80 then (Char.ofNat n).toLower.toNat
  else if ascii then n
  else if n.isValidChar then
    match lowerChar (Char.ofNat n) with
    | c :: _ => c.toNat
    | [] => n
  else n

/-- The code points that a run moves to a code point. -/
def movedFrom (n : Nat) (r : Run) : List Nat :=
  let m := Int.toNat (n - r.shift)
  if r.move? m == some n then [m] else []

/-- The code points with a lower-case form, itself among them where it is one. -/
def codesWithLower (ascii : Bool) (n : Nat) : List Nat :=
  let candidates :=
    [n, if n < 0x80 then (Char.ofNat n).toUpper.toNat else n, 0x130] ++
      (if ascii then [] else Table.lowerRuns.flatMap (movedFrom n))
  candidates.filter fun m => lowerCode ascii m == n

/-- Is the character of a class? -/
def CharClass.holds (ascii : Bool) (c : CharClass) (x : Char) : Bool :=
  match c with
  | .digit => x.isDigit || (!ascii && inRanges Table.decimalDigit x)
  | .blank =>
    if ascii then x == ' ' || ('\t' ≤ x && x ≤ '\r') else isBlank x
  | .word =>
    x.isAlphanum || x == '_' || (!ascii && inRanges Table.alphanumeric x)

/-- Does an item hold a character, case regarded? -/
def SetItem.holds (ascii : Bool) (x : Char) : SetItem → Bool
  | .code n => x.toNat == n
  | .range lo hi => lo ≤ x.toNat && x.toNat ≤ hi
  | .cls c outside => c.holds ascii x != outside

/-- Does an item hold a character whose lower-case form is given, case left aside? -/
def SetItem.holdsFolded (ascii : Bool) (lower : Nat) : SetItem → Bool
  | .code n =>
    let m := lowerCode ascii n
    m == lower || (!ascii && (lowerClass m).contains lower)
  | .range lo hi =>
    let classes := if ascii then [lower] else lowerClass lower
    (classes.flatMap (codesWithLower ascii)).any fun n => lo ≤ n && n ≤ hi
  | .cls c outside => c.holds ascii (Char.ofNat lower) != outside

/-- Does a set hold a character? -/
def setHolds (how : Comparison) (items : List SetItem) (x : Char) : Bool :=
  if how.folds then items.any (SetItem.holdsFolded how.ascii (lowerCode how.ascii x.toNat))
  else items.any (SetItem.holds how.ascii x)

/-- Are two characters compared as one? -/
def sameChar (how : Comparison) (a b : Char) : Bool :=
  a == b || (how.folds && lowerCode how.ascii a.toNat == lowerCode how.ascii b.toNat)

end Bindery.Pattern
