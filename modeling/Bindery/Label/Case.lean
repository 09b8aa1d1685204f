import Bindery.Text.Casing

/-!
# The case of labels

The generated source spells schema names in three ways: classes in Pascal case, attributes and
modules in snake case, enum members and constants in upper case. Both conversions look at a
character and its two neighbours only, so each is one pass over the name.
-/

namespace Bindery.Label

open Bindery.Text

/-! ### Pascal case -/

/-- The ASCII characters that words are made of. -/
inductive Kind where
  /-- A lower-case letter. -/
  | low
  /-- An upper-case letter. -/
  | up
  /-- A digit. -/
  | digit
  deriving DecidableEq, Repr

/-- The kind of a character; all but ASCII letters and digits separate words. -/
def kindOf (c : Char) : Option Kind :=
  if c.isLower then some .low
  else if c.isUpper then some .up
  else if c.isDigit then some .digit
  else none

/-- Does a character of kind `k` start a word between neighbours of kinds `before` and `after`?
Of a run of capitals before a lower-case letter the last one starts the next word. -/
def startsWord (before : Option Kind) (k : Kind) (after : Option Kind) : Bool :=
  match k with
  | .low => !(before == some .low || before == some .up)
  | .up => before != some .up || after == some .low
  | .digit => before != some .digit

/-- The kind of the first character. -/
def nextKind : List Char → Option Kind
  | [] => none
  | c :: _ => kindOf c

/-- The words of the characters, each capitalised and its rest in lower case, after a character of
kind `before`. -/
def pascalFrom (before : Option Kind) : List Char → List Char
  | [] => []
  | c :: r =>
    match kindOf c with
    | none => pascalFrom none r
    | some k =>
      (if startsWord before k (nextKind r) then c.toUpper else c.toLower) :: pascalFrom (some k) r

/-- The characters in Pascal case; where there is no word, the underscores remain. -/
def pascalChars (cs : List Char) : List Char :=
  if cs.any fun c => (kindOf c).isSome then pascalFrom none cs
  else cs.filter (· == '_')

/-- The name in Pascal case. -/
def pascalCase (name : String) : String :=
  String.ofList (pascalChars name.toList)

/-! ### Snake case -/

/-- Is there a word boundary between `before` and an upper-case letter that `after` follows? -/
def breaksBefore (before : Char) (after : List Char) : Bool :=
  before.isLower || before.isDigit ||
    (before != '\n' && match after with
      | [] => false
      | d :: _ => d.isLower)

/-- The characters after `before` with an underscore at each word boundary. -/
def separateFrom (before : Char) : List Char → List Char
  | [] => []
  | c :: r =>
    if c.isUpper && breaksBefore before r then '_' :: c :: separateFrom c r
    else c :: separateFrom c r

/-- The characters with an underscore at each word boundary. -/
def separate : List Char → List Char
  | [] => []
  | c :: r => c :: separateFrom c r

/-- The name in snake case. -/
def snakeCase (name : String) : String :=
  String.ofList (lowerChars (separate name.toList))

/-- The name in upper case, with an underscore at each word boundary. -/
def upperCase (name : String) : String :=
  upper (snakeCase name)

/-! ### The first letter -/

/-- The characters with the first one in lower case. -/
def lowerFirstChars : List Char → List Char
  | [] => []
  | c :: r => lowerChars [c] ++ r

/-- The name with its first character in lower case. -/
def lowerFirst (name : String) : String :=
  String.ofList (lowerFirstChars name.toList)

end Bindery.Label
