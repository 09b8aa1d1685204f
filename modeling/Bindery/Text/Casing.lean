import Bindery.Text.Range
import Bindery.Text.Table.Casing

/-!
# Upper and lower case

The full case mappings of Unicode: a character may become several, and a capital sigma becomes a
final sigma at the end of a word. On ASCII both mappings are the familiar ones, which is all that
names of a schema use.
-/

namespace Bindery.Text

/-- The characters of a list of code points. -/
def charsOf (ns : List Nat) : List Char :=
  ns.map Char.ofNat

/-- The lower-case form of a character that is no capital sigma. -/
def lowerChar (c : Char) : List Char :=
  if c.toNat < 0x80 then [c.toLower]
  else match Table.lowerLong.lookup c.toNat with
    | some ns => charsOf ns
    | none => [((moveIn Table.lowerRuns c.toNat).map Char.ofNat).getD c]

/-- The upper-case form of a character. -/
def upperChar (c : Char) : List Char :=
  if c.toNat < 0x80 then [c.toUpper]
  else match Table.upperLong.lookup c.toNat with
    | some ns => charsOf ns
    | none => [((moveIn Table.upperRuns c.toNat).map Char.ofNat).getD c]

/-- The Greek capital sigma, whose lower-case form depends on where it stands. -/
def capitalSigma : Char := '\u03a3'

/-- Does the next character that is not looked through have a case? -/
def seesCased (cs : List Char) : Bool :=
  match cs.dropWhile (inRanges Table.caseIgnorable) with
  | [] => false
  | c :: _ => inRanges Table.cased c

/-- The lower-case form of a character between its neighbours; `before` is read backwards. -/
def lowerAt (before : List Char) (c : Char) (after : List Char) : List Char :=
  if c == capitalSigma then
    if seesCased before && !seesCased after then ['\u03c2'] else ['\u03c3']
  else
    lowerChar c

/-- The lower-case form of the characters that follow `before`, which is read backwards. -/
def lowerFrom (before : List Char) : List Char → List Char
  | [] => []
  | c :: r => lowerAt before c r ++ lowerFrom (c :: before) r

/-- The characters in lower case. -/
def lowerChars (cs : List Char) : List Char :=
  lowerFrom [] cs

/-- The characters in upper case. -/
def upperChars (cs : List Char) : List Char :=
  cs.flatMap upperChar

/-- The text in lower case. -/
def lower (s : String) : String :=
  String.ofList (lowerChars s.toList)

/-- The text in upper case. -/
def upper (s : String) : String :=
  String.ofList (upperChars s.toList)

end Bindery.Text
