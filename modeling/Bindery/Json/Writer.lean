import Bindery.Json.Value
import Bindery.Text.Quoted

/-!
# Writing JSON

The text of a JSON value on one line, in ASCII: all other characters are written as the escapes of
their code units.
-/

namespace Bindery.Json

open Bindery.Text Bindery.Number

/-- The escape of a code unit. -/
def escapeUnit (n : Nat) : List Char :=
  '\\' :: 'u' :: hexDigits 4 n

/-- How a character is written in a string. -/
def escapeChar (c : Char) : List Char :=
  let n := c.toNat
  if c == '"' then ['\\', '"']
  else if c == '\\' then ['\\', '\\']
  else if c == '\n' then ['\\', 'n']
  else if 0x20 ≤ n && n < 0x7F then [c]
  else if n < 0x10000 then escapeUnit n
  else escapeUnit (0xD800 + (n - 0x10000) / 0x400) ++ escapeUnit (0xDC00 + (n - 0x10000) % 0x400)

/-- A text appended to what was written, as a string between quotes. -/
def writeString (out s : String) : String :=
  (s.foldl (fun out c => (escapeChar c).foldl String.push out) (out.push '"')).push '"'

/-- The text of a number with a fraction or an exponent. -/
def realChars : Decimal → List Char
  | .finite neg c e =>
    if e < 0 && -e ≤ 400 then
      let ds := digitsOf c
      signChars neg ++ pointed (List.replicate ((-e).toNat + 1 - ds.length) '0' ++ ds)
        (max (ds.length : Int) (-e + 1) + e)
    else signChars neg ++ digitsOf c ++ ['.', '0'] ++ exponentChars e
  | .infinite neg => signChars neg ++ "Infinity".toList
  | .nan .. => "NaN".toList

mutual

/-- The value appended to what was written. -/
def write (out : String) : Json → String
  | .null => out ++ "null"
  | .bool b => out ++ (if b then "true" else "false")
  | .int n => out ++ String.ofList (integerChars n)
  | .real d => out ++ String.ofList (realChars d)
  | .str s => writeString out s
  | .arr items => (writeItems (out.push '[') true items).push ']'
  | .obj fields => (writeFields (out.push '\x7b') true fields).push '\x7d'

/-- The items of an array appended to what was written. -/
def writeItems (out : String) (first : Bool) : List Json → String
  | [] => out
  | j :: r => writeItems (write (if first then out else out ++ ", ") j) false r

/-- The fields of an object appended to what was written. -/
def writeFields (out : String) (first : Bool) : List (String × Json) → String
  | [] => out
  | (k, j) :: r =>
    writeFields (write (writeString (if first then out else out ++ ", ") k ++ ": ") j) false r

end

/-- The text of a value. -/
def text (j : Json) : String :=
  write "" j

end Bindery.Json
