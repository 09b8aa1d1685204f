import Bindery.Json.Value

/-!
# Reading JSON

A reader for JSON documents over a list of characters. Besides the standard it accepts the three
words for numbers that are not finite. The fuel bounds the number of nested calls; a document needs
at most two for each of its characters.
-/

namespace Bindery.Json

open Bindery.Number

/-- The characters that may stand between tokens. -/
def isSpace (c : Char) : Bool :=
  c == ' ' || c == '\t' || c == '\n' || c == '\r'

/-- The characters after the space. -/
def skip (cs : List Char) : List Char :=
  cs.dropWhile isSpace

/-- The value of a hexadecimal digit. -/
def hexValue? (c : Char) : Option Nat :=
  if c.isDigit then some (c.toNat - 48)
  else if 'a' ≤ c && c ≤ 'f' then some (c.toNat - 87)
  else if 'A' ≤ c && c ≤ 'F' then some (c.toNat - 55)
  else none

/-- The number that four hexadecimal digits write. -/
def hex4? (a b c d : Char) : Option Nat := do
  let a ← hexValue? a
  let b ← hexValue? b
  let c ← hexValue? c
  let d ← hexValue? d
  some (((a * 16 + b) * 16 + c) * 16 + d)

/-- Is the number the first half of a pair of code units? -/
def isHighUnit (n : Nat) : Bool :=
  0xD800 ≤ n && n ≤ 0xDBFF

/-- Is the number the second half of a pair of code units? -/
def isLowUnit (n : Nat) : Bool :=
  0xDC00 ≤ n && n ≤ 0xDFFF

/-- The character of a code unit; a half of a pair that stands alone has none of its own. -/
def unitChar (n : Nat) : Char :=
  if isHighUnit n || isLowUnit n then '\ufffd' else Char.ofNat n

/-- The characters of a string up to its closing quote, and the characters after it. The code unit
`high` is the first half of a pair that was read last. -/
def stringFrom (high : Option Nat) : List Char → Option (List Char × List Char)
  | [] => none
  | '"' :: r => some ((high.map unitChar).toList, r)
  | '\\' :: 'u' :: a :: b :: c :: d :: r =>
    match hex4? a b c d with
    | none => none
    | some n =>
      match high with
      | some h =>
        if isLowUnit n then
          (stringFrom none r).map fun (s, rest) =>
            (Char.ofNat (0x10000 + (h - 0xD800) * 0x400 + (n - 0xDC00)) :: s, rest)
        else if isHighUnit n then
          (stringFrom (some n) r).map fun (s, rest) => (unitChar h :: s, rest)
        else
          (stringFrom none r).map fun (s, rest) => (unitChar h :: unitChar n :: s, rest)
      | none =>
        if isHighUnit n then stringFrom (some n) r
        else (stringFrom none r).map fun (s, rest) => (unitChar n :: s, rest)
  | '\\' :: e :: r =>
    let plain : Option Char := match e with
      | '"' => some '"'
      | '\\' => some '\\'
      | '/' => some '/'
      | 'b' => some '\x08'
      | 'f' => some '\x0c'
      | 'n' => some '\n'
      | 'r' => some '\r'
      | 't' => some '\t'
      | _ => none
    match plain with
    | none => none
    | some c => (stringFrom none r).map fun (s, rest) => ((high.map unitChar).toList ++ c :: s, rest)
  | c :: r =>
    if c.toNat < 0x20 || c == '\\' then none
    else (stringFrom none r).map fun (s, rest) => ((high.map unitChar).toList ++ c :: s, rest)

/-- The digits at the front and the characters after them. -/
def spanDigits (cs : List Char) : List Char × List Char :=
  (cs.takeWhile Char.isDigit, cs.dropWhile Char.isDigit)

/-- The fraction of a number, if a point and a digit come next. -/
def readFraction : List Char → List Char × List Char
  | '.' :: c :: r => if c.isDigit then spanDigits (c :: r) else ([], '.' :: c :: r)
  | cs => ([], cs)

/-- The exponent of a number, if a letter, perhaps a sign, and a digit come next. -/
def readExponent (cs : List Char) : Option Int × List Char :=
  match cs with
  | e :: r =>
    if e == 'e' || e == 'E' then
      let (neg, body) := splitSign r
      let (ds, rest) := spanDigits body
      if ds.isEmpty then (none, cs)
      else (some (if neg then -(readDigits 0 ds : Int) else readDigits 0 ds), rest)
    else (none, cs)
  | [] => (none, cs)

/-- The digits before the point: a zero alone or digits that do not begin with one. -/
def readWhole : List Char → Option (List Char × List Char)
  | '0' :: r => some (['0'], r)
  | c :: r => if c.isDigit then some (spanDigits (c :: r)) else none
  | [] => none

/-- The number at the front of the characters, after its sign. -/
def readNumber (negative : Bool) (cs : List Char) : Option (Json × List Char) := do
  let (whole, r) ← readWhole cs
  let (frac, r) := readFraction r
  let (exp, r) := readExponent r
  let value := readDigits 0 (whole ++ frac)
  if frac.isEmpty && exp.isNone then
    some (.int (if negative then -(value : Int) else value), r)
  else
    some (.real (.finite negative value (exp.getD 0 - frac.length)), r)

/-- The characters after a word. -/
def afterWord (word : String) (cs : List Char) : Option (List Char) :=
  if word.toList.isPrefixOf cs then some (cs.drop word.length) else none

/-- The words that stand for values. -/
def wordValues : List (String × Json) :=
  [("null", .null), ("true", .bool true), ("false", .bool false),
   ("NaN", .real (.nan false false 0)), ("Infinity", .real (.infinite false)),
   ("-Infinity", .real (.infinite true))]

/-- The value of the word at the front of the characters. -/
def readWord (cs : List Char) : Option (Json × List Char) :=
  wordValues.findSome? fun (word, value) => (afterWord word cs).map fun r => (value, r)

mutual

/-- The value at the front of the characters, which do not begin with a space. -/
def readValue : Nat → List Char → Option (Json × List Char)
  | 0, _ => none
  | fuel + 1, cs =>
    match cs with
    | [] => none
    | '"' :: r => (stringFrom none r).map fun (s, rest) => (.str (String.ofList s), rest)
    | '[' :: r =>
      match skip r with
      | ']' :: rest => some (.arr [], rest)
      | r => (readItems fuel r).map fun (items, rest) => (.arr items, rest)
    | '{' :: r =>
      match skip r with
      | '}' :: rest => some (.obj [], rest)
      | r => (readFields fuel r).map fun (fields, rest) => (.obj (Keyed.ofList fields).entries, rest)
    | '-' :: r => (readNumber true r).or (readWord ('-' :: r))
    | cs => (readNumber false cs).or (readWord cs)

/-- The items of an array up to its closing bracket. -/
def readItems : Nat → List Char → Option (List Json × List Char)
  | 0, _ => none
  | fuel + 1, cs =>
    match readValue fuel cs with
    | none => none
    | some (item, r) =>
      match skip r with
      | ']' :: rest => some ([item], rest)
      | ',' :: r => (readItems fuel (skip r)).map fun (items, rest) => (item :: items, rest)
      | _ => none

/-- The fields of an object up to its closing brace. -/
def readFields : Nat → List Char → Option (List (String × Json) × List Char)
  | 0, _ => none
  | fuel + 1, cs =>
    match cs with
    | '"' :: r =>
      match stringFrom none r with
      | none => none
      | some (key, r) =>
        match skip r with
        | ':' :: r =>
          match readValue fuel (skip r) with
          | none => none
          | some (value, r) =>
            match skip r with
            | '}' :: rest => some ([(String.ofList key, value)], rest)
            | ',' :: r =>
              (readFields fuel (skip r)).map fun (fields, rest) =>
                ((String.ofList key, value) :: fields, rest)
            | _ => none
        | _ => none
    | _ => none

end

/-- The value that the characters write. -/
def ofChars? (cs : List Char) : Option Json :=
  match readValue (2 * cs.length + 2) (skip cs) with
  | some (j, rest) => if (skip rest).isEmpty then some j else none
  | none => none

/-- The value that a text writes. -/
def ofText? (s : String) : Option Json :=
  ofChars? s.toList

end Bindery.Json
