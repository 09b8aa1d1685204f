import Bindery.Json.Reader
import Bindery.Text.Identifier

/-!
# Tokens of schema definitions

The lexical grammar of GraphQL documents: names, numbers, strings on one line and block strings, and
punctuation. Commas, blanks, line ends and comments separate tokens.
-/

namespace Bindery.Definition

open Bindery.Text

/-- A token. -/
inductive Token where
  /-- A name. -/
  | name (s : String)
  /-- An integer by its digits. -/
  | int (lexeme : String)
  /-- A number with a fraction or an exponent. -/
  | float (lexeme : String)
  /-- A string; a block string may stand on several lines. -/
  | string (s : String) (block : Bool)
  /-- A sign; three dots are written as one. -/
  | sign (c : Char)
  deriving DecidableEq, Repr

/-! ### Strings -/

/-- The value of hexadecimal digits. -/
def hexValue? (cs : List Char) : Option Nat :=
  cs.foldlM (fun n c => (Json.hexValue? c).map fun d => 16 * n + d) 0

/-- The character of a number that is one. -/
def scalarChar? (n : Nat) : Option Char :=
  if n.isValidChar then some (Char.ofNat n) else none

/-- The characters that a short escape stands for. -/
def shortEscape? (c : Char) : Option Char :=
  [('"', '"'), ('\\', '\\'), ('/', '/'), ('b', '\x08'), ('f', '\x0c'), ('n', '\n'), ('r', '\r'),
    ('t', '\t')].lookup c

/-- The character that an escape behind its first letter stands for, and the rest. -/
def readEscape : List Char → Option (Char × List Char)
  | 'u' :: '{' :: r =>
    let digits := r.takeWhile (· != '}')
    let rest := r.drop (digits.length + 1)
    if digits.isEmpty || digits.length > 8 || digits.length == r.length then none
    else do
      let c ← (hexValue? digits).bind scalarChar?
      return (c, rest)
  | 'u' :: a :: b :: c :: d :: r => do
    let n ← hexValue? [a, b, c, d]
    match scalarChar? n with
    | some x => return (x, r)
    | none =>
      match r with
      | '\\' :: 'u' :: e :: f :: g :: h :: r =>
        let m ← hexValue? [e, f, g, h]
        if n < 0xdc00 && 0xdc00 ≤ m && m < 0xe000 then
          return (Char.ofNat (0x10000 + (n - 0xd800) * 0x400 + (m - 0xdc00)), r)
        else none
      | _ => none
  | c :: r => (shortEscape? c).map fun x => (x, r)
  | [] => none

/-- The characters of a string up to its closing quote, and the rest. -/
def readString : Nat → List Char → Option (List Char × List Char)
  | 0, _ => none
  | fuel + 1, cs =>
    match cs with
    | [] => none
    | '"' :: r => some ([], r)
    | '\n' :: _ => none
    | '\r' :: _ => none
    | '\\' :: r => do
      let (c, r) ← readEscape r
      let (s, r) ← readString fuel r
      return (c :: s, r)
    | c :: r => do
      let (s, r) ← readString fuel r
      return (c :: s, r)

/-- The raw characters of a block string up to its closing quotes, and the rest. -/
def readBlock : List Char → Option (List Char × List Char)
  | [] => none
  | '"' :: '"' :: '"' :: r => some ([], r)
  | '\\' :: '"' :: '"' :: '"' :: r => do
    let (s, r) ← readBlock r
    return ('"' :: '"' :: '"' :: s, r)
  | c :: r => do
    let (s, r) ← readBlock r
    return (c :: s, r)

/-- The lines of a text; a line ends with a line feed, a carriage return or both. -/
def linesOf : List Char → List (List Char)
  | [] => [[]]
  | '\r' :: '\n' :: r => [] :: linesOf r
  | '\n' :: r => [] :: linesOf r
  | '\r' :: r => [] :: linesOf r
  | c :: r =>
    match linesOf r with
    | [] => [[c]]
    | l :: ls => (c :: l) :: ls

/-- Is the character a space or a tab? -/
def isIndent (c : Char) : Bool :=
  c == ' ' || c == '\t'

/-- The number of spaces and tabs at the start of a line. -/
def indentOf (line : List Char) : Nat :=
  (line.takeWhile isIndent).length

/-- Does the line hold nothing but spaces and tabs? -/
def isBlankLine (line : List Char) : Bool :=
  line.all isIndent

/-- The least indentation of the lines that hold anything. -/
def commonIndent (lines : List (List Char)) : Option Nat :=
  ((lines.filter fun l => !isBlankLine l).map indentOf).min?

/-- The lines without blank ones at the start and at the end. -/
def trimLines (lines : List (List Char)) : List (List Char) :=
  ((lines.dropWhile isBlankLine).reverse.dropWhile isBlankLine).reverse

/-- The lines without the common indentation of all but the first. -/
def dedent : List (List Char) → List (List Char)
  | [] => []
  | first :: rest =>
    let cut (l : List Char) : List Char :=
      match commonIndent rest with
      | some n => l.drop n
      | none => []
    trimLines (first :: rest.map cut)

/-- Lines with line feeds between them. -/
def joinLines : List (List Char) → List Char
  | [] => []
  | [l] => l
  | l :: m :: r => l ++ '\n' :: joinLines (m :: r)

/-! ### Numbers -/

/-- Digits that must be there, and the rest. -/
def readDigits (cs : List Char) : Option (List Char × List Char) :=
  let ds := cs.takeWhile Char.isDigit
  if ds.isEmpty then none else some (ds, cs.drop ds.length)

/-- The whole part of a number: no digit follows a zero at its start. -/
def readWhole : List Char → Option (List Char × List Char)
  | '0' :: r => if (r.head?.map Char.isDigit).getD false then none else some (['0'], r)
  | cs => readDigits cs

/-- The sign of an exponent, and the rest. -/
def readExponentSign : List Char → List Char × List Char
  | '+' :: r => (['+'], r)
  | '-' :: r => (['-'], r)
  | r => ([], r)

/-- The fraction of a number with its point, and the rest. -/
def readFraction : List Char → Option (List Char × List Char)
  | '.' :: r => (readDigits r).map fun (ds, r) => ('.' :: ds, r)
  | cs => some ([], cs)

/-- The exponent of a number with its letter, and the rest. -/
def readExponent : List Char → Option (List Char × List Char)
  | c :: r =>
    if c == 'e' || c == 'E' then
      let (sign, r) := readExponentSign r
      (readDigits r).map fun (ds, r) => (c :: sign ++ ds, r)
    else some ([], c :: r)
  | [] => some ([], [])

/-- Does the character forbid that a number ends before it? -/
def continuesNumber (c : Char) : Bool :=
  c == '.' || isNameStart c

/-- A number, and the rest. -/
def readNumber (cs : List Char) : Option (Token × List Char) := do
  let (minus, r) := if cs.head? == some '-' then (['-'], cs.tail) else ([], cs)
  let (whole, r) ← readWhole r
  let (fraction, r) ← readFraction r
  let (exponent, r) ← readExponent r
  if (r.head?.map continuesNumber).getD false then none
  else
    let lexeme := String.ofList (minus ++ whole ++ fraction ++ exponent)
    if fraction.isEmpty && exponent.isEmpty then return (.int lexeme, r)
    else return (.float lexeme, r)

/-! ### Tokens -/

/-- The signs of one character. -/
def signs : List Char :=
  ['!', '$', '&', '(', ')', ':', '=', '@', '[', ']', '{', '|', '}']

/-- Is the character left out between tokens? -/
def isIgnored (c : Char) : Bool :=
  c == ' ' || c == '\t' || c == ',' || c == '\n' || c == '\r' || c == '\ufeff'

/-- Is the character outside a comment that started before it? -/
def endsComment (c : Char) : Bool :=
  c == '\n' || c == '\r'

/-- The first token, and the rest. -/
def readToken (cs : List Char) : Option (Token × List Char) :=
  match cs with
  | [] => none
  | '.' :: '.' :: '.' :: r => some (.sign '.', r)
  | '"' :: '"' :: '"' :: r => do
    let (s, r) ← readBlock r
    return (.string (String.ofList (joinLines (dedent (linesOf s)))) true, r)
  | '"' :: r => do
    let (s, r) ← readString (r.length + 1) r
    return (.string (String.ofList s) false, r)
  | c :: r =>
    if signs.contains c then some (.sign c, r)
    else if isNameStart c then
      let rest := r.takeWhile isNameChar
      some (.name (String.ofList (c :: rest)), r.drop rest.length)
    else if c == '-' || c.isDigit then readNumber (c :: r)
    else none

/-- The tokens of a text; each step consumes a character. -/
def tokensWith : Nat → List Char → Option (List Token)
  | _, [] => some []
  | 0, _ => none
  | fuel + 1, c :: r =>
    if isIgnored c then tokensWith fuel r
    else if c == '#' then tokensWith fuel (r.dropWhile fun x => !endsComment x)
    else do
      let (t, r) ← readToken (c :: r)
      let ts ← tokensWith fuel r
      return t :: ts

/-- The tokens of a text. -/
def tokens? (cs : List Char) : Option (List Token) :=
  tokensWith (cs.length + 1) cs

end Bindery.Definition
