import Bindery.Source.Literal
import Bindery.Text.Identifier

/-!
# Tokens of programs

The text of a program as tokens. Outside brackets, the end of a line is a token, and so are the
places at which the indentation of lines grows and shrinks.
-/

namespace Bindery.Source

open Bindery.Text

/-- A token. -/
inductive Token where
  /-- A name that is no keyword. -/
  | name (text : String)
  /-- A keyword. -/
  | keyword (text : String)
  /-- A number. -/
  | number (isImaginary : Bool)
  /-- A text literal with the expressions in it. -/
  | literal (isBytes : Bool) (expressions : List (List Char))
  /-- An operator, a bracket or another sign. -/
  | sign (text : String)
  /-- The end of a line. -/
  | newline
  /-- The indentation grows. -/
  | indent
  /-- The indentation shrinks. -/
  | dedent
  deriving DecidableEq, Repr

/-! ### Numbers -/

/-- The characters behind digits that underscores may divide, if a digit comes first. -/
def digitTail (isDigit : Char → Bool) : Nat → List Char → Option (List Char)
  | 0, _ => none
  | fuel + 1, c :: r =>
    if !isDigit c then none
    else match r.dropWhile isDigit with
      | '_' :: r' => digitTail isDigit fuel r'
      | r' => some r'
  | _, [] => none

/-- The characters behind digits that underscores may divide. -/
def digits (isDigit : Char → Bool) (cs : List Char) : Option (List Char) :=
  digitTail isDigit (cs.length + 1) cs

/-- Is the character one of which names may be made? -/
def isWordChar (c : Char) : Bool :=
  c.isAlphanum || c == '_' || c.toNat ≥ 128

/-- The words that may stand right behind a number. -/
def numberEnds : List (List Char) :=
  ["and", "else", "for", "if", "in", "is", "or", "not"].map String.toList

/-- The characters behind a number, which no letter may follow except those of some words. -/
def endNumber (cs : List Char) : Option (List Char) :=
  if numberEnds.any fun w => w.isPrefixOf cs then some cs
  else if cs.head?.any isWordChar then none
  else some cs

/-- The characters behind the sign of an imaginary number, if it comes, and whether it does. -/
def takeImaginary (cs : List Char) : Option (Bool × List Char) :=
  match cs with
  | c :: r =>
    if c == 'j' || c == 'J' then (endNumber r).map fun r => (true, r)
    else (endNumber cs).map fun r => (false, r)
  | [] => some (false, [])

/-- The characters behind an exponent, if one comes, and behind the number. -/
def takeExponent (cs : List Char) : Option (Bool × List Char) :=
  match cs with
  | e :: r =>
    if e == 'e' || e == 'E' then
      match r with
      | s :: r' =>
        if s == '+' || s == '-' then (digits Char.isDigit r').bind takeImaginary
        else if s.isDigit then (digits Char.isDigit r).bind takeImaginary
        else (endNumber cs).map fun r => (false, r)
      | [] => none
    else takeImaginary cs
  | [] => some (false, [])

/-- The characters behind a fraction that begins with a digit or is empty, and behind the number. -/
def takeFraction (cs : List Char) : Option (Bool × List Char) :=
  if cs.head?.any Char.isDigit then (digits Char.isDigit cs).bind takeExponent else takeExponent cs

/-- The characters behind a number in a base other than ten. -/
def takeBased (isDigit : Char → Bool) (cs : List Char) : Option (Bool × List Char) := do
  let r ← digits isDigit (if cs.head? == some '_' then cs.drop 1 else cs)
  let r ← endNumber r
  return (false, r)

/-- Is a decimal number with the given digits written with needless zeros? -/
def hasLeadingZero (taken : List Char) : Bool :=
  taken.head? == some '0' && taken.any fun c => c != '0' && c != '_'

/-- Is the number that begins with a digit imaginary, and the characters behind it. -/
def takeNumber (cs : List Char) : Option (Bool × List Char) :=
  let based (r : List Char) (isDigit : Char → Bool) := takeBased isDigit r
  match cs with
  | '0' :: 'x' :: r | '0' :: 'X' :: r => based r isHexDigit
  | '0' :: 'o' :: r | '0' :: 'O' :: r => based r fun c => '0' ≤ c && c ≤ '7'
  | '0' :: 'b' :: r | '0' :: 'B' :: r => based r fun c => c == '0' || c == '1'
  | cs => do
    let r ← digits Char.isDigit cs
    match r with
    | '.' :: r => takeFraction r
    | c :: _ =>
      if c == 'e' || c == 'E' || c == 'j' || c == 'J' then takeExponent r
      else if hasLeadingZero (cs.take (cs.length - r.length)) then none
      else (endNumber r).map fun r => (false, r)
    | [] => if hasLeadingZero cs then none else some (false, [])

/-! ### Signs -/

/-- The signs of several characters, the longer ones first. -/
def longSigns : List (List Char) :=
  ["**=", "//=", ">>=", "<<=", "...", "==", "!=", "<=", ">=", "<<", ">>", "**", "//", "->", ":=", "+=",
    "-=", "*=", "/=", "%=", "&=", "|=", "^=", "@=", "<>"].map String.toList

/-- The longest sign that comes first, and the characters behind it. -/
def takeSign (cs : List Char) : List Char × List Char :=
  match longSigns.find? fun s => s.isPrefixOf cs with
  | some s => (s, cs.drop s.length)
  | none => (cs.take 1, cs.drop 1)

/-! ### Lines -/

/-- The indentation of a line: its width where tabs reach to every eighth column, and its width
where a tab is one column. -/
structure Indentation where
  /-- The width with wide tabs. -/
  wide : Nat
  /-- The width with narrow tabs. -/
  narrow : Nat
  deriving DecidableEq, Repr

/-- The indentation in front of a line and the rest of the line. A line may be continued on the next
one; then the place of the first continuation counts. -/
def takeIndentation : Indentation → Option Nat → List Char → Option (Indentation × List Char)
  | i, held, ' ' :: r => takeIndentation ⟨i.wide + 1, i.narrow + 1⟩ held r
  | i, held, '\t' :: r => takeIndentation ⟨(i.wide / 8 + 1) * 8, i.narrow + 1⟩ held r
  | _, held, '\x0c' :: r => takeIndentation ⟨0, 0⟩ held r
  | i, held, '\\' :: '\n' :: c :: r =>
    takeIndentation i (if held.getD 0 == 0 then some i.wide else held) (c :: r)
  | i, held, cs =>
    if cs.head? == some '\\' then none
    else match held.filter (· != 0) with
      | some n => some (⟨n, n⟩, cs)
      | none => some (i, cs)

/-- What is open at a place: the indentations of the lines around it, and the brackets. -/
structure Nesting where
  /-- The indentations that are greater than none, the innermost first. -/
  indentations : List Indentation := []
  /-- The closing brackets that must come, the innermost first. -/
  brackets : List Char := []

/-- The innermost indentation. -/
def Nesting.current (n : Nesting) : Indentation :=
  n.indentations.headD ⟨0, 0⟩

/-- The indentations that remain at a smaller one, with the number of those that end. -/
def closeIndentations (wide : Nat) : List Indentation → Nat × List Indentation
  | [] => (0, [])
  | i :: r =>
    if wide < i.wide then
      let (n, rest) := closeIndentations wide r
      (n + 1, rest)
    else (0, i :: r)

/-- The tokens for the indentation of a line, and what is open afterwards. -/
def Nesting.enter (n : Nesting) (i : Indentation) : Option (List Token × Nesting) :=
  let top := n.current
  if i.wide == top.wide then
    if i.narrow == top.narrow then some ([], n) else none
  else if i.wide > top.wide then
    if i.narrow ≤ top.narrow || n.indentations.length ≥ 99 then none
    else some ([.indent], { n with indentations := i :: n.indentations })
  else
    let (count, rest) := closeIndentations i.wide n.indentations
    let n := { n with indentations := rest }
    if n.current == i then some (List.replicate count Token.dedent, n) else none

/-- What is open behind a bracket. -/
def Nesting.bracket (n : Nesting) (c : Char) : Option Nesting :=
  if opensBracket c then
    if n.brackets.length ≥ 200 then none
    else some { n with brackets := closerOf c :: n.brackets }
  else if closesBracket c then
    match n.brackets with
    | b :: r => if b == c then some { n with brackets := r } else none
    | [] => none
  else some n

/-- The token of a word, and the characters behind it: a name, a keyword, or a text literal with
letters in front of it. -/
def takeWord (cs : List Char) : Option (Token × List Char) :=
  let word := String.ofList (cs.takeWhile isWordChar)
  let rest := cs.dropWhile isWordChar
  let quote := rest.head?.filter fun c => c == '\'' || c == '"'
  match quote, LiteralKind.ofLetters? word with
  | some q, some kind => do
    let (body, rest) ← takeLiteral q (rest.drop 1)
    let expressions ← kind.expressions? body
    return (.literal kind.isBytes expressions, rest)
  | _, _ =>
    if isKeyword word then some (.keyword word, rest)
    else if isIdentifier word then some (.name word, rest)
    else none

/-- The token that comes first, and the characters behind it. -/
def takeToken (cs : List Char) : Option (Token × List Char) :=
  match cs with
  | [] => none
  | c :: r =>
    if c.isDigit || (c == '.' && r.head?.any Char.isDigit) then
      (if c == '.' then takeFraction r else takeNumber cs).map fun (i, r) => (.number i, r)
    else if isWordChar c || c == '\'' || c == '"' then takeWord cs
    else
      let (s, r) := takeSign cs
      some (.sign (String.ofList s), r)

/-- The tokens behind those that were taken, which are kept in reverse order. Every step but the one
at the start of a line takes a character. -/
def scanFrom : Nat → (atStart : Bool) → Nesting → List Token → List Char → Option (List Token)
  | 0, _, _, _, _ => none
  | fuel + 1, true, n, taken, cs => do
    let (i, r) ← takeIndentation ⟨0, 0⟩ none cs
    match r with
    | [] =>
      if n.brackets.isEmpty then
        some ((List.replicate n.indentations.length Token.dedent ++ taken).reverse)
      else none
    | c :: _ =>
      if c == '#' || c == '\n' then
        scanFrom fuel true n taken ((r.dropWhile (· != '\n')).drop 1)
      else if !n.brackets.isEmpty then scanFrom fuel false n taken r
      else
        let (ts, n) ← n.enter i
        scanFrom fuel false n (ts ++ taken) r
  | fuel + 1, false, n, taken, cs =>
    match cs with
    | [] => none
    | '\n' :: r => scanFrom fuel true n (if n.brackets.isEmpty then .newline :: taken else taken) r
    | '\\' :: '\n' :: c :: r => scanFrom fuel false n taken (c :: r)
    | '\\' :: _ => none
    | c :: r =>
      if c == ' ' || c == '\t' || c == '\x0c' then scanFrom fuel false n taken r
      else if c == '#' then scanFrom fuel false n taken (r.dropWhile (· != '\n'))
      else do
        let n ← n.bracket c
        let (t, r) ← takeToken cs
        scanFrom fuel false n (t :: taken) r

/-- The characters with line feeds as the only ends of lines. -/
def unifyLines : List Char → List Char
  | '\r' :: '\n' :: r => '\n' :: unifyLines r
  | '\r' :: r => '\n' :: unifyLines r
  | c :: r => c :: unifyLines r
  | [] => []

/-- The tokens of a text, if it has any. A text may not hold the null character, and its last line
need not be ended. -/
def tokens? (text : List Char) : Option (List Token) :=
  let cs := unifyLines text
  let cs := if cs.getLast?.all (· == '\n') then cs else cs ++ ['\n']
  if cs.contains '\x00' then none else scanFrom (2 * cs.length + 2) true {} [] cs

end Bindery.Source
