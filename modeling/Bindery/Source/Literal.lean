/-!
# Text literals in programs

What stands between the quotes of a text literal: escapes, and the expressions of a formatted
literal between braces. Only the form is looked at; what a literal denotes is not needed here. Names
of characters are taken as they are.
-/

namespace Bindery.Source

/-! ### Escapes -/

/-- Is the character a hexadecimal digit? -/
def isHexDigit (c : Char) : Bool :=
  c.isDigit || ('a' ≤ c && c ≤ 'f') || ('A' ≤ c && c ≤ 'F')

/-- The value of a hexadecimal digit. -/
def hexValue (c : Char) : Nat :=
  if c.isDigit then c.toNat - 48 else c.toLower.toNat - 87

/-- Do that many hexadecimal digits come first, and do they stand for a code point? -/
def startsWithHex (count : Nat) (cs : List Char) : Bool :=
  let digits := cs.take count
  digits.length == count && digits.all isHexDigit &&
    digits.foldl (fun n c => 16 * n + hexValue c) 0 ≤ 0x10FFFF

/-- Does a name between braces come first? -/
def startsWithName : List Char → Bool
  | '\x7b' :: c :: r => c != '\x7d' && r.contains '\x7d'
  | _ => false

/-- Is what stands behind a backslash well formed? Bytes have only one escape with a fixed
length. -/
def escapeIsFormed (isBytes : Bool) (c : Char) (behind : List Char) : Bool :=
  if c == 'x' then startsWithHex 2 behind
  else if isBytes then true
  else if c == 'u' then startsWithHex 4 behind
  else if c == 'U' then startsWithHex 8 behind
  else if c == 'N' then startsWithName behind
  else true

/-- Are all escapes well formed? -/
def escapesAreFormed (isBytes : Bool) : List Char → Bool
  | '\\' :: c :: r => escapeIsFormed isBytes c r && escapesAreFormed isBytes r
  | _ :: r => escapesAreFormed isBytes r
  | [] => true

/-! ### Formatted literals -/

/-- The quotes inside which a place of an expression stands. -/
inductive Inside where
  /-- None. -/
  | code
  /-- A literal between single quotes. -/
  | short (quote : Char)
  /-- A literal between triple quotes. -/
  | long (quote : Char)

/-- The bracket that closes another one. -/
def closerOf : Char → Char
  | '(' => ')'
  | '[' => ']'
  | _ => '\x7d'

/-- Is the character an opening bracket? -/
def opensBracket (c : Char) : Bool :=
  c == '(' || c == '[' || c == '\x7b'

/-- Is the character a closing bracket? -/
def closesBracket (c : Char) : Bool :=
  c == ')' || c == ']' || c == '\x7d'

/-- May the character end an expression in a formatted literal? -/
def endsExpression (c : Char) : Bool :=
  c == '!' || c == ':' || c == '\x7d' || c == '='

/-- The expression in a formatted literal, and the characters from its end on. -/
def takeExpression : Nat → Inside → List Char → List Char → List Char →
    Option (List Char × List Char)
  | 0, _, _, _, _ => none
  | _, _, _, _, [] => none
  | fuel + 1, inside, brackets, taken, c :: r =>
    if c == '\\' then none
    else match inside with
      | .short q => takeExpression fuel (if c == q then .code else inside) brackets (c :: taken) r
      | .long q =>
        match r with
        | d :: e :: r' =>
          if c == q && d == q && e == q then
            takeExpression fuel .code brackets (e :: d :: c :: taken) r'
          else takeExpression fuel inside brackets (c :: taken) r
        | _ => none
      | .code =>
        if c == '\'' || c == '"' then
          match r with
          | d :: e :: r' =>
            if d == c && e == c then
              takeExpression fuel (.long c) brackets (e :: d :: c :: taken) r'
            else takeExpression fuel (.short c) brackets (c :: taken) r
          | _ => takeExpression fuel (.short c) brackets (c :: taken) r
        else if opensBracket c then takeExpression fuel .code (closerOf c :: brackets) (c :: taken) r
        else if c == '#' then none
        else if brackets.isEmpty && (c == '!' || c == '=' || c == '<' || c == '>') &&
            r.head? == some '=' then
          takeExpression fuel .code brackets ('=' :: c :: taken) r.tail
        else if brackets.isEmpty && endsExpression c then some (taken.reverse, c :: r)
        else if closesBracket c then
          match brackets with
          | b :: outer => if b == c then takeExpression fuel .code outer (c :: taken) r else none
          | [] => none
        else takeExpression fuel .code brackets (c :: taken) r

/-- A white space character of ASCII. -/
def isSpace (c : Char) : Bool :=
  c == ' ' || (9 ≤ c.toNat && c.toNat ≤ 13)

/-- The characters behind the sign that shows an expression with its value, if the sign comes. -/
def skipShown : List Char → List Char
  | '=' :: r => r.dropWhile isSpace
  | cs => cs

/-- The characters behind a conversion, if one comes. -/
def skipConversion : List Char → Option (List Char)
  | '!' :: c :: r => if c == 's' || c == 'r' || c == 'a' then some r else none
  | ['!'] => none
  | cs => some cs

/-- The parts of a formatted literal. -/
structure Pieces where
  /-- The expressions. -/
  expressions : List (List Char) := []
  /-- The texts between them. -/
  texts : List (List Char) := []

/-- The pieces together. -/
def Pieces.append (a b : Pieces) : Pieces :=
  ⟨a.expressions ++ b.expressions, a.texts ++ b.texts⟩

/-- Texts and expressions up to the end, or, inside an expression, up to its closing brace.
Expressions stand at most two levels deep. -/
def takePieces (isRaw : Bool) : Nat → (level : Nat) → (text : List Char) → List Char →
    Option (Pieces × List Char)
  | 0, _, _, _ => none
  | _, level, text, [] => if level == 0 then some (⟨[], [text.reverse]⟩, []) else none
  | fuel + 1, level, text, '\\' :: 'N' :: '\x7b' :: r =>
    if isRaw then takePieces isRaw fuel level ('N' :: '\\' :: text) ('\x7b' :: r)
    else
      let name := r.takeWhile (· != '\x7d')
      takePieces isRaw fuel level
        (('\x7b' :: name ++ (r.drop name.length).take 1).reverse ++ 'N' :: '\\' :: text)
        (r.drop (name.length + 1))
  | fuel + 1, level, text, '\\' :: c :: r =>
    if isRaw || c == '\x7b' || c == '\x7d' then takePieces isRaw fuel level ('\\' :: text) (c :: r)
    else takePieces isRaw fuel level (c :: '\\' :: text) r
  | fuel + 1, level, text, c :: r =>
    if (c == '\x7b' || c == '\x7d') && level == 0 && r.head? == some c then
      takePieces isRaw fuel level (c :: text) r.tail
    else if c == '\x7d' then
      if level == 0 then none else some (⟨[], [text.reverse]⟩, c :: r)
    else if c == '\x7b' then do
      if level ≥ 2 then none
      let (e, r) ← takeExpression (r.length + 1) .code [] [] r
      if e.all isSpace then none
      let r ← skipConversion (skipShown r)
      let (inner, r) ← match r with
        | ':' :: r => takePieces isRaw fuel (level + 1) [] r
        | _ => some (⟨[], []⟩, r)
      match r with
      | '\x7d' :: r =>
        let (rest, r) ← takePieces isRaw fuel level [] r
        some ((Pieces.mk [e] [text.reverse]).append (inner.append rest), r)
      | _ => none
    else takePieces isRaw fuel level (c :: text) r

/-! ### Literals -/

/-- The letters in front of a text literal. -/
structure LiteralKind where
  /-- Does the literal stand for bytes? -/
  isBytes : Bool
  /-- Are backslashes left as they are? -/
  isRaw : Bool
  /-- Does the literal hold expressions? -/
  isFormatted : Bool

/-- The kind of a literal with the given letters in front of it. -/
def LiteralKind.ofLetters? (letters : String) : Option LiteralKind :=
  [("", ⟨false, false, false⟩), ("u", ⟨false, false, false⟩), ("b", ⟨true, false, false⟩),
    ("r", ⟨false, true, false⟩), ("f", ⟨false, false, true⟩), ("br", ⟨true, true, false⟩),
    ("rb", ⟨true, true, false⟩), ("fr", ⟨false, true, true⟩), ("rf", ⟨false, true, true⟩)].lookup
    (String.ofList (letters.toList.map Char.toLower))

/-- The expressions of a literal with the given body, if the body is well formed. -/
def LiteralKind.expressions? (k : LiteralKind) (body : List Char) : Option (List (List Char)) :=
  if k.isFormatted then do
    let (pieces, _) ← takePieces k.isRaw (body.length + 1) 0 [] body
    if k.isRaw || pieces.texts.all (escapesAreFormed false) then some pieces.expressions else none
  else if k.isBytes && body.any fun c => c.toNat ≥ 128 then none
  else if k.isRaw || escapesAreFormed k.isBytes body then some []
  else none

/-- The body of a literal and the characters behind its closing quotes. -/
def takeBody (quote : Char) (isLong : Bool) (taken : List Char) :
    List Char → Option (List Char × List Char)
  | '\\' :: c :: r => takeBody quote isLong (c :: '\\' :: taken) r
  | c :: r =>
    if c == quote then
      if !isLong then some (taken.reverse, r)
      else match r with
        | d :: e :: r' =>
          if d == quote && e == quote then some (taken.reverse, r')
          else takeBody quote isLong (c :: taken) r
        | _ => none
    else if c == '\\' || (c == '\n' && !isLong) then none
    else takeBody quote isLong (c :: taken) r
  | [] => none

/-- The body of a literal that begins with a quote, and the characters behind the literal. -/
def takeLiteral (quote : Char) (behind : List Char) : Option (List Char × List Char) :=
  match behind with
  | d :: e :: r =>
    if d == quote && e == quote then takeBody quote true [] r else takeBody quote false [] behind
  | _ => takeBody quote false [] behind

end Bindery.Source
