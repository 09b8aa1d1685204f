import Bindery.Query.Error
import Bindery.Text.Blank

/-!
# Literals

The literals of a GraphQL document as trees, their text in two layouts, and the literal that an
argument value denotes. In the compact layout nothing is written that a reader could do without; in
the indented layout each element of a list or an object has a line of its own.
-/

namespace Bindery.Query

open Bindery.Number Bindery.Text

/-- A literal of a GraphQL document. -/
inductive Literal where
  /-- The null literal. -/
  | null
  /-- A truth value. -/
  | bool (b : Bool)
  /-- A number by its text. -/
  | number (lexeme : List Char)
  /-- A string. -/
  | string (s : List Char)
  /-- A member of an enumeration by its name. -/
  | member (name : List Char)
  /-- A variable. -/
  | variable (name : String)
  /-- A list. -/
  | list (items : List Literal)
  /-- An object. -/
  | object (fields : List (String × Literal))
  deriving Repr

instance : Inhabited Literal := ⟨.null⟩

/-! ### Layout -/

/-- How a document is laid out. -/
structure Layout where
  /-- Is each item written on a line of its own? -/
  indented : Bool
  /-- The number of spaces per level. -/
  size : Int
  deriving DecidableEq, Repr

/-- The layout without any space that could be left out. -/
def Layout.compact : Layout := ⟨false, 2⟩

/-- The space that separates tokens in the indented layout. -/
def Layout.space (l : Layout) : List Char :=
  if l.indented then [' '] else []

/-- The spaces at the start of a line of a level. -/
def Layout.indent (l : Layout) (level : Int) : List Char :=
  List.replicate (max level 0 * l.size).toNat ' '

/-- Texts with a separator between them. -/
def separated (sep : List Char) : List (List Char) → List Char
  | [] => []
  | [x] => x
  | x :: y :: r => x ++ sep ++ separated sep (y :: r)

/-- Items between brackets; in the indented layout each has a line one level further in. -/
def Layout.bracketed (l : Layout) (level : Int) (opening closing : Char)
    (items : List (List Char)) : List Char :=
  if items.isEmpty then [opening, closing]
  else if l.indented then
    [opening, '\n'] ++ separated [',', '\n'] (items.map (l.indent (level + 1) ++ ·)) ++ ['\n'] ++
      l.indent level ++ [closing]
  else
    opening :: separated [','] items ++ [closing]

/-! ### Strings -/

/-- The escape of a character in a string literal; other characters stand for themselves. -/
def escaped (c : Char) : List Char :=
  if c == '"' then ['\\', '"']
  else if c == '\\' then ['\\', '\\']
  else if c == '/' then ['\\', '/']
  else if c == '\x08' then ['\\', 'b']
  else if c == '\x0c' then ['\\', 'f']
  else if c == '\n' then ['\\', 'n']
  else if c == '\r' then ['\\', 'r']
  else if c == '\t' then ['\\', 't']
  else if c.toNat < 0x20 then '\\' :: 'u' :: hexDigits 4 c.toNat
  else [c]

/-- The characters as a string literal. -/
def stringLiteral (cs : List Char) : List Char :=
  '"' :: cs.flatMap escaped ++ ['"']

/-! ### Printing -/

mutual

/-- The text of a literal on a line of the given level. -/
def Literal.print (l : Layout) (level : Int) : Literal → List Char
  | .null => "null".toList
  | .bool b => if b then "true".toList else "false".toList
  | .number lexeme => lexeme
  | .string s => stringLiteral s
  | .member name => name
  | .variable name => '$' :: name.toList
  | .list items => l.bracketed level '[' ']' (printItems l (level + 1) items)
  | .object fields => l.bracketed level '{' '}' (printFields l (level + 1) fields)

/-- The texts of the items of a list. -/
def printItems (l : Layout) (level : Int) : List Literal → List (List Char)
  | [] => []
  | v :: r => v.print l level :: printItems l level r

/-- The texts of the fields of an object. -/
def printFields (l : Layout) (level : Int) : List (String × Literal) → List (List Char)
  | [] => []
  | (k, v) :: r => (k.toList ++ ':' :: l.space ++ v.print l level) :: printFields l level r

end

/-! ### The literal of a value -/

/-- The moment through the mask, or in the ISO form where no mask is given. -/
def momentText (mask : Option String) (m : Moment) : List Char :=
  match mask with
  | some s => if s.isEmpty then m.iso else m.masked s.toList
  | none => m.iso

/-- The results in order, or the first error. -/
def inOrder {α : Type} : List (Except Error α) → Except Error (List α)
  | [] => .ok []
  | x :: r => do
    let a ← x
    let as ← inOrder r
    .ok (a :: as)

/-- A literal under a name. -/
def named (name : String) (x : Except Error Literal) : Except Error (String × Literal) :=
  x.map fun v => (name, v)

mutual

/-- The literal that a value denotes; moments are written through the mask. -/
def Value.literal (mask : Option String) : Value → Except Error Literal
  | .null => .ok .null
  | .bool b => .ok (.bool b)
  | .int n => .ok (.number (integerChars n))
  | .float x => if x.isFinite then .ok (.number x.chars) else .error (.notFinite x)
  | .decimal d => .ok (.number d.chars)
  | .text s => .ok (.string s.toList)
  | .uuid s => .ok (.string s.toList)
  | .moment m => .ok (.string (momentText mask m))
  | .member wire _ => .ok (.member wire.plain.toList)
  | .parameter h v =>
    match h.name with
    | some name => .ok (.variable name)
    | none => v.literal mask
  | .list items => (literalItems mask items).map .list
  | .tuple items => (literalItems mask items).map .list
  | .mapping entries => (literalEntries entries).map .object
  | .record properties => (literalProperties properties).map .object
  | .input cls assigned =>
    (inOrder (cls.properties.filterMap fun (p : InputProperty) =>
      (literalAt p.attr p.mask assigned).map (named p.graphqlName))).map .object
  | .bytes bs => .ok (.string (shownBytes bs).toList)
  | .shared _ => .error .endless

/-- The literals of the items of a sequence; the mask reaches each of them. -/
def literalItems (mask : Option String) : List Value → Except Error (List Literal)
  | [] => .ok []
  | v :: r => do
    let x ← v.literal mask
    let xs ← literalItems mask r
    .ok (x :: xs)

/-- The fields of the object that the entries of a mapping denote. -/
def literalEntries : List (Value × Value) → Except Error (List (String × Literal))
  | [] => .ok []
  | (k, v) :: r =>
    let key := k.plain
    if key.toList.any isBlank then .error (.blankInKey key)
    else do
      let x ← v.literal none
      let xs ← literalEntries r
      .ok ((key, x) :: xs)

/-- The fields of the object that named values denote. -/
def literalProperties :
    List (String × Value × Option String) → Except Error (List (String × Literal))
  | [] => .ok []
  | (name, v, mask) :: r => do
    let x ← v.literal mask
    let xs ← literalProperties r
    .ok ((name, x) :: xs)

/-- The literal of the value that was assigned to an attribute. -/
def literalAt (attr : String) (mask : Option String) :
    List (String × Value) → Option (Except Error Literal)
  | [] => none
  | (k, v) :: r => if k == attr then some (v.literal mask) else literalAt attr mask r

end

/-- The text of a value as an argument, on a line of the given level. -/
def Value.print (l : Layout) (level : Int) (mask : Option String) (v : Value) :
    Except Error String :=
  (v.literal mask).map fun x => String.ofList (x.print l level)

end Bindery.Query
