import Bindery.Query.Literal
import Bindery.Schema.Basic

/-!
# Documents

The definitions of a document as trees. A type may be defined once and extended any number of times;
definitions and extensions have the same parts. A document that defines a schema may also hold
operations and fragments.
-/

namespace Bindery.Definition

open Bindery.Schema (Kind)

/-- A literal. -/
inductive Literal where
  /-- A number by its digits; does it have a fraction or an exponent? -/
  | number (lexeme : String) (fractional : Bool)
  /-- A string; was it written as a block? -/
  | string (s : String) (block : Bool)
  /-- A truth value. -/
  | bool (b : Bool)
  /-- The null literal. -/
  | null
  /-- A member of an enumeration. -/
  | member (name : String)
  /-- A variable. -/
  | variable (name : String)
  /-- A list. -/
  | list (items : List Literal)
  /-- An object. -/
  | object (fields : List (String × Literal))
  deriving Repr

/-- A type as it is written. -/
inductive TypeExpr where
  /-- A type by its name. -/
  | named (name : String)
  /-- A list. -/
  | list (item : TypeExpr)
  /-- A type without the null value. -/
  | nonNull (inner : TypeExpr)
  deriving DecidableEq, Repr

/-- The name inside all lists and exclusions of null. -/
def TypeExpr.name : TypeExpr → String
  | .named n => n
  | .list t => t.name
  | .nonNull t => t.name

/-- Does the type exclude null? -/
def TypeExpr.isNonNull : TypeExpr → Bool
  | .nonNull _ => true
  | _ => false

/-- A directive that is applied. -/
structure Applied where
  /-- The name of the directive. -/
  name : String
  /-- The arguments in order. -/
  arguments : List (String × Literal)
  deriving Repr

/-- The definition of an argument or of a field of an input object. -/
structure InputPart where
  /-- What the argument is for. -/
  description : Option String
  /-- The name. -/
  name : String
  /-- The type. -/
  type : TypeExpr
  /-- The default value. -/
  fallback : Option Literal
  /-- The directives that are applied. -/
  directives : List Applied
  deriving Repr

/-- Must a value be given? -/
def InputPart.isRequired (p : InputPart) : Bool :=
  p.type.isNonNull && p.fallback.isNone

/-- The definition of a field. -/
structure FieldPart where
  /-- What the field is for. -/
  description : Option String
  /-- The name. -/
  name : String
  /-- The arguments. -/
  arguments : List InputPart
  /-- The type. -/
  type : TypeExpr
  /-- The directives that are applied. -/
  directives : List Applied
  deriving Repr

/-- The definition of a member of an enumeration. -/
structure MemberPart where
  /-- What the member is for. -/
  description : Option String
  /-- The name. -/
  name : String
  /-- The directives that are applied. -/
  directives : List Applied
  deriving Repr

/-- The definition or an extension of a type. -/
structure TypePart where
  /-- Is this an extension? -/
  isExtension : Bool
  /-- The kind of the type. -/
  kind : Kind
  /-- What the type is for. -/
  description : Option String
  /-- The name. -/
  name : String
  /-- The interfaces that are implemented. -/
  interfaces : List String
  /-- The directives that are applied. -/
  directives : List Applied
  /-- The fields of an object type or an interface. -/
  fields : List FieldPart
  /-- The members of a union. -/
  members : List String
  /-- The members of an enumeration. -/
  values : List MemberPart
  /-- The fields of an input object type. -/
  inputFields : List InputPart
  deriving Repr

/-- The definition of a directive. -/
structure DirectivePart where
  /-- What the directive is for. -/
  description : Option String
  /-- The name. -/
  name : String
  /-- The arguments. -/
  arguments : List InputPart
  /-- May the directive be applied more than once? -/
  isRepeatable : Bool
  /-- Where the directive may stand. -/
  locations : List String
  deriving Repr

/-- The definition or an extension of the schema. -/
structure SchemaPart where
  /-- Is this an extension? -/
  isExtension : Bool
  /-- The directives that are applied. -/
  directives : List Applied
  /-- The root types by the keywords of their operations. -/
  roots : List (String × String)
  deriving Repr

/-! ### Operations and fragments -/

/-- A selection of an operation or a fragment. -/
inductive Selected where
  /-- A field with its own selections, of which it has none where no selection set follows it. -/
  | field (aliasName : Option String) (name : String) (arguments : List (String × Literal))
      (directives : List Applied) (selections : List Selected)
  /-- A fragment by its name. -/
  | spread (name : String) (directives : List Applied)
  /-- A fragment that is written in place, perhaps on a type of its own. -/
  | inline (typeName : Option String) (directives : List Applied) (selections : List Selected)
  deriving Repr

/-- The definition of a variable. -/
structure VariablePart where
  /-- The name. -/
  name : String
  /-- The type. -/
  type : TypeExpr
  /-- The default value. -/
  fallback : Option Literal
  /-- The directives that are applied. -/
  directives : List Applied
  deriving Repr

/-- An operation or a fragment. -/
inductive Executable where
  /-- A selection set without a keyword. -/
  | bare (selections : List Selected)
  /-- An operation. -/
  | operation (keyword : String) (name : Option String) (parts : List VariablePart)
      (directives : List Applied) (selections : List Selected)
  /-- A fragment. -/
  | fragment (name typeName : String) (directives : List Applied) (selections : List Selected)
  deriving Repr

/-! ### Documents -/

/-- A definition. -/
inductive Item where
  /-- The definition or an extension of a type. -/
  | type (t : TypePart)
  /-- The definition of a directive. -/
  | directive (d : DirectivePart)
  /-- The definition or an extension of the schema. -/
  | schema (s : SchemaPart)
  /-- An operation or a fragment, which defines nothing of the schema. -/
  | executable (e : Executable)
  deriving Repr

/-- A document. -/
structure Document where
  /-- The definitions and extensions of types. -/
  types : List TypePart
  /-- The definitions of directives. -/
  directives : List DirectivePart
  /-- The definitions and extensions of the schema. -/
  schemas : List SchemaPart
  deriving Repr

/-- The operation or the fragment that an item is. -/
def Item.executable? : Item → Option Executable
  | .executable e => some e
  | _ => none

/-- The document of definitions. -/
def Document.ofDefinitions (ds : List Item) : Document where
  types := ds.filterMap fun
    | .type t => some t
    | _ => none
  directives := ds.filterMap fun
    | .directive d => some d
    | _ => none
  schemas := ds.filterMap fun
    | .schema s => some s
    | _ => none

/-! ### The text of a literal -/

/-- The escape of a character in a string; other characters stand for themselves. -/
def escaped (c : Char) : List Char :=
  if c == '"' then ['\\', '"']
  else if c == '\\' then ['\\', '\\']
  else if c == '\x08' then ['\\', 'b']
  else if c == '\x0c' then ['\\', 'f']
  else if c == '\n' then ['\\', 'n']
  else if c == '\r' then ['\\', 'r']
  else if c == '\t' then ['\\', 't']
  else if c.toNat < 0x20 || (0x7f ≤ c.toNat && c.toNat < 0xa0) then
    '\\' :: 'u' :: (Text.hexDigits 4 c.toNat).map Char.toUpper
  else [c]

/-- The characters with each group of three quotes escaped. -/
def escapeQuotes : List Char → List Char
  | '"' :: '"' :: '"' :: r => '\\' :: '"' :: '"' :: '"' :: escapeQuotes r
  | c :: r => c :: escapeQuotes r
  | [] => []

/-- Is the character a space or a tab? -/
def isIndentChar (c : Char) : Bool :=
  c == ' ' || c == '\t'

/-- The lines of a text whose lines end with line feeds. -/
def plainLines : List Char → List (List Char)
  | [] => [[]]
  | '\n' :: r => [] :: plainLines r
  | c :: r =>
    match plainLines r with
    | [] => [[c]]
    | l :: ls => (c :: l) :: ls

/-- Is the line empty, or does it begin with a space or a tab? -/
def isLoose (line : List Char) : Bool :=
  (line.head?.map isIndentChar).getD true

/-- The text of a block string. -/
def blockChars (value : List Char) : List Char :=
  let escapedValue := escapeQuotes value
  let lines := plainLines escapedValue
  let single := lines.length == 1
  let leading := !single && lines.tail.all isLoose
  let tripleEnd := "\\\"\"\"".toList.isSuffixOf escapedValue
  let quoteEnd := value.getLast? == some '"' && !tripleEnd
  let trailing := quoteEnd || value.getLast? == some '\\'
  let several := !single || value.length > 70 || trailing || leading || tripleEnd
  let skipLeading := single && (value.head?.map isIndentChar).getD false
  "\"\"\"".toList ++
    (if (several && !skipLeading) || leading then ['\n'] else []) ++ escapedValue ++
    (if several || trailing then ['\n'] else []) ++ "\"\"\"".toList

/-- The characters with each line moved in by a level. -/
def indentChars (cs : List Char) : List Char :=
  if cs.isEmpty then []
  else ' ' :: ' ' :: cs.flatMap fun c => if c == '\n' then ['\n', ' ', ' '] else [c]

/-- The longest line on which a list or an object is written. -/
def lineLimit : Nat := 80

/-- A list or an object: on one line, or, where that is too long, with each item on a line of its
own. -/
def folded (opening closing : Char) (line : List Char) (items : List (List Char)) : List Char :=
  if line.length > lineLimit then
    opening :: '\n' :: indentChars (Query.separated ['\n'] items) ++ ['\n', closing]
  else line

mutual

/-- The text of a literal. -/
def Literal.print : Literal → List Char
  | .number lexeme _ => lexeme.toList
  | .string s true => blockChars s.toList
  | .string s false => '"' :: s.toList.flatMap escaped ++ ['"']
  | .bool b => if b then "true".toList else "false".toList
  | .null => "null".toList
  | .member n => n.toList
  | .variable n => '$' :: n.toList
  | .list items =>
    let parts := printLiterals items
    folded '[' ']' ('[' :: Query.separated [',', ' '] parts ++ [']']) parts
  | .object fields =>
    let parts := printLiteralFields fields
    folded '{' '}' ('{' :: ' ' :: Query.separated [',', ' '] parts ++ [' ', '}']) parts

/-- The texts of the items of a list. -/
def printLiterals : List Literal → List (List Char)
  | [] => []
  | v :: r => v.print :: printLiterals r

/-- The texts of the fields of an object. -/
def printLiteralFields : List (String × Literal) → List (List Char)
  | [] => []
  | (k, v) :: r => (k.toList ++ ':' :: ' ' :: v.print) :: printLiteralFields r

end

end Bindery.Definition
