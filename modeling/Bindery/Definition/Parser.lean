import Bindery.Definition.Document
import Bindery.Definition.Token

/-!
# Reading documents

The grammar of GraphQL documents. Each reader takes the tokens and returns what it read with the
tokens behind it. Nested parts are read with a fuel that the number of tokens bounds.
-/

namespace Bindery.Definition

open Bindery.Schema (Kind)

/-- A reader of tokens. -/
abbrev Reader (α : Type) := StateT (List Token) Option α

/-! ### Small readers -/

/-- A token that must come. -/
def expect (t : Token) : Reader Unit := fun ts =>
  match ts with
  | x :: r => if x == t then some ((), r) else none
  | [] => none

/-- Does the token come next? It is taken if it does. -/
def accept (t : Token) : Reader Bool := fun ts =>
  match ts with
  | x :: r => if x == t then some (true, r) else some (false, ts)
  | [] => some (false, [])

/-- A name. -/
def readName : Reader String := fun ts =>
  match ts with
  | .name s :: r => some (s, r)
  | _ => none

/-- Does the token come next? -/
def comes (t : Token) : Reader Bool := fun ts =>
  some (ts.head? == some t, ts)

/-- One item and all further ones up to a closing sign. -/
def manyUpTo {α : Type} (item : Reader α) (closing : Token) : Nat → Reader (List α)
  | 0 => failure
  | fuel + 1 => do
    let x ← item
    if ← accept closing then return [x]
    let xs ← manyUpTo item closing fuel
    return x :: xs

/-- The number of tokens, which bounds the number of items that follow. -/
def remaining : Reader Nat := fun ts => some (ts.length, ts)

/-- Items between signs, at least one; nothing where the opening sign does not come. -/
def optionalMany {α : Type} (opening : Char) (item : Reader α) (closing : Char) :
    Reader (List α) := do
  if ← accept (.sign opening) then
    manyUpTo item (.sign closing) (← remaining)
  else return []

/-- Items between signs, at least one. -/
def many {α : Type} (opening : Char) (item : Reader α) (closing : Char) : Reader (List α) := do
  expect (.sign opening)
  manyUpTo item (.sign closing) (← remaining)

/-- Items with a sign between them. -/
def separatedBy {α : Type} (sign : Char) (item : Reader α) : Nat → Reader (List α)
  | 0 => failure
  | fuel + 1 => do
    let x ← item
    if ← accept (.sign sign) then
      let xs ← separatedBy sign item fuel
      return x :: xs
    else return [x]

/-- Items with a sign between them, and perhaps one in front. -/
def delimited {α : Type} (sign : Char) (item : Reader α) : Reader (List α) := do
  discard (accept (.sign sign))
  separatedBy sign item (← remaining)

/-- Items as long as a sign comes in front of them. -/
def whileSign {α : Type} (sign : Char) (item : Reader α) : Nat → Reader (List α)
  | 0 => failure
  | fuel + 1 => do
    if ← accept (.sign sign) then
      let x ← item
      let xs ← whileSign sign item fuel
      return x :: xs
    else return []

/-- A reader and the reader of what stands around it. -/
def readDescription : Reader (Option String) := fun ts =>
  match ts with
  | .string s _ :: r => some (some s, r)
  | _ => some (none, ts)

/-! ### Literals and types -/

mutual

/-- A literal; variables are allowed where the place is not constant. -/
def readLiteral (constant : Bool) : Nat → Reader Literal
  | 0 => failure
  | fuel + 1 => fun ts =>
    match ts with
    | .sign '[' :: r => (readItems constant fuel r).map fun (xs, r) => (.list xs, r)
    | .sign '{' :: r => (readFields constant fuel r).map fun (xs, r) => (.object xs, r)
    | .int s :: r => some (.number s false, r)
    | .float s :: r => some (.number s true, r)
    | .string s block :: r => some (.string s block, r)
    | .name "true" :: r => some (.bool true, r)
    | .name "false" :: r => some (.bool false, r)
    | .name "null" :: r => some (.null, r)
    | .name s :: r => some (.member s, r)
    | .sign '$' :: .name s :: r => if constant then none else some (.variable s, r)
    | _ => none

/-- The items of a list behind its opening bracket. -/
def readItems (constant : Bool) : Nat → Reader (List Literal)
  | 0 => failure
  | fuel + 1 => do
    if ← accept (.sign ']') then return []
    let x ← readLiteral constant fuel
    let xs ← readItems constant fuel
    return x :: xs

/-- The fields of an object behind its opening bracket. -/
def readFields (constant : Bool) : Nat → Reader (List (String × Literal))
  | 0 => failure
  | fuel + 1 => do
    if ← accept (.sign '}') then return []
    let n ← readName
    expect (.sign ':')
    let x ← readLiteral constant fuel
    let xs ← readFields constant fuel
    return (n, x) :: xs

end

/-- A literal. -/
def readValue (constant : Bool) : Reader Literal := do
  readLiteral constant ((← remaining) + 1)

/-- The type, perhaps behind an exclusion of null. -/
def withMark (t : TypeExpr) : Reader TypeExpr := do
  if ← accept (.sign '!') then return .nonNull t
  return t

/-- A type that is nested no deeper than the fuel. -/
def readTypeWith : Nat → Reader TypeExpr
  | 0 => failure
  | fuel + 1 => do
    if ← accept (.sign '[') then
      let t ← readTypeWith fuel
      expect (.sign ']')
      withMark (.list t)
    else
      let n ← readName
      withMark (.named n)

/-- A type. -/
def readType : Reader TypeExpr := do
  readTypeWith ((← remaining) + 1)

/-- An argument. -/
def readArgument (constant : Bool) : Reader (String × Literal) := do
  let n ← readName
  expect (.sign ':')
  let v ← readValue constant
  return (n, v)

/-- A directive behind its sign. -/
def readApplied (constant : Bool) : Reader Applied := do
  let n ← readName
  let arguments ← optionalMany '(' (readArgument constant) ')'
  return ⟨n, arguments⟩

/-- Directives. -/
def readDirectives (constant : Bool) : Reader (List Applied) := do
  whileSign '@' (readApplied constant) ((← remaining) + 1)

/-! ### Parts of definitions -/

/-- A default value behind an equals sign, where it comes. -/
def readFallback : Reader (Option Literal) := do
  if ← accept (.sign '=') then return some (← readValue true)
  else return none

/-- The definition of an argument. -/
def readInput : Reader InputPart := do
  let description ← readDescription
  let n ← readName
  expect (.sign ':')
  let t ← readType
  let fallback ← readFallback
  let directives ← readDirectives true
  return ⟨description, n, t, fallback, directives⟩

/-- The definition of a field. -/
def readField : Reader FieldPart := do
  let description ← readDescription
  let n ← readName
  let arguments ← optionalMany '(' readInput ')'
  expect (.sign ':')
  let t ← readType
  let directives ← readDirectives true
  return ⟨description, n, arguments, t, directives⟩

/-- The definition of a member of an enumeration. -/
def readMember : Reader MemberPart := do
  let description ← readDescription
  let n ← readName
  if ["true", "false", "null"].contains n then failure
  let directives ← readDirectives true
  return ⟨description, n, directives⟩

/-- The interfaces that a type implements. -/
def readInterfaces : Reader (List String) := do
  if ← accept (.name "implements") then delimited '&' readName else return []

/-- The keywords of operations. -/
def operationWords : List String := ["query", "mutation", "subscription"]

/-- The root type of an operation. -/
def readRoot : Reader (String × String) := do
  let keyword ← readName
  if !operationWords.contains keyword then failure
  expect (.sign ':')
  let n ← readName
  return (keyword, n)

/-- The places where a directive may stand. -/
def locationWords : List String :=
  ["QUERY", "MUTATION", "SUBSCRIPTION", "FIELD", "FRAGMENT_DEFINITION", "FRAGMENT_SPREAD",
    "INLINE_FRAGMENT", "VARIABLE_DEFINITION", "SCHEMA", "SCALAR", "OBJECT", "FIELD_DEFINITION",
    "ARGUMENT_DEFINITION", "INTERFACE", "UNION", "ENUM", "ENUM_VALUE", "INPUT_OBJECT",
    "INPUT_FIELD_DEFINITION"]

/-- A place where a directive may stand. -/
def readLocation : Reader String := do
  let n ← readName
  if locationWords.contains n then return n else failure

/-! ### Definitions -/

/-- The keywords of types with their kinds. -/
def typeWords : List (String × Kind) :=
  [("scalar", .scalar), ("type", .object), ("interface", .interface), ("union", .union),
    ("enum", .enumeration), ("input", .inputObject)]

/-- The members of a union behind an equals sign. -/
def readMembers : Reader (List String) := do
  if ← accept (.sign '=') then delimited '|' readName else return []

/-- Does an extension extend anything? -/
def TypePart.extendsAnything (t : TypePart) : Bool :=
  !(t.interfaces.isEmpty && t.directives.isEmpty && t.fields.isEmpty && t.members.isEmpty &&
    t.values.isEmpty && t.inputFields.isEmpty)

/-- A reader where a condition holds, and the empty list elsewhere. -/
def readWhere {α : Type} (b : Bool) (read : Reader (List α)) : Reader (List α) :=
  if b then read else pure []

/-- The definition or an extension of a type behind its keyword. -/
def readTypePart (isExtension : Bool) (description : Option String) (kind : Kind) :
    Reader TypePart := do
  let n ← readName
  let interfaces ← readWhere (kind == .object || kind == .interface) readInterfaces
  let directives ← readDirectives true
  let fields ← readWhere (kind == .object || kind == .interface) (optionalMany '{' readField '}')
  let members ← readWhere (kind == .union) readMembers
  let values ← readWhere (kind == .enumeration) (optionalMany '{' readMember '}')
  let inputFields ← readWhere (kind == .inputObject) (optionalMany '{' readInput '}')
  let t : TypePart :=
    ⟨isExtension, kind, description, n, interfaces, directives, fields, members, values, inputFields⟩
  if isExtension && !t.extendsAnything then failure
  return t

/-- The definition of a directive behind its keyword. -/
def readDirectivePart (description : Option String) : Reader DirectivePart := do
  expect (.sign '@')
  let n ← readName
  let arguments ← optionalMany '(' readInput ')'
  let isRepeatable ← accept (.name "repeatable")
  expect (.name "on")
  let locations ← delimited '|' readLocation
  return ⟨description, n, arguments, isRepeatable, locations⟩

/-- The definition of the schema behind its keyword. -/
def readSchemaPart : Reader SchemaPart := do
  let directives ← readDirectives true
  let roots ← many '{' readRoot '}'
  return ⟨false, directives, roots⟩

/-- An extension of the schema behind its keywords. -/
def readSchemaExtension : Reader SchemaPart := do
  let directives ← readDirectives true
  let roots ← optionalMany '{' readRoot '}'
  if directives.isEmpty && roots.isEmpty then failure
  return ⟨true, directives, roots⟩

/-! ### Operations and fragments -/

/-- The alias and the name of a field. -/
def readFieldName : Reader (Option String × String) := do
  let first ← readName
  if ← accept (.sign ':') then return (some first, ← readName)
  else return (none, first)

mutual

/-- A selection set. -/
def readSelectionSet : Nat → Reader (List Selected)
  | 0 => failure
  | fuel + 1 => do
    expect (.sign '{')
    readSelections fuel

/-- The selections up to the end of a selection set, at least one. -/
def readSelections : Nat → Reader (List Selected)
  | 0 => failure
  | fuel + 1 => do
    let x ← readSelection fuel
    if ← accept (.sign '}') then return [x]
    let xs ← readSelections fuel
    return x :: xs

/-- A selection. -/
def readSelection : Nat → Reader Selected
  | 0 => failure
  | fuel + 1 => do
    if ← accept (.sign '.') then
      if ← accept (.name "on") then
        let typeName ← readName
        let directives ← readDirectives false
        return .inline (some typeName) directives (← readSelectionSet fuel)
      else if ← comes (.sign '{') then
        return .inline none [] (← readSelectionSet fuel)
      else if ← comes (.sign '@') then
        let directives ← readDirectives false
        return .inline none directives (← readSelectionSet fuel)
      else
        let n ← readName
        return .spread n (← readDirectives false)
    else
      let n ← readFieldName
      let arguments ← optionalMany '(' (readArgument false) ')'
      let directives ← readDirectives false
      if ← comes (.sign '{') then
        return .field n.1 n.2 arguments directives (← readSelectionSet fuel)
      else return .field n.1 n.2 arguments directives []

end

/-- A selection set. -/
def readSelected : Reader (List Selected) := do
  readSelectionSet (2 * (← remaining) + 2)

/-- The definition of a variable. -/
def readVariable : Reader VariablePart := do
  expect (.sign '$')
  let n ← readName
  expect (.sign ':')
  let t ← readType
  let fallback ← readFallback
  let directives ← readDirectives true
  return ⟨n, t, fallback, directives⟩

/-- The name of an operation, where the next sign does not show that it has none. -/
def readOperationName : Reader (Option String) := do
  if (← comes (.sign '(')) || (← comes (.sign '@')) || (← comes (.sign '{')) then return none
  else readName.map some

/-- An operation behind its keyword. -/
def readOperation (keyword : String) : Reader Executable := do
  let n ← readOperationName
  let parts ← optionalMany '(' readVariable ')'
  let directives ← readDirectives false
  return .operation keyword n parts directives (← readSelected)

/-- A fragment behind its keyword. -/
def readFragment : Reader Executable := do
  let n ← readName
  if n == "on" then failure
  expect (.name "on")
  let typeName ← readName
  let directives ← readDirectives false
  return .fragment n typeName directives (← readSelected)

/-! ### Documents -/

/-- An extension behind its keyword. -/
def readExtension : Reader Item := do
  let word ← readName
  if word == "schema" then return .schema (← readSchemaExtension)
  match typeWords.lookup word with
  | some kind => return .type (← readTypePart true none kind)
  | none => failure

/-- A definition of the schema behind its description and its keyword. -/
def readDefining (description : Option String) (word : String) : Reader Item := do
  if word == "schema" then return .schema (← readSchemaPart)
  if word == "directive" then return .directive (← readDirectivePart description)
  match typeWords.lookup word with
  | some kind => return .type (← readTypePart false description kind)
  | none => failure

/-- A definition. -/
def readDefinition : Reader Item := do
  if ← comes (.sign '{') then return .executable (.bare (← readSelected))
  let description ← readDescription
  let word ← readName
  if description.isNone && operationWords.contains word then
    return .executable (← readOperation word)
  if description.isNone && word == "fragment" then return .executable (← readFragment)
  if description.isNone && word == "extend" then readExtension
  else readDefining description word

/-- The definitions up to the end of the tokens, at least one. -/
def readDefinitions : Nat → List Token → Option (List Item)
  | 0, _ => none
  | fuel + 1, ts => do
    let (d, rest) ← readDefinition ts
    if rest.isEmpty then return [d]
    let ds ← readDefinitions fuel rest
    return d :: ds

/-- The operations and fragments of a text that holds nothing else. -/
def executable? (s : String) : Option (List Executable) := do
  let ts ← tokens? s.toList
  let ds ← readDefinitions (ts.length + 1) ts
  ds.mapM Item.executable?

/-- The document of a text. -/
def document? (s : String) : Option Document := do
  let ts ← tokens? s.toList
  let ds ← readDefinitions (ts.length + 1) ts
  return .ofDefinitions ds

end Bindery.Definition
