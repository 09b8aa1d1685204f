import Bindery.Keyed
import Bindery.Scalar.Rule
import Bindery.Text.Blank
import Bindery.Text.Identifier

/-!
# Configuration

The options that shape a generated client, and the readers of the parameters in which mappings and
headers are given.
-/

namespace Bindery

open Bindery.Scalar Bindery.Text

/-- The types that the scalar `Int` can have. -/
inductive IntegerMapping where
  /-- Integers of any size. -/
  | int
  /-- Integers of 16 bits. -/
  | int16
  /-- Integers of 32 bits. -/
  | int32
  /-- Integers of 64 bits. -/
  | int64
  /-- What a mapping says. -/
  | custom
  deriving DecidableEq, Repr

/-- The types that the scalar `Float` can have. -/
inductive FloatMapping where
  /-- Numbers of double precision. -/
  | float
  /-- Decimal numbers. -/
  | decimal
  /-- What a mapping says. -/
  | custom
  deriving DecidableEq, Repr

/-- The types that the scalar `ID` can have. -/
inductive IdMapping where
  /-- Texts. -/
  | string
  /-- Universally unique identifiers. -/
  | uuid
  /-- Anything. -/
  | object
  /-- What a mapping says. -/
  | custom
  deriving DecidableEq, Repr

/-- The types that the scalar `Boolean` can have. -/
inductive BooleanMapping where
  /-- Truth values. -/
  | boolean
  /-- What a mapping says. -/
  | custom
  deriving DecidableEq, Repr

/-- The order of the classes. -/
inductive GenerationOrder where
  /-- The order of the schema. -/
  | bySchema
  /-- The order of the class names. -/
  | alphabetical
  deriving DecidableEq, Repr

/-- Which members of data classes may be left empty. -/
inductive MemberNullability where
  /-- All of them. -/
  | always
  /-- Those that the schema allows to be null. -/
  | bySchema
  deriving DecidableEq, Repr

/-- How the members of enumerations are named. -/
inductive EnumNaming where
  /-- In upper case. -/
  | upperCase
  /-- As the schema names them. -/
  | original
  deriving DecidableEq, Repr

/-- How the client is laid out. -/
inductive OutputKind where
  /-- One file. -/
  | singleFile
  /-- A file for each class. -/
  | filePerClass
  deriving DecidableEq, Repr

/-- The integer mappings by their names. -/
def IntegerMapping.names : List (String × IntegerMapping) :=
  [("int", .int), ("int16", .int16), ("int32", .int32), ("int64", .int64), ("custom", .custom)]

/-- The float mappings by their names. -/
def FloatMapping.names : List (String × FloatMapping) :=
  [("float", .float), ("decimal", .decimal), ("custom", .custom)]

/-- The mappings of identifiers by their names. -/
def IdMapping.names : List (String × IdMapping) :=
  [("string", .string), ("uuid", .uuid), ("object", .object), ("custom", .custom)]

/-- The mappings of truth values by their names. -/
def BooleanMapping.names : List (String × BooleanMapping) :=
  [("boolean", .boolean), ("custom", .custom)]

/-- The orders by their names. -/
def GenerationOrder.names : List (String × GenerationOrder) :=
  [("defined-by-schema", .bySchema), ("alphabetical", .alphabetical)]

/-- The nullabilities by their names. -/
def MemberNullability.names : List (String × MemberNullability) :=
  [("always-nullable", .always), ("defined-by-schema", .bySchema)]

/-- The namings by their names. -/
def EnumNaming.names : List (String × EnumNaming) :=
  [("upper-case", .upperCase), ("original", .original)]

/-- The layouts of a client by their names. -/
def OutputKind.names : List (String × OutputKind) :=
  [("single-file", .singleFile), ("one-class-per-file", .filePerClass)]

/-- The name of a choice. -/
def nameIn {α : Type} [BEq α] (names : List (String × α)) (a : α) : String :=
  ((names.find? fun n => n.2 == a).map Prod.fst).getD ""

/-- What gives types to members before the defaults do. -/
inductive TypeMapping where
  /-- The types of well known scalars. -/
  | wellKnown
  /-- Rules. -/
  | rules (rules : List Rule)
  /-- One answer for all members. -/
  | fixed (answer : Option MemberType)
  deriving Repr

/-- The options that shape a client. -/
structure Configuration where
  /-- The start of every class name. -/
  classPrefix : String := ""
  /-- The end of every class name. -/
  classSuffix : String := ""
  /-- Class names that are given for types. -/
  classNames : Keyed String := .empty
  /-- Do references follow the schema as well? -/
  nullableReferences : Bool := false
  /-- The type of `Int`. -/
  integers : IntegerMapping := .int
  /-- The type of `Float`. -/
  floats : FloatMapping := .float
  /-- The type of `ID`. -/
  ids : IdMapping := .string
  /-- The type of `Boolean`. -/
  booleans : BooleanMapping := .boolean
  /-- Is what should be avoided generated as well? -/
  includesDeprecated : Bool := false
  /-- The order of the classes. -/
  order : GenerationOrder := .bySchema
  /-- Which members of data classes may be left empty. -/
  nullability : MemberNullability := .always
  /-- How the members of enumerations are named. -/
  enumNaming : EnumNaming := .upperCase
  /-- Are descriptions written into the client? -/
  documents : Bool := true
  /-- The number of spaces per level of a query. -/
  indentation : Int := 2
  /-- What gives types to members before the defaults do. -/
  mapping : Option TypeMapping := none
  deriving Repr

/-- The configuration, if its affixes can stand in class names and its indentation is not
negative. -/
def Configuration.check (c : Configuration) : Except Refusal Configuration :=
  if !c.classPrefix.isEmpty && !isIdentifier c.classPrefix then
    .error (.badAffix "prefix" c.classPrefix)
  else if !c.classSuffix.isEmpty && !isIdentifier ("X" ++ c.classSuffix) then
    .error (.badAffix "suffix" c.classSuffix)
  else if c.indentation < 0 then .error .negativeIndentation
  else .ok c

/-! ### Parameters -/

/-- The characters before and behind the first place of a separator. -/
def partitionAt (separator : List Char) : List Char → Option (List Char × List Char)
  | [] => if separator.isEmpty then some ([], []) else none
  | c :: r =>
    if separator.isPrefixOf (c :: r) then some ([], (c :: r).drop separator.length)
    else (partitionAt separator r).map fun p => (c :: p.1, p.2)

/-- Does the character end an entry? -/
def endsEntry (c : Char) : Bool :=
  c == ',' || c == ';'

/-- The entries of a parameter, without blanks around them. -/
def entriesOf (parameter : String) : List String :=
  ((parameter.split endsEntry).toList.map fun s => trim s.toString).filter fun s => !s.isEmpty

/-- The key and the value of an entry. -/
def pairOf (separator entry : String) : Except Refusal (String × String) :=
  match partitionAt separator.toList entry.toList with
  | none => .error (.badPair entry separator)
  | some (k, v) =>
    let key := trim (String.ofList k)
    let value := trim (String.ofList v)
    if key.isEmpty || value.isEmpty then .error (.badPair entry separator) else .ok (key, value)

/-- The mapping with one more entry, whose key is new. -/
def addPair (separator : String) (m : Keyed String) (entry : String) :
    Except Refusal (Keyed String) := do
  if separator.isEmpty then throw .emptySeparator
  let (key, value) ← pairOf separator entry
  if m.contains key then throw (.repeatedKey key)
  return m.put key value

/-- The mapping of parameters, each of which may hold several entries. -/
def readPairs (separator : String) (parameters : List String) : Except Refusal (Keyed String) :=
  (parameters.flatMap entriesOf).foldlM (addPair separator) .empty

/-- A refusal of the first class name that cannot stand in a client. -/
def checkClassNames (entries : List (String × String)) : Except Refusal Unit :=
  match entries.find? fun e => !isUsableName e.2 with
  | some (typeName, className) => .error (.badClassName className typeName)
  | none => .ok ()

/-- The class names that parameters give for types. -/
def readClassNames (parameters : List String) : Except Refusal (Keyed String) := do
  let m ← readPairs ":" parameters
  checkClassNames m.entries
  return m

/-- The headers with the header of an entry. -/
def addHeader (m : Keyed String) (entry : String) : Except Refusal (Keyed String) :=
  match partitionAt [':'] entry.toList with
  | none => .error (.badHeader entry)
  | some (n, v) =>
    let name := trim (String.ofList n)
    if name.isEmpty then .error (.badHeader entry)
    else .ok (m.put name (trim (String.ofList v)))

/-- The headers of entries; of two with one name the later one counts. -/
def readHeaders (entries : List String) : Except Refusal (Keyed String) :=
  entries.foldlM addHeader .empty

end Bindery
