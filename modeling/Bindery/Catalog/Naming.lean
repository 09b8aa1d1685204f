import Bindery.Catalog.Basic
import Bindery.Label.Free

/-!
# Class names without collisions

The class name of a type yields to the names that every client binds, to the names of directives, to
the names of types before it and to the names of its own members: it takes a word behind it, and
then a number. A name that is given for a type stays as it is.
-/

namespace Bindery.Catalog

open Bindery.Schema Bindery.Label

/-- The names that every client binds. -/
def boundNames : List String :=
  ["Annotated", "Any", "BaseClasses", "BaseModel", "Callable", "ClassVar", "ConfigDict", "Field",
    "FieldSelection", "Formatting", "Generic", "GraphQlDataModel", "GraphQlDirective",
    "GraphQlFieldMetadata", "GraphQlInputDataModel", "GraphQlInputObject", "GraphQlInputValue",
    "GraphQlQueryBuilder", "GraphQlQueryParameter", "GraphQlTypes", "InputProperty",
    "InputPropertyInfo", "Int16", "Int32", "Int64", "Iterable", "Iterator", "List", "Mapping",
    "OPERATION_TYPES", "Optional", "Protocol", "QUERY_BUILDERS", "QueryBuilderArgumentInfo",
    "QueryBuilderParameter", "QueryBuilderRegistry", "SelectionSet", "SerializationSettings", "T",
    "TQueryBuilder", "TValue", "TYPE_CHECKING", "TypeVar", "Union", "build_argument_value", "cast",
    "dataclasses", "datetime", "decimal", "enum", "escape_string", "math", "re",
    "runtime_checkable", "uuid"]

/-- The word that a class name takes first. -/
def collisionWord (candidate : String) (isInput : Bool) : String :=
  if isInput then (if candidate.endsWith "Input" then "InputObject" else "Input")
  else if candidate.endsWith "Data" then "Record" else "Data"

/-- The class name that is tried in a round. -/
def attemptName (candidate : String) (isInput : Bool) : Nat → String
  | 0 => candidate
  | 1 => candidate ++ collisionWord candidate isInput
  | n => candidate ++ toString n

/-- The names that a class takes: its own and, for a type with a builder, that of the builder. -/
def takenBy (c : Configuration) (hasBuilder : Bool) (name : String) : List String :=
  c.fullName name "" :: if hasBuilder then [c.fullName name builderSuffix] else []

/-- What the names of a class may not be. -/
structure Obstacles where
  /-- The names of the members. -/
  members : List String
  /-- The names that are assigned. -/
  assigned : List String
  /-- The names that types would have of their own. -/
  natural : List String

/-- Does the class name collide with anything? -/
def Obstacles.collides (o : Obstacles) (c : Configuration) (hasBuilder : Bool)
    (candidate name : String) : Bool :=
  o.members.contains (c.fullName name "") ||
    (takenBy c hasBuilder name).any (fun n => o.assigned.contains n || boundNames.contains n) ||
    (name != candidate && o.natural.contains name)

/-- The number of rounds after which a class name is free: each obstacle stops at most three. -/
def Obstacles.rounds (o : Obstacles) : Nat :=
  3 * (o.members.length + o.assigned.length + o.natural.length + boundNames.length) + 3

/-- The first class name that collides with nothing. -/
def Obstacles.freeName (o : Obstacles) (c : Configuration) (hasBuilder isInput : Bool)
    (candidate : String) : String :=
  attemptName candidate isInput
    (searchFrom (fun n => !o.collides c hasBuilder candidate (attemptName candidate isInput n))
      o.rounds 0)

/-- The names that the members of a type would have as classes. -/
def memberNames (c : Catalog) (t : TypeDefinition) : Except Refusal (List String) := do
  if t.kind == .inputObject then
    return t.inputFields.map fun (f : Argument) => pascalCase f.name
  if t.kind.isComplex then
    let fields ← c.ownFields t
    return fields.map fun (f : Field) => pascalCase f.name
  return []

/-- What is known while class names are assigned. -/
structure Assignment where
  /-- The names that are assigned. -/
  assigned : List String
  /-- The names of types that had to change. -/
  renamed : Keyed String

/-- The assignment with a class name for one more type. -/
def assignName (c : Catalog) (natural : List String) (a : Assignment) (t : TypeDefinition) :
    Except Refusal Assignment := do
  if t.isBuiltIn || t.kind == .scalar then return a
  let hasBuilder := t.kind.isComplex
  match c.configuration.classNames.get? t.name with
  | some given =>
    return { a with assigned := takenBy c.configuration hasBuilder given ++ a.assigned }
  | none =>
    let members ← c.memberNames t
    let candidate := pascalCase t.name
    let o : Obstacles := ⟨members, a.assigned, natural⟩
    let name := o.freeName c.configuration hasBuilder (t.kind == .inputObject) candidate
    return ⟨takenBy c.configuration hasBuilder name ++ a.assigned,
      if name == candidate then a.renamed else a.renamed.put t.name name⟩

/-- The names that types would have of their own. -/
def naturalNames (c : Catalog) : List String :=
  c.complex.keys.map pascalCase ++
    c.schema.inputTypes.map fun (t : TypeDefinition) => pascalCase t.name

/-- The class names of types whose own names are taken. -/
def renamedTypes (c : Catalog) : Except Refusal (Keyed String) := do
  let a ← c.schema.types.foldlM (c.assignName c.naturalNames)
    ⟨c.fieldDirectives.map c.directiveClassName, .empty⟩
  return a.renamed

end Bindery.Catalog
