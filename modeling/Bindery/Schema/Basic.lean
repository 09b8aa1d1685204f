import Bindery.Json.Value

/-!
# Schemas

A GraphQL schema in the shape in which a service describes itself: named types with their fields,
and references to types, where lists and types that exclude null stand around the type of their
items.
-/

namespace Bindery.Schema

/-- The kind of a type. -/
inductive Kind where
  /-- A scalar. -/
  | scalar
  /-- An enumeration. -/
  | enumeration
  /-- An object type. -/
  | object
  /-- An input object type. -/
  | inputObject
  /-- A union of object types. -/
  | union
  /-- An interface. -/
  | interface
  /-- A list. -/
  | list
  /-- A type without the null value. -/
  | nonNull
  deriving DecidableEq, Repr

/-- The kinds with their names. -/
def Kind.names : List (String × Kind) :=
  [("SCALAR", .scalar), ("ENUM", .enumeration), ("OBJECT", .object), ("INPUT_OBJECT", .inputObject),
    ("UNION", .union), ("INTERFACE", .interface), ("LIST", .list), ("NON_NULL", .nonNull)]

/-- The kind of a name. -/
def Kind.ofName? (s : String) : Option Kind :=
  names.lookup s

/-- The name of a kind. -/
def Kind.name : Kind → String
  | .scalar => "SCALAR"
  | .enumeration => "ENUM"
  | .object => "OBJECT"
  | .inputObject => "INPUT_OBJECT"
  | .union => "UNION"
  | .interface => "INTERFACE"
  | .list => "LIST"
  | .nonNull => "NON_NULL"

/-- Is a selection set needed to read values of the kind? -/
def Kind.isComplex : Kind → Bool
  | .object | .interface | .union => true
  | _ => false

/-- Does the kind stand around the type of something else? -/
def Kind.wraps : Kind → Bool
  | .list | .nonNull => true
  | _ => false

/-- A reference to a type. -/
inductive TypeRef where
  /-- A reference with nothing inside. -/
  | leaf (kind : Kind) (name : Option String)
  /-- A reference around another. -/
  | around (kind : Kind) (name : Option String) (inner : TypeRef)
  deriving DecidableEq, Repr

/-- The kind of a reference. -/
def TypeRef.kind : TypeRef → Kind
  | .leaf k _ => k
  | .around k _ _ => k

/-- The name of a reference. -/
def TypeRef.name? : TypeRef → Option String
  | .leaf _ n => n
  | .around _ n _ => n

/-- The reference inside. -/
def TypeRef.inner? : TypeRef → Option TypeRef
  | .leaf _ _ => none
  | .around _ _ t => some t

/-- The name of a reference, empty where there is none. -/
def TypeRef.nameOrEmpty (t : TypeRef) : String :=
  t.name?.getD ""

/-- An argument, or a field of an input object. -/
structure Argument where
  /-- The name. -/
  name : String
  /-- What the argument is for. -/
  description : Option String
  /-- The type. -/
  type : TypeRef
  /-- The default value, null where there is none. -/
  fallback : Json
  deriving Repr

/-- A member of an enumeration. -/
structure EnumValue where
  /-- The name. -/
  name : String
  /-- What the member is for. -/
  description : Option String
  /-- Should the member be avoided? -/
  isDeprecated : Bool
  /-- Why the member should be avoided. -/
  reason : Option String
  deriving DecidableEq, Repr

/-- A field of an object type or an interface. -/
structure Field where
  /-- The name. -/
  name : String
  /-- What the field is for. -/
  description : Option String
  /-- The type. -/
  type : TypeRef
  /-- The arguments in order. -/
  arguments : List Argument
  /-- Should the field be avoided? -/
  isDeprecated : Bool
  /-- Why the field should be avoided. -/
  reason : Option String
  deriving Repr

/-- A named type. -/
structure TypeDefinition where
  /-- The kind. -/
  kind : Kind
  /-- The name. -/
  name : String
  /-- What the type is for. -/
  description : Option String
  /-- The fields of an object type or an interface. -/
  fields : List Field
  /-- The fields of an input object type. -/
  inputFields : List Argument
  /-- The interfaces that are implemented. -/
  interfaces : List TypeRef
  /-- The members of an enumeration. -/
  enumValues : List EnumValue
  /-- The object types of an interface or a union. -/
  possibleTypes : List TypeRef
  deriving Repr

/-- A directive. -/
structure DirectiveDefinition where
  /-- The name. -/
  name : String
  /-- What the directive is for. -/
  description : Option String
  /-- Where the directive may stand. -/
  locations : List String
  /-- The arguments in order. -/
  arguments : List Argument
  deriving Repr

end Schema

open Schema in
/-- A schema. -/
structure Schema where
  /-- The root type of queries. -/
  queryType : Option String
  /-- The root type of mutations. -/
  mutationType : Option String
  /-- The root type of subscriptions. -/
  subscriptionType : Option String
  /-- The types in order. -/
  types : List TypeDefinition
  /-- The directives in order. -/
  directives : List DirectiveDefinition
  deriving Repr

namespace Schema

/-- Must a value be given? -/
def Argument.isRequired (a : Argument) : Bool :=
  a.type.kind == .nonNull && a.fallback.isNull

/-- Does the field have an argument that must be given? -/
def Field.requiresArguments (f : Field) : Bool :=
  f.arguments.any Argument.isRequired

/-- Does the type belong to the description of schemas themselves? -/
def TypeDefinition.isBuiltIn (t : TypeDefinition) : Bool :=
  t.name.startsWith "__"

/-- The scalars that every schema has. -/
def standardScalars : List String :=
  ["Boolean", "Float", "ID", "Int", "String"]

/-! ### References -/

/-- The reference without an exclusion of null at the outside. -/
def TypeRef.nullable (t : TypeRef) : TypeRef :=
  match t with
  | .around .nonNull _ inner => inner
  | t => t

/-- The type of the items of a list, without an exclusion of null. -/
def TypeRef.item? (t : TypeRef) : Option TypeRef :=
  match t.nullable with
  | .around .list _ inner => some inner.nullable
  | _ => none

/-- The reference inside all lists and exclusions of null. -/
def TypeRef.innermost : TypeRef → TypeRef
  | .leaf k n => .leaf k n
  | .around k n inner => if k.wraps then inner.innermost else .around k n inner

/-- The reference as it is written in a document. -/
def TypeRef.text : TypeRef → String
  | .leaf _ n => n.getD ""
  | .around .nonNull _ inner => inner.text ++ "!"
  | .around .list _ inner => "[" ++ inner.text ++ "]"
  | .around _ n _ => n.getD ""

end Schema

end Bindery
