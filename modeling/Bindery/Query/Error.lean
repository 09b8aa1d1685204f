import Bindery.Query.Value

/-!
# Refusals of the query builders

Why an operation on a builder, a parameter or an argument value is refused, and the wording of each
refusal.
-/

namespace Bindery.Query

open Bindery.Number Bindery.Text

/-- Why an operation on builders or values is refused. -/
inductive Error where
  /-- A name of the described kind is no GraphQL name. -/
  | invalidName (kind shown : String)
  /-- The type of a variable is not written like one. -/
  | invalidTypeName (text : String)
  /-- A declared variable has no type. -/
  | typeNameRequired
  /-- A number that is not finite is sent. -/
  | notFinite (x : Binary64)
  /-- The key of a mapping holds a blank. -/
  | blankInKey (key : String)
  /-- The keyword of an operation is unknown. -/
  | invalidOperation (shown : String)
  /-- A builder without an operation gets an operation name. -/
  | nameWithoutOperation
  /-- The field to leave out is not named. -/
  | fieldNameRequired
  /-- A variable is declared on a builder without an operation. -/
  | variableOutsideOperation
  /-- Something that is no declared variable is declared. -/
  | notAVariable
  /-- Two variables of one name are declared. -/
  | variableDeclared (name : String)
  /-- Something that is no builder is nested. -/
  | notABuilder
  /-- A builder with an operation is nested in a field. -/
  | nestedOperation
  /-- A builder with an operation is used as a fragment. -/
  | operationFragment
  /-- No builder is registered for a type. -/
  | unregistered (typeName : String)
  /-- An input object has no property of that name. -/
  | unknownProperty (className attr : String)
  /-- A name is used for which no object was made. -/
  | unknownObject
  /-- An object has no member of that name, or is of the wrong kind to have one. -/
  | missingMember
  /-- A call has missing, unknown or repeated arguments, or bases that cannot be ordered. -/
  | badCall
  /-- A class refers to a class that does not exist yet. -/
  | undefinedClass
  /-- A function has two parameters of one name. -/
  | repeatedParameter
  /-- Objects contain each other without end. -/
  | endless
  deriving Repr

/-- The wording of a refusal; refusals without a wording of their own have none. -/
def Error.message? : Error → Option String
  | .invalidName kind shown => some ("invalid " ++ kind ++ ": " ++ shown)
  | .invalidTypeName text => some ("invalid GraphQL type name: " ++ quoted text)
  | .typeNameRequired => some "GraphQL type name is required"
  | .notFinite x => some (String.ofList x.chars ++ " cannot be represented as a GraphQL float")
  | .blankInKey key =>
    some ("object keys used as GraphQL arguments must not contain whitespace; key: " ++ key)
  | .invalidOperation shown => some ("invalid operation type: " ++ shown)
  | .nameWithoutOperation => some "an operation name requires an operation type"
  | .fieldNameRequired => some "field name is required"
  | .variableOutsideOperation => some "variables can only be declared on an operation builder"
  | .notAVariable => some "parameter must be a GraphQlQueryParameter"
  | .variableDeclared name => some ("variable '$" ++ name ++ "' is already declared")
  | .notABuilder => some "query_builder must be a GraphQlQueryBuilder"
  | .nestedOperation => some "an operation builder cannot be nested in a selection"
  | .operationFragment => some "an operation builder cannot be used as a fragment"
  | .unregistered name => some ("no query builder registered for GraphQL type '" ++ name ++ "'")
  | .unknownProperty cls attr =>
    some (cls ++ " has no input property '" ++ attr ++ "'")
  | .unknownObject | .missingMember | .badCall | .undefinedClass | .repeatedParameter | .endless =>
    none

end Bindery.Query
