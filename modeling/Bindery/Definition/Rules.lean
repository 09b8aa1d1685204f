import Bindery.Definition.Standard

/-!
# Rules for definitions

What holds of the definitions of a document before a schema is made of them: names are defined once
and known where they are used, extensions extend types of their own kind, and directives stand where
they may, with known arguments.
-/

namespace Bindery.Definition

open Bindery.Schema (Kind)

/-- Does no item occur twice? -/
def allDistinct (names : List String) : Bool :=
  names.eraseDups.length == names.length

/-- The names, each once, in the order of their first occurrence. -/
def typeNames (d : Document) : List String :=
  (d.types.map TypePart.name).eraseDups

/-- The definition and the extensions of a type. -/
def partsOf (d : Document) (name : String) : List TypePart :=
  d.types.filter fun t => t.name == name

/-! ### Literals and directives -/

mutual

/-- Does every object in the literal name each field once? -/
def Literal.hasDistinctFields : Literal → Bool
  | .list items => allHaveDistinctFields items
  | .object fields => allDistinct (fields.map Prod.fst) && fieldsHaveDistinctFields fields
  | _ => true

/-- Does every object in the literals name each field once? -/
def allHaveDistinctFields : List Literal → Bool
  | [] => true
  | v :: r => v.hasDistinctFields && allHaveDistinctFields r

/-- Does every object in the fields name each field once? -/
def fieldsHaveDistinctFields : List (String × Literal) → Bool
  | [] => true
  | (_, v) :: r => v.hasDistinctFields && fieldsHaveDistinctFields r

end

/-- The directives that a document may apply. -/
def knownDirectives (d : Document) : List DirectivePart :=
  d.directives ++ standardDirectives

/-- The directive of a name: a document may define a standard directive anew. -/
def directiveOf? (d : Document) (name : String) : Option DirectivePart :=
  (knownDirectives d).find? fun p => p.name == name

/-- Is the directive known, at a place of its own, and given the arguments that it has? -/
def Applied.isAllowed (d : Document) (location : String) (a : Applied) : Bool :=
  match directiveOf? d a.name with
  | none => false
  | some p =>
    p.locations.contains location &&
      allDistinct (a.arguments.map Prod.fst) &&
      (a.arguments.all fun x => (p.arguments.map InputPart.name).contains x.1) &&
      (a.arguments.all fun x => x.2.hasDistinctFields) &&
      p.arguments.all fun x => !x.isRequired || (a.arguments.map Prod.fst).contains x.name

/-- Is each directive that may be applied only once applied only once? -/
def appliedOnce (d : Document) (as : List Applied) : Bool :=
  allDistinct ((as.filter fun a =>
    !((directiveOf? d a.name).map DirectivePart.isRepeatable).getD false).map Applied.name)

/-- Are the directives at a place allowed? -/
def directivesAllowed (d : Document) (location : String) (as : List Applied) : Bool :=
  as.all (Applied.isAllowed d location)

/-! ### Parts -/

/-- Is the type known? -/
def isKnownType (d : Document) (name : String) : Bool :=
  (d.types.any fun t => !t.isExtension && t.name == name) ||
    standardTypes.any fun t => t.name == name

/-- Is the argument well formed? -/
def InputPart.isAllowed (d : Document) (location : String) (p : InputPart) : Bool :=
  isKnownType d p.type.name && ((p.fallback.map Literal.hasDistinctFields).getD true) &&
    directivesAllowed d location p.directives && appliedOnce d p.directives

/-- Are the arguments well formed, with distinct names? -/
def argumentsAllowed (d : Document) (ps : List InputPart) : Bool :=
  allDistinct (ps.map InputPart.name) && ps.all (InputPart.isAllowed d "ARGUMENT_DEFINITION")

/-- Is the field well formed? -/
def FieldPart.isAllowed (d : Document) (f : FieldPart) : Bool :=
  isKnownType d f.type.name && argumentsAllowed d f.arguments &&
    directivesAllowed d "FIELD_DEFINITION" f.directives && appliedOnce d f.directives

/-- Is the member of an enumeration well formed? -/
def MemberPart.isAllowed (d : Document) (m : MemberPart) : Bool :=
  directivesAllowed d "ENUM_VALUE" m.directives && appliedOnce d m.directives

/-- The place of a directive on a type. -/
def locationOf : Kind → String
  | .scalar => "SCALAR"
  | .object => "OBJECT"
  | .interface => "INTERFACE"
  | .union => "UNION"
  | .enumeration => "ENUM"
  | _ => "INPUT_OBJECT"

/-- Is the definition or the extension of a type well formed? -/
def TypePart.isAllowed (d : Document) (t : TypePart) : Bool :=
  directivesAllowed d (locationOf t.kind) t.directives && t.interfaces.all (isKnownType d) &&
    t.members.all (isKnownType d) && t.fields.all (FieldPart.isAllowed d) &&
    t.values.all (MemberPart.isAllowed d) &&
    t.inputFields.all (InputPart.isAllowed d "INPUT_FIELD_DEFINITION")

/-- Are the definition and the extensions of a type well formed together? -/
def typeAllowed (d : Document) (name : String) : Bool :=
  let parts := partsOf d name
  let definitions := parts.filter fun t => !t.isExtension
  match definitions with
  | [t] =>
    parts.all (fun p => p.kind == t.kind) &&
      allDistinct (parts.flatMap fun p => p.fields.map FieldPart.name) &&
      allDistinct (parts.flatMap fun p => p.values.map MemberPart.name) &&
      allDistinct (parts.flatMap fun p => p.inputFields.map InputPart.name) &&
      appliedOnce d (parts.flatMap TypePart.directives)
  | _ => false

/-- Is the definition of a directive well formed? -/
def DirectivePart.isAllowed (d : Document) (p : DirectivePart) : Bool :=
  argumentsAllowed d p.arguments

/-- Are the definition and the extensions of the schema well formed? -/
def schemasAllowed (d : Document) : Bool :=
  (d.schemas.filter fun s => !s.isExtension).length ≤ 1 &&
    allDistinct (d.schemas.flatMap fun s => s.roots.map Prod.fst) &&
    (d.schemas.all fun s => s.roots.all fun r => isKnownType d r.2) &&
    (d.schemas.all fun s => directivesAllowed d "SCHEMA" s.directives) &&
    appliedOnce d (d.schemas.flatMap SchemaPart.directives)

/-- Do the definitions of the document follow the rules? -/
def Document.isAllowed (d : Document) : Bool :=
  schemasAllowed d && (typeNames d).all (typeAllowed d) && d.types.all (TypePart.isAllowed d) &&
    allDistinct (d.directives.map DirectivePart.name) &&
    d.directives.all (DirectivePart.isAllowed d)

end Bindery.Definition
