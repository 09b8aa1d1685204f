import Bindery.Configuration
import Bindery.Label.Case
import Bindery.Schema.Lookup

/-!
# Catalogs

A schema with the configuration under which a client is generated, and the look-ups that all parts
of generation share. Of several types with one name the last one counts, at the place of the first.
-/

namespace Bindery

open Bindery.Schema Bindery.Label

/-- A schema prepared for generation. -/
structure Catalog where
  /-- The options. -/
  configuration : Configuration
  /-- The schema. -/
  schema : Schema
  /-- The types by their names. -/
  types : Keyed TypeDefinition
  /-- The types whose values need a selection set, by their names. -/
  complex : Keyed TypeDefinition
  /-- The directives by their names; of several with one name the first one counts. -/
  directives : Keyed DirectiveDefinition
  /-- The unions of which each type is a member. -/
  memberships : Keyed (List String)
  /-- The class names of types whose own names are taken. -/
  renamed : Keyed String
  /-- The object types that input types refer to. -/
  referenced : List String
  deriving Repr

/-- The definitions by their names. -/
def byName (ts : List TypeDefinition) : Keyed TypeDefinition :=
  .ofList (ts.map fun (t : TypeDefinition) => (t.name, t))

/-- The class name from its parts. -/
def Configuration.fullName (c : Configuration) (name suffix : String) : String :=
  c.classPrefix ++ name ++ suffix ++ c.classSuffix

/-- The place in which a directive can be applied to a field. -/
def fieldLocation : String := "FIELD"

/-- The end of the class name of a builder. -/
def builderSuffix : String := "QueryBuilder"

/-- The end of the class name of a directive. -/
def directiveSuffix : String := "Directive"

/-- Can the directive be applied to a field? -/
def Schema.DirectiveDefinition.isOnFields (d : DirectiveDefinition) : Bool :=
  d.locations.contains fieldLocation

namespace Catalog

/-- The type of a name. -/
def typeOf (c : Catalog) (name : String) : Except Refusal TypeDefinition :=
  match c.types.get? name with
  | some t => .ok t
  | none => .error (.unknownType (some name))

/-- The class name of a type; the suffix stands behind the name of the type. -/
def className (c : Catalog) (name : String) (suffix : String := "") : String :=
  let own :=
    match c.configuration.classNames.get? name with
    | some n => n
    | none => ((c.renamed.get? name).filter fun n => !n.isEmpty).getD (pascalCase name)
  c.configuration.fullName own suffix

/-- The class name of a directive. -/
def directiveClassName (c : Catalog) (d : DirectiveDefinition) : String :=
  c.configuration.fullName (pascalCase d.name) directiveSuffix

/-- The directives that can be applied to fields. -/
def fieldDirectives (c : Catalog) : List DirectiveDefinition :=
  c.directives.values.filter Schema.DirectiveDefinition.isOnFields

/-- Is something generated that should be avoided, or that should not? -/
def includes (c : Catalog) (isDeprecated : Bool) : Bool :=
  c.configuration.includesDeprecated || !isDeprecated

/-- Do values of the type have a field that is generated? -/
def hasFields (c : Catalog) (t : TypeRef) : Except Refusal Bool := do
  let named := t.innermost
  if !named.kind.isComplex then return true
  match c.complex.get? named.nameOrEmpty with
  | none => throw (.unknownType named.name?)
  | some d =>
    let fields ← c.schema.effectiveFields d
    return fields.any fun f => c.includes f.isDeprecated

/-- Is the field generated? -/
def generates (c : Catalog) (f : Field) : Except Refusal Bool :=
  if c.includes f.isDeprecated then c.hasFields f.type else .ok false

/-- The fields that are generated. -/
def generated (c : Catalog) : List Field → Except Refusal (List Field)
  | [] => .ok []
  | f :: r => do
    let keep ← c.generates f
    let rest ← c.generated r
    return if keep then f :: rest else rest

/-- The fields of the type itself that are generated. -/
def ownFields (c : Catalog) (t : TypeDefinition) : Except Refusal (List Field) :=
  c.generated t.fields

/-- The fields of values of the type that are generated. -/
def effectiveFields (c : Catalog) (t : TypeDefinition) : Except Refusal (List Field) :=
  if t.kind == .union then (c.schema.effectiveFields t).bind c.generated else c.ownFields t

/-- The types among some that have fields to generate. -/
def withFields (c : Catalog) : List TypeDefinition → Except Refusal (List TypeDefinition)
  | [] => .ok []
  | t :: r =>
    match c.complex.get? t.name with
    | none => c.withFields r
    | some d => do
      let fields ← c.effectiveFields d
      let rest ← c.withFields r
      return if fields.isEmpty then rest else d :: rest

/-- The types on which fragments can be selected. -/
def fragmentTypes (c : Catalog) (t : TypeDefinition) : Except Refusal (List TypeDefinition) :=
  c.withFields (c.schema.fragments t)

/-- The unions of which a type is a member. -/
def unionsOf (c : Catalog) (name : String) : List String :=
  (c.memberships.get? name).getD []

end Catalog

end Bindery
