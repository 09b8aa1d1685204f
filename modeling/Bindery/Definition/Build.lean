import Bindery.Definition.Validity
import Bindery.Refusal

/-!
# Schemas from definitions

The schema that a document defines. The types of the document stand in their order, each followed by
the standard types that it is the first to mention; the types of directives and those in which a
schema describes itself come last.
-/

namespace Bindery.Definition

open Bindery.Schema

/-! ### Order -/

/-- The names that the definition of a type mentions, in order. -/
def TypePart.mentions (t : TypePart) : List String :=
  t.members ++ t.interfaces ++
    (t.fields.flatMap fun f => f.type.name :: f.arguments.map fun a => a.type.name) ++
    t.inputFields.map fun p => p.type.name

/-- The names with a name and all that it leads to at the end, unless it is there. A path through
distinct names is no longer than their number, so fuel of that size is enough. -/
def collect (m : Model) : Nat → List String → String → List String
  | 0, known, _ => known
  | fuel + 1, known, name =>
    if known.contains name then known
    else
      (((m.type? name).map TypePart.mentions).getD []).foldl (collect m fuel) (known ++ [name])

/-- The names of all types in order. -/
def orderedNames (m : Model) : List String :=
  let fuel := m.own.length + standardTypes.length + 1
  let own := m.own.map TypePart.name
  let known := own.foldl (fun known n => collect m fuel (known.filter (· != n)) n) own
  let known := (m.roots.map Prod.snd).foldl (collect m fuel) known
  let arguments := (m.directives ++ standardDirectives).flatMap DirectivePart.arguments
  let known := arguments.foldl (fun k a => collect m fuel k a.type.name) known
  collect m fuel known "__Schema"

/-! ### Parts -/

/-- A type reference. -/
def reference (m : Model) : TypeExpr → TypeRef
  | .named n => .leaf (m.kindOf n) (some n)
  | .list t => .around .list none (reference m t)
  | .nonNull t => .around .nonNull none (reference m t)

/-- The argument of a directive that is applied. -/
def Applied.argument? (a : Applied) (name : String) : Option Literal :=
  a.arguments.lookup name

/-- Why something should be avoided, if it should. -/
def deprecation (as : List Applied) : Except Refusal (Option String) :=
  match as.find? fun a => a.name == "deprecated" with
  | none => .ok none
  | some a =>
    match a.argument? "reason" with
    | none => .ok (some "No longer supported")
    | some (.string s _) => .ok (some s)
    | some _ => .error .malformedDefinition

/-- An argument. -/
def argument (m : Model) (p : InputPart) : Except Refusal Argument := do
  discard (deprecation p.directives)
  return ⟨p.name, p.description, reference m p.type,
    (p.fallback.map fun v => Json.str (String.ofList v.print)).getD .null⟩

/-- A field. -/
def field (m : Model) (f : FieldPart) : Except Refusal Field := do
  let arguments ← f.arguments.mapM (argument m)
  let reason ← deprecation f.directives
  return ⟨f.name, f.description, reference m f.type, arguments, reason.isSome, reason⟩

/-- A member of an enumeration. -/
def enumValue (p : MemberPart) : Except Refusal EnumValue := do
  let reason ← deprecation p.directives
  return ⟨p.name, p.description, reason.isSome, reason⟩

/-- The object types of an interface or a union. -/
def possibleTypes (m : Model) (order : List String) (t : TypePart) : List TypeRef :=
  let names :=
    match t.kind with
    | .union => t.members
    | .interface => order.filter fun n => m.kindOf n == Kind.object && m.isPossible t.name n
    | _ => []
  names.map fun n => .leaf (m.kindOf n) (some n)

/-- Is the place where a scalar is specified written as a text? -/
def specificationAllowed (t : TypePart) : Bool :=
  match t.directives.find? fun a => a.name == "specifiedBy" with
  | none => true
  | some a =>
    match a.argument? "url" with
    | some (.string _ _) => true
    | _ => false

/-- A type. -/
def typeDefinition (m : Model) (order : List String) (t : TypePart) :
    Except Refusal TypeDefinition := do
  if !specificationAllowed t then throw .malformedDefinition
  let fields ← t.fields.mapM (field m)
  let inputFields ← t.inputFields.mapM (argument m)
  let values ← t.values.mapM enumValue
  return ⟨t.kind, t.name, t.description, fields, inputFields,
    t.interfaces.map fun n => .leaf (m.kindOf n) (some n), values, possibleTypes m order t⟩

/-- A directive. -/
def directive (m : Model) (p : DirectivePart) : Except Refusal DirectiveDefinition := do
  let arguments ← p.arguments.mapM (argument m)
  return ⟨p.name, p.description, p.locations, arguments⟩

/-- The standard directives that a document does not define itself. -/
def missingDirectives (m : Model) : List DirectivePart :=
  standardDirectives.filter fun s => !m.directives.any fun d => d.name == s.name

/-- The schema of a model. -/
def Model.schema (m : Model) : Except Refusal Schema := do
  let order := orderedNames m
  let types ← (order.filterMap m.type?).mapM (typeDefinition m order)
  let directives ← (m.directives ++ missingDirectives m).mapM (directive m)
  return ⟨m.roots.lookup "query", m.roots.lookup "mutation", m.roots.lookup "subscription",
    types, directives⟩

/-- The schema that a document defines. -/
def Document.schema (d : Document) : Except Refusal Schema := do
  if !d.isAllowed then throw .invalidDefinition
  let m := d.model
  let s ← m.schema
  if m.isValid then return s else throw .invalidDefinition

/-- The schema that a text defines. -/
def schemaOfText (s : String) : Except Refusal Schema :=
  match document? s with
  | none => .error .malformedDefinition
  | some d => d.schema

end Bindery.Definition
