import Bindery.Schema.Lookup

/-!
# Filtering types

A filter keeps the types whose names begin and end as it demands. Built-in types, the standard
scalars and the root types are kept in any case. What refers to a type that was left out is left out
as well.
-/

namespace Bindery.Schema

/-- Which types are kept, by their names; an empty demand is none. -/
structure TypeFilter where
  /-- How the name of a type that is left out begins. -/
  excludedStart : Option String
  /-- How the name of a type that is left out ends. -/
  excludedEnd : Option String
  /-- How the name of a type that is kept begins. -/
  includedStart : Option String
  /-- How the name of a type that is kept ends. -/
  includedEnd : Option String
  deriving DecidableEq, Repr

/-- A demand that is not empty, and whether it is met. -/
def demand (met : String → Bool) (d : Option String) : Option Bool :=
  (d.filter fun s => !s.isEmpty).map met

/-- Does the name meet the demands? -/
def TypeFilter.accepts (f : TypeFilter) (name : String) : Bool :=
  !(demand (fun s => name.startsWith s) f.excludedStart).getD false &&
    !(demand (fun s => name.endsWith s) f.excludedEnd).getD false &&
    (demand (fun s => name.startsWith s) f.includedStart).getD true &&
    (demand (fun s => name.endsWith s) f.includedEnd).getD true

/-- Is the type kept? -/
def TypeFilter.keeps (f : TypeFilter) (s : Schema) (t : TypeDefinition) : Bool :=
  t.isBuiltIn || standardScalars.contains t.name || s.operations.contains t.name ||
    f.accepts t.name

/-- Does the reference lead to one of the names? -/
def leadsTo (kept : List String) (t : TypeRef) : Bool :=
  t.innermost.name?.any kept.contains

/-- Is the reference one of the names? -/
def isNamed (kept : List String) (t : TypeRef) : Bool :=
  t.name?.any kept.contains

/-- The type without what refers to types other than the kept ones. -/
def TypeDefinition.prune (kept : List String) (t : TypeDefinition) : TypeDefinition :=
  { t with
    fields := t.fields.filter fun (f : Field) =>
      leadsTo kept f.type && f.arguments.all fun (a : Argument) => leadsTo kept a.type
    inputFields := t.inputFields.filter fun (a : Argument) => leadsTo kept a.type
    interfaces := t.interfaces.filter (isNamed kept)
    possibleTypes := t.possibleTypes.filter (isNamed kept) }

/-- The schema with the kept types only. -/
def TypeFilter.apply (f : TypeFilter) (s : Schema) : Schema :=
  let kept := (s.types.filter (f.keeps s)).map TypeDefinition.name
  { s with
    types := (s.types.filter fun (t : TypeDefinition) => kept.contains t.name).map
      (TypeDefinition.prune kept) }

end Bindery.Schema
