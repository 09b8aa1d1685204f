import Bindery.Catalog.Naming

/-!
# Making a catalog

A catalog is made in steps, which report what they pass over and may refuse.
-/

namespace Bindery.Catalog

open Bindery.Schema

/-! ### Types that input types refer to -/

/-- What was visited on the way, and which object types were found. -/
structure Visit where
  /-- The names of the visited types. -/
  visited : List String
  /-- The names of the object types and interfaces among them. -/
  found : List String

/-- May the search go on at a type of the kind? -/
def isPassage : Kind → Bool
  | .object | .interface | .inputObject => true
  | _ => false

/-- The types of the fields of a type that are generated. -/
def fieldTypes (c : Catalog) (t : TypeDefinition) : Except Refusal (List TypeRef) :=
  if t.kind == .inputObject then .ok (t.inputFields.map fun (f : Argument) => f.type)
  else (c.ownFields t).map fun fs => fs.map fun (f : Field) => f.type

/-- The visit of a type and of all that it leads to. Each step visits a new name of a type, so their
number bounds the fuel. -/
def visitFrom (c : Catalog) : Nat → Visit → TypeDefinition → Except Refusal Visit
  | 0, v, _ => .ok v
  | fuel + 1, v, t => do
    if t.kind == .union || v.visited.contains t.name then return v
    let v : Visit :=
      ⟨t.name :: v.visited, if t.kind == .inputObject then v.found else t.name :: v.found⟩
    let refs ← c.fieldTypes t
    refs.foldlM (fun v (r : TypeRef) =>
      match c.types.get? r.innermost.nameOrEmpty with
      | some next => if isPassage next.kind then c.visitFrom fuel v next else .ok v
      | none => .ok v) v

/-- The object types and interfaces that input types lead to. -/
def reachedTypes (c : Catalog) : Except Refusal (List String) := do
  let v ← c.schema.inputTypes.foldlM (c.visitFrom (c.schema.types.length + 1)) ⟨[], []⟩
  return v.found.reverse

/-! ### Steps -/

/-- What generation reports: each report is a line. -/
abbrev Log := List String

/-- The report of something that is passed over. -/
def warning (text : String) : String :=
  "WARNING: " ++ text

/-- The directives by their names, and reports of repeated ones. -/
def collectDirectives : List DirectiveDefinition → Keyed DirectiveDefinition → Log →
    Keyed DirectiveDefinition × Log
  | [], known, log => (known, log)
  | d :: r, known, log =>
    if known.contains d.name then
      collectDirectives r known
        (log ++ [warning ("duplicate \"" ++ d.name ++ "\" directive definition")])
    else collectDirectives r (known.put d.name d) log

/-- What is known while the members of unions are collected. -/
structure UnionState where
  /-- The names of the types that are members of a union. -/
  seen : List String
  /-- The unions of the types. -/
  memberships : Keyed (List String)
  /-- The reports. -/
  log : Log

/-- The state with one more member of a union. A type is a member of the first union that names
it. -/
def addMember (union : String) (s : UnionState) (t : TypeRef) : UnionState :=
  match t.name?.filter s.seen.contains with
  | some n =>
    { s with
      log := s.log ++ [warning ("duplicate union \"" ++ union ++ "\" possible type \"" ++ n ++ "\"")] }
  | none =>
    let n := t.nameOrEmpty
    { s with
      seen := n :: s.seen
      memberships := s.memberships.put n ((s.memberships.get? n).getD [] ++ [union]) }

/-- The unions of the types, and reports of types that were members before. -/
def collectUnions (ts : List TypeDefinition) : Keyed (List String) × Log :=
  let s := (ts.filter fun (t : TypeDefinition) => t.kind == .union).foldl
    (fun s (t : TypeDefinition) => t.possibleTypes.foldl (addMember t.name) s) ⟨[], .empty, []⟩
  (s.memberships, s.log)

/-- The reports of class names that are given for unknown types, up to the first class name that
cannot stand in a client. -/
def checkMapping (known : String → Bool) : List (String × String) → Log × Option Refusal
  | [] => ([], none)
  | (typeName, className) :: r =>
    if !Text.isUsableName className then ([], some (.badClassName className typeName))
    else
      let (log, e) := checkMapping known r
      if known typeName then (log, e)
      else (warning ("class mapping for unknown type \"" ++ typeName ++ "\" is ignored") :: log, e)

/-- The catalog of a schema with the reports on the way, or the reports up to a refusal. -/
def make (configuration : Configuration) (schema : Schema) : Log × Except Refusal Catalog :=
  let complex := byName schema.complexTypes
  let (directives, log) := collectDirectives schema.directives .empty []
  let (memberships, unionLog) := collectUnions complex.values
  let c : Catalog :=
    { configuration, schema, types := byName schema.types, complex, directives, memberships,
      renamed := .empty, referenced := [] }
  let (mappingLog, e) := checkMapping c.types.contains configuration.classNames.entries
  (log ++ unionLog ++ mappingLog,
    match e with
    | some e => .error e
    | none => do
      let c := { c with renamed := ← c.renamedTypes }
      return { c with referenced := ← c.reachedTypes })

end Bindery.Catalog
