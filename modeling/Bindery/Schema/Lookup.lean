import Bindery.Keyed
import Bindery.Refusal
import Bindery.Schema.Basic

/-!
# Looking things up in a schema

The types of a schema by name and by kind, the operations of its root types, and the fields and
fragments that can be selected on a type.
-/

namespace Bindery.Schema

/-- The first type of a name. -/
def typeOf? (s : Schema) (name : String) : Option TypeDefinition :=
  s.types.find? fun t => t.name == name

/-- The types of some kinds that do not belong to the description of schemas. -/
def typesOf (s : Schema) (wanted : Kind → Bool) : List TypeDefinition :=
  s.types.filter fun t => wanted t.kind && !t.isBuiltIn

/-- The types whose values need a selection set. -/
def complexTypes (s : Schema) : List TypeDefinition :=
  s.typesOf Kind.isComplex

/-- The input object types. -/
def inputTypes (s : Schema) : List TypeDefinition :=
  s.typesOf (· == .inputObject)

/-- The enumerations. -/
def enumTypes (s : Schema) : List TypeDefinition :=
  s.typesOf (· == .enumeration)

/-- The keywords of the operations by their root types; of two operations on one type the later one
counts. -/
def operations (s : Schema) : Keyed String :=
  .ofList ([(s.queryType, "query"), (s.mutationType, "mutation"),
    (s.subscriptionType, "subscription")].filterMap fun r => r.1.map fun n => (n, r.2))

/-- The fields of the members of a union; of two fields with one name the earlier one counts. -/
def unionFields (s : Schema) (union : String) (known : Keyed Field) :
    List TypeRef → Except Refusal (Keyed Field)
  | [] => .ok known
  | r :: rest =>
    match r.name?.bind s.typeOf? with
    | none => .error (.unknownMember union (r.name?.getD "None"))
    | some t =>
      unionFields s union (t.fields.foldl (fun m f => m.putNew f.name f) known) rest

/-- The fields that values of a type have. -/
def effectiveFields (s : Schema) (t : TypeDefinition) : Except Refusal (List Field) :=
  if t.kind == .union then (unionFields s t.name .empty t.possibleTypes).map Keyed.values
  else .ok t.fields

/-- The concrete types of an interface or a union that have fields. -/
def fragments (s : Schema) (t : TypeDefinition) : List TypeDefinition :=
  (t.possibleTypes.filterMap fun (r : TypeRef) => r.name?.bind s.typeOf?).filter
    fun m => !m.fields.isEmpty

end Bindery.Schema
