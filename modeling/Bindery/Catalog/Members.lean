import Bindery.Catalog.Basic
import Bindery.Scalar.Resolve

/-!
# The types of members

The type that a member has in the client: lists of what their items have, the classes of object
types and input types, and the types of scalars and enumerations.
-/

namespace Bindery.Catalog

open Bindery.Schema Bindery.Scalar

/-- The type of a list. -/
def listType (item : MemberType) : MemberType :=
  ⟨"List[" ++ item.annotation ++ "]", item.mask, true, false⟩

/-- Does the type have a class of its own, other than that of an enumeration? -/
def hasClass (k : Kind) : Bool :=
  k.isComplex || k == .inputObject

/-- The type of a member that is no list. -/
def leafType (c : Catalog) (owner member : String) (ref : TypeRef) (alwaysNullable : Bool) :
    Except Refusal MemberType := do
  let t := ref.nullable
  if t.kind == .list then throw (.unresolvedItem owner member)
  if hasClass t.kind then
    discard (c.typeOf t.nameOrEmpty)
    return (referring (c.className t.nameOrEmpty)).forReference ref alwaysNullable
      c.configuration.nullableReferences
  resolve c.configuration owner member ref alwaysNullable c.className

/-- The type of a member. -/
def memberType (c : Catalog) (owner member : String) :
    TypeRef → (alwaysNullable : Bool) → Except Refusal MemberType
  | .around .nonNull n (.around .list m item), always => do
    let t ← c.memberType owner member item false
    return (listType t).forReference (.around .nonNull n (.around .list m item)) always
      c.configuration.nullableReferences
  | .around .list m item, always => do
    let t ← c.memberType owner member item false
    return (listType t).forReference (.around .list m item) always
      c.configuration.nullableReferences
  | ref, always => c.leafType owner member ref always

/-- The type of a property of a data class. -/
def propertyType (c : Catalog) (owner : String) (f : Field) : Except Refusal MemberType :=
  c.memberType owner f.name f.type (c.configuration.nullability == .always)

end Bindery.Catalog
