import Bindery.Configuration
import Bindery.Label.Temporal

/-!
# Resolving the types of members

The type of a scalar or an enumeration at a member: what the configured mapping says, or else the
type of the enumeration, the type of points in time for members whose names tell one, the type of a
standard scalar, or the fallback.
-/

namespace Bindery.Scalar

open Bindery.Schema Bindery.Label

/-- The type without blanks around its expression, if neither it nor its mask is blank. -/
def checked (owner member : String) (t : MemberType) : Except Refusal MemberType :=
  let name := Text.trim t.name
  if name.isEmpty then .error (.blankTypeName owner member)
  else if t.mask.any fun m => (Text.trim m).isEmpty then .error (.blankMask owner member)
  else .ok { t with name := name }

/-- The type for a reference that may or may not be null. -/
def MemberType.forReference (t : MemberType) (ref : TypeRef)
    (alwaysNullable nullableReferences : Bool) : MemberType :=
  { t with
    isNullable :=
      if t.isReference && !nullableReferences then true
      else alwaysNullable || ref.kind != .nonNull }

/-- What a mapping says about a member. -/
def answerOf (mapping : TypeMapping) (owner member : String) (t : TypeRef) : Option MemberType :=
  match mapping with
  | .wellKnown => wellKnown.lookup t.nameOrEmpty
  | .rules rules => firstMatch rules owner t.nameOrEmpty member
  | .fixed answer => answer

/-- The type of `Int`, unless a mapping is to say it. -/
def integerType : IntegerMapping → Option MemberType
  | .int => some (plain "int")
  | .int16 => some (plain "Int16")
  | .int32 => some (plain "Int32")
  | .int64 => some (plain "Int64")
  | .custom => none

/-- The type of `Float`, unless a mapping is to say it. -/
def floatType : FloatMapping → Option MemberType
  | .float => some (plain "float")
  | .decimal => some (plain "decimal.Decimal")
  | .custom => none

/-- The type of `ID`, unless a mapping is to say it. -/
def idType : IdMapping → Option MemberType
  | .string => some text
  | .uuid => some (plain "uuid.UUID")
  | .object => some any
  | .custom => none

/-- The type of `Boolean`, unless a mapping is to say it. -/
def booleanType : BooleanMapping → Option MemberType
  | .boolean => some (plain "bool")
  | .custom => none

/-- The type of a standard scalar whose type can be chosen, unless a mapping is to say it. -/
def chosenType? (c : Configuration) : String → Option (Option MemberType)
  | "Int" => some (integerType c.integers)
  | "Float" => some (floatType c.floats)
  | "ID" => some (idType c.ids)
  | "Boolean" => some (booleanType c.booleans)
  | _ => none

/-- The type of a member that no mapping speaks of. -/
def defaultType (c : Configuration) (owner member : String) (t : TypeRef)
    (enumName : String → String) : Except Refusal MemberType :=
  if t.kind == .enumeration then .ok (plain (enumName t.nameOrEmpty))
  else if isTemporal member then .ok dateTime
  else match t.name?.bind (chosenType? c) with
    | none => .ok (fallback t.name?)
    | some (some chosen) => .ok chosen
    | some none =>
      if c.mapping.isNone then .error (.mappingRequired t.nameOrEmpty)
      else .error (.mappingMissing owner member t.nameOrEmpty)

/-- The type of a scalar or an enumeration at a member. -/
def resolve (c : Configuration) (owner member : String) (ref : TypeRef) (alwaysNullable : Bool)
    (enumName : String → String) : Except Refusal MemberType := do
  let t := ref.nullable
  let found ← match c.mapping.bind fun m => answerOf m owner member t with
    | some answer => checked owner member answer
    | none => defaultType c owner member t enumName
  return found.forReference ref alwaysNullable c.nullableReferences

end Bindery.Scalar
