import Bindery.Schema.Basic

/-!
# Types of members

The type that a member of the schema has in the client: an expression, whether the member may be
left empty, and the mask through which its moments are written. Scalars that are no standard ones
have well known types or any type.
-/

namespace Bindery.Scalar

/-- The type of a member in the client. -/
structure MemberType where
  /-- The expression of the type. -/
  name : String
  /-- The mask through which moments are written. -/
  mask : Option String
  /-- Does the type lack a value of its own for what is missing? -/
  isReference : Bool
  /-- May the member be left empty? -/
  isNullable : Bool
  deriving DecidableEq, Repr

/-- The type that accepts anything. -/
def anyName : String := "Any"

/-- The expression that stands at the member. -/
def MemberType.annotation (t : MemberType) : String :=
  if t.isNullable && t.name != anyName then "Optional[" ++ t.name ++ "]" else t.name

/-- A type with a value of its own for what is missing. -/
def plain (name : String) : MemberType :=
  ⟨name, none, false, false⟩

/-- A type without one. -/
def referring (name : String) : MemberType :=
  ⟨name, none, true, false⟩

/-- The type of texts. -/
def text : MemberType := referring "str"

/-- The type that accepts anything. -/
def any : MemberType := referring anyName

/-- The type of points in time. -/
def dateTime : MemberType := plain "datetime.datetime"

/-- The types of well known scalars. -/
def wellKnown : List (String × MemberType) :=
  [("BigInt", plain "int"), ("Byte", plain "int"), ("Long", plain "int"), ("Short", plain "int"),
    ("UInt", plain "int"), ("ULong", plain "int"), ("UShort", plain "int"),
    ("Date", plain "datetime.date"), ("DateOnly", plain "datetime.date"), ("DateTime", dateTime),
    ("DateTimeOffset", dateTime), ("Time", plain "datetime.time"), ("TimeOnly", plain "datetime.time"),
    ("Decimal", plain "decimal.Decimal"), ("BigDecimal", plain "decimal.Decimal"),
    ("Guid", plain "uuid.UUID"), ("UUID", plain "uuid.UUID"), ("URL", text), ("Uri", text),
    ("JSON", any)]

/-- The type of a scalar that has no type of its own in every schema. -/
def fallback (name : Option String) : MemberType :=
  if name == some "String" then text
  else (wellKnown.lookup (name.getD "")).getD any

end Bindery.Scalar
