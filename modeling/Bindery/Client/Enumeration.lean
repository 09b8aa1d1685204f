import Bindery.Client.Basic
import Bindery.Client.Reserved

/-!
# Classes of enumerations

The class of an enumeration has a member for each of its values.
-/

namespace Bindery.Client

open Bindery.Schema Bindery.Label

/-- A member of the class of an enumeration. -/
structure EnumMember where
  /-- The name of the member. -/
  name : String
  /-- The name of the value. -/
  wireName : String
  /-- What the value is for. -/
  description : String
  deriving DecidableEq, Repr

/-- The class of an enumeration. -/
structure EnumClass where
  /-- The name of the class. -/
  className : String
  /-- What the enumeration is for. -/
  description : String
  /-- The members in order. -/
  members : List EnumMember
  deriving DecidableEq, Repr

/-- The members for values. -/
def enumMembers (c : Catalog) : List EnumValue → List String → List EnumMember
  | [], _ => []
  | v :: r, used =>
    let own := match c.configuration.enumNaming with
      | .upperCase => upperCase v.name
      | .original => v.name
    let (name, used) := takeName used (safeName enumNames own)
    ⟨name, v.name, documentation c.configuration v.description⟩ :: enumMembers c r used

/-- The class of an enumeration. -/
def enumClass (c : Catalog) (t : TypeDefinition) : Except Refusal EnumClass := do
  let name ← usableClassName (c.className t.name)
  return ⟨name, documentation c.configuration t.description,
    enumMembers c (t.enumValues.filter fun v => c.includes v.isDeprecated) []⟩

/-- The classes of the enumerations. -/
def enumClasses (c : Catalog) : Except Refusal (List EnumClass) := do
  let ts ← ordered c.configuration (fun (t : TypeDefinition) => .ok (c.className t.name))
    c.schema.enumTypes
  ts.mapM (enumClass c)

/-- The lines of a member. -/
def EnumMember.lines (m : EnumMember) : List String :=
  (if m.description.isEmpty then [] else ["    # " ++ comment m.description]) ++
    ["    " ++ m.name ++ " = " ++ Text.quoted m.wireName]

/-- The text of the class. -/
def EnumClass.text (e : EnumClass) : String :=
  linesText (["class " ++ e.className ++ "(str, enum.Enum):"] ++ descriptionLines e.description ++
    e.members.flatMap EnumMember.lines ++ passLines (e.members.isEmpty && e.description.isEmpty))

/-- The member of the client. -/
def EnumClass.member (e : EnumClass) : Member :=
  ⟨e.className, e.text, [], []⟩

end Bindery.Client
