import Bindery.Label.Case

/-!
# Names of moments

A member whose name tells a point in time.
-/

namespace Bindery.Label

/-- The names that tell a point in time. -/
def temporalNames : List String :=
  ["From", "ValidFrom", "To", "ValidTo", "CreatedAt", "UpdatedAt", "ModifiedAt", "DeletedAt"]

/-- Does the name of a member tell a point in time? -/
def isTemporal (name : String) : Bool :=
  let n := pascalCase name
  temporalNames.contains n || n.endsWith "Timestamp"

end Bindery.Label
