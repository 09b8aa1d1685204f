import Bindery.Client.Basic
import Bindery.Support.Text

/-!
# Members that every client has

The support text and the class with the names of the types.
-/

namespace Bindery.Client

/-- The name of the support text as a member. -/
def supportName : String := "BaseClasses"

/-- The support text, which stands in a file of its own or before other classes. -/
def supportMember (ownFile : Bool) : Member :=
  ⟨supportName, if ownFile then Support.fullText else Support.embeddedText, [], []⟩

/-- The name of the class of type names. -/
def typeNamesClass : String := "GraphQlTypes"

/-- The text of the class of type names, from the constants of the types. -/
def typeNamesText (constants : Keyed String) : String :=
  linesText (["class " ++ typeNamesClass ++ ":",
      "    \"\"\"Names of the GraphQL types of the schema.\"\"\"", ""] ++
    constants.entries.map fun e => "    " ++ e.2 ++ " = " ++ Text.quoted e.1)

/-- The class of type names. -/
def typeNamesMember (constants : Keyed String) : Member :=
  ⟨typeNamesClass, typeNamesText constants, [], []⟩

end Bindery.Client
