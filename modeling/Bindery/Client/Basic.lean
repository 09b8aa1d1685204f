import Bindery.Catalog.Members
import Bindery.Label.Documentation
import Bindery.Label.Free
import Bindery.Text.Quoted

/-!
# Members of a client

A client consists of members, each the text of a class with what it needs of other members. What the
kinds of classes have in common: checked names, documentation, the order of classes, the constants
of types, and parameters for arguments.
-/

namespace Bindery.Client

open Bindery.Schema Bindery.Label Bindery.Scalar

/-- The text of a class with the classes that it refers to. -/
structure Member where
  /-- The name of the class. -/
  className : String
  /-- The text. -/
  text : String
  /-- The classes that must exist before this one. -/
  imports : List String
  /-- The classes that only the types of its members refer to. -/
  typeImports : List String
  deriving DecidableEq, Repr

/-- A name that can stand in a client. -/
def usableName (name description : String) : Except Refusal String :=
  if Text.isUsableName name then .ok name else .error (.unusableName name description)

/-- A class name that can stand in a client. -/
def usableClassName (name : String) : Except Refusal String :=
  usableName name "class name"

/-- The description that is written into a client, empty where there is none. -/
def documentation (c : Configuration) (text : Option String) : String :=
  if c.documents then Text.trim (text.getD "") else ""

/-- Items by their keys, items with one key in their order. -/
def sortedBy {α : Type} (items : List (String × α)) : List α :=
  (items.mergeSort fun a b => decide (a.1 ≤ b.1)).map Prod.snd

/-- The items in the configured order; the key of an item may be refused. -/
def ordered {α : Type} (c : Configuration) (key : α → Except Refusal String) (items : List α) :
    Except Refusal (List α) :=
  match c.order with
  | .bySchema => .ok items
  | .alphabetical => (items.mapM fun a => (key a).map fun k => (k, a)).map sortedBy

/-- A name that is not used yet, and the used names with it. -/
def takeName (used : List String) (name : String) : String × List String :=
  let n := uniqueName used name
  (n, n :: used)

/-! ### Constants of types -/

/-- The constants of the standard scalars and the types. -/
def typeConstants (s : Schema) : Keyed String :=
  let own := (s.types.filter fun (t : TypeDefinition) =>
    !t.isBuiltIn && !standardScalars.contains t.name).map TypeDefinition.name
  let names := standardScalars ++ own
  let constants := (uniqueNames [] (names.map fun n => safeName [] (upperCase n))).1
  .ofList (names.zip constants)

/-! ### Parameters for arguments -/

/-- The parameter for an argument. -/
structure Parameter where
  /-- The name of the argument. -/
  name : String
  /-- The name of the parameter. -/
  parameter : String
  /-- The expression of its type. -/
  annotation : String
  /-- Must it be given? -/
  isRequired : Bool
  /-- The mask through which moments are written. -/
  mask : Option String
  deriving DecidableEq, Repr

/-- The expression of the type of a parameter. -/
def parameterType (t : MemberType) (isRequired : Bool) : String :=
  let either := t.name ++ " | QueryBuilderParameter[" ++ t.name ++ "]"
  if isRequired then either else "Optional[" ++ either ++ "]"

/-- The parameters for arguments in their order, and the used names with theirs. -/
def parametersInOrder (c : Catalog) (owner : String) :
    List Argument → List String → Except Refusal (List Parameter × List String)
  | [], used => .ok ([], used)
  | a :: r, used => do
    let t ← c.memberType owner a.name a.type (!a.isRequired)
    let (parameter, used) := takeName used (safeName [] (snakeCase a.name))
    let (rest, used) ← parametersInOrder c owner r used
    return (⟨a.name, parameter, parameterType t a.isRequired, a.isRequired, t.mask⟩ :: rest, used)

/-- The parameters for arguments, those that must be given first, and the used names with theirs. -/
def parameters (c : Catalog) (owner : String) (as : List Argument) (used : List String) :
    Except Refusal (List Parameter × List String) := do
  let (ps, used) ← parametersInOrder c owner as used
  return (ps.filter Parameter.isRequired ++ ps.filter fun p => !p.isRequired, used)

/-- The classes that a reference leads to. -/
def referredClasses (c : Catalog) (t : TypeRef) : List String :=
  let named := t.innermost
  match named.name? with
  | none => []
  | some n => if named.kind == .scalar || n.isEmpty then [] else [c.className n]

/-- The classes that arguments lead to. -/
def argumentClasses (c : Catalog) (as : List Argument) : List String :=
  as.flatMap fun (a : Argument) => referredClasses c a.type

/-! ### Text -/

/-- Lines, each with a line feed at its end. -/
def linesText (lines : List String) : String :=
  String.join (lines.map fun l => l ++ "\n")

/-- The lines of a description between triple quotes and an empty line, or none. -/
def descriptionLines (description : String) : List String :=
  if description.isEmpty then [] else ["    \"\"\"" ++ docstring description ++ "\"\"\"", ""]

/-- The line of a class without anything in it. -/
def passLines (isEmpty : Bool) : List String :=
  if isEmpty then ["    pass"] else []

/-- The text of a parameter with its default. -/
def Parameter.text (p : Parameter) : String :=
  ", " ++ p.parameter ++ ": " ++ p.annotation ++ if p.isRequired then "" else " = None"

/-- The mask as a further argument of a call. -/
def maskText (mask : Option String) : String :=
  match mask with
  | some m => if m.isEmpty then "" else ", " ++ Text.quoted m
  | none => ""

end Bindery.Client
