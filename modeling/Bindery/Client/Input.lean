import Bindery.Client.Basic
import Bindery.Client.Reserved

/-!
# Classes of input objects

The class of an input object type has a property for each of its fields.
-/

namespace Bindery.Client

open Bindery.Schema Bindery.Label

/-- A property of the class of an input object type. -/
structure InputProperty where
  /-- The name of the field. -/
  name : String
  /-- The name of the property. -/
  attr : String
  /-- The expression of its type. -/
  annotation : String
  /-- The mask through which moments are written. -/
  mask : Option String
  /-- What the field is for, on one line. -/
  description : String
  deriving DecidableEq, Repr

/-- The class of an input object type. -/
structure InputView where
  /-- The name of the class. -/
  className : String
  /-- What the type is for. -/
  description : String
  /-- The properties in order. -/
  properties : List InputProperty
  /-- The classes that the properties refer to. -/
  typeImports : List String
  deriving DecidableEq, Repr

/-- The properties for fields. -/
def inputProperties (c : Catalog) (owner : String) :
    List Argument → List String → Except Refusal (List InputProperty)
  | [], _ => .ok []
  | f :: r, used => do
    let t ← c.memberType owner f.name f.type true
    let (attr, used) := takeName used (safeName inputClassNames (snakeCase f.name))
    let rest ← inputProperties c owner r used
    return ⟨f.name, attr, t.annotation, t.mask,
      comment (documentation c.configuration f.description)⟩ :: rest

/-- The class of an input object type. -/
def inputView (c : Catalog) (t : TypeDefinition) : Except Refusal InputView := do
  let name ← usableClassName (c.className t.name)
  let ps ← inputProperties c t.name t.inputFields []
  return ⟨name, documentation c.configuration t.description, ps, argumentClasses c t.inputFields⟩

/-- The classes of the input object types. -/
def inputViews (c : Catalog) : Except Refusal (List InputView) := do
  let ts ← ordered c.configuration (fun (t : TypeDefinition) => .ok (c.className t.name))
    c.schema.inputTypes
  ts.mapM (inputView c)

/-- The mask as a named argument of a call. -/
def namedMask (mask : Option String) : String :=
  match mask with
  | some m => if m.isEmpty then "" else ", format_mask=" ++ Text.quoted m
  | none => ""

/-- The lines of a property. -/
def InputProperty.lines (p : InputProperty) : List String :=
  (if p.description.isEmpty then [] else ["    # " ++ p.description]) ++
    ["    " ++ p.attr ++ ": InputProperty[" ++ p.annotation ++ "] = InputProperty(" ++
      Text.quoted p.name ++ namedMask p.mask ++ ")"]

/-- The text of the class. -/
def InputView.text (i : InputView) : String :=
  linesText (["class " ++ i.className ++ "(GraphQlInputObject):"] ++
    descriptionLines i.description ++ i.properties.flatMap InputProperty.lines ++
    passLines (i.properties.isEmpty && i.description.isEmpty))

/-- The member of the client. -/
def InputView.member (i : InputView) : Member :=
  ⟨i.className, i.text, [], i.typeImports⟩

end Bindery.Client
