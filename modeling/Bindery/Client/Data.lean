import Bindery.Client.Basic
import Bindery.Client.Reserved

/-!
# Data classes

The data class of a type has a property for each field of its values. It derives from the classes of
the interfaces and unions that its type belongs to, and stands behind them. Where types belong to
each other in a circle, the ancestors of a type are those that were known when they were first asked
for.
-/

namespace Bindery.Client

open Bindery.Schema Bindery.Label

/-- A property of a data class. -/
structure DataProperty where
  /-- The name of the field. -/
  name : String
  /-- The name of the property. -/
  attr : String
  /-- The expression of its type. -/
  annotation : String
  /-- What the field is for. -/
  description : String
  deriving DecidableEq, Repr

/-- A data class. -/
structure DataView where
  /-- The name of the class. -/
  className : String
  /-- The classes that it derives from. -/
  bases : List String
  /-- What the type is for. -/
  description : String
  /-- The properties in order. -/
  properties : List DataProperty
  /-- The classes that must exist before it. -/
  imports : List String
  /-- The classes that the properties refer to. -/
  typeImports : List String
  deriving DecidableEq, Repr

/-- The base of every data class. -/
def dataBase : String := "GraphQlDataModel"

/-- The base of the data classes whose objects can be sent. -/
def sendableBase : String := "GraphQlInputDataModel"

/-- The interfaces and unions that a type belongs to. -/
def parentTypes (c : Catalog) (t : TypeDefinition) : List String :=
  let named := (t.interfaces.filterMap TypeRef.name?).filter fun n => !n.isEmpty
  ((named ++ c.unionsOf t.name).filter c.complex.contains).eraseDups

/-! ### Order -/

/-- What was visited on the way. -/
structure Emission where
  /-- The types whose parents are being visited. -/
  visiting : List String
  /-- The types in the order of their classes. -/
  emitted : List TypeDefinition

/-- The emission with a type behind its parents. Each step visits a new type, so their number bounds
the fuel. -/
def emit (c : Catalog) : Nat → Emission → TypeDefinition → Emission
  | 0, e, _ => e
  | fuel + 1, e, t =>
    if e.visiting.contains t.name || e.emitted.any (fun (x : TypeDefinition) => x.name == t.name) then e
    else
      let inner := ((parentTypes c t).filterMap c.complex.get?).foldl (emit c fuel)
        { e with visiting := t.name :: e.visiting }
      ⟨e.visiting, inner.emitted ++ [t]⟩

/-- The types in the order of their classes: parents stand before the types that belong to them. -/
def emissionOrder (c : Catalog) (ts : List TypeDefinition) : List TypeDefinition :=
  (ts.foldl (emit c (c.complex.size + 1)) ⟨[], []⟩).emitted

/-! ### Ancestors -/

/-- The ancestors of types as far as they are known. -/
abbrev Ancestors := Keyed (List String)

/-- The names of two lists, each once. -/
def unite (a b : List String) : List String :=
  a ++ b.filter fun n => !a.contains n

/-- The ancestors of a type; what is known of a type is taken as it is. -/
def ancestorsOf (c : Catalog) : Nat → String → StateM Ancestors (List String)
  | 0, _ => pure []
  | fuel + 1, name => do
    match (← get).get? name with
    | some known => return known
    | none =>
      modify fun m => m.put name []
      for parent in ((c.complex.get? name).map (parentTypes c)).getD [] do
        let more ← ancestorsOf c fuel parent
        modify fun m => m.put name (unite ((m.get? name).getD []) (unite [parent] more))
      return ((← get).get? name).getD []

/-- The number of types, which bounds a chain of ancestors. -/
def ancestorFuel (c : Catalog) : Nat :=
  c.complex.size + 1

/-- Is the name an ancestor of one of the others? -/
def isInherited (c : Catalog) (name : String) : List String → StateM Ancestors Bool
  | [] => pure false
  | other :: r =>
    if other == name then isInherited c name r
    else do
      let known ← ancestorsOf c (ancestorFuel c) other
      if known.contains name then return true
      isInherited c name r

/-- The parents that are no ancestors of other parents. -/
def directParents (c : Catalog) (parents : List String) : StateM Ancestors (List String) :=
  parents.filterM fun p => do return !(← isInherited c p parents)

/-- The parents and their ancestors. -/
def inheritedTypes (c : Catalog) (parents : List String) : StateM Ancestors (List String) := do
  let above ← parents.mapM (ancestorsOf c (ancestorFuel c))
  return parents ++ above.flatten

/-! ### Classes -/

/-- The properties for fields. -/
def dataProperties (c : Catalog) (owner : String) :
    List Field → List String → Except Refusal (List DataProperty)
  | [], _ => .ok []
  | f :: r, used => do
    let t ← c.propertyType owner f
    let (attr, used) := takeName used (safeName dataClassNames (snakeCase f.name))
    let rest ← dataProperties c owner r used
    return ⟨f.name, attr, t.annotation, documentation c.configuration f.description⟩ :: rest

/-- The bases of a data class: its objects can be sent if an input type refers to its type. -/
def basesOf (c : Catalog) (name : String) (parents inherited : List String) : List String :=
  let own := parents.map fun p => c.className p
  let sendable := c.referenced.contains name && !inherited.any c.referenced.contains
  let bases := own ++ if sendable then [sendableBase] else []
  if bases.isEmpty then [dataBase] else bases

/-- A data class, and what is known of ancestors afterwards. -/
def dataView (c : Catalog) (known : Ancestors) (t : TypeDefinition) :
    Except Refusal (DataView × Ancestors) := do
  let name ← usableClassName (c.className t.name)
  let (parents, known) := (directParents c (parentTypes c t)).run known
  let (inherited, known) := (inheritedTypes c parents).run known
  let fields ← c.effectiveFields t
  let ps ← dataProperties c t.name fields []
  return (⟨name, basesOf c t.name parents inherited, documentation c.configuration t.description, ps,
    parents.map fun p => c.className p,
    fields.flatMap fun (f : Field) => referredClasses c f.type⟩, known)

/-- The data classes of types in order. -/
def dataViewsInOrder (c : Catalog) :
    List TypeDefinition → Ancestors → Except Refusal (List DataView)
  | [], _ => .ok []
  | t :: r, known => do
    let (d, known) ← dataView c known t
    let rest ← dataViewsInOrder c r known
    return d :: rest

/-- The data classes. -/
def dataViews (c : Catalog) : Except Refusal (List DataView) := do
  let ts ← ordered c.configuration (fun (t : TypeDefinition) => .ok (c.className t.name))
    c.complex.values
  dataViewsInOrder c (emissionOrder c ts) .empty

/-- The line of a property. -/
def DataProperty.line (p : DataProperty) : String :=
  "    " ++ p.attr ++ ": " ++ p.annotation ++ " = Field(default=None, alias=" ++ Text.quoted p.name ++
    (if p.description.isEmpty then "" else ", description=" ++ Text.quoted p.description) ++ ")"

/-- The text of the class. -/
def DataView.text (d : DataView) : String :=
  linesText (["class " ++ d.className ++ "(" ++ ", ".intercalate d.bases ++ "):"] ++
    descriptionLines d.description ++ d.properties.map DataProperty.line ++
    passLines (d.properties.isEmpty && d.description.isEmpty))

/-- The member of the client. -/
def DataView.member (d : DataView) : Member :=
  ⟨d.className, d.text, d.imports, d.typeImports⟩

end Bindery.Client
