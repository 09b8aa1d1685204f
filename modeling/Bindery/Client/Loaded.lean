import Bindery.Client.Builder
import Bindery.Client.Data
import Bindery.Client.Enumeration
import Bindery.Client.Input
import Bindery.Query.Input
import Bindery.Query.Store

/-!
# Loaded clients

What the classes of a client offer once the client is loaded: members of enumerations, directives
and input objects to make, and builders with their methods. To load a client is refused where a
function has two parameters of one name, where a data class stands before one of its bases, or where
its bases cannot be put into an order.
-/

namespace Bindery.Client

open Bindery.Query (Error)

/-- The classes of a client. -/
structure Classes where
  /-- The classes of the enumerations. -/
  enums : List EnumClass
  /-- The classes of the directives. -/
  directives : List DirectiveClass
  /-- The classes of the builders. -/
  builders : List BuilderView
  /-- The classes of the input objects. -/
  inputs : List InputView
  /-- The data classes. -/
  data : List DataView

/-- The classes of the client of a catalog. -/
def Classes.ofCatalog (c : Catalog) : Except Refusal Classes := do
  let enums ← enumClasses c
  let directives ← directiveClasses c
  let builders ← builderViews c (typeConstants c.schema)
  let inputs ← inputViews c
  let data ← dataViews c
  return ⟨enums, directives, builders, inputs, data⟩

/-- A loaded client. Of several classes with one name the last one counts. -/
structure Loaded where
  /-- The classes of the enumerations. -/
  enums : Keyed EnumClass
  /-- The classes of the directives. -/
  directives : Keyed DirectiveClass
  /-- The classes of the builders. -/
  builders : Keyed BuilderView
  /-- The classes of the input objects. -/
  inputs : Query.InputTypes
  /-- The builders that plans make, by their types. -/
  registry : Query.Registry

/-! ### Loading -/

/-- The linear orders of the classes that every data class has as ancestors. -/
def baseOrders : Keyed (List String) :=
  .ofList [(dataBase, [dataBase]), (sendableBase, [sendableBase, dataBase])]

/-- The linear orders with that of one more data class, whose bases must be known. -/
def loadData (orders : Keyed (List String)) (d : DataView) : Except Error (Keyed (List String)) :=
  match d.bases.mapM orders.get? with
  | none => .error .undefinedClass
  | some known =>
    match Inheritance.linearize d.className d.bases known with
    | none => .error .badCall
    | some order => .ok (orders.put d.className order)

/-- What the builders of a class have in common. -/
def BuilderView.shared (b : BuilderView) : Query.BuilderClass :=
  { typeName := b.typeName
    fields := b.metadata.map fun m => ⟨m.name, m.constant.isSome, m.typeName, m.requiresArguments⟩
    fragmentTypes := b.fragments.map FragmentMethods.typeName
    operation := b.operation.bind Query.OperationType.ofKeyword?
    indentation := b.indentation }

/-- The declaration of the class of an input object. -/
def InputView.declaration (i : InputView) : Query.InputDeclaration :=
  ⟨i.className, [], i.properties.map fun p => ⟨p.attr, p.name, p.mask⟩⟩

/-- The items by their names. -/
def byClassName {α : Type} (name : α → String) (items : List α) : Keyed α :=
  .ofList (items.map fun a => (name a, a))

/-- A client is compiled as a whole before any of its classes is made. It cannot be where a function
has two parameters of one name, as the class of a directive can. -/
def Classes.compile (c : Classes) : Except Error Unit :=
  if c.directives.all fun d => decide d.parameterNames.Nodup then .ok () else .error .repeatedParameter

/-- The client, if it can be loaded. -/
def Classes.load (c : Classes) : Except Error Loaded := do
  let inputs ← c.compile.bind fun _ => Query.declareInputs (c.inputs.map InputView.declaration)
  discard (c.data.foldlM loadData baseOrders)
  return {
    enums := byClassName EnumClass.className c.enums
    directives := byClassName DirectiveClass.className c.directives
    builders := byClassName BuilderView.className c.builders
    inputs
    registry := .ofList (c.builders.map fun b => (b.typeName, b.shared)) }

/-- What is at a place of a client. -/
def member {α : Type} (x : Option α) : Except Error α :=
  match x with
  | some a => .ok a
  | none => .error .missingMember

/-- The member of an enumeration. One that is sent like an earlier one is the same member. -/
def Loaded.enumMember (l : Loaded) (cls name : String) : Except Error Query.Value := do
  let e ← member (l.enums.get? cls)
  let m ← member (e.members.find? fun m => m.name == name)
  let first := (e.members.find? fun x => x.wireName == m.wireName).getD m
  return .member (.text m.wireName) (cls ++ "." ++ first.name)

end Bindery.Client
