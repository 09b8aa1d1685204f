import Bindery.Query.Name
import Bindery.Query.Plan

/-!
# Stores of builders

Builders under construction. A draft is a builder that can still change; others refer to it by its
number, so a change shows in every selection that it was nested in. A builder that a plan made
belongs to the draft that selected it.
-/

namespace Bindery.Query

/-- The builder of a nested selection: a draft by its number, or a finished builder. -/
inductive Handle where
  /-- A draft. -/
  | shared (id : Nat)
  /-- A finished builder. -/
  | owned (b : Builder)
  deriving Repr

/-- A builder under construction. -/
structure Draft where
  /-- What the builders of the type have in common. -/
  cls : BuilderClass
  /-- The operation. -/
  operation : Option Operation
  /-- The selected fields by their response keys. -/
  fields : Keyed (FieldSelection × Option Handle)
  /-- The fragments by their types. -/
  fragments : Keyed Handle
  /-- The declared variables by their names. -/
  declared : Keyed Variable
  deriving Repr

/-- Drafts by their numbers, and the classes of the builders that a plan makes. -/
structure Store where
  /-- The classes by their types. -/
  registry : Registry
  /-- The drafts in the order of their numbers. -/
  drafts : List Draft
  deriving Repr

/-! ### Making builders -/

/-- The operation of a keyword and a name. -/
def makeOperation (keyword name : Option String) : Except Error (Option Operation) :=
  match keyword with
  | none => if name.isSome then .error .nameWithoutOperation else .ok none
  | some k =>
    match OperationType.ofKeyword? k with
    | none => .error (.invalidOperation (Text.quoted k))
    | some type =>
      match name with
      | none => .ok (some ⟨type, none⟩)
      | some n => (checkName "operation name" n).map fun n => some ⟨type, some n⟩

/-- A draft that selects nothing. -/
def Draft.blank (cls : BuilderClass) (operation : Option Operation) : Draft :=
  ⟨cls, operation, .empty, .empty, .empty⟩

/-- A draft of a class, perhaps with an operation name. -/
def BuilderClass.draft (cls : BuilderClass) (name : Option String) : Except Error Draft :=
  (makeOperation (cls.operation.map OperationType.keyword) name).map (Draft.blank cls)

/-- The class of a builder that belongs to no type. -/
def BuilderClass.untyped : BuilderClass :=
  ⟨"", [], [], none, 2⟩

/-- What the draft is besides its selection. -/
def Draft.head (d : Draft) : BuilderHead :=
  ⟨d.cls.typeName, d.operation, d.declared⟩

/-- The store with one more draft, and its number. -/
def Store.add (s : Store) (d : Draft) : Store × Nat :=
  ({ s with drafts := s.drafts ++ [d] }, s.drafts.length)

/-- The store with a draft in place of another. -/
def Store.set (s : Store) (id : Nat) (d : Draft) : Store :=
  { s with drafts := s.drafts.set id d }

/-- The draft of a number. -/
def Store.draft (s : Store) (id : Nat) : Except Error Draft :=
  match s.drafts[id]? with
  | some d => .ok d
  | none => .error .unknownObject

/-! ### Changing a draft -/

/-- Is a value given? A missing argument has the null value. -/
def ArgumentValue.isGiven (a : ArgumentValue) : Bool :=
  match a.value with
  | .null => false
  | _ => true

/-- A directive with the arguments that are given. -/
def makeDirective (name : String) (arguments : List ArgumentValue) : Except Error DirectiveValue :=
  (checkName "directive name" name).map fun n => ⟨n, arguments.filter ArgumentValue.isGiven⟩

/-- The draft with a field selected, perhaps under an alias and with a builder of its own. -/
def Draft.select (d : Draft) (name : String) (aliasName : Option String)
    (directives : List DirectiveValue) (arguments : List ArgumentValue) (nested : Option Handle) :
    Except Error Draft := do
  match aliasName with
  | some a => discard (checkName "alias" a)
  | none => pure ()
  let f : FieldSelection := ⟨name, aliasName, arguments.filter ArgumentValue.isGiven, directives⟩
  return { d with fields := d.fields.put f.key (f, nested) }

/-- The draft without the field of a response key. -/
def Draft.exceptField (d : Draft) (key : String) : Except Error Draft :=
  if key.isEmpty then .error .fieldNameRequired
  else .ok { d with fields := (d.fields.remove key).1 }

/-- The draft without the fragment of a type. -/
def Draft.exceptFragment (d : Draft) (typeName : String) : Draft :=
  { d with fragments := (d.fragments.remove typeName).1 }

/-- The draft without fields and fragments; its variables stay declared. -/
def Draft.clear (d : Draft) : Draft :=
  { d with fields := .empty, fragments := .empty }

/-- The draft with the fields of a plan. -/
def Draft.withFields (d : Draft) (fields : List (String × Option Builder)) : Draft :=
  fields.foldl (fun d f =>
    { d with fields := d.fields.put f.1 (FieldSelection.plain f.1, f.2.map Handle.owned) }) d

/-- The draft with the fragments of a plan. -/
def Draft.withFragments (d : Draft) (fragments : List (String × Builder)) : Draft :=
  fragments.foldl (fun d f => { d with fragments := d.fragments.put f.1 (.owned f.2) }) d

/-- The draft with everything that a plan selects. -/
def Draft.withPlan (d : Draft) (p : Plan) : Draft :=
  (d.withFields p.fields).withFragments p.fragments

/-- The draft with every field of its type that needs no arguments, and the refusal that ended the
selection early. -/
def Draft.withAll (registry : Registry) (d : Draft) : Draft × Option Error :=
  let p := planAll registry d.cls d.head
  (d.withPlan p, p.error)

/-- The draft with every field of its type that needs neither arguments nor a selection set. -/
def Draft.withAllScalars (d : Draft) : Draft :=
  d.withFields (d.cls.scalarFields.map fun f => (f, none))

/-- The draft with an operation variable declared. -/
def Draft.declare (d : Draft) (v : Value) : Except Error Draft :=
  if d.operation.isNone then .error .variableOutsideOperation
  else match v with
    | .parameter ⟨some name, some typeName, some number⟩ value =>
      match d.declared.get? name with
      | some known =>
        if known.declaration == number then .ok d else .error (.variableDeclared name)
      | none =>
        .ok { d with declared := d.declared.put name ⟨name, typeName, value, number⟩ }
    | _ => .error .notAVariable

/-! ### Nesting -/

/-- A draft that may be nested: it performs no operation. -/
def Store.nestable (s : Store) (id : Nat) (refusal : Error) : Except Error Draft := do
  let inner ← s.draft id
  if inner.operation.isSome then throw refusal
  return inner

/-- The draft with a field selected together with the selection of another draft. -/
def Store.selectObject (s : Store) (d : Draft) (name : String) (aliasName : Option String)
    (directives : List DirectiveValue) (arguments : List ArgumentValue) (inner : Option Nat) :
    Except Error Draft :=
  match inner with
  | none => .error .notABuilder
  | some id => do
    discard (s.nestable id .nestedOperation)
    d.select name aliasName directives arguments (some (.shared id))

/-- The draft with the selection of another draft as a fragment on its type. -/
def Store.selectFragment (s : Store) (d : Draft) (id : Nat) : Except Error Draft := do
  let inner ← s.nestable id .operationFragment
  return { d with fragments := d.fragments.put inner.cls.typeName (.shared id) }

/-! ### Finishing -/

/-- A field with its builder, given how a draft is finished. -/
def finishField (finish : Nat → Except Error Builder) :
    FieldSelection × Option Handle → Except Error (FieldSelection × Option Builder)
  | (f, none) => .ok (f, none)
  | (f, some (.owned b)) => .ok (f, some b)
  | (f, some (.shared id)) => (finish id).map fun b => (f, some b)

/-- A fragment with its builder, given how a draft is finished. -/
def finishFragment (finish : Nat → Except Error Builder) :
    String × Handle → Except Error (String × Builder)
  | (t, .owned b) => .ok (t, b)
  | (t, .shared id) => (finish id).map fun b => (t, b)

/-- The builder of a draft with its drafts filled in. A path through distinct drafts is no longer
than their number, so the fuel runs out only where drafts contain each other. -/
def Store.finish (s : Store) : Nat → Nat → Except Error Builder
  | 0, _ => .error .endless
  | fuel + 1, id => do
    let d ← s.draft id
    let fields ← inOrder (d.fields.entries.map fun e => finishField (s.finish fuel) e.2)
    let fragments ← inOrder (d.fragments.entries.map (finishFragment (s.finish fuel)))
    return .node d.head fields fragments

/-- The builder of a draft. -/
def Store.builder (s : Store) (id : Nat) : Except Error Builder :=
  s.finish (s.drafts.length + 1) id

/-- The text of a draft; the spaces per level are those of its class unless others are given. -/
def Store.build (s : Store) (id : Nat) (indented : Bool) (size : Option Int) :
    Except Error String := do
  let d ← s.draft id
  let b ← s.builder id
  b.build ⟨indented, size.getD d.cls.indentation⟩

/-- Is one of the places taken by a leaf or by a builder that selects anything? -/
def anySelects (selects : Nat → Except Error Bool) : List (Option Handle) → Except Error Bool
  | [] => .ok false
  | none :: _ => .ok true
  | some (.owned b) :: r => if b.hasSelection then .ok true else anySelects selects r
  | some (.shared id) :: r => do
    if ← selects id then return true
    anySelects selects r

/-- Does a draft select anything? -/
def Store.selects (s : Store) : Nat → Nat → Except Error Bool
  | 0, _ => .error .endless
  | fuel + 1, id => do
    let d ← s.draft id
    anySelects (s.selects fuel) (d.fields.values.map Prod.snd ++ d.fragments.values.map some)

/-- Would the text of a draft hold a selection? -/
def Store.hasSelection (s : Store) (id : Nat) : Except Error Bool :=
  s.selects (s.drafts.length + 1) id

end Bindery.Query
