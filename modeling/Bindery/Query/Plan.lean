import Bindery.Query.Builder

/-!
# Selecting everything

A registry describes the builder of each type: its fields, the types of its fragments, and the
operation that it fixes. From it a builder can select every field that needs no arguments, and the
same again in each nested type. The depths record the level at which the fields of a type were
selected; a type is selected again only on a level above, so the selection is finite.
-/

namespace Bindery.Query

/-- What a builder knows about a field of its type. -/
structure FieldInfo where
  /-- The name of the field. -/
  name : String
  /-- Does the field need a selection set? -/
  isComplex : Bool
  /-- The type of the field, where a builder of it exists. -/
  builderType : Option String
  /-- Does the field have an argument that must be given? -/
  requiresArguments : Bool
  deriving DecidableEq, Repr

/-- What the builders of a type have in common. -/
structure BuilderClass where
  /-- The type that is selected from. -/
  typeName : String
  /-- The fields of the type. -/
  fields : List FieldInfo
  /-- The types of the fragments. -/
  fragmentTypes : List String
  /-- The operation that builders of a root type perform. -/
  operation : Option OperationType
  /-- The number of spaces per level. -/
  indentation : Int
  deriving DecidableEq, Repr

/-- The builder classes by their types. -/
abbrev Registry := Keyed BuilderClass

/-- The level at which the fields of each type were selected. -/
abbrev Depths := Keyed Nat

/-- The fields that can be selected without arguments. -/
def BuilderClass.selectable (c : BuilderClass) : List FieldInfo :=
  c.fields.filter fun f => !f.requiresArguments

/-- What the builders of a class are besides their selection, before anything is declared. -/
def BuilderClass.head (c : BuilderClass) : BuilderHead :=
  ⟨c.typeName, c.operation.map (⟨·, none⟩), .empty⟩

/-- Were the fields of the type selected at the level or above? -/
def recorded (depths : Depths) (typeName : String) (level : Nat) : Bool :=
  match depths.get? typeName with
  | some d => d ≤ level
  | none => false

/-- Is the field left out because it leads from an operation back to its own root type? -/
def leadsBack (h : BuilderHead) (f : FieldInfo) : Bool :=
  h.operation.isSome && f.builderType == some h.typeName

/-- What a builder selects in addition, and the refusal that ended the selection early. -/
structure Plan where
  /-- The fields in order, each perhaps with its builder. -/
  fields : List (String × Option Builder)
  /-- The fragments in order. -/
  fragments : List (String × Builder)
  /-- The refusal. -/
  error : Option Error

/-- The fields of a selection by their keys. -/
def keyedFields (fields : List (String × Option Builder)) :
    Keyed (FieldSelection × Option Builder) :=
  .ofList (fields.map fun f => (f.1, (FieldSelection.plain f.1, f.2)))

/-- The builder that selects a plan. -/
def Plan.builder (p : Plan) (h : BuilderHead) : Builder :=
  .node h (keyedFields p.fields).values (Keyed.ofList p.fragments).entries

/-- The fields that a builder selects, where `expand` selects the fields of a type. -/
def planFields (expand : String → Depths → Except Error (Option Builder × Depths))
    (h : BuilderHead) :
    List FieldInfo → Depths → List (String × Option Builder) × Depths × Option Error
  | [], depths => ([], depths, none)
  | f :: r, depths =>
    match f.builderType with
    | none =>
      let (rest, depths, e) := planFields expand h r depths
      ((f.name, none) :: rest, depths, e)
    | some typeName =>
      if leadsBack h f then planFields expand h r depths
      else match expand typeName depths with
        | .error e => ([], depths, some e)
        | .ok (none, depths) => planFields expand h r depths
        | .ok (some b, depths) =>
          let (rest, depths, e) := planFields expand h r depths
          ((f.name, some b) :: rest, depths, e)

/-- The fragments that a builder selects. -/
def planFragments (expand : String → Depths → Except Error (Option Builder × Depths)) :
    List String → Depths → List (String × Builder) × Depths × Option Error
  | [], depths => ([], depths, none)
  | typeName :: r, depths =>
    match expand typeName depths with
    | .error e => ([], depths, some e)
    | .ok (none, depths) => planFragments expand r depths
    | .ok (some b, depths) =>
      let (rest, depths, e) := planFragments expand r depths
      ((typeName, b) :: rest, depths, e)

/-- Everything that a builder of a class selects, and the depths afterwards. -/
def planClass (expand : String → Depths → Except Error (Option Builder × Depths))
    (c : BuilderClass) (h : BuilderHead) (depths : Depths) : Plan × Depths :=
  let (fields, depths, e) := planFields expand h c.selectable depths
  match e with
  | some e => (⟨fields, [], some e⟩, depths)
  | none =>
    let (fragments, depths, e) := planFragments expand c.fragmentTypes depths
    (⟨fields, fragments, e⟩, depths)

/-- The builder of a type on the level below `level`, or none where the type was selected already or
selects nothing. The types on the way from the root differ, so their number bounds the fuel. -/
def expand (registry : Registry) :
    (fuel level : Nat) → String → Depths → Except Error (Option Builder × Depths)
  | 0, _, _, depths => .ok (none, depths)
  | fuel + 1, level, typeName, depths =>
    if recorded depths typeName level then .ok (none, depths)
    else match registry.get? typeName with
      | none => .error (.unregistered typeName)
      | some c =>
        let (plan, depths) :=
          planClass (expand registry fuel (level + 1)) c c.head (depths.put typeName (level + 1))
        match plan.error with
        | some e => .error e
        | none =>
          let b := plan.builder c.head
          .ok (if b.hasSelection then some b else none, depths)

/-- Everything that a builder of a class with the given head selects. -/
def planAll (registry : Registry) (c : BuilderClass) (h : BuilderHead) : Plan :=
  (planClass (expand registry (registry.size + 1) 0) c h (Keyed.ofList [(h.typeName, 0)])).1

/-- The fields without a selection set that a builder of a class selects. -/
def BuilderClass.scalarFields (c : BuilderClass) : List String :=
  (c.selectable.filter fun f => !f.isComplex).map FieldInfo.name

end Bindery.Query
