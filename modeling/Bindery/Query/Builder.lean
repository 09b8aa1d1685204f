import Bindery.Keyed
import Bindery.Query.Document

/-!
# Builders

A builder accumulates the selection of one type: fields by their response keys, inline fragments by
their types, and the variables of an operation. A tree of builders denotes a document: fields whose
builder selects nothing are left out, and the type name is asked for where fragments are.
-/

namespace Bindery.Query

/-- An argument with its value. -/
structure ArgumentValue where
  /-- The name of the argument. -/
  name : String
  /-- The value. -/
  value : Value
  /-- The mask through which moments are written. -/
  mask : Option String
  deriving Repr

/-- A directive with the values of its arguments. -/
structure DirectiveValue where
  /-- The name of the directive. -/
  name : String
  /-- The arguments in order. -/
  arguments : List ArgumentValue
  deriving Repr

/-- A selected field without its builder. -/
structure FieldSelection where
  /-- The name of the field. -/
  name : String
  /-- The alias. -/
  aliasName : Option String
  /-- The arguments in order. -/
  arguments : List ArgumentValue
  /-- The directives in order. -/
  directives : List DirectiveValue
  deriving Repr

/-- The field of a name with nothing else. -/
def FieldSelection.plain (name : String) : FieldSelection :=
  ⟨name, none, [], []⟩

/-- The key of the field in the response. -/
def FieldSelection.key (f : FieldSelection) : String :=
  f.aliasName.getD f.name

/-- The variable of an operation. -/
structure Variable where
  /-- The name of the variable. -/
  name : String
  /-- The text of the type. -/
  typeName : String
  /-- The default value, which only a nullable variable has. -/
  value : Value
  /-- The number of the declaration. -/
  declaration : Nat
  deriving Repr

/-- An operation with its name. -/
structure Operation where
  /-- The keyword. -/
  type : OperationType
  /-- The name. -/
  name : Option String
  deriving DecidableEq, Repr

/-- What a builder is besides its selection. -/
structure BuilderHead where
  /-- The type that is selected from. -/
  typeName : String
  /-- The operation, for the builder of a root type. -/
  operation : Option Operation
  /-- The declared variables. -/
  declared : Keyed Variable
  deriving Repr

/-- A tree of builders. -/
inductive Builder where
  /-- A builder with its fields, each perhaps with a builder of its own, and its fragments. -/
  | node (head : BuilderHead) (fields : List (FieldSelection × Option Builder))
      (fragments : List (String × Builder))
  deriving Repr

/-- What the root of a tree is besides its selection. -/
def Builder.head : Builder → BuilderHead
  | .node head _ _ => head

/-! ### What a builder selects -/

mutual

/-- Does the builder select anything? -/
def Builder.hasSelection : Builder → Bool
  | .node _ fields fragments => anyField fields || anyFragment fragments

/-- Is one of the fields without a builder or with one that selects anything? -/
def anyField : List (FieldSelection × Option Builder) → Bool
  | [] => false
  | (_, none) :: _ => true
  | (_, some b) :: r => b.hasSelection || anyField r

/-- Does one of the fragments select anything? -/
def anyFragment : List (String × Builder) → Bool
  | [] => false
  | (_, b) :: r => b.hasSelection || anyFragment r

end

/-! ### The document of a builder -/

/-- The name of the field that tells the type of an object. -/
def typenameField : String := "__typename"

/-- The field of a name with nothing else, in a document. -/
def FieldHead.plain (name : String) : FieldHead :=
  ⟨none, name, [], []⟩

/-- Is the field without any text? -/
def FieldHead.isBlank (f : FieldHead) : Bool :=
  f.aliasName.isNone && f.name.isEmpty && f.arguments.isEmpty && f.directives.isEmpty

/-- The argument of a document. -/
def ArgumentValue.argument (a : ArgumentValue) : Except Error Argument :=
  (a.value.literal a.mask).map fun x => ⟨a.name, x⟩

/-- The arguments of a document. -/
def argumentsOf (as : List ArgumentValue) : Except Error (List Argument) :=
  inOrder (as.map ArgumentValue.argument)

/-- The directive of a document. -/
def DirectiveValue.directive (d : DirectiveValue) : Except Error Directive :=
  (argumentsOf d.arguments).map fun as => ⟨d.name, as⟩

/-- The field of a document without its selection set. -/
def FieldSelection.head (f : FieldSelection) : Except Error FieldHead := do
  let arguments ← argumentsOf f.arguments
  let directives ← inOrder (f.directives.map DirectiveValue.directive)
  return ⟨f.aliasName, f.name, arguments, directives⟩

/-- The definition of a variable: one whose type ends in an exclamation mark has no default. -/
def Variable.definition (v : Variable) : Except Error VariableDefinition :=
  match v.value with
  | .null => .ok ⟨v.name, v.typeName, none⟩
  | value =>
    if v.typeName.toList.getLast? == some '!' then .ok ⟨v.name, v.typeName, none⟩
    else (value.literal none).map fun x => ⟨v.name, v.typeName, some x⟩

/-- The signature of a builder with an operation. -/
def BuilderHead.signature (h : BuilderHead) : Except Error (Option Signature) :=
  match h.operation with
  | none => .ok none
  | some o =>
    (inOrder (h.declared.values.map Variable.definition)).map fun vs => some ⟨o.type, o.name, vs⟩

/-- Is the type name asked for, given the fragments that are rendered and the keys of the fields? -/
def needsTypename (fragments : List Selection) (fields : List (FieldSelection × Option Builder)) :
    Bool :=
  !fragments.isEmpty && !fields.any fun f => f.1.key == typenameField

/-- The selections of a selection set from those of its fields and its fragments. -/
def assemble (fields : List (FieldSelection × Option Builder)) (fragments items : List Selection) :
    List Selection :=
  (if needsTypename fragments fields then [.leaf (.plain typenameField)] else []) ++ items ++ fragments

mutual

/-- The signature and the selections of a builder. -/
def Builder.content : Builder → Except Error (Option Signature × List Selection)
  | .node head fields fragments => do
    let fs ← fragmentSelections fragments
    let items ← fieldSelections fields
    let signature ← head.signature
    return (signature, assemble fields fs items)

/-- The selections of the fields; one whose builder selects nothing is left out. -/
def fieldSelections :
    List (FieldSelection × Option Builder) → Except Error (List Selection)
  | [] => .ok []
  | (f, none) :: r => do
    let head ← f.head
    let rest ← fieldSelections r
    return if head.isBlank then rest else .leaf head :: rest
  | (f, some b) :: r =>
    if b.hasSelection then do
      let head ← f.head
      let (signature, children) ← b.content
      let rest ← fieldSelections r
      return .nested head signature children :: rest
    else fieldSelections r

/-- The selections of the fragments; one that selects nothing is left out. -/
def fragmentSelections : List (String × Builder) → Except Error (List Selection)
  | [] => .ok []
  | (typeName, b) :: r =>
    if b.hasSelection then do
      let (signature, children) ← b.content
      let rest ← fragmentSelections r
      return .fragment typeName signature children :: rest
    else fragmentSelections r

end

/-- The document of a builder. -/
def Builder.document (b : Builder) : Except Error Document :=
  b.content.map fun (signature, selections) => ⟨signature, selections⟩

/-- The text of the document of a builder. -/
def Builder.build (l : Layout) (b : Builder) : Except Error String :=
  b.document.map fun d => String.ofList (d.print l)

end Bindery.Query
