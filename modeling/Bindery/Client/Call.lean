import Bindery.Client.Loaded

/-!
# Calls

How the arguments of a call are bound to parameters, and what the methods of the builders of a
loaded client do.
-/

namespace Bindery.Client

open Bindery.Query (Error Value Draft Store DirectiveValue ArgumentValue)

/-! ### Binding -/

/-- What a caller passes. -/
inductive Given where
  /-- A value. -/
  | value (v : Value)
  /-- A draft by its number. -/
  | draft (id : Nat)
  /-- A directive. -/
  | directive (d : DirectiveValue)

/-- What a function takes. -/
structure Signature where
  /-- The parameters that can be given by their place, each with whether it must be given. -/
  positional : List (String × Bool)
  /-- The parameters that can be given by their name only. -/
  named : List String := []

/-- The names of all parameters. -/
def Signature.names (s : Signature) : List String :=
  s.positional.map Prod.fst ++ s.named

/-- The arguments by the names of their parameters: none is given twice, none is unknown, and none
that must be given is missing. -/
def Signature.bind (s : Signature) (args : List Given) (named : List (String × Given)) :
    Except Error (Keyed Given) := do
  let byPlace := (s.positional.map Prod.fst).zip args
  let all := byPlace ++ (Keyed.ofList named).entries
  let isGiven (n : String) : Bool := all.any fun a => a.1 == n
  if args.length > s.positional.length || (all.map Prod.fst).eraseDups.length < all.length ||
      (all.any fun a => !s.names.contains a.1) ||
      (s.positional.any fun p => p.2 && !isGiven p.1) then
    throw .badCall
  return .ofList all

/-- The value of a parameter, null where it is not given. A builder or a directive is no value. -/
def valueAt (given : Keyed Given) (name : String) : Except Error Value :=
  match given.get? name with
  | none => .ok .null
  | some (.value v) => .ok v
  | some _ => .error .badCall

/-- The text of a parameter that must be a name, or nothing where it is null. -/
def nameAt (kind : String) (given : Keyed Given) (name : String) : Except Error (Option String) := do
  match ← valueAt given name with
  | .null => return none
  | .text s => return some s
  | v => throw (.invalidName kind v.shown)

/-- The number of a draft that is given. -/
def draftAt (given : Keyed Given) (name : String) : Option Nat :=
  match given.get? name with
  | some (.draft id) => some id
  | _ => none

/-- The directives that are given. -/
def directivesAt (given : Keyed Given) : List String → Except Error (List DirectiveValue)
  | [] => .ok []
  | n :: r => do
    let rest ← directivesAt given r
    match given.get? n with
    | none | some (.value .null) => return rest
    | some (.directive d) => return d :: rest
    | some _ => throw .missingMember

/-- The arguments of a field or a directive from what is given for its parameters. -/
def argumentsAt (given : Keyed Given) : List Parameter → Except Error (List ArgumentValue)
  | [] => .ok []
  | p :: r => do
    let v ← valueAt given p.parameter
    let rest ← argumentsAt given r
    return ⟨p.name, v, p.mask⟩ :: rest

/-! ### Directives and builders -/

/-- The parameters for arguments as what a function takes. -/
def positionalOf (ps : List Parameter) : List (String × Bool) :=
  ps.map fun p => (p.parameter, p.isRequired)

/-- A directive of a class, made from named arguments. -/
def Loaded.directive (l : Loaded) (cls : String) (named : List (String × Given)) :
    Except Error DirectiveValue := do
  let d ← member (l.directives.get? cls)
  let given ← Signature.bind ⟨positionalOf d.parameters, []⟩ [] named
  Query.makeDirective d.directiveName (← argumentsAt given d.parameters)

/-- The class of builders that belong to no type. -/
def untypedClass : String := "GraphQlQueryBuilder"

/-- The keyword of an operation that is given, or nothing where it is null. -/
def operationAt (given : Keyed Given) : Except Error (Option String) := do
  match ← valueAt given "operation_type" with
  | .null => return none
  | .text s => return some s
  | v => throw (.invalidOperation v.shown)

/-- A draft of what builders have in common, perhaps with an operation that the caller chooses. -/
def makeDraft (shared : Query.BuilderClass) (args : List Given) : Except Error Draft := do
  let name : String × Bool := ("operation_name", false)
  match shared.operation with
  | some o =>
    let given ← Signature.bind ⟨[name], []⟩ args []
    let n ← nameAt "operation name" given name.1
    return .blank shared (← Query.makeOperation (some o.keyword) n)
  | none =>
    let given ← Signature.bind ⟨[("operation_type", false), name], []⟩ args []
    let keyword ← operationAt given
    discard (Query.makeOperation keyword none)
    match keyword, given.get? name.1 with
    | none, none | none, some (.value .null) => return .blank shared none
    | none, some _ => throw .nameWithoutOperation
    | some k, _ =>
      return .blank shared (← Query.makeOperation (some k) (← nameAt "operation name" given name.1))

/-- A draft of a class, with the class if it belongs to a type. -/
def Loaded.draft (l : Loaded) (cls : String) (args : List Given) :
    Except Error (Draft × Option BuilderView) :=
  match l.builders.get? cls with
  | some b => (makeDraft b.shared args).map fun d => (d, some b)
  | none =>
    if cls == untypedClass then (makeDraft .untyped args).map fun d => (d, none)
    else .error .missingMember

/-- The text of everything that the builder of a type selects. -/
def Loaded.plan (l : Loaded) (b : Query.BuilderClass) (indented : Bool) (size : Option Int) :
    Except Error String := do
  let d ← b.draft none
  let (d, e) := d.withAll l.registry
  match e with
  | some e => throw e
  | none => Store.build ⟨l.registry, [d]⟩ 0 indented size

/-! ### Methods -/

/-- A method of a builder. -/
inductive Method where
  /-- A field is selected. -/
  | withField (m : FieldMethods)
  /-- A field is taken back. -/
  | exceptField (name : String)
  /-- A fragment is selected. -/
  | withFragment
  /-- A fragment is taken back. -/
  | exceptFragment (typeName : String)
  /-- All fields are selected that need no arguments. -/
  | withAll
  /-- All fields are selected that need neither arguments nor a selection set. -/
  | withAllScalars
  /-- The name of the type is selected. -/
  | withTypename
  /-- The field of a given name is taken back. -/
  | exceptNamed
  /-- A variable is declared. -/
  | withVariable
  /-- Everything is taken back. -/
  | clear
  /-- Does the builder select anything? -/
  | hasSelection
  /-- The text of the builder. -/
  | build
  deriving DecidableEq, Repr

/-- The methods that every builder has. -/
def inheritedMethods : List (String × Method) :=
  [("with_all_fields", .withAll), ("with_all_scalar_fields", .withAllScalars),
    ("with_typename", .withTypename), ("except_field", .exceptNamed),
    ("with_parameter", .withVariable), ("clear", .clear), ("has_selection", .hasSelection),
    ("build", .build)]

/-- The methods of a builder by their names. -/
def BuilderView.methods (b : BuilderView) : List (String × Method) :=
  b.fields.flatMap (fun m =>
      [(m.withMethod, .withField m), (m.exceptMethod, .exceptField m.name)]) ++
    b.fragments.flatMap fun f =>
      [(f.withMethod, .withFragment), (f.exceptMethod, .exceptFragment f.typeName)]

/-- The method of a name. -/
def method (b : Option BuilderView) (name : String) : Except Error Method :=
  member ((((b.map BuilderView.methods).getD []) ++ inheritedMethods).lookup name)

/-- The parameter for a nested builder. -/
def builderParameter : String := "query_builder"

/-- What a method takes. -/
def Method.signature : Method → Signature
  | .withField m =>
    ⟨(if m.builder.isSome then [(builderParameter, true)] else []) ++ positionalOf m.parameters ++
      [("alias", false)], m.directives.map Prod.fst⟩
  | .withFragment => ⟨[(builderParameter, true)], []⟩
  | .withTypename => ⟨[("alias", false)], []⟩
  | .exceptNamed => ⟨[("field_name", true)], []⟩
  | .withVariable => ⟨[("parameter", true)], []⟩
  | .build => ⟨[("formatting", false), ("indentation_size", false)], []⟩
  | _ => ⟨[], []⟩

/-- The draft after a method with bound arguments, and the refusal that ended the method early. -/
def Method.apply (m : Method) (s : Store) (d : Draft) (given : Keyed Given) :
    Except Error (Draft × Option Error) := do
  match m with
  | .withField f =>
    let directives ← directivesAt given (f.directives.map Prod.fst)
    let arguments ← argumentsAt given f.parameters
    if f.builder.isSome then
      match draftAt given builderParameter with
      | none => throw .notABuilder
      | some id => discard (s.nestable id .nestedOperation)
    let aliasName ← nameAt "alias" given "alias"
    if f.builder.isSome then
      let inner := draftAt given builderParameter
      return (← s.selectObject d f.name aliasName directives arguments inner, none)
    return (← d.select f.name aliasName directives arguments none, none)
  | .exceptField name => return (← d.exceptField name, none)
  | .withFragment =>
    match draftAt given builderParameter with
    | none => throw .missingMember
    | some id => return (← s.selectFragment d id, none)
  | .exceptFragment typeName => return (d.exceptFragment typeName, none)
  | .withAll => return d.withAll s.registry
  | .withAllScalars => return (d.withAllScalars, none)
  | .withTypename =>
    return (← d.select Query.typenameField (← nameAt "alias" given "alias") [] [] none, none)
  | .exceptNamed =>
    match ← valueAt given "field_name" with
    | .text name => return (← d.exceptField name, none)
    | .null => throw .fieldNameRequired
    | _ => return (d, none)
  | .withVariable => return (← d.declare (← valueAt given "parameter"), none)
  | .clear => return (d.clear, none)
  | .hasSelection | .build => return (d, none)

/-- The store after a method of a draft was called, and the refusal that ended the method early. -/
def callMethod (s : Store) (id : Nat) (b : Option BuilderView) (name : String) (args : List Given)
    (named : List (String × Given)) : Except Error (Store × Option Error) := do
  let m ← method b name
  let given ← m.signature.bind args named
  let d ← s.draft id
  let (d, e) ← m.apply s d given
  return (s.set id d, e)

end Bindery.Client
