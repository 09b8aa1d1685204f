import Bindery.Client.Directive
import Bindery.Client.Reserved

/-!
# Classes of builders

The class of the builder of a type has methods that select each of its fields and fragments and
methods that take them back.
-/

namespace Bindery.Client

open Bindery.Schema Bindery.Label

/-- The methods of a field. -/
structure FieldMethods where
  /-- The name of the field. -/
  name : String
  /-- The method that selects the field. -/
  withMethod : String
  /-- The method that takes it back. -/
  exceptMethod : String
  /-- The class of the builder of the type of the field. -/
  builder : Option String
  /-- The parameters for the arguments of the field. -/
  parameters : List Parameter
  /-- The parameters for directives, with their classes. -/
  directives : List (String × String)
  /-- What the field is for. -/
  description : String
  deriving DecidableEq, Repr

/-- The methods of a fragment. -/
structure FragmentMethods where
  /-- The method that selects the fragment. -/
  withMethod : String
  /-- The method that takes it back. -/
  exceptMethod : String
  /-- The constant of the type of the fragment. -/
  constant : String
  /-- The name of the type of the fragment. -/
  typeName : String
  /-- The class of the builder of the type. -/
  builder : String
  deriving DecidableEq, Repr

/-- What a builder says about a field of its type. -/
structure FieldMetadata where
  /-- The name of the field. -/
  name : String
  /-- The constant of the type of a field that needs a selection set. -/
  constant : Option String
  /-- The name of that type. -/
  typeName : Option String
  /-- Does the field have an argument that must be given? -/
  requiresArguments : Bool
  deriving DecidableEq, Repr

/-- The class of a builder. -/
structure BuilderView where
  /-- The name of the class. -/
  className : String
  /-- The name of the type. -/
  typeName : String
  /-- The constant of the type. -/
  constant : String
  /-- What the type is for. -/
  description : String
  /-- The number of spaces per level of a query. -/
  indentation : Int
  /-- The operation of a root type. -/
  operation : Option String
  /-- The fields. -/
  metadata : List FieldMetadata
  /-- The methods of the fields. -/
  fields : List FieldMethods
  /-- The methods of the fragments. -/
  fragments : List FragmentMethods
  /-- The classes that the methods refer to. -/
  typeImports : List String
  deriving DecidableEq, Repr

/-! ### Methods -/

/-- The name of a field as it stands in the names of its methods. -/
def methodWord (name : String) : String :=
  let w := (snakeCase name).toList.dropWhile (· == '_')
  if w.isEmpty then "field" else String.ofList w

/-- The description of a field, with the reason why it should be avoided. -/
def fieldDescription (c : Configuration) (f : Field) : String :=
  let own := documentation c f.description
  if f.isDeprecated then
    let reason := (f.reason.filter fun r => !r.isEmpty).getD "no longer supported"
    (if own.isEmpty then "" else own ++ "\n\n") ++ "Deprecated: " ++ reason
  else own

/-- The parameters for directives with their classes. -/
def directiveParameters (c : Catalog) :
    List DirectiveDefinition → List String → Except Refusal (List (String × String))
  | [], _ => .ok []
  | d :: r, used => do
    let cls ← directiveClassName c d
    let (parameter, used) := takeName used (safeName [] (snakeCase d.name))
    let rest ← directiveParameters c r used
    return (parameter, cls) :: rest

/-- The class of the builder of the type of a field, if the type needs a selection set. -/
def fieldBuilder (c : Catalog) (f : Field) : Except Refusal (Option String) := do
  let named := f.type.innermost
  if !named.kind.isComplex then return none
  discard (c.typeOf named.nameOrEmpty)
  return some (c.className named.nameOrEmpty builderSuffix)

/-- The names that the parameters of every method have. -/
def methodParameters : List String := ["self", "alias", "query_builder"]

/-- The methods of a field, and the used names with theirs. -/
def fieldMethods (c : Catalog) (owner : String) (f : Field) (used : List String) :
    Except Refusal (FieldMethods × List String) := do
  let builder ← fieldBuilder c f
  let (ps, names) ← parameters c owner f.arguments methodParameters
  let directives ← directiveParameters c c.fieldDirectives names
  let word := methodWord f.name
  let (withMethod, used) := takeName used ("with_" ++ word)
  let (exceptMethod, used) := takeName used ("except_" ++ word)
  return (⟨f.name, withMethod, exceptMethod, builder, ps, directives,
    fieldDescription c.configuration f⟩, used)

/-- The methods of fields, and the used names with theirs. -/
def allFieldMethods (c : Catalog) (owner : String) :
    List Field → List String → Except Refusal (List FieldMethods × List String)
  | [], used => .ok ([], used)
  | f :: r, used => do
    let (m, used) ← fieldMethods c owner f used
    let (rest, used) ← allFieldMethods c owner r used
    return (m :: rest, used)

/-- The methods of fragments. -/
def fragmentMethods (c : Catalog) (constants : Keyed String) :
    List TypeDefinition → List String → List FragmentMethods
  | [], _ => []
  | t :: r, used =>
    let word := snakeCase (pascalCase t.name)
    let (withMethod, used) := takeName used ("with_" ++ word ++ "_fragment")
    let (exceptMethod, used) := takeName used ("except_" ++ word ++ "_fragment")
    ⟨withMethod, exceptMethod, (constants.get? t.name).getD "", t.name,
      c.className t.name builderSuffix⟩ :: fragmentMethods c constants r used

/-- What a builder says about a field. -/
def fieldMetadata (constants : Keyed String) (f : Field) : FieldMetadata :=
  let named := f.type.innermost
  let constant := if named.kind.isComplex then constants.get? named.nameOrEmpty else none
  ⟨f.name, constant, constant.map fun _ => named.nameOrEmpty, f.requiresArguments⟩

/-! ### Classes -/

/-- The fields that the methods of a builder select. -/
def methodFields (c : Catalog) (t : TypeDefinition) : Except Refusal (List Field) :=
  if t.kind == .union then .ok [] else c.ownFields t

/-- The classes that the methods of a builder refer to. -/
def methodClasses (c : Catalog) (fields : List Field) (methods : List FieldMethods)
    (fragments : List FragmentMethods) : List String :=
  methods.flatMap (fun m => m.builder.toList ++ m.directives.map Prod.snd) ++
    fields.flatMap (fun (f : Field) => argumentClasses c f.arguments) ++
    fragments.map FragmentMethods.builder

/-- The class of the builder of a type. -/
def builderView (c : Catalog) (constants : Keyed String) (t : TypeDefinition) :
    Except Refusal BuilderView := do
  let name ← usableClassName (c.className t.name builderSuffix)
  let fields ← methodFields c t
  let (methods, used) ← allFieldMethods c t.name fields builderNames
  let fragmentTypes ← c.fragmentTypes t
  let fragments := fragmentMethods c constants fragmentTypes used
  return ⟨name, t.name, (constants.get? t.name).getD "", documentation c.configuration t.description,
    c.configuration.indentation, c.schema.operations.get? t.name,
    fields.map (fieldMetadata constants), methods, fragments,
    methodClasses c fields methods fragments⟩

/-- The classes of the builders. -/
def builderViews (c : Catalog) (constants : Keyed String) : Except Refusal (List BuilderView) := do
  let ts ← ordered c.configuration
    (fun (t : TypeDefinition) => .ok (c.className t.name builderSuffix)) c.schema.complexTypes
  ts.mapM (builderView c constants)

/-! ### Text -/

/-- The constant of a type as an expression. -/
def constantText (constant : String) : String :=
  "GraphQlTypes." ++ constant

/-- The line that says something about a field. -/
def FieldMetadata.line (m : FieldMetadata) : String :=
  "        GraphQlFieldMetadata(" ++ Text.quoted m.name ++
    (match m.constant with
      | some k => if k.isEmpty then "" else
        ", is_complex=True, query_builder_type=" ++ constantText k
      | none => "") ++
    (if m.requiresArguments then ", requires_parameters=True" else "") ++ "),"

/-- The lines that say something about the fields. -/
def metadataLines (ms : List FieldMetadata) : List String :=
  if ms.isEmpty then ["    ALL_FIELDS = ()"]
  else ["    ALL_FIELDS = ("] ++ ms.map FieldMetadata.line ++ ["    )"]

/-- The lines that name the types of the fragments. -/
def fragmentTypeLines (fs : List FragmentMethods) : List String :=
  if fs.isEmpty then []
  else ["    FRAGMENT_TYPES = ("] ++
    fs.map (fun f => "        " ++ constantText f.constant ++ ",") ++ ["    )"]

/-- The lines that fix the operation of a root type. -/
def operationLines (operation : Option String) : List String :=
  match operation with
  | none => []
  | some o => ["", "    def __init__(self, operation_name: Optional[str] = None):",
      "        super().__init__(" ++ Text.quoted o ++ ", operation_name)"]

/-- The line that passes an argument on. -/
def Parameter.infoLine (p : Parameter) : String :=
  "                QueryBuilderArgumentInfo(" ++ Text.quoted p.name ++ ", " ++ p.parameter ++
    maskText p.mask ++ "),"

/-- The parameters for directives. -/
def directiveText (ds : List (String × String)) : String :=
  if ds.isEmpty then ""
  else ", *" ++ String.join (ds.map fun d => ", " ++ d.1 ++ ": Optional[" ++ d.2 ++ "] = None")

/-- The values of the parameters for directives. -/
def directiveTuple (ds : List (String × String)) : String :=
  "(" ++ ", ".intercalate (ds.map Prod.fst) ++ (if ds.length == 1 then "," else "") ++ "),"

/-- The lines of the methods of a field in a class of the given name. -/
def FieldMethods.lines (cls : String) (m : FieldMethods) : List String :=
  ["",
    "    def " ++ m.withMethod ++ "(self" ++
      (m.builder.map fun b => ", query_builder: " ++ b).getD "" ++
      String.join (m.parameters.map Parameter.text) ++ ", alias: Optional[str] = None" ++
      directiveText m.directives ++ ") -> " ++ cls ++ ":"] ++
  (if m.description.isEmpty then []
    else ["        \"\"\"" ++ docstring m.description ++ "\"\"\""]) ++
  (if m.builder.isSome then
    ["        return self._with_object_field(", "            " ++ Text.quoted m.name ++ ",",
      "            query_builder,"]
  else
    ["        return self._with_scalar_field(", "            " ++ Text.quoted m.name ++ ","]) ++
  ["            alias,", "            " ++ directiveTuple m.directives] ++
  (if m.parameters.isEmpty then []
    else ["            ("] ++ m.parameters.map Parameter.infoLine ++ ["            ),"]) ++
  ["        )", "", "    def " ++ m.exceptMethod ++ "(self) -> " ++ cls ++ ":",
    "        return self.except_field(" ++ Text.quoted m.name ++ ")"]

/-- The lines of the methods of a fragment in a class of the given name. -/
def FragmentMethods.lines (cls : String) (f : FragmentMethods) : List String :=
  ["",
    "    def " ++ f.withMethod ++ "(self, query_builder: " ++ f.builder ++ ") -> " ++ cls ++ ":",
    "        return self._with_fragment(query_builder)", "",
    "    def " ++ f.exceptMethod ++ "(self) -> " ++ cls ++ ":",
    "        return self._except_fragment(" ++ constantText f.constant ++ ")"]

/-- The text of the class. -/
def BuilderView.text (b : BuilderView) : String :=
  linesText (
    ["@QUERY_BUILDERS.register(" ++ constantText b.constant ++ ")",
      "class " ++ b.className ++ "(GraphQlQueryBuilder[\"" ++ b.className ++ "\"]):"] ++
    descriptionLines b.description ++
    ["    GRAPHQL_TYPE_NAME = " ++ constantText b.constant,
      "    INDENTATION_SIZE = " ++ toString b.indentation] ++
    metadataLines b.metadata ++ fragmentTypeLines b.fragments ++ operationLines b.operation ++
    b.fields.flatMap (FieldMethods.lines b.className) ++
    b.fragments.flatMap (FragmentMethods.lines b.className))

/-- The member of the client. -/
def BuilderView.member (b : BuilderView) : Member :=
  ⟨b.className, b.text, [], b.typeImports⟩

end Bindery.Client
