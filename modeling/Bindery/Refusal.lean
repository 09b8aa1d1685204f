import Bindery.Text.Encoding

/-!
# Refusals

Why a schema, a configuration or a request is refused, the wording of each refusal, and the members
and names that it is about. Where a reader of some format explains a refusal at length, the
explanation stands in the message as one fixed word.
-/

namespace Bindery

/-- Why the operating system refuses to use a path. -/
inductive SystemCause where
  /-- Nothing stands at the path. -/
  | missing
  /-- Something stands at the path. -/
  | present
  /-- The path goes through a file. -/
  | notAFolder
  /-- A folder stands at the path. -/
  | isAFolder
  deriving DecidableEq, Repr

/-- The wording of a cause. -/
def SystemCause.message : SystemCause → String
  | .missing => "[Errno 2] No such file or directory"
  | .present => "[Errno 17] File exists"
  | .notAFolder => "[Errno 20] Not a directory"
  | .isAFolder => "[Errno 21] Is a directory"

/-- Why a request is refused. -/
inductive Refusal where
  /-- The document is no introspection result. -/
  | notASchema
  /-- The document is no JSON text, or its schema does not have the form of one. -/
  | malformedSchema
  /-- The definition of a schema breaks the grammar. -/
  | malformedDefinition
  /-- The definition of a schema breaks a rule that the grammar does not state. -/
  | invalidDefinition
  /-- A type reference does not have the form of one. -/
  | malformedReference
  /-- A folder holds no schema definitions. -/
  | noDefinitions (folder : String)
  /-- A union names a type that the schema lacks. -/
  | unknownMember (union member : String)
  /-- A type is missing from the schema; a reference may lack the name. -/
  | unknownType (name : Option String)
  /-- The items of a list have no type. -/
  | unresolvedItem (owner member : String)
  /-- A name cannot stand in the client. -/
  | unusableName (name description : String)
  /-- A member of the client would not be a program text. -/
  | unparsable (className : String)
  /-- The affix of class names cannot stand in one. -/
  | badAffix (kind affix : String)
  /-- The indentation is negative. -/
  | negativeIndentation
  /-- An entry does not have the form of a pair. -/
  | badPair (entry separator : String)
  /-- Two entries have one key. -/
  | repeatedKey (key : String)
  /-- Keys and values are separated by nothing. -/
  | emptySeparator
  /-- The class name of a mapping cannot stand in the client. -/
  | badClassName (className typeName : String)
  /-- An entry does not have the form of a header. -/
  | badHeader (entry : String)
  /-- A mapping gives a member a blank type name. -/
  | blankTypeName (owner member : String)
  /-- A mapping gives a member a blank format mask. -/
  | blankMask (owner member : String)
  /-- A custom mapping has nothing that resolves it. -/
  | mappingRequired (scalar : String)
  /-- What resolves a custom mapping has no type for a member. -/
  | mappingMissing (owner member scalar : String)
  /-- The rules of a mapping do not have the form of rules. -/
  | malformedRules
  /-- Nothing is selected for generation. -/
  | nothingSelected
  /-- The name of a package is none. -/
  | badPackage (name : String)
  /-- Something that is no hook is used as one. -/
  | notAHook (name : String)
  /-- Text is written where no unit is open. -/
  | noOpenUnit
  /-- Text is written to a context without an output. -/
  | noOutput
  /-- A context is used before it has a configuration. -/
  | notReady
  /-- The method of a request is unknown. -/
  | badMethod (method : String)
  /-- A service answers with a status other than success. -/
  | badStatus (code : Nat) (reason content : String)
  /-- A service answers with nothing. -/
  | emptyResponse (code : Nat)
  /-- A service cannot be reached. -/
  | unreachable (text : String)
  /-- A member of an archive would be written outside its folder. -/
  | unsafePath (path : String)
  /-- The name of an archive tells no known format. -/
  | unknownArchive (suffix : String)
  /-- The archive is no archive of packed files. -/
  | notZipped
  /-- The archive is no packed tape. -/
  | notPacked
  /-- The packed tape ends too early. -/
  | cutOff
  /-- The bytes of a file are no text. -/
  | notText (fault : Text.Utf8Fault)
  /-- A header holds characters that no header may hold. -/
  | notPlain (text : String)
  /-- The operating system refuses to use a path. -/
  | system (cause : SystemCause) (path : String)
  deriving DecidableEq, Repr

/-- The kinds of refusals. -/
inductive RefusalKind where
  /-- The configuration is at fault. -/
  | configuration
  /-- The schema is at fault. -/
  | inconsistency
  /-- A name is at fault. -/
  | identifier
  /-- The service is at fault. -/
  | retrieval
  /-- An argument has a value that is not allowed. -/
  | value
  /-- An argument is of a kind that is not allowed. -/
  | type
  /-- The order of calls is at fault. -/
  | order
  /-- The operation is not supported. -/
  | unsupported
  /-- A value does not have the form of its type. -/
  | form
  /-- The network is at fault. -/
  | connection
  /-- An archive of packed files is damaged. -/
  | zip
  /-- A packed tape is damaged. -/
  | tape
  /-- A packed tape ends too early. -/
  | ending
  /-- Bytes are no text. -/
  | decoding
  /-- A text has no form in which it can be sent. -/
  | encoding
  /-- The operating system refuses. -/
  | system (cause : SystemCause)
  deriving DecidableEq, Repr

namespace Refusal

/-- The kind of a refusal. -/
def kind : Refusal → RefusalKind
  | .notASchema | .malformedSchema | .malformedDefinition | .noDefinitions _ | .unknownMember ..
  | .unknownType _ | .unresolvedItem .. => .inconsistency
  | .invalidDefinition | .notAHook _ => .type
  | .malformedReference => .form
  | .unusableName .. | .unparsable _ => .identifier
  | .badAffix .. | .negativeIndentation | .badPair .. | .repeatedKey _ | .badClassName ..
  | .badHeader _ | .blankTypeName .. | .blankMask .. | .mappingRequired _ | .mappingMissing ..
  | .malformedRules => .configuration
  | .emptySeparator | .nothingSelected | .badPackage _ | .badMethod _ | .unsafePath _
  | .unknownArchive _ => .value
  | .noOpenUnit | .notReady => .order
  | .noOutput => .unsupported
  | .badStatus .. | .emptyResponse _ => .retrieval
  | .unreachable _ => .connection
  | .notZipped => .zip
  | .notPacked => .tape
  | .cutOff => .ending
  | .notText _ => .decoding
  | .notPlain _ => .encoding
  | .system cause _ => .system cause

/-- The word that stands for an explanation. -/
def detail : String := "<detail>"

/-- The wording of a refusal. -/
def message : Refusal → String
  | .notASchema => "not a GraphQL schema"
  | .malformedSchema => "not a GraphQL schema: " ++ detail
  | .malformedDefinition => "invalid schema definition: " ++ detail
  | .invalidDefinition | .malformedReference | .emptySeparator | .notZipped | .notPacked | .cutOff =>
    detail
  | .noDefinitions folder => "no GraphQL schema files found in '" ++ folder ++ "'"
  | .unknownMember union member =>
    "union '" ++ union ++ "' references unknown type '" ++ member ++ "'"
  | .unknownType name => "type '" ++ name.getD "None" ++ "' not found in schema"
  | .unresolvedItem owner member =>
    "failed to resolve list item type of field '" ++ owner ++ "." ++ member ++ "'"
  | .unusableName name description => "'" ++ name ++ "' is not a valid Python " ++ description
  | .unparsable className => "generated invalid Python for " ++ className ++ ": " ++ detail
  | .badAffix kind affix => "class " ++ kind ++ " '" ++ affix ++ "' is not valid in a class name"
  | .negativeIndentation => "indentation_size must not be negative"
  | .badPair entry separator =>
    "\"" ++ entry ++ "\" is not a valid parameter; expected format is key" ++ separator ++ "value"
  | .repeatedKey key => "duplicate parameter key \"" ++ key ++ "\""
  | .badClassName className typeName =>
    "\"" ++ className ++ "\" (mapped from \"" ++ typeName ++
      "\") is not a valid Python class name"
  | .badHeader entry =>
    "\"" ++ entry ++ "\" is not a valid header; expected format is Name: value"
  | .blankTypeName owner member =>
    "scalar field type mapping provider returned no type name for '" ++ owner ++ "." ++ member ++ "'"
  | .blankMask owner member => "format mask of '" ++ owner ++ "." ++ member ++ "' must not be blank"
  | .mappingRequired scalar =>
    "custom " ++ scalar ++ " type mapping requires a scalar field type mapping provider"
  | .mappingMissing owner member scalar =>
    "scalar field type mapping provider returned no type for '" ++ owner ++ "." ++ member ++
      "' (" ++ scalar ++ ")"
  | .malformedRules => "invalid regex scalar mapping rules: " ++ detail
  | .nothingSelected => "object_types must select at least one kind of generated object"
  | .badPackage name => "invalid package name: " ++ Text.quoted name
  | .notAHook name => name ++ " implements neither pre_generate nor post_generate"
  | .noOpenUnit => "no unit is open"
  | .noOutput => ""
  | .notReady => "generation context is not initialized; call initialize() first"
  | .badMethod method => "unsupported HTTP method: " ++ method
  | .badStatus code reason content =>
    "Status code: " ++ toString code ++ " (" ++ reason ++ "); content:\n" ++ content
  | .emptyResponse _ => "empty response from GraphQL service"
  | .unreachable text => text
  | .unsafePath path => "Unsafe path in archive: " ++ path
  | .unknownArchive suffix => "Unsupported archive format: " ++ suffix
  | .notText fault => fault.message
  | .notPlain text => Text.asciiFault text
  | .system cause path => cause.message ++ ": " ++ Text.quoted path

/-- Is the refusal worded by this library, and not by a reader or a system below it? -/
def isOwn : Refusal → Bool
  | .invalidDefinition | .malformedReference | .emptySeparator | .notZipped | .notPacked | .cutOff
  | .notText _ | .notPlain _ | .unreachable _ | .system .. => false
  | _ => true

/-- The type that a refusal is about. -/
def typeName? : Refusal → Option String
  | .unknownMember union _ => some union
  | .unknownType name => name
  | .unresolvedItem owner _ => some owner
  | _ => none

/-- The member of a type that a refusal is about. -/
def memberName? : Refusal → Option String
  | .unresolvedItem _ member => some member
  | _ => none

/-- The name that a refusal is about. -/
def identifier? : Refusal → Option String
  | .unusableName name _ => some name
  | .unparsable className => some className
  | _ => none

/-- The status of the answer that a refusal is about. -/
def statusCode? : Refusal → Option Nat
  | .badStatus code _ _ => some code
  | .emptyResponse code => some code
  | _ => none

end Refusal

end Bindery
