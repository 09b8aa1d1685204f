import Bindery.Query.Literal

/-!
# Documents

Executable GraphQL documents as trees, and their text. A document is a selection set, perhaps behind
the signature of an operation; a selection is a field, a field with a selection set of its own, or
an inline fragment.
-/

namespace Bindery.Query

/-- An argument with its literal. -/
structure Argument where
  /-- The name of the argument. -/
  name : String
  /-- The literal that is sent. -/
  value : Literal
  deriving Repr

/-- A directive with its arguments. -/
structure Directive where
  /-- The name of the directive. -/
  name : String
  /-- The arguments in order. -/
  arguments : List Argument
  deriving Repr

/-- The definition of a variable. -/
structure VariableDefinition where
  /-- The name of the variable. -/
  name : String
  /-- The text of the type. -/
  typeName : String
  /-- The default value. -/
  fallback : Option Literal
  deriving Repr

/-- The keyword of an operation. -/
inductive OperationType where
  /-- A read. -/
  | query
  /-- A change. -/
  | mutation
  /-- A stream of events. -/
  | subscription
  deriving DecidableEq, Repr

/-- The keyword as it is written. -/
def OperationType.keyword : OperationType → String
  | .query => "query"
  | .mutation => "mutation"
  | .subscription => "subscription"

/-- The operation of a keyword. -/
def OperationType.ofKeyword? (s : String) : Option OperationType :=
  [OperationType.query, .mutation, .subscription].find? fun o => o.keyword == s

/-- What stands before the selection set of an operation. -/
structure Signature where
  /-- The keyword. -/
  operation : OperationType
  /-- The name of the operation. -/
  name : Option String
  /-- The variables in order. -/
  definitions : List VariableDefinition
  deriving Repr

/-- A field without its selection set. -/
structure FieldHead where
  /-- The alias. -/
  aliasName : Option String
  /-- The name of the field. -/
  name : String
  /-- The arguments in order. -/
  arguments : List Argument
  /-- The directives in order. -/
  directives : List Directive
  deriving Repr

/-- A selection; a selection set may stand behind a signature. -/
inductive Selection where
  /-- A field without a selection set. -/
  | leaf (head : FieldHead)
  /-- A field with a selection set. -/
  | nested (head : FieldHead) (signature : Option Signature) (children : List Selection)
  /-- An inline fragment on a type. -/
  | fragment (typeName : String) (signature : Option Signature) (children : List Selection)
  deriving Repr

/-- An executable document. -/
structure Document where
  /-- The signature, for an operation. -/
  signature : Option Signature
  /-- The selections. -/
  selections : List Selection
  deriving Repr

/-! ### Printing -/

/-- The text of an argument. -/
def Argument.print (l : Layout) (level : Int) (a : Argument) : List Char :=
  a.name.toList ++ ':' :: l.space ++ a.value.print l level

/-- The text of arguments in round brackets, or nothing where there are none. -/
def printArguments (l : Layout) (level : Int) (as : List Argument) : List Char :=
  if as.isEmpty then []
  else '(' :: separated (',' :: l.space) (as.map (Argument.print l level)) ++ [')']

/-- The text of a directive. -/
def Directive.print (l : Layout) (level : Int) (d : Directive) : List Char :=
  '@' :: d.name.toList ++ printArguments l level d.arguments

/-- The text of a variable definition. -/
def VariableDefinition.print (l : Layout) (v : VariableDefinition) : List Char :=
  '$' :: v.name.toList ++ ':' :: l.space ++ v.typeName.toList ++
    match v.fallback with
    | none => []
    | some x => l.space ++ '=' :: l.space ++ x.print l 0

/-- The text of a signature. -/
def Signature.print (l : Layout) (s : Signature) : List Char :=
  s.operation.keyword.toList ++
    (match s.name with
      | none => []
      | some n => ' ' :: n.toList) ++
    if s.definitions.isEmpty then []
    else '(' :: separated (',' :: l.space) (s.definitions.map (VariableDefinition.print l)) ++ [')']

/-- The text of a field without its selection set. -/
def FieldHead.print (l : Layout) (level : Int) (f : FieldHead) : List Char :=
  (match f.aliasName with
    | none => []
    | some a => a.toList ++ ':' :: l.space) ++
    f.name.toList ++ printArguments l level f.arguments ++
    f.directives.flatMap fun d => l.space ++ d.print l level

/-- The text of a selection set whose items stand on lines of the given level. -/
def printBlock (l : Layout) (level : Int) (items : List (List Char)) : List Char :=
  if l.indented then
    if items.isEmpty then ['{', '}']
    else ['{', '\n'] ++ items.flatMap (fun i => l.indent level ++ i ++ ['\n']) ++
      l.indent (level - 1) ++ ['}']
  else
    '{' :: separated [','] items ++ ['}']

/-- The text of a selection set behind its signature. -/
def printSigned (l : Layout) (level : Int) (s : Option Signature) (items : List (List Char)) :
    List Char :=
  match s with
  | none => printBlock l level items
  | some s => s.print l ++ l.space ++ printBlock l level items

mutual

/-- The text of a selection on a line of the given level. -/
def Selection.print (l : Layout) (level : Int) : Selection → List Char
  | .leaf head => head.print l level
  | .nested head s children =>
    let inner := printSelections l (level + 1) children
    head.print l level ++ l.space ++ printSigned l (level + 1) s inner
  | .fragment typeName s children =>
    "...".toList ++ l.space ++ "on ".toList ++ typeName.toList ++ l.space ++
      printSigned l (level + 1) s (printSelections l (level + 1) children)

/-- The texts of selections. -/
def printSelections (l : Layout) (level : Int) : List Selection → List (List Char)
  | [] => []
  | s :: r => s.print l level :: printSelections l level r

end

/-- The text of a document. -/
def Document.print (l : Layout) (d : Document) : List Char :=
  printSigned l 1 d.signature (printSelections l 1 d.selections)

end Bindery.Query
