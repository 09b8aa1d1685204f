import Bindery.Refusal

/-!
# Phases

A client is generated in phases, each of which writes classes of one kind. The phases belong to
three parts, which can be selected.
-/

namespace Bindery.Output

/-- What can be selected for generation. -/
inductive Part where
  /-- What all clients have in common. -/
  | baseClasses
  /-- The builders of queries. -/
  | queryBuilders
  /-- The classes of data. -/
  | dataClasses
  deriving DecidableEq, Repr

/-- All parts. -/
def Part.all : List Part :=
  [.baseClasses, .queryBuilders, .dataClasses]

/-- The parts by their names. -/
def Part.names : List (String × Part) :=
  [("BASE_CLASSES", .baseClasses), ("QUERY_BUILDERS", .queryBuilders), ("DATA_CLASSES", .dataClasses)]

/-- The selected parts, if there is one. -/
def checkParts (parts : List Part) : Except Refusal (List Part) :=
  if parts.isEmpty then .error .nothingSelected else .ok parts

/-- A phase. -/
inductive Phase where
  /-- The support text. -/
  | baseClasses
  /-- The names of the types. -/
  | typeNames
  /-- The classes of enumerations. -/
  | enums
  /-- The classes of directives. -/
  | directives
  /-- The classes of builders. -/
  | builders
  /-- The classes of input objects. -/
  | inputs
  /-- The data classes. -/
  | dataClasses
  deriving DecidableEq, Repr

/-- All phases in order. -/
def Phase.all : List Phase :=
  [.baseClasses, .typeNames, .enums, .directives, .builders, .inputs, .dataClasses]

/-- The title of a phase. -/
def Phase.title : Phase → String
  | .baseClasses => "base classes"
  | .typeNames => "GraphQL type helpers"
  | .enums => "enums"
  | .directives => "directives"
  | .builders => "builder classes"
  | .inputs => "input classes"
  | .dataClasses => "data classes"

/-- The phase with a title. -/
def Phase.ofTitle? (title : String) : Option Phase :=
  all.find? fun p => p.title == title

/-- The part to which a phase belongs. -/
def Phase.part : Phase → Part
  | .baseClasses | .typeNames => .baseClasses
  | .directives | .builders => .queryBuilders
  | .enums | .inputs | .dataClasses => .dataClasses

/-- The phases of the selected parts in order. -/
def selectedPhases (parts : List Part) : List Phase :=
  Phase.all.filter fun p => parts.contains p.part

end Bindery.Output
