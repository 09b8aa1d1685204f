import Bindery.CommandLine.Similar
import Bindery.Text.Order
import Bindery.Text.Quoted

/-!
# Forms of commands

A command takes options, each with a name, perhaps a short one, and a kind of values. What is wrong
with the arguments of a command is a fault.
-/

namespace Bindery.CommandLine

open Bindery.Text

/-- What the values of an option are. -/
inductive ValueKind where
  /-- None: the option is given or not. -/
  | flag
  /-- Any text. -/
  | text
  /-- A path, which may have to exist and may have to be no file or no folder. -/
  | path (mustExist takesFiles takesFolders : Bool)
  /-- One of several names. -/
  | choice (names : List String)
  /-- One of several names, in whatever case. -/
  | anyCase (names : List String)
  /-- An integer that is not negative. -/
  | size
  deriving DecidableEq, Repr

/-- An option. -/
structure OptionForm where
  /-- The name, with its dashes. -/
  name : String
  /-- The short name. -/
  short : Option Char := none
  /-- What its values are. -/
  kind : ValueKind := .text
  /-- Must it be given? -/
  isRequired : Bool := false
  deriving DecidableEq, Repr

/-- Has the option values? -/
def OptionForm.takesValue (o : OptionForm) : Bool :=
  o.kind != .flag

/-- The names of an option as messages show them. -/
def OptionForm.shown (o : OptionForm) : String :=
  let short := (o.short.map fun c => quoted (String.ofList ['-', c])).toList
  " / ".intercalate (quoted o.name :: short)

/-- A command. -/
structure CommandForm where
  /-- The words by which it is called. -/
  name : String
  /-- Is it followed by another command? -/
  isGroup : Bool := false
  /-- The options in the order in which they are checked. -/
  options : List OptionForm
  deriving DecidableEq, Repr

/-- The line that shows how a command is called. -/
def CommandForm.usage (c : CommandForm) : String :=
  "Usage: " ++ c.name ++ " [OPTIONS]" ++ (if c.isGroup then " COMMAND [ARGS]..." else "") ++ "\n"

/-- What is wrong with arguments. -/
inductive Fault where
  /-- There is no such option. -/
  | unknownOption (name : String) (similar : List String)
  /-- An option lacks its value. -/
  | valueMissing (name : String)
  /-- A value is given to a flag. -/
  | valueGiven (name : String)
  /-- Arguments are left over. -/
  | leftOver (arguments : List String)
  /-- An option is not given. -/
  | optionMissing (option : OptionForm)
  /-- A value is not of its kind. -/
  | invalid (option : OptionForm) (reason : String)
  /-- There is no such command. -/
  | unknownCommand (name : String)
  /-- No command is given. -/
  | commandMissing
  /-- A schema is given twice or not at all. -/
  | schemaSource
  /-- A custom mapping lacks its rules. -/
  | rulesMissing
  /-- The name of a package is none. -/
  | badPackage (name : String)
  deriving DecidableEq, Repr

/-- The wording of a fault. -/
def Fault.message : Fault → String
  | .unknownOption name similar =>
    "No such option: " ++ name ++
      match inOrder similar with
      | [] => ""
      | [word] => " Did you mean " ++ word ++ "?"
      | words => " (Possible options: " ++ ", ".intercalate words ++ ")"
  | .valueMissing name => "Option " ++ quoted name ++ " requires an argument."
  | .valueGiven name => "Option " ++ quoted name ++ " does not take a value."
  | .leftOver [argument] => "Got unexpected extra argument (" ++ argument ++ ")"
  | .leftOver arguments => "Got unexpected extra arguments (" ++ " ".intercalate arguments ++ ")"
  | .optionMissing option => "Missing option " ++ option.shown ++ "."
  | .invalid option reason => "Invalid value for " ++ option.shown ++ ": " ++ reason
  | .unknownCommand name => "No such command " ++ quoted name ++ "."
  | .commandMissing => "Missing command."
  | .schemaSource => "exactly one of --schema and --service-url is required"
  | .rulesMissing => "custom type mapping requires --regex-scalar-mapping"
  | .badPackage name => quotedPlain name ++ " is not a valid package name; use --package-name"
where
  quotedPlain (name : String) : String := "'" ++ name ++ "'"

/-- What is shown of a command whose arguments are at fault. -/
def CommandForm.complaint (c : CommandForm) (f : Fault) : String :=
  c.usage ++ "Try '" ++ c.name ++ " --help' for help.\n\nError: " ++ f.message ++ "\n"

end Bindery.CommandLine
