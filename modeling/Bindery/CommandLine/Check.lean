import Bindery.CommandLine.Given
import Bindery.Number.Decimal
import Bindery.Storage.Disk
import Bindery.Text.Blank
import Bindery.Text.Casing

/-!
# Checks of given arguments

The values of a command are checked in the order in which their options are first given; after them
come the options that are not given, of which some must be.
-/

namespace Bindery.CommandLine

open Bindery.Number Bindery.Storage Bindery.Text

/-- The integer of a text. -/
def integerOf? (s : String) : Option Int :=
  let (negative, cs) := splitSign (trimBlanks s.toList)
  (groupedDigits? (plainDigits cs)).map fun ds =>
    let n : Int := readDigits 0 ds
    if negative then -n else n

/-- What a value was to be, as one of several names. -/
def notOneOf (value : String) (names : List String) : String :=
  quoted value ++ " is not one of " ++ ", ".intercalate (names.map quoted) ++ "."

/-- What a path leads to, by what it may lead to. -/
def pathNoun (takesFiles takesFolders : Bool) : String :=
  match takesFiles, takesFolders with
  | true, false => "File"
  | false, true => "Directory"
  | _, _ => "Path"

/-- Why a value is not of a kind. -/
def ValueKind.objection (d : Disk) (folder : Path) (value : String) : ValueKind → Option String
  | .flag | .text => none
  | .choice names => if names.contains value then none else some (notOneOf value names)
  | .anyCase names =>
    let names := names.map lower
    if names.contains (lower value) then none else some (notOneOf value names)
  | .size =>
    match integerOf? value with
    | none => some (quoted value ++ " is not a valid integer range.")
    | some n => if n < 0 then some (toString n ++ " is not in the range x>=0.") else none
  | .path mustExist takesFiles takesFolders =>
    let what := pathNoun takesFiles takesFolders ++ " " ++ quoted value
    match d.find? folder value with
    | none => if mustExist then some (what ++ " does not exist.") else none
    | some p =>
      if d.isFolder p then if takesFolders then none else some (what ++ " is a directory.")
      else if takesFiles then none else some (what ++ " is a file.")

/-- The fault of an option that is given with values, or not at all. -/
def OptionForm.fault? (o : OptionForm) (d : Disk) (folder : Path) (values : List String) :
    Option Fault :=
  match values.getLast? with
  | some value => (o.kind.objection d folder value).map (.invalid o)
  | none => if o.isRequired then some (.optionMissing o) else none

/-- The options of a command in the order in which they are checked. -/
def CommandForm.checkOrder (c : CommandForm) (g : Given) : List OptionForm :=
  let given := (g.options.map GivenOption.option).eraseDups
  given ++ c.options.filter fun o => !given.contains o

/-- The first fault of arguments. -/
def CommandForm.fault? (c : CommandForm) (d : Disk) (folder : Path) (g : Given) : Option Fault :=
  match (c.checkOrder g).findSome? fun o => o.fault? d folder (g.values o.name) with
  | some f => some f
  | none => if g.rest.isEmpty || c.isGroup then none else some (.leftOver g.rest)

end Bindery.CommandLine
