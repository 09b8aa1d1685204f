import Bindery.CommandLine.Form

/-!
# Given arguments

The arguments of a command are read into the options that they give, in their order, and those that
are left over. A long option stands for itself, with its value behind an equals sign or in the next
argument; short ones can stand together, the last of them with its value at once. Two dashes end the
options.
-/

namespace Bindery.CommandLine

/-- An option with its value, if it takes one. -/
structure GivenOption where
  /-- The option. -/
  option : OptionForm
  /-- The value. -/
  value : String := ""
  deriving DecidableEq, Repr

/-- Arguments that have been read. -/
structure Given where
  /-- The options in their order. -/
  options : List GivenOption
  /-- The other arguments. -/
  rest : List String
  deriving DecidableEq, Repr

namespace Given

/-- The arguments with one more option before them. -/
def addOption (g : Given) (os : List GivenOption) : Given :=
  { g with options := os ++ g.options }

/-- The values of an option. -/
def values (g : Given) (name : String) : List String :=
  (g.options.filter fun o => o.option.name == name).map GivenOption.value

/-- The value of an option: the last one counts. -/
def value? (g : Given) (name : String) : Option String :=
  (g.values name).getLast?

/-- Is the option given? -/
def has (g : Given) (name : String) : Bool :=
  !(g.values name).isEmpty

end Given

/-- What an argument gives: options, and perhaps one, as it was named, that awaits its value. -/
structure Reading where
  /-- The options. -/
  options : List GivenOption
  /-- The option that awaits its value. -/
  awaiting : Option (OptionForm × String) := none
  deriving DecidableEq, Repr

namespace CommandForm

/-- The option of a short name. -/
def shortOption? (c : CommandForm) (letter : Char) : Option OptionForm :=
  c.options.find? fun o => o.short == some letter

/-- The option of a name. -/
def longOption? (c : CommandForm) (name : String) : Option OptionForm :=
  c.options.find? fun o => o.name == name

/-- Reads short options that stand together. -/
def readShort (c : CommandForm) : List Char → Except Fault Reading
  | [] => .ok ⟨[], none⟩
  | letter :: r =>
    let name := String.ofList ['-', letter]
    match c.shortOption? letter with
    | none => .error (.unknownOption name [])
    | some o =>
      if !o.takesValue then
        (c.readShort r).map fun x => { x with options := ⟨o, ""⟩ :: x.options }
      else if r.isEmpty then .ok ⟨[], some (o, name)⟩
      else .ok ⟨[⟨o, String.ofList r⟩], none⟩

/-- Reads an argument that begins with a dash. -/
def readOption (c : CommandForm) (argument : String) : Except Fault Reading :=
  let cs := argument.toList
  let start := cs.takeWhile (· != '=')
  let name := String.ofList start
  let hasValue := start.length < cs.length
  match c.longOption? name with
  | some o =>
    if o.takesValue then
      if hasValue then .ok ⟨[⟨o, String.ofList (cs.drop (start.length + 1))⟩], none⟩
      else .ok ⟨[], some (o, name)⟩
    else if hasValue then .error (.valueGiven name)
    else .ok ⟨[⟨o, ""⟩], none⟩
  | none =>
    if argument.startsWith "--" then
      .error (.unknownOption name (similarWords name (c.options.map OptionForm.name)))
    else c.readShort (cs.drop 1)

/-- Does the argument begin like an option? -/
def namesOption (argument : String) : Bool :=
  argument.startsWith "-" && argument != "-"

/-- Reads arguments. Those of a group end with the first that is no option. -/
def read (c : CommandForm) : List String → Except Fault Given
  | [] => .ok ⟨[], []⟩
  | argument :: r =>
    if argument == "--" then .ok ⟨[], r⟩
    else if !namesOption argument then
      if c.isGroup then .ok ⟨[], argument :: r⟩
      else (c.read r).map fun g => { g with rest := argument :: g.rest }
    else do
      let x ← c.readOption argument
      match x.awaiting, r with
      | none, r => return (← c.read r).addOption x.options
      | some (_, name), [] => throw (.valueMissing name)
      | some (o, _), value :: r => return (← c.read r).addOption (x.options ++ [⟨o, value⟩])

end CommandForm

end Bindery.CommandLine
