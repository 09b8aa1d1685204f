import Bindery.CommandLine.Generate

/-!
# The program

The program has two commands: one generates a client, the other writes the introspection result of a
service to a file. How it ends is told by an exit code: one for what is refused, two for arguments
at fault.
-/

namespace Bindery.CommandLine

open Bindery.Storage Bindery.Retrieval

/-- The command that writes an introspection result. -/
def introspectForm (program : String) : CommandForm where
  name := program ++ " introspect"
  options :=
    [{ name := "--service-url", short := some 'u', isRequired := true },
      { name := "--output", short := some 'o', kind := .path false true false, isRequired := true },
      methodOption,
      { name := "--header", short := some 'H' },
      helpOption]

/-- The program, which is followed by a command. -/
def programForm (program : String) : CommandForm where
  name := program
  isGroup := true
  options := [{ name := "--version", kind := .flag }, helpOption]

/-- The version of the program. -/
def version : String := "0.1.0"

/-- Writes an introspection result. -/
def introspect (s : Surroundings) (g : Given) : Session Unit := do
  let headers ← Session.ofResult g.headers
  let url := (g.value? "--service-url").getD ""
  let content ← Session.retrieve (s.service.retrieve url g.methodName headers)
  discard (Session.ofResult (Schema.ofText content))
  let output := s.folder.resolve ((g.value? "--output").getD "")
  Session.onDisk do
    Action.ensureFolder output.parent
    Action.writeFile output (.plain (.text content))
  Session.say ("Schema written to " ++ output.shown)

/-- Does the command that generates a client report such a refusal? Another one ends the program at
once. -/
def isReported : RefusalKind → Bool
  | .configuration | .inconsistency | .identifier | .retrieval | .connection | .system _ | .value
  | .form | .encoding | .decoding => true
  | .type | .order | .unsupported | .zip | .tape | .ending => false

/-- Does the command that writes an introspection result report such a refusal? -/
def isReportedOfService : RefusalKind → Bool
  | .configuration | .inconsistency | .identifier | .retrieval | .connection | .system _ => true
  | .value | .form | .encoding | .decoding | .type | .order | .unsupported | .zip | .tape
  | .ending => false

/-- A command of the program. -/
structure Command where
  /-- Its arguments. -/
  form : CommandForm
  /-- What it does with them. -/
  act : Surroundings → Given → Session Unit
  /-- Which refusals it reports. -/
  reports : RefusalKind → Bool

/-- The commands by their names. -/
def commands (program : String) : List (String × Command) :=
  [("generate", ⟨generateForm program, generate program, isReported⟩),
    ("introspect", ⟨introspectForm program, introspect, isReportedOfService⟩)]

/-- How the program ends. -/
structure Outcome where
  /-- The exit code. -/
  exitCode : Nat
  /-- The text written. -/
  output : String
  /-- The refusal that nothing reports. -/
  crash : Option Refusal
  /-- The disk. -/
  disk : Disk
  /-- The requests sent. -/
  requests : List Request

/-- The outcome of a session, some of whose refusals are reported. -/
def Session.outcome (a : Session Unit) (reports : RefusalKind → Bool) (d : Disk) : Outcome :=
  let (x, w) := a.run.run { disk := d }
  let ends (code : Nat) (text : String) (crash : Option Refusal) : Outcome :=
    ⟨code, w.output ++ text, crash, w.disk, w.requests⟩
  match x with
  | .ok _ => ends 0 "" none
  | .error (.answered text) => ends 0 text none
  | .error (.fault command fault) => ends 2 (command.complaint fault) none
  | .error (.refused e) =>
    if reports e.kind then ends 1 ("Error: " ++ e.message ++ "\n") none else ends 1 "" (some e)

/-- The arguments of a command, without faults. -/
def CommandForm.accept (c : CommandForm) (s : Surroundings) (arguments : List String) :
    Session Given := do
  match c.read arguments with
  | .error f => throw (.fault c f)
  | .ok g =>
    if g.has helpOption.name then throw (.answered c.usage)
    match c.fault? (← get).disk s.folder g with
    | some f => throw (.fault c f)
    | none => return g

/-- Halts unless the program has a command of a name. -/
def findCommand (program name : String) : Session Command := do
  match (commands program).lookup name with
  | some c => return c
  | none =>
    let form := programForm program
    if CommandForm.namesOption name then
      match form.readOption name with
      | .error f => throw (.fault form f)
      | .ok _ => throw (.fault form (.unknownCommand name))
    throw (.fault form (.unknownCommand name))

/-- The command that arguments name, with the arguments behind its name. -/
def chooseCommand (program : String) (s : Surroundings) (arguments : List String) :
    Session (Command × List String) := do
  let form := programForm program
  let g ← form.accept s arguments
  if g.has "--version" then throw (.answered (program ++ ", version " ++ version ++ "\n"))
  match g.rest with
  | [] => throw (.fault form .commandMissing)
  | name :: r => return (← findCommand program name, r)

/-- The paths that arguments give to a command. -/
def pathOptions (program : String) (arguments : List String) : List GivenOption :=
  let given : Option Given := do
    let g ← ((programForm program).read arguments).toOption
    let name ← g.rest.head?
    let c ← (commands program).lookup name
    (c.form.read g.rest.tail).toOption
  ((given.map Given.options).getD []).filter fun o =>
    match o.option.kind with
    | .path .. => true
    | _ => false

/-- Runs the program. -/
def run (program : String) (s : Surroundings) (d : Disk) (arguments : List String) : Outcome :=
  if arguments.isEmpty then ⟨2, (programForm program).usage, none, d, []⟩
  else
    match (chooseCommand program s arguments).run.run { disk := d } with
    | (.ok (command, r), _) =>
      let session := do command.act s (← command.form.accept s r)
      session.outcome command.reports d
    | (.error halt, _) => Session.outcome (throw halt) isReported d

end Bindery.CommandLine
