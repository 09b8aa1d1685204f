import Bindery.Catalog.Make
import Bindery.Client.Builder
import Bindery.Client.Data
import Bindery.Client.Enumeration
import Bindery.Client.Input
import Bindery.Output.Target
import Bindery.Refusal
import Bindery.Schema.Filter
import Bindery.Source.Program

/-!
# Generation

The events by which a client is generated from a schema. When something is refused, the events up to
the refusal remain. Hooks change the schema before generation and the text of every class after it.
-/

namespace Bindery.Output

open Bindery.Client Bindery.Schema

/-! ### Hooks -/

/-- A hook. -/
inductive Hook where
  /-- A text that is put before every class. -/
  | header (text : String)
  /-- A choice of types. -/
  | filter (f : TypeFilter)
  /-- Something that is no hook, by the name of its kind. -/
  | other (name : String)
  deriving Repr

/-- The hooks by when they run. -/
structure Hooks where
  /-- What changes the schema, in order. -/
  filters : List TypeFilter
  /-- What is put before every class, the innermost first. -/
  headers : List String
  deriving Repr

namespace Hooks

/-- No hooks. -/
def none : Hooks := ⟨[], []⟩

/-- The hooks with one more. -/
def add (h : Hooks) : Hook → Except Refusal Hooks
  | .header text => .ok { h with headers := h.headers ++ [text] }
  | .filter f => .ok { h with filters := h.filters ++ [f] }
  | .other name => .error (.notAHook name)

/-- Hooks in order. -/
def ofList (hooks : List Hook) : Except Refusal Hooks :=
  hooks.foldlM add none

/-- The schema from which a client is generated. -/
def prepare (h : Hooks) (s : Schema) : Schema :=
  h.filters.foldl (fun s f => f.apply s) s

/-- The text behind a header, with an empty line between them. -/
def putBefore (text header : String) : String :=
  header ++ (if header.endsWith "\n" then "\n" else "\n\n") ++ text

/-- The text of a class as it is written. -/
def finish (h : Hooks) (text : String) : String :=
  h.headers.foldl putBefore text

end Hooks

/-! ### Generation -/

/-- What generation needs besides a schema. -/
structure Generator where
  /-- The options. -/
  configuration : Configuration
  /-- The hooks. -/
  hooks : Hooks := .none
  /-- The templates. -/
  templates : Templates := .empty
  /-- The selected parts. -/
  parts : List Part := Part.all
  /-- Is every class to have a file of its own? -/
  isPackage : Bool := false
  /-- The name of the package. -/
  packageName : String := ""

/-- Events up to a refusal, or to the end. -/
structure Course where
  /-- The events. -/
  events : List Event
  /-- The refusal. -/
  refusal : Option Refusal := none

namespace Course

/-- The course that goes on with another one, unless something was refused. -/
def andThen (a : Course) (b : Unit → Course) : Course :=
  match a.refusal with
  | some _ => a
  | none =>
    let rest := b ()
    ⟨a.events ++ rest.events, rest.refusal⟩

/-- The course of each item in order. -/
def ofEach {α : Type} (course : α → Course) : List α → Course
  | [] => ⟨[], none⟩
  | a :: r => (course a).andThen fun _ => ofEach course r

/-- The course that follows from a result. -/
def ofResult {α : Type} (x : Except Refusal α) (course : α → Course) : Course :=
  match x with
  | .ok a => course a
  | .error e => ⟨[], some e⟩

end Course

namespace Generator

/-- The member with the text that a template gives it. -/
def styled (g : Generator) (kind : TemplateKind) (m : Member) : Member :=
  { m with text := g.templates.text kind m.className m.text }

/-- The members that a phase writes. -/
def members (g : Generator) (c : Catalog) (constants : Keyed String) :
    Phase → Except Refusal (List Member)
  | .baseClasses => .ok [supportMember g.isPackage]
  | .typeNames => .ok [g.styled .typeNames (typeNamesMember constants)]
  | .enums => (enumClasses c).map fun ms => ms.map fun m => g.styled .enumeration m.member
  | .directives => (directiveClasses c).map fun ms => ms.map fun m => g.styled .directive m.member
  | .builders => (builderViews c constants).map fun ms => ms.map fun m => g.styled .builder m.member
  | .inputs => (inputViews c).map fun ms => ms.map fun m => g.styled .input m.member
  | .dataClasses => (dataViews c).map fun ms => ms.map fun m => g.styled .dataClass m.member

/-- The header of the file of a class, if it has one of its own. -/
def headerOf (g : Generator) (phase : Phase) (m : Member) : String :=
  if g.isPackage then unitHeader g.templates phase m else ""

/-- The course of a class: its text must be a program. -/
def classCourse (g : Generator) (phase : Phase) (m : Member) : Course :=
  let text := g.hooks.finish m.text
  if Source.isProgram text then
    ⟨[.beginClass phase m.className (g.headerOf phase m), .write text, .endClass], none⟩
  else ⟨[], some (.unparsable m.className)⟩

/-- The course of a phase. -/
def phaseCourse (g : Generator) (c : Catalog) (constants : Keyed String) (phase : Phase) : Course :=
  let start : Course := ⟨[.report ("generating " ++ phase.title), .beginPhase phase], none⟩
  start.andThen fun _ => .ofResult (g.members c constants phase) fun ms =>
    (Course.ofEach (g.classCourse phase) ms).andThen fun _ => ⟨[.endPhase], none⟩

/-- The classes that begin in events. -/
def unitsOf (events : List Event) : List GeneratedUnit :=
  events.filterMap fun
    | .beginClass phase className _ => some ⟨unitModule phase className, className, phase⟩
    | _ => none

/-- The course of the files of a package that hold no class. -/
def packageCourse (g : Generator) (events : List Event) : Course :=
  if g.isPackage then
    ⟨[.packageFiles (packageText g.templates (unitsOf events))
      (some (projectText g.templates g.packageName))], none⟩
  else ⟨[], none⟩

/-- The course of generation from a catalog. -/
def catalogCourse (g : Generator) (c : Catalog) : Course :=
  let constants := typeConstants c.schema
  let start : Course := ⟨[.begin (headerText g.templates [] [])], none⟩
  let phases := start.andThen fun _ =>
    Course.ofEach (g.phaseCourse c constants) (selectedPhases g.parts)
  (phases.andThen fun _ => g.packageCourse phases.events).andThen fun _ => ⟨[.finish], none⟩

/-- The course of generation from a schema; what is refused is given up. -/
def course (g : Generator) (s : Schema) : Course :=
  let (log, c) := Catalog.make g.configuration (g.hooks.prepare s)
  let reports : Course := ⟨log.map .report, none⟩
  let all := reports.andThen fun _ => .ofResult c g.catalogCourse
  if all.refusal.isSome then { all with events := all.events ++ [.abort] } else all

/-- The client in one file, and why it is not complete. -/
def singleFile (g : Generator) (s : Schema) : SingleFile × Option Refusal :=
  let course := { g with isPackage := false }.course s
  let start : SingleFile := { marksNullability := g.configuration.nullableReferences }
  (course.events.foldl SingleFile.on start, course.refusal)

/-- The client as a package, and why it is not complete. -/
def package (g : Generator) (p : Package) (s : Schema) : Package × Option Refusal :=
  let course := { g with isPackage := true, packageName := p.name }.course s
  (p.onAll course.events, course.refusal)

end Generator

end Bindery.Output
