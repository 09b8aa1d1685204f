import Bindery.Keyed
import Bindery.Output.Header
import Bindery.Text.Identifier

/-!
# Targets

Generation is a sequence of events, which a target receives one after the other: a client in one
file, where each phase is a region and an empty line divides its classes, or a client as a package, in
which every class has a file of its own. A file of a package is emitted when its class ends; a class
that is given up leaves no file.
-/

namespace Bindery.Output

/-! ### Events -/

/-- An event of generation. -/
inductive Event where
  /-- A report. -/
  | report (line : String)
  /-- Generation begins; the header is for a client in one file. -/
  | begin (header : String)
  /-- A phase begins. -/
  | beginPhase (phase : Phase)
  /-- A class begins; the header is for a file of its own. -/
  | beginClass (phase : Phase) (className unitHeader : String)
  /-- Text of a class. -/
  | write (text : String)
  /-- A class ends. -/
  | endClass
  /-- A phase ends. -/
  | endPhase
  /-- The files of a package that hold no class. -/
  | packageFiles (init : String) (project : Option String)
  /-- Generation ends. -/
  | finish
  /-- Generation is given up. -/
  | abort
  deriving DecidableEq, Repr

/-! ### A client in one file -/

/-- A client in one file. -/
structure SingleFile where
  /-- Is the file marked as one whose references follow the schema? -/
  marksNullability : Bool
  /-- The text. -/
  text : String := ""
  /-- Is the next class the first one of its phase? -/
  isFirst : Bool := true
  /-- Does the text have the mark? -/
  isMarked : Bool := false
  /-- The reports. -/
  log : List String := []
  deriving DecidableEq, Repr

namespace SingleFile

/-- The file with more text. -/
def append (f : SingleFile) (text : String) : SingleFile :=
  { f with text := f.text ++ text }

/-- The mark. -/
def mark : String := "# mypy: strict-optional\n\n"

/-- The file with the mark, if it is to have one and does not have it yet; the support text needs
none. -/
def addMark (f : SingleFile) (phase : Phase) : SingleFile :=
  if f.marksNullability && !f.isMarked && phase != .baseClasses then
    { f.append mark with isMarked := true }
  else f

/-- The file after an event. -/
def on (f : SingleFile) : Event → SingleFile
  | .report line => { f with log := f.log ++ [line] }
  | .begin header => { f.append header with isMarked := false }
  | .beginPhase phase =>
    { ((f.append "\n").addMark phase).append ("# region " ++ phase.title ++ "\n\n") with
      isFirst := true }
  | .beginClass _ _ _ => { (if f.isFirst then f else f.append "\n") with isFirst := false }
  | .write text => f.append text
  | .endPhase => (if f.isFirst then f else f.append "\n").append "# endregion\n"
  | .endClass | .packageFiles _ _ | .finish | .abort => f

end SingleFile

/-! ### A client as a package -/

/-- An emitted file. -/
structure FileInfo where
  /-- The name of the file. -/
  name : String
  /-- The number of its bytes. -/
  length : Nat
  deriving DecidableEq, Repr

/-- The file of a class that has begun. -/
structure OpenUnit where
  /-- The name of the file. -/
  fileName : String
  /-- The text so far. -/
  text : String
  deriving DecidableEq, Repr

/-- A client as a package. -/
structure Package where
  /-- The name of the package. -/
  name : String
  /-- The name of the project file, if there is to be one. -/
  projectFile : Option String := none
  /-- The texts of all files that were ever emitted, by their names. -/
  emitted : Keyed String := .empty
  /-- The emitted files. -/
  files : List FileInfo := []
  /-- The classes. -/
  units : List GeneratedUnit := []
  /-- The file of the class that has begun. -/
  current : Option OpenUnit := none
  /-- The reports. -/
  log : List String := []
  deriving Repr

namespace Package

/-- Is the text the dotted name of a package? -/
def isName (name : String) : Bool :=
  ((name.split (· == '.')).toList.map fun s => s.toString).all Text.isUsableName

/-- The package of a name without files. -/
def ofName (name : String) (projectFile : Option String) : Except Refusal Package :=
  if isName name then .ok { name, projectFile } else .error (.badPackage name)

/-- The package with a file. -/
def emit (p : Package) (fileName text : String) : Package :=
  { p with
    emitted := p.emitted.put fileName text
    files := p.files ++ [⟨fileName, text.utf8ByteSize⟩]
    log := p.log ++ [fileName ++ " written (" ++ toString text.utf8ByteSize ++ " bytes)"] }

/-- The name under which the project file is written, if it is to be written. -/
def projectName? (p : Package) : Option String :=
  p.projectFile.filter fun n => !n.isEmpty

/-- The package with the files that hold no class. -/
def emitPackageFiles (p : Package) (init : String) (project : Option String) : Package :=
  let p := p.emit "__init__.py" init
  match p.projectName?, project with
  | some name, some text => p.emit name text
  | _, _ => p

/-- The package after an event. -/
def on (p : Package) : Event → Except Refusal Package
  | .report line => .ok { p with log := p.log ++ [line] }
  | .begin _ => .ok { p with files := [], units := [] }
  | .beginClass phase className unitHeader =>
    let module := unitModule phase className
    .ok { p with
      units := p.units ++ [⟨module, className, phase⟩]
      current := some ⟨module ++ ".py", unitHeader⟩ }
  | .write text =>
    match p.current with
    | some u => .ok { p with current := some { u with text := u.text ++ text } }
    | none => .error .noOpenUnit
  | .endClass =>
    match p.current with
    | some u => .ok { p.emit u.fileName u.text with current := none }
    | none => .error .noOpenUnit
  | .packageFiles init project => .ok (p.emitPackageFiles init project)
  | .abort => .ok { p with current := none }
  | .beginPhase _ | .endPhase | .finish => .ok p

/-- The package after events; a refused event leaves it as it is. -/
def onAll (p : Package) (events : List Event) : Package :=
  events.foldl (fun p e => (p.on e).toOption.getD p) p

end Package

end Bindery.Output
