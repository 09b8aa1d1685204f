import Bindery.Archive.Tape
import Bindery.Archive.Zip
import Bindery.Storage.Disk
import Bindery.Text.Casing

/-!
# Extraction of archives

The members of an archive are extracted into an empty folder. A member whose name leads out of the
folder is refused: of packed files before anything is extracted, of a tape when its turn comes.
After a refusal the folder is gone.
-/

namespace Bindery.Archive

open Bindery.Storage

/-! ### Members -/

/-- The refusal of a damaged tape. -/
def Damage.refusal : Damage → Refusal
  | .malformed => .notPacked
  | .cutOff => .cutOff

/-- The members of an archive of packed files. -/
def zipMembers : Content → Except Refusal (List Member)
  | .zip members => .ok members
  | .tape _ => .error .notZipped
  | .plain data => unpackZip data.toBytes

/-- The members of a packed tape. -/
def tapeMembers : Content → Except Refusal (List Member)
  | .tape members => .ok members
  | .zip _ => .error .notPacked
  | .plain data => (unpackTape data.toBytes).mapError Damage.refusal

/-! ### Places -/

/-- The path of a member, which must be within the folder. -/
def target (root : Path) (name : String) : Except Refusal Path :=
  let p := root.resolve name
  if p.isWithin root then .ok p else .error (.unsafePath name)

/-! ### Tapes -/

/-- Extracts a member of a tape, unless it is neither folder nor file. -/
def extractOnTape (root : Path) (m : Member) : Action Unit := do
  let p ← target root m.name
  match m.kind with
  | .folder => Action.ensureFolder p
  | .file data =>
    Action.ensureFolder p.parent
    Action.writeFile p (.plain data)
  | .other => return

/-- Extracts a tape, one member after the other. -/
def extractTape (root : Path) (members : List Member) : Action Unit :=
  members.forM (extractOnTape root)

/-! ### Packed files -/

/-- The path at which a packed file is written: names that are empty or made of one or two dots are
left out. -/
def packedPath (root : Path) (name : String) : Path :=
  root ++ (namesOf name).filter fun n => n != "" && n != "." && n != ".."

/-- Extracts a packed file. -/
def extractPacked (root : Path) (m : Member) : Action Unit := do
  let p := packedPath root m.name
  if ((← get).node? p.parent).isNone then Action.ensureEachFolder p.parent
  match m.kind with
  | .folder => if !(← get).isFolder p then Action.makeFolder p
  | .file data => Action.writeFile p (.plain data)
  | .other => return

/-- The last member of a name. -/
def lastOf (members : List Member) (m : Member) : Member :=
  (members.reverse.find? fun n => n.name == m.name).getD m

/-- Extracts packed files, of which the last one of a name counts. -/
def extractZip (root : Path) (members : List Member) : Action Unit := do
  members.forM fun m => discard (liftExcept (target root m.name))
  members.forM fun m => extractPacked root (lastOf members m)
where
  liftExcept {α : Type} (x : Except Refusal α) : Action α := x

/-! ### Archives -/

/-- The end of a name from its last dot on, which must stand within the name. -/
def suffixOf (name : String) : String :=
  let cs := name.toList
  let suffix := (cs.reverse.takeWhile (· != '.')).reverse
  if suffix.isEmpty || cs.length ≤ suffix.length + 1 then "" else String.ofList ('.' :: suffix)

/-- Does the name end like that of a packed tape? -/
def namesTape (name : String) : Bool :=
  name.endsWith ".tar.gz" || name.endsWith ".tgz"

/-- Does the name, in whatever case, end like that of an archive? -/
def namesArchive (name : String) : Bool :=
  let name := Text.lower name
  name.endsWith ".zip" || namesTape name

/-- Extracts an archive of a name into a folder. -/
def extractInto (root : Path) (name : String) (c : Content) : Action Unit := do
  if suffixOf name == ".zip" then extractZip root (← zipMembers c)
  else if namesTape name then extractTape root (← tapeMembers c)
  else throw (.unknownArchive (suffixOf name))

/-- Extracts an archive into a new folder, which is gone after a refusal. -/
def extract (archive root : Path) : Action Unit := do
  modify fun d => d.put root .folder
  tryCatch (do extractInto root archive.name (← Action.readFile archive)) fun e => do
    modify fun d => d.removeTree root
    throw e

end Bindery.Archive
