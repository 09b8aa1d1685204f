import Bindery.Storage.Content
import Bindery.Storage.Path
import Bindery.Text.Order

/-!
# Folders and files

A disk holds folders and files by their paths. What is done to it may be refused; what was done
before a refusal stays done.
-/

namespace Bindery.Storage

/-- What stands at a path. -/
inductive Node where
  /-- A folder. -/
  | folder
  /-- A file. -/
  | file (content : Content)
  deriving DecidableEq, Repr

/-- Folders and files by their paths. -/
structure Disk where
  /-- What stands where. -/
  nodes : List (Path × Node)
  deriving DecidableEq, Repr

namespace Disk

/-- Nothing but the root. -/
def empty : Disk := ⟨[]⟩

/-- What stands at a path; the root is a folder. -/
def node? (d : Disk) (p : Path) : Option Node :=
  if p.isEmpty then some .folder else d.nodes.lookup p

/-- Is there a folder at the path? -/
def isFolder (d : Disk) (p : Path) : Bool :=
  d.node? p == some .folder

/-- The disk with a node at a path. -/
def put (d : Disk) (p : Path) (n : Node) : Disk :=
  ⟨(p, n) :: d.nodes.filter fun e => e.1 != p⟩

/-- The disk without a path and all below it. -/
def removeTree (d : Disk) (p : Path) : Disk :=
  ⟨d.nodes.filter fun e => !Path.isWithin e.1 p⟩

/-- The disk with a folder and all folders above it. -/
def putFolders (d : Disk) (p : Path) : Disk :=
  (p.above ++ [p]).foldl (fun d q => if (d.node? q).isSome then d else d.put q .folder) d

/-- The disk with a file and all folders above it. -/
def putFile (d : Disk) (p : Path) (c : Content) : Disk :=
  (d.putFolders p.parent).put p (.file c)

/-- The files at a path or below it. -/
def filesWithin (d : Disk) (p : Path) : List (Path × Content) :=
  d.nodes.filterMap fun e =>
    match e.2 with
    | .file c => if Path.isWithin e.1 p then some (e.1, c) else none
    | .folder => none

/-- What stands below a folder, by the text of its path from there, which ends with a slash for a
folder. -/
def listing (d : Disk) (folder : Path) : List (String × Option Content) :=
  Text.orderBy Prod.fst (d.nodes.filterMap fun e =>
    if e.1.isWithin folder && e.1 != folder then
      let place := "/".intercalate (e.1.drop folder.length)
      match e.2 with
      | .folder => some (place ++ "/", none)
      | .file c => some (place, some c)
    else none)

/-- Why nothing can be made at a path: something above it is no folder. -/
def hindrance? (d : Disk) (p : Path) : Option SystemCause :=
  p.above.findSome? fun q =>
    match d.node? q with
    | some .folder => none
    | some (.file _) => some .notAFolder
    | none => some .missing

/-- The path to which names lead, all but the last of which must stand for folders. -/
def walk (d : Disk) : Path → List String → Except SystemCause Path
  | p, [] => .ok p
  | p, name :: r =>
    match d.node? p with
    | some .folder => d.walk (p.step name) r
    | some (.file _) => .error .notAFolder
    | none => .error .missing

/-- The path at which a text finds something. -/
def find? (d : Disk) (folder : Path) (text : String) : Option Path :=
  if text.isEmpty then none
  else match d.walk (folder.start text) (namesOf text) with
    | .ok p => if (d.node? p).isSome then some p else none
    | .error _ => none

end Disk

/-! ### Actions -/

/-- What is done to a disk and may be refused. -/
abbrev Action := ExceptT Refusal (StateM Disk)

namespace Action

/-- The refusal to use a path. -/
def refuse {α : Type} (cause : SystemCause) (p : Path) : Action α :=
  throw (.system cause p.shown)

/-- Makes a folder where nothing stands. -/
def makeFolder (p : Path) : Action Unit := do
  let d ← get
  match d.node? p, d.hindrance? p with
  | some _, _ => refuse .present p
  | none, some cause => refuse cause p
  | none, none => set (d.put p .folder)

/-- Makes a folder and the folders above it, unless they stand. A refusal names the folder. -/
def ensureFolder (p : Path) : Action Unit := do
  let d ← get
  match d.node? p with
  | some .folder => return
  | some (.file _) => refuse .present p
  | none =>
    if d.hindrance? p == some .notAFolder then refuse .notAFolder p
    else set (d.putFolders p)

/-- Makes a folder and the folders above it, unless they stand. A refusal names the first folder
that cannot be made. -/
def ensureEachFolder (p : Path) : Action Unit := do
  let d ← get
  match d.node? p with
  | some .folder => return
  | some (.file _) => refuse .present p
  | none =>
    if d.hindrance? p == some .notAFolder then
      refuse .notAFolder (((p.above ++ [p]).find? fun q => (d.node? q).isNone).getD p)
    else set (d.putFolders p)

/-- Writes a file, whose folder must stand. -/
def writeFile (p : Path) (c : Content) : Action Unit := do
  let d ← get
  match d.node? p, d.hindrance? p with
  | some .folder, _ => refuse .isAFolder p
  | some (.file _), _ => set (d.put p (.file c))
  | none, some cause => refuse cause p
  | none, none => set (d.put p (.file c))

/-- Writes a file at the place to which a text leads from a folder. A refusal names the text. -/
def writeFileIn (folder : Path) (text : String) (c : Content) : Action Unit := do
  let place := if isAbsolute text then text else folder.shown ++ "/" ++ text
  match (← get).walk (folder.start text) (namesOf text) with
  | .error cause => throw (.system cause place)
  | .ok p =>
    tryCatch (writeFile p c) fun
      | .system cause _ => throw (.system cause place)
      | e => throw e

/-- The content of a file. -/
def readFile (p : Path) : Action Content := do
  match (← get).node? p with
  | some (.file c) => return c
  | some .folder => refuse .isAFolder p
  | none => refuse .missing p

end Action

end Bindery.Storage
