import Bindery.CommandLine.Check
import Bindery.Retrieval.Service

/-!
# Sessions

A session is a run of a command. It works on a disk, writes lines and sends requests, and it can be
halted; what it has done by then stays done.
-/

namespace Bindery.CommandLine

open Bindery.Storage Bindery.Retrieval

/-- What surrounds a command. -/
structure Surroundings where
  /-- The folder in which the command is called. -/
  folder : Path
  /-- A folder for archives, which does not stand yet. -/
  scratch : Path
  /-- What answers requests. -/
  service : Service

/-- What a session changes. -/
structure World where
  /-- The disk. -/
  disk : Disk
  /-- The text written so far. -/
  output : String := ""
  /-- The requests sent so far. -/
  requests : List Request := []

/-- Why a session is halted. -/
inductive Halt where
  /-- The arguments are at fault. -/
  | fault (command : CommandForm) (fault : Fault)
  /-- Something is refused. -/
  | refused (refusal : Refusal)
  /-- Only a text was asked for. -/
  | answered (text : String)
  deriving Repr

/-- What changes the world and can be halted. -/
abbrev Session := ExceptT Halt (StateM World)

namespace Session

/-- Halts for a refusal. -/
def ofResult {α : Type} (x : Except Refusal α) : Session α :=
  match x with
  | .ok a => return a
  | .error e => throw (.refused e)

/-- Writes a line. -/
def say (line : String) : Session Unit :=
  modify fun w => { w with output := w.output ++ line ++ "\n" }

/-- Does something to the disk. -/
def onDisk {α : Type} (a : Storage.Action α) : Session α := do
  let w ← get
  let (x, disk) := a.run.run w.disk
  set { w with disk }
  ofResult x

/-- Retrieves something. -/
def retrieve {α : Type} (r : Retrieved α) : Session α := do
  modify fun w => { w with requests := w.requests ++ r.requests }
  ofResult r.outcome

/-- Does something, after which a folder is gone. -/
def thenRemove {α : Type} (folder : Path) (a : Session α) : Session α := do
  let clear : Session Unit := modify fun w => { w with disk := w.disk.removeTree folder }
  let x ← tryCatch a fun e => do
    clear
    throw e
  clear
  return x

end Session

end Bindery.CommandLine
