import Bindery.CommandLine.Run

/-!
# The program on a real disk

What stands at the paths of the arguments is read into a disk of the library, the program runs on
it, and what it has changed is written back.
-/

namespace Bindery.Program

open Bindery.CommandLine Bindery.Storage

/-- The name of the program. -/
def name : String := "bindery"

/-- How deep folders are read. -/
def deepest : Nat := 64

/-- The names in a folder, if there is one. -/
def namesIn? (p : Path) : IO (Option (List String)) := do
  try
    let entries ← (← IO.FS.realPath p.shown).readDir
    return some (entries.toList.map fun e => e.fileName)
  catch _ => return none

/-- The content of a file, if there is one. -/
def contentAt? (p : Path) : IO (Option Content) := do
  try
    let bytes ← IO.FS.readBinFile p.shown
    return some (.plain (.ofBytes bytes))
  catch _ => return none

/-- Reads what stands at a path and, down to a depth, below it. -/
def readTree : Nat → Disk → Path → IO Disk
  | 0, d, _ => return d
  | depth + 1, d, p => do
    match ← namesIn? p with
    | some names => names.foldlM (fun d n => readTree depth d (p ++ [n])) (d.put p .folder)
    | none =>
      match ← contentAt? p with
      | some c => return d.put p (.file c)
      | none => return d

/-- Reads what stands at a path and above it. -/
def readAlong (d : Disk) (p : Path) : IO Disk :=
  (p.above ++ [p]).foldlM (fun d q => do
    if q.isEmpty || (d.node? q).isSome then return d
    else if (← namesIn? q).isSome then return d.put q .folder
    else match ← contentAt? q with
      | some c => return d.put q (.file c)
      | none => return d) d

/-- Reads what stands at the path of an option; below a folder it is read if the folder must
stand. -/
def readOption (folder : Path) (d : Disk) (o : GivenOption) : IO Disk := do
  let p := folder.resolve o.value
  let d ← readAlong d p
  match o.option.kind with
  | .path true _ _ => readTree deepest d p
  | _ => return d

/-- Writes what stands at a path, unless it stood there before. -/
def writeNode (before : Disk) (e : Path × Node) : IO Unit := do
  if before.node? e.1 != some e.2 then
    match e.2 with
    | .folder => IO.FS.createDirAll e.1.shown
    | .file (.plain data) =>
      IO.FS.createDirAll e.1.parent.shown
      IO.FS.writeBinFile e.1.shown data.toBytes
    | .file _ => return

/-- Runs the program on arguments. -/
def run (arguments : List String) : IO UInt32 := do
  let folder := Path.resolve [] (← IO.currentDir).toString
  let d ← readAlong .empty folder
  let d ← (pathOptions name arguments).foldlM (readOption folder) d
  let surroundings : Surroundings :=
    ⟨folder, ["tmp", "extracted"], .none "the program has no connection to a network"⟩
  let o := CommandLine.run name surroundings d arguments
  o.disk.nodes.reverse.forM (writeNode d)
  IO.print o.output
  o.crash.forM fun e => IO.eprintln ("Refused: " ++ e.message)
  return UInt32.ofNat o.exitCode

end Bindery.Program

/-- Runs the program on its arguments. -/
def main (arguments : List String) : IO UInt32 :=
  Bindery.Program.run arguments
