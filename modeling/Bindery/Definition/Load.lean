import Bindery.Definition.Build
import Bindery.Schema.Decode
import Bindery.Storage.Disk
import Bindery.Text.Order

/-!
# Schemas on a disk

A schema is loaded from an introspection result, from a file of definitions, or from all files of
definitions in a folder and the folders below it, in the order of their paths.
-/

namespace Bindery.Definition

open Bindery.Storage

/-- Does the name end like that of a file of definitions? -/
def namesDefinitions (name : String) : Bool :=
  name.endsWith ".graphql" || name.endsWith ".graphqls" || name.endsWith ".gql"

/-- The files of definitions in a folder. -/
def definitionFiles (d : Disk) (folder : Path) : List (Path × Content) :=
  let files := (d.filesWithin folder).filter fun f => namesDefinitions f.1.name
  Text.orderBy (fun f => f.1.shown) files

/-- The schema that the files of definitions in a folder make up. -/
def loadFolder (d : Disk) (folder : Path) : Except Refusal Schema :=
  match definitionFiles d folder with
  | [] => .error (.noDefinitions folder.shown)
  | files => do
    let texts ← files.mapM fun f => f.2.text
    schemaOfText ("\n".intercalate texts)

/-- The schema of a file of a name. -/
def loadFile (name : String) (c : Content) : Except Refusal Schema := do
  let text ← c.text
  if namesDefinitions name then schemaOfText text else Schema.ofText text

/-- The schema at a path. -/
def load (d : Disk) (p : Path) : Except Refusal Schema :=
  match d.node? p with
  | some .folder => loadFolder d p
  | some (.file c) => loadFile p.name c
  | none => .error (.system .missing p.shown)

end Bindery.Definition
