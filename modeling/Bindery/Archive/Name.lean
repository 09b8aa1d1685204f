import Bindery.Storage.Content

/-!
# Names of members

How the two kinds of archives spell the names of their members.
-/

namespace Bindery.Archive

open Bindery.Storage

/-- The characters without slashes at the end. -/
def dropSlashEnd (cs : List Char) : List Char :=
  (cs.reverse.dropWhile (· == '/')).reverse

/-- The member with the name that a tape gives it: that of a folder ends with no slash. -/
def onTape (m : Member) : Member :=
  match m.kind with
  | .folder => { m with name := String.ofList (dropSlashEnd m.name.toList) }
  | _ => m

/-- The member with the name that an archive of packed files gives it: it ends at the first null
character, and it ends with a slash if and only if the member is a folder. -/
def inZip (m : Member) : Member :=
  let cs := m.name.toList.takeWhile (· != '\x00')
  let endsWithSlash := cs.getLast? == some '/'
  match m.kind with
  | .folder => { m with name := String.ofList (if endsWithSlash then cs else cs ++ ['/']) }
  | .file _ =>
    if endsWithSlash then ⟨String.ofList cs, .folder⟩ else { m with name := String.ofList cs }
  | .other => { m with name := String.ofList cs }

end Bindery.Archive
