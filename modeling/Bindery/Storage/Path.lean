/-!
# Paths

A path is the list of the names from the root down. A text is resolved against a folder by its names
alone: an empty name and a dot stay, two dots go up, and a leading slash goes to the root.
-/

namespace Bindery.Storage

/-- The names from the root down. -/
abbrev Path := List String

/-- The names of a text, which slashes divide. -/
def namesOf (text : String) : List String :=
  (text.split (· == '/')).toList.map fun s => s.toString

/-- Does the text begin at the root? -/
def isAbsolute (text : String) : Bool :=
  text.startsWith "/"

namespace Path

/-- The path with one more name. -/
def step (p : Path) (name : String) : Path :=
  if name == "" || name == "." then p
  else if name == ".." then p.dropLast
  else p ++ [name]

/-- The folder at which a text begins. -/
def start (folder : Path) (text : String) : Path :=
  if isAbsolute text then [] else folder

/-- The path of a text. -/
def resolve (folder : Path) (text : String) : Path :=
  (namesOf text).foldl step (folder.start text)

/-- The text of a path. -/
def shown (p : Path) : String :=
  "/" ++ "/".intercalate p

/-- The last name. -/
def name (p : Path) : String :=
  p.getLast?.getD ""

/-- The folder in which the path is. -/
def parent (p : Path) : Path :=
  p.dropLast

/-- The folders above a path, from the root down. -/
def above (p : Path) : List Path :=
  (List.range p.length).map p.take

/-- Is the path at the other one or below it? -/
def isWithin (p root : Path) : Bool :=
  root.isPrefixOf p

end Path

end Bindery.Storage
