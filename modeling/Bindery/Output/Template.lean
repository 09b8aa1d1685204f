import Bindery.Keyed

/-!
# Templates

The text of every kind of class and file has a built-in form. A template replaces it by a text in
which the name of the class can be inserted.
-/

namespace Bindery.Output

/-- What a template is for. -/
inductive TemplateKind where
  /-- The header of a file. -/
  | header
  /-- The names of the types. -/
  | typeNames
  /-- The class of an enumeration. -/
  | enumeration
  /-- The class of a directive. -/
  | directive
  /-- The class of a builder. -/
  | builder
  /-- The class of an input object. -/
  | input
  /-- A data class. -/
  | dataClass
  /-- The file that stands for a package. -/
  | packageInit
  /-- The project file. -/
  | project
  deriving DecidableEq, Repr

/-- The file names of templates. -/
def TemplateKind.fileName : TemplateKind → String
  | .header => "file_header.py.j2"
  | .typeNames => "type_names.py.j2"
  | .enumeration => "enum.py.j2"
  | .directive => "directive.py.j2"
  | .builder => "query_builder.py.j2"
  | .input => "input_class.py.j2"
  | .dataClass => "data_class.py.j2"
  | .packageInit => "package_init.py.j2"
  | .project => "project.toml.j2"

/-- Templates by their file names. -/
abbrev Templates := Keyed String

/-- The characters behind the end of an insertion of the class name, which may stand between
spaces. -/
def afterInsertion? (cs : List Char) : Option (List Char) := do
  let rest ← dropWord? "class_name".toList (skipSpaces cs)
  dropWord? ['\x7d', '\x7d'] (skipSpaces rest)
where
  skipSpaces (cs : List Char) : List Char := cs.dropWhile (· == ' ')
  dropWord? (word cs : List Char) : Option (List Char) :=
    if word.isPrefixOf cs then some (cs.drop word.length) else none

/-- The characters of a template with the class name inserted; every step takes a character away. -/
def insertName (className : List Char) : Nat → List Char → List Char
  | 0, cs => cs
  | _, [] => []
  | fuel + 1, c :: r =>
    match c, r with
    | '\x7b', '\x7b' :: r' =>
      match afterInsertion? r' with
      | some rest => className ++ insertName className fuel rest
      | none => c :: insertName className fuel r
    | '\r', '\n' :: r' => '\n' :: insertName className fuel r'
    | '\r', _ => '\n' :: insertName className fuel r
    | _, _ => c :: insertName className fuel r

/-- The text of a class: that of the template, if there is one, or the built-in one. -/
def Templates.text (t : Templates) (kind : TemplateKind) (className builtIn : String) : String :=
  match t.get? kind.fileName with
  | none => builtIn
  | some template =>
    let cs := template.toList
    String.ofList (insertName className.toList cs.length cs)

end Bindery.Output
