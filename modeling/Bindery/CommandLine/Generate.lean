import Bindery.Archive.Extract
import Bindery.CommandLine.Session
import Bindery.Definition.Load
import Bindery.Output.Generate

/-!
# The command that generates a client

The schema comes from a path or from a service. The client in one file is written when it is
complete; a package is written file by file.
-/

namespace Bindery.CommandLine

open Bindery.Output Bindery.Storage

/-- The names of choices. -/
def namesOfChoices {α : Type} (names : List (String × α)) : List String :=
  names.map Prod.fst

/-- The option that asks for an explanation. -/
def helpOption : OptionForm := { name := "--help", kind := .flag }

/-- The option of the method of a request. -/
def methodOption : OptionForm :=
  { name := "--http-method", kind := .anyCase (namesOfChoices Retrieval.Method.names) }

/-- The command that generates a client. -/
def generateForm (program : String) : CommandForm where
  name := program ++ " generate"
  options :=
    [{ name := "--schema", short := some 's', kind := .path true true true },
      { name := "--service-url", short := some 'u' },
      { name := "--output", short := some 'o', kind := .path false true true, isRequired := true },
      methodOption,
      { name := "--header", short := some 'H' },
      { name := "--class-prefix" },
      { name := "--class-suffix" },
      { name := "--class-mapping", short := some 'm' },
      { name := "--output-type", kind := .choice (namesOfChoices OutputKind.names) },
      { name := "--package-name" },
      { name := "--project-file" },
      { name := "--integer-mapping", kind := .choice (namesOfChoices IntegerMapping.names) },
      { name := "--float-mapping", kind := .choice (namesOfChoices FloatMapping.names) },
      { name := "--id-mapping", kind := .choice (namesOfChoices IdMapping.names) },
      { name := "--boolean-mapping", kind := .choice (namesOfChoices BooleanMapping.names) },
      { name := "--data-class-member-nullability",
        kind := .choice (namesOfChoices MemberNullability.names) },
      { name := "--generation-order", kind := .choice (namesOfChoices GenerationOrder.names) },
      { name := "--enum-value-naming", kind := .choice (namesOfChoices EnumNaming.names) },
      { name := "--include-deprecated-fields", kind := .flag },
      { name := "--nullable-references", kind := .flag },
      { name := "--regex-scalar-mapping", kind := .path true true false },
      { name := "--indentation-size", kind := .size },
      { name := "--template-dir", kind := .path true false true },
      { name := "--verbose", short := some 'v', kind := .flag },
      helpOption]

namespace Given

/-- The choice that an option names. -/
def choice {α : Type} (g : Given) (option : String) (names : List (String × α)) (otherwise : α) : α :=
  ((g.value? option).bind fun v => names.lookup v).getD otherwise

/-- Is the type of some scalar left to rules? -/
def mapsByRules (g : Given) : Bool :=
  ["--integer-mapping", "--float-mapping", "--id-mapping", "--boolean-mapping"].any fun o =>
    g.value? o == some "custom"

/-- The name of the method of a request. -/
def methodName (g : Given) : String :=
  (g.value? "--http-method").getD Retrieval.Method.post.name

/-- The headers of a request. -/
def headers (g : Given) : Except Refusal (Keyed String) :=
  readHeaders (g.values "--header")

/-- The configuration that the options make up, with types that rules give to members. -/
def configuration (g : Given) (mapping : Option TypeMapping) : Except Refusal Configuration := do
  let classNames ← readClassNames (g.values "--class-mapping")
  Configuration.check
    { classPrefix := (g.value? "--class-prefix").getD ""
      classSuffix := (g.value? "--class-suffix").getD ""
      classNames
      nullableReferences := g.has "--nullable-references"
      integers := g.choice "--integer-mapping" IntegerMapping.names .int
      floats := g.choice "--float-mapping" FloatMapping.names .float
      ids := g.choice "--id-mapping" IdMapping.names .string
      booleans := g.choice "--boolean-mapping" BooleanMapping.names .boolean
      includesDeprecated := g.has "--include-deprecated-fields"
      order := g.choice "--generation-order" GenerationOrder.names .bySchema
      nullability := g.choice "--data-class-member-nullability" MemberNullability.names .always
      enumNaming := g.choice "--enum-value-naming" EnumNaming.names .upperCase
      indentation := ((g.value? "--indentation-size").bind integerOf?).getD 2
      mapping }

end Given

/-- The path to which a text leads, if there is something. -/
def findPath (s : Surroundings) (text : String) : Session Path := do
  return ((← get).disk.find? s.folder text).getD (s.folder.resolve text)

/-- The rules that the options name. -/
def readRules (s : Surroundings) (g : Given) : Session (Option TypeMapping) :=
  match g.value? "--regex-scalar-mapping" with
  | none => return none
  | some file => do
    let content ← Session.onDisk (Action.readFile (← findPath s file))
    let rules ← Session.ofResult (content.text.bind Scalar.rulesOfText)
    return some (.rules rules)

/-- The templates in the folder that the options name. -/
def readTemplates (s : Surroundings) (g : Given) : Session Templates :=
  match g.value? "--template-dir" with
  | none => return .empty
  | some folder => do
    let p ← findPath s folder
    let files := ((← get).disk.filesWithin p).filter fun f => f.1.parent == p
    return .ofList (files.filterMap fun f => f.2.text.toOption.map fun text => (f.1.name, text))

/-- Extracts an archive. -/
def extractSchema (s : Surroundings) (g : Given) (p : Path) : Session Unit := do
  Session.say ("Extracting archive " ++ p.name ++ "...")
  Session.onDisk (Archive.extract p s.scratch)
  if g.has "--verbose" then Session.say ("  Extracted to: " ++ s.scratch.shown)

/-- Loads the schema at a path. -/
def loadSchema (s : Surroundings) (g : Given) (text : String) : Session Schema := do
  let p ← findPath s text
  let isArchive := !(← get).disk.isFolder p && Archive.namesArchive p.name
  Session.thenRemove s.scratch do
    if isArchive then extractSchema s g p
    Session.say "Loading schema..."
    Session.ofResult (Definition.load (← get).disk (if isArchive then s.scratch else p))

/-- Retrieves the schema of a service. -/
def retrieveSchema (s : Surroundings) (g : Given) (url : String) : Session Schema := do
  Session.say ("Retrieving schema from " ++ url ++ "...")
  let headers ← Session.ofResult g.headers
  Session.retrieve (s.service.retrieveSchema url g.methodName headers)

/-- Writes a report, if all reports are to be written or it is a warning. -/
def report (isVerbose : Bool) (line : String) : Session Unit :=
  if isVerbose || line.startsWith "WARNING: " then Session.say line else return

/-- Writes the client in one file. -/
def writeSingleFile (g : Given) (generator : Generator) (schema : Schema) (output : Path) :
    Session Unit := do
  let (file, refusal) := generator.singleFile schema
  file.log.forM (report (g.has "--verbose"))
  refusal.forM fun e => throw (.refused e)
  Session.onDisk do
    Action.ensureFolder output.parent
    Action.writeFile output (.plain (.text file.text))
  Session.say ("Done! Generated client in " ++ output.shown)

/-- Writes the files that an event adds to a package. -/
def writeAdded (g : Given) (output : Path) (before after : Package) : Session Unit := do
  let files := after.files.drop before.files.length
  let lines := after.log.drop before.log.length
  let tell := report (g.has "--verbose")
  if files.isEmpty then lines.forM tell
  else (files.zip lines).forM fun (file, line) => do
    Session.onDisk do
      Action.ensureEachFolder output
      Action.writeFileIn output file.name (.plain (.text ((after.emitted.get? file.name).getD "")))
    tell line

/-- Writes what events add to a package. -/
def writeEvents (g : Given) (output : Path) : Package → List Event → Session Package
  | p, [] => return p
  | p, e :: r => do
    let after := (p.on e).toOption.getD p
    writeAdded g output p after
    writeEvents g output after r

/-- Writes the client as a package. -/
def writePackage (program : String) (g : Given) (generator : Generator) (schema : Schema)
    (output : Path) : Session Unit := do
  let name := ((g.value? "--package-name").filter fun n => !n.isEmpty).getD output.name
  if !Text.isUsableName name then throw (.fault (generateForm program) (.badPackage name))
  let package ← Session.ofResult (Package.ofName name (g.value? "--project-file"))
  let generator := { generator with isPackage := true, packageName := name }
  let course := generator.course schema
  let package ← writeEvents g output package course.events
  course.refusal.forM fun e => throw (.refused e)
  Session.say
    ("Done! Generated " ++ toString package.files.length ++ " files in " ++ output.shown)

/-- Generates a client. -/
def generate (program : String) (s : Surroundings) (g : Given) : Session Unit := do
  let form := generateForm program
  if (g.value? "--schema").isSome == (g.value? "--service-url").isSome then
    throw (.fault form .schemaSource)
  if g.mapsByRules && !g.has "--regex-scalar-mapping" then throw (.fault form .rulesMissing)
  let mapping ← readRules s g
  let configuration ← Session.ofResult (g.configuration mapping)
  let schema ← match g.value? "--service-url" with
    | some url => retrieveSchema s g url
    | none => loadSchema s g ((g.value? "--schema").getD "")
  if g.has "--verbose" then
    Session.say
      ("  Types: " ++ toString (schema.types.filter fun t => !t.isBuiltIn).length)
    Session.say ("  Directives: " ++ toString schema.directives.length)
  let generator : Generator := { configuration, templates := ← readTemplates s g }
  Session.say "Generating code..."
  let output := s.folder.resolve ((g.value? "--output").getD "")
  match g.choice "--output-type" OutputKind.names .singleFile with
  | .singleFile => writeSingleFile g generator schema output
  | .filePerClass => writePackage program g generator schema output

end Bindery.CommandLine
