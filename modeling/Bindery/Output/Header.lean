import Bindery.Client.TypeNames
import Bindery.Output.Phase
import Bindery.Output.Template

/-!
# Headers of files

What stands at the start of the files of a client, and the files of a package that hold no class.
-/

namespace Bindery.Output

open Bindery.Client Bindery.Label

/-- The first line of every file. -/
def label : String :=
  "# This file has been generated by gql-clientgen. Do not edit."

/-- The lines of every header. -/
def headerLines : List String :=
  [label, "\"\"\"GraphQL client generated from a schema introspection result.\"\"\"", "",
    "from __future__ import annotations", "", "import datetime", "import decimal", "import enum",
    "import uuid", "from typing import TYPE_CHECKING, Any, List, Optional", "",
    "from pydantic import BaseModel, ConfigDict, Field"]

/-- The lines of imports. -/
def importBlock (imports : List String) : List String :=
  if imports.isEmpty then [] else "" :: imports

/-- The lines of imports that only a checker of types follows. -/
def checkingBlock (imports : List String) : List String :=
  if imports.isEmpty then [] else ["", "if TYPE_CHECKING:"] ++ imports.map ("    " ++ ·)

/-- The header with the given imports. -/
def headerText (templates : Templates) (imports typeImports : List String) : String :=
  let lines := headerLines ++ importBlock imports ++ checkingBlock typeImports
  templates.text .header "" (linesText lines)

/-- The module of a class. -/
def moduleName (className : String) : String :=
  snakeCase className

/-- The module of the support text. -/
def supportModule : String := "base_classes"

/-- The module of the type names. -/
def typeNamesModule : String := "graph_ql_types"

/-- The module of a class that is written in a phase. -/
def unitModule (phase : Phase) (className : String) : String :=
  match phase with
  | .baseClasses => supportModule
  | .typeNames => typeNamesModule
  | _ => moduleName className

/-- The line that imports a class from its module. -/
def importLine (module className : String) : String :=
  "from ." ++ module ++ " import " ++ className

/-- The lines that import classes, by their names. -/
def importLines (classNames : List String) : List String :=
  (classNames.eraseDups.mergeSort fun a b => decide (a ≤ b)).map fun n => importLine (moduleName n) n

/-- The classes that a unit imports to be executed. -/
def executionImports (phase : Phase) (m : Member) : List String :=
  (match phase with
    | .typeNames | .enums => []
    | .builders => [importLine supportModule "*", importLine typeNamesModule typeNamesClass]
    | _ => [importLine supportModule "*"]) ++
  importLines (m.imports.filter (· != m.className))

/-- The classes that a unit imports to be checked. -/
def checkingImports (m : Member) : List String :=
  importLines (m.typeImports.filter fun n => n != m.className && !m.imports.contains n)

/-- The header of the file of a class. -/
def unitHeader (templates : Templates) (phase : Phase) (m : Member) : String :=
  match phase with
  | .baseClasses => label ++ "\n"
  | _ => headerText templates (executionImports phase m) (checkingImports m) ++ "\n"

/-! ### Files of a package -/

/-- A class in its module. -/
structure GeneratedUnit where
  /-- The module. -/
  module : String
  /-- The class. -/
  className : String
  /-- The phase that wrote it. -/
  phase : Phase
  deriving DecidableEq, Repr

/-- The lines that complete the data classes. -/
def rebuildLines (dataClasses : List String) : List String :=
  if dataClasses.isEmpty then []
  else ["", "_TYPES_NAMESPACE = dict(globals())", "", "for _model in ("] ++
    dataClasses.map (fun n => "    " ++ n ++ ",") ++
    ["):", "    _model.model_rebuild(_types_namespace=_TYPES_NAMESPACE)"]

/-- The text of the file that stands for a package. -/
def packageText (templates : Templates) (units : List GeneratedUnit) : String :=
  let classes := units.filter fun u => u.phase != .baseClasses
  templates.text .packageInit "" (linesText (
    [label, "\"\"\"GraphQL client package.\"\"\"", ""] ++
    (if units.any fun u => u.phase == .baseClasses then [importLine supportModule "*"] else []) ++
    classes.map (fun u => importLine u.module u.className) ++
    rebuildLines ((classes.filter fun u => u.phase == .dataClasses).map GeneratedUnit.className)))

/-- The name under which a package is distributed. -/
def distributionName (package : String) : String :=
  String.ofList (package.toList.map fun c => if c == '_' || c == '.' then '-' else c)

/-- The text of the project file of a package. -/
def projectText (templates : Templates) (package : String) : String :=
  templates.text .project "" (linesText (
    ["[build-system]", "requires = [\"setuptools>=64\"]", "build-backend = \"setuptools.build_meta\"",
      "", "[project]", "name = \"" ++ distributionName package ++ "\"", "version = \"0.1.0\"",
      "description = \"GraphQL client generated by gql-clientgen\"", "requires-python = \">=3.10\"",
      "dependencies = [", "    \"pydantic>=2.5\",", "]", "", "[tool.setuptools]",
      "packages = [\"" ++ package ++ "\"]",
      "package-dir = \x7b \"" ++ package ++ "\" = \".\" \x7d"]))

end Bindery.Output
