import Bindery.Client.Basic

/-!
# Classes of directives

The class of a directive takes the arguments of the directive when an object is made.
-/

namespace Bindery.Client

open Bindery.Schema

/-- The class of a directive. -/
structure DirectiveClass where
  /-- The name of the class. -/
  className : String
  /-- The name of the directive. -/
  directiveName : String
  /-- What the directive is for. -/
  description : String
  /-- The parameters for its arguments. -/
  parameters : List Parameter
  /-- The classes that the arguments lead to. -/
  typeImports : List String
  deriving DecidableEq, Repr

/-- The name by which a method refers to its object, which is its first parameter. -/
def selfName : String := "self"

/-- The names of the parameters from which a directive is made, with that of the object. -/
def DirectiveClass.parameterNames (d : DirectiveClass) : List String :=
  selfName :: d.parameters.map Parameter.parameter

/-- The class name of a directive, which can stand in a client. -/
def directiveClassName (c : Catalog) (d : DirectiveDefinition) : Except Refusal String :=
  usableClassName (c.directiveClassName d)

/-- The class of a directive. -/
def directiveClass (c : Catalog) (d : DirectiveDefinition) : Except Refusal DirectiveClass := do
  let name ← directiveClassName c d
  let (ps, _) ← parameters c d.name d.arguments []
  return ⟨name, d.name, documentation c.configuration d.description, ps,
    argumentClasses c d.arguments⟩

/-- The classes of the directives that can be applied to fields. -/
def directiveClasses (c : Catalog) : Except Refusal (List DirectiveClass) := do
  let ds ← ordered c.configuration (directiveClassName c) c.fieldDirectives
  ds.mapM (directiveClass c)

/-- The line that passes an argument on. -/
def Parameter.addLine (p : Parameter) : String :=
  "        self._add_argument(" ++ Text.quoted p.name ++ ", " ++ p.parameter ++ maskText p.mask ++ ")"

/-- The text of the class. -/
def DirectiveClass.text (d : DirectiveClass) : String :=
  linesText (["class " ++ d.className ++ "(GraphQlDirective):"] ++ descriptionLines d.description ++
    ["    def __init__(self" ++ String.join (d.parameters.map Parameter.text) ++ "):",
      "        super().__init__(" ++ Text.quoted d.directiveName ++ ")"] ++
    d.parameters.map Parameter.addLine)

/-- The member of the client. -/
def DirectiveClass.member (d : DirectiveClass) : Member :=
  ⟨d.className, d.text, [], d.typeImports⟩

end Bindery.Client
