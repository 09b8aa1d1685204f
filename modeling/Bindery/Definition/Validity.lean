import Bindery.Definition.Rules
import Bindery.Number.Decimal

/-!
# Valid schemas

What holds of a schema whose definitions follow the rules: there is a root type of queries, types
have parts, values that come in have types that can come in, and values that go out have types that
can go out; a type has what its interfaces demand; default values have the types of their arguments.
-/

namespace Bindery.Definition

open Bindery.Schema (Kind)

/-- The types of a schema with their extensions merged into them, and the root types. -/
structure Model where
  /-- The types of the document in order. -/
  own : List TypePart
  /-- The directives of the document. -/
  directives : List DirectivePart
  /-- The root types by the keywords of their operations. -/
  roots : List (String × String)
  deriving Repr

/-- A definition together with its extensions. -/
def mergeParts (d : TypePart) (parts : List TypePart) : TypePart :=
  { d with
    interfaces := parts.flatMap TypePart.interfaces
    directives := parts.flatMap TypePart.directives
    fields := parts.flatMap TypePart.fields
    members := parts.flatMap TypePart.members
    values := parts.flatMap TypePart.values
    inputFields := parts.flatMap TypePart.inputFields }

/-- The root types: those of the definition of the schema, or else those of the usual names. -/
def rootsOf (d : Document) : List (String × String) :=
  let stated := d.schemas.flatMap SchemaPart.roots
  if d.schemas.any fun s => !s.isExtension then stated
  else
    let usual := [("query", "Query"), ("mutation", "Mutation"), ("subscription", "Subscription")]
    let named := usual.filter fun r => d.types.any fun t => !t.isExtension && t.name == r.2
    named ++ stated.filter fun r => !(named.map Prod.fst).contains r.1

/-- The model of a document. A standard type that is defined anew stays as it is. -/
def Document.model (d : Document) : Model where
  own := (d.types.filter fun t => !t.isExtension).map fun t =>
    match standardTypes.find? fun s => s.name == t.name with
    | some s => s
    | none =>
      mergeParts t (t :: d.types.filter fun p => p.isExtension && p.name == t.name)
  directives := d.directives
  roots := rootsOf d

namespace Model

/-- The type of a name. -/
def type? (m : Model) (name : String) : Option TypePart :=
  (m.own ++ standardTypes).find? fun t => t.name == name

/-- The kind of the type of a name. -/
def kindOf (m : Model) (name : String) : Kind :=
  ((m.type? name).map TypePart.kind).getD .scalar

/-- Can values of the type come in? -/
def isInput (m : Model) (t : TypeExpr) : Bool :=
  match m.kindOf t.name with
  | .scalar | .enumeration | .inputObject => true
  | _ => false

/-- Can values of the type go out? -/
def isOutput (m : Model) (t : TypeExpr) : Bool :=
  m.kindOf t.name != .inputObject

/-- Is the name not kept for the description of schemas? -/
def isFreeName (name : String) : Bool :=
  !name.startsWith "__"

/-- Is a directive of the name applied? -/
def isApplied (name : String) (as : List Applied) : Bool :=
  as.any fun a => a.name == name

/-! ### Default values -/

/-- The integer of a literal without a fraction. -/
def integerOf (lexeme : String) : Int :=
  match lexeme.toList with
  | '-' :: r => -(Number.readDigits 0 r : Int)
  | cs => (Number.readDigits 0 cs : Int)

/-- Does a literal denote a value of a scalar? -/
def scalarAccepts (name : String) (v : Literal) : Bool :=
  match name, v with
  | "Int", .number lexeme false =>
    decide (-2147483648 ≤ integerOf lexeme ∧ integerOf lexeme ≤ 2147483647)
  | "Int", _ => false
  | "Float", .number _ _ => true
  | "Float", _ => false
  | "String", .string _ _ => true
  | "String", _ => false
  | "Boolean", .bool _ => true
  | "Boolean", _ => false
  | "ID", .string _ _ => true
  | "ID", .number _ false => true
  | "ID", _ => false
  | _, _ => true

/-- Is the literal other than null? -/
def isValue : Literal → Bool
  | .null => false
  | _ => true

/-- Does the literal denote a value of the type? Each step goes into the type or into the
literal. -/
def accepts (m : Model) : Nat → TypeExpr → Literal → Bool
  | 0, _, _ => true
  | _ + 1, .nonNull _, .null => false
  | fuel + 1, .nonNull t, v => m.accepts fuel t v
  | _ + 1, _, .null => true
  | fuel + 1, .list t, .list items => items.all (m.accepts fuel t)
  | fuel + 1, .list t, v => m.accepts fuel t v
  | fuel + 1, .named n, v =>
    match m.type? n with
    | none => true
    | some t =>
      match t.kind, v with
      | .enumeration, .member x => (t.values.map MemberPart.name).contains x
      | .enumeration, _ => false
      | .inputObject, .object fields =>
        (fields.all fun f =>
          match t.inputFields.find? fun p => p.name == f.1 with
          | some p => m.accepts fuel p.type f.2
          | none => false) &&
        (t.inputFields.all fun p => !p.isRequired || (fields.map Prod.fst).contains p.name) &&
        (!isApplied "oneOf" t.directives || (fields.length == 1 && fields.all fun f => isValue f.2))
      | .inputObject, _ => false
      | _, v => scalarAccepts n v

/-- The greatest number of steps into a default value that are looked at. -/
def stepLimit : Nat := 1000

/-- Does the default value, if there is one, have the type of its argument? -/
def fallbackAllowed (m : Model) (p : InputPart) : Bool :=
  (p.fallback.map (m.accepts stepLimit p.type)).getD true

/-! ### Arguments and fields -/

/-- Is the argument valid? -/
def inputAllowed (m : Model) (p : InputPart) : Bool :=
  isFreeName p.name && m.isInput p.type && !(p.isRequired && isApplied "deprecated" p.directives) &&
    m.fallbackAllowed p

/-- Is the field valid? -/
def fieldAllowed (m : Model) (f : FieldPart) : Bool :=
  isFreeName f.name && m.isOutput f.type && f.arguments.all m.inputAllowed

/-! ### Interfaces -/

/-- Is the type, by its name, one that values of an interface or a union can have? -/
def isPossible (m : Model) (abstract concrete : String) : Bool :=
  match m.type? abstract, m.type? concrete with
  | some a, some c =>
    match a.kind with
    | .union => a.members.contains concrete
    | .interface => c.interfaces.contains abstract
    | _ => false
  | _, _ => false

/-- Is a value of the first type always one of the second? -/
def isSubtype (m : Model) : TypeExpr → TypeExpr → Bool
  | .nonNull a, .nonNull b => m.isSubtype a b
  | .nonNull a, b => m.isSubtype a b
  | .list a, .list b => m.isSubtype a b
  | .named a, .named b => a == b || m.isPossible b a
  | _, _ => false

/-- Does the field have what a field of an interface demands? -/
def fieldImplements (m : Model) (f demanded : FieldPart) : Bool :=
  m.isSubtype f.type demanded.type &&
    (demanded.arguments.all fun d =>
      match f.arguments.find? fun a => a.name == d.name with
      | some a => a.type == d.type
      | none => false) &&
    (f.arguments.all fun a =>
      !a.isRequired || (demanded.arguments.map InputPart.name).contains a.name) &&
    !(isApplied "deprecated" f.directives && !isApplied "deprecated" demanded.directives)

/-- Does the type implement an interface that it names? -/
def implementsInterface (m : Model) (t : TypePart) (name : String) : Bool :=
  match m.type? name with
  | none => false
  | some i =>
    i.kind == .interface && i.name != t.name && (i.interfaces.all fun x => t.interfaces.contains x) &&
      i.fields.all fun demanded =>
        match t.fields.find? fun f => f.name == demanded.name with
        | some f => m.fieldImplements f demanded
        | none => false

/-! ### Input objects that need themselves -/

/-- The input object types of which a value of the type needs a value. -/
def needs (m : Model) (t : TypePart) : List String :=
  t.inputFields.filterMap fun p =>
    match p.type with
    | .nonNull (.named n) => if m.kindOf n == .inputObject then some n else none
    | _ => none

/-- The names together with all that they need, after some steps. -/
def needed (m : Model) : Nat → List String → List String
  | 0, names => names
  | fuel + 1, names =>
    m.needed fuel (names ++ (names.flatMap fun n =>
      ((m.type? n).map m.needs).getD [])).eraseDups

/-- Can a value of the input object type be made without one of itself? -/
def isFounded (m : Model) (t : TypePart) : Bool :=
  !(m.needed m.own.length (m.needs t)).contains t.name

/-! ### Types -/

/-- Is the type with fields valid? -/
def fieldsAllowed (m : Model) (t : TypePart) : Bool :=
  !t.fields.isEmpty && t.fields.all m.fieldAllowed && allDistinct t.interfaces &&
    t.interfaces.all (m.implementsInterface t)

/-- Is the field of an input object valid? Of several, exactly one may have to be given. -/
def oneOfAllowed (t : TypePart) (p : InputPart) : Bool :=
  !isApplied "oneOf" t.directives || (!p.type.isNonNull && p.fallback.isNone)

/-- Is the type valid? -/
def typeAllowed (m : Model) (t : TypePart) : Bool :=
  (standardTypes.any fun s => s.name == t.name) ||
    (isFreeName t.name &&
      match t.kind with
      | .object | .interface => m.fieldsAllowed t
      | .union =>
        !t.members.isEmpty && allDistinct t.members &&
          t.members.all fun n => m.kindOf n == .object
      | .enumeration => !t.values.isEmpty && t.values.all fun v => isFreeName v.name
      | .inputObject =>
        !t.inputFields.isEmpty && t.inputFields.all m.inputAllowed &&
          t.inputFields.all (oneOfAllowed t) && m.isFounded t
      | _ => true)

/-- Are the root types valid? -/
def rootsAllowed (m : Model) : Bool :=
  (m.roots.any fun r => r.1 == "query") && (m.roots.all fun r => m.kindOf r.2 == .object) &&
    allDistinct (m.roots.map Prod.snd)

/-- Is the schema valid? -/
def isValid (m : Model) : Bool :=
  m.rootsAllowed &&
    (m.directives.all fun d => isFreeName d.name && d.arguments.all m.inputAllowed) &&
    m.own.all m.typeAllowed

end Model

end Bindery.Definition
