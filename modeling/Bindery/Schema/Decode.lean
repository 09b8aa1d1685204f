import Bindery.Json.Reader
import Bindery.Refusal
import Bindery.Schema.Basic
import Bindery.Text.Casing

/-!
# Reading introspection results

A schema from the JSON document in which a service describes itself. A key is taken in camel case or
in snake case, the former first; unknown keys are left aside; texts are not made of other values,
but truth values may be written in several ways.
-/

namespace Bindery.Schema.Decode

open Bindery Bindery.Schema

/-- The snake case form of a key in camel case. -/
def snakeKey (key : String) : String :=
  String.ofList (key.toList.flatMap fun c => if c.isUpper then ['_', c.toLower] else [c])

/-- The value under a key in one of its two forms. -/
def member? (key : String) (j : Json) : Option Json :=
  j.fieldOf? [key, snakeKey key]

/-- A text that must be there. -/
def text (key : String) (j : Json) : Option String :=
  (member? key j).bind Json.string?

/-- A text that may be missing or null. -/
def optionalText (key : String) (j : Json) : Option (Option String) :=
  match member? key j with
  | none | some .null => some none
  | some (.str s) => some (some s)
  | some _ => none

/-- The words for truth values. -/
def truthWords : List (String × Bool) :=
  [("true", true), ("t", true), ("yes", true), ("y", true), ("on", true), ("1", true),
    ("false", false), ("f", false), ("no", false), ("n", false), ("off", false), ("0", false)]

/-- The truth value that a JSON value stands for. -/
def truth? : Json → Option Bool
  | .bool b => some b
  | .int 0 => some false
  | .int 1 => some true
  | .real d =>
    match Number.Binary64.ofDecimal d with
    | .finite _ 0 _ => some false
    | x => if String.ofList x.chars == "1.0" then some true else none
  | .str s => truthWords.lookup (Text.lower s)
  | _ => none

/-- A truth value that may be missing. -/
def flag (key : String) (j : Json) : Option Bool :=
  match member? key j with
  | none => some false
  | some v => truth? v

/-- The items of a JSON value. -/
def items? : Json → Option (List Json)
  | .arr js => some js
  | _ => none

/-- A list that may be missing or null. -/
def listOf {α : Type} (key : String) (read : Json → Option α) (j : Json) : Option (List α) :=
  match member? key j with
  | none | some .null => some []
  | some v => (items? v).bind fun js => js.mapM read

/-- A list that may be missing but not null. -/
def properListOf {α : Type} (key : String) (read : Json → Option α) (j : Json) :
    Option (List α) :=
  match member? key j with
  | none => some []
  | some v => (items? v).bind fun js => js.mapM read

/-- The kind of a JSON object. -/
def kind (j : Json) : Option Kind :=
  (text "kind" j).bind Kind.ofName?

/-- The depth of the values inside a JSON value. -/
def depth : Json → Nat
  | .arr js => depths js + 1
  | .obj fs => fieldDepths fs + 1
  | _ => 0
where
  /-- The greatest depth of items. -/
  depths : List Json → Nat
    | [] => 0
    | j :: r => max (depth j) (depths r)
  /-- The greatest depth of fields. -/
  fieldDepths : List (String × Json) → Nat
    | [] => 0
    | (_, j) :: r => max (depth j) (fieldDepths r)

/-- A type reference that is nested no deeper than the fuel. -/
def typeRefWith : Nat → Json → Option TypeRef
  | 0, _ => none
  | fuel + 1, j => do
    let k ← kind j
    let n ← optionalText "name" j
    match member? "ofType" j with
    | none | some .null => some (.leaf k n)
    | some inner => (typeRefWith fuel inner).map (.around k n)

/-- A type reference. -/
def typeRef (j : Json) : Option TypeRef :=
  typeRefWith (depth j + 1) j

/-- An argument. -/
def argument (j : Json) : Option Argument := do
  let name ← text "name" j
  let description ← optionalText "description" j
  let type ← (member? "type" j).bind typeRef
  return ⟨name, description, type, (member? "defaultValue" j).getD .null⟩

/-- A member of an enumeration. -/
def enumValue (j : Json) : Option EnumValue := do
  let name ← text "name" j
  let description ← optionalText "description" j
  let isDeprecated ← flag "isDeprecated" j
  let reason ← optionalText "deprecationReason" j
  return ⟨name, description, isDeprecated, reason⟩

/-- A field. -/
def field (j : Json) : Option Field := do
  let name ← text "name" j
  let description ← optionalText "description" j
  let type ← (member? "type" j).bind typeRef
  let arguments ← listOf "args" argument j
  let isDeprecated ← flag "isDeprecated" j
  let reason ← optionalText "deprecationReason" j
  return ⟨name, description, type, arguments, isDeprecated, reason⟩

/-- A named type. -/
def typeDefinition (j : Json) : Option TypeDefinition := do
  let k ← kind j
  let name ← text "name" j
  let description ← optionalText "description" j
  let fields ← listOf "fields" field j
  let inputFields ← listOf "inputFields" argument j
  let interfaces ← listOf "interfaces" typeRef j
  let enumValues ← listOf "enumValues" enumValue j
  let possibleTypes ← listOf "possibleTypes" typeRef j
  return ⟨k, name, description, fields, inputFields, interfaces, enumValues, possibleTypes⟩

/-- A directive. -/
def directive (j : Json) : Option DirectiveDefinition := do
  let name ← text "name" j
  let description ← optionalText "description" j
  let locations ← listOf "locations" Json.string? j
  let arguments ← listOf "args" argument j
  return ⟨name, description, locations, arguments⟩

/-- The name of a root type, if there is one. -/
def rootType (key : String) (j : Json) : Option (Option String) :=
  match member? key j with
  | none | some .null => some none
  | some v => (text "name" v).map some

/-- A schema. -/
def schema (j : Json) : Option Schema := do
  let query ← rootType "queryType" j
  let mutation ← rootType "mutationType" j
  let subscription ← rootType "subscriptionType" j
  let types ← properListOf "types" typeDefinition j
  let directives ← listOf "directives" directive j
  return ⟨query, mutation, subscription, types, directives⟩

/-- The value of a key of an object, if it is an object as well. -/
def objectAt? (key : String) (j : Json) : Option Json :=
  (j.field? key).filter Json.isObject

/-- The schema of a document, which may be wrapped as the data of a response. -/
def document (j : Json) : Except Refusal Schema :=
  let inner := (objectAt? "data" j).getD j
  match objectAt? "__schema" inner with
  | none => .error .notASchema
  | some s =>
    match schema s with
    | some s => .ok s
    | none => .error .malformedSchema

end Decode

/-- The schema of an introspection result. -/
def ofText (content : String) : Except Refusal Schema :=
  match Json.ofText? content with
  | none => .error .malformedSchema
  | some j => Decode.document j

end Bindery.Schema
