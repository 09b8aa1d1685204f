import Bindery.Pattern.Matcher
import Bindery.Pattern.Reader
import Bindery.Refusal
import Bindery.Scalar.Basic
import Bindery.Schema.Decode

/-!
# Rules for the types of members

A rule gives a type to the members whose owner, type and name match its patterns. The first rule
that matches counts. Rules are read from a JSON array.
-/

namespace Bindery.Scalar

open Bindery.Schema

/-- A pattern with its text. -/
structure TextPattern where
  /-- The text of the pattern. -/
  source : String
  /-- The pattern. -/
  node : Pattern.Node
  deriving Repr

/-- A rule. -/
structure Rule where
  /-- The pattern of the name of the owner. -/
  owner : TextPattern
  /-- The pattern of the name of the type. -/
  type : TextPattern
  /-- The pattern of the name of the member. -/
  member : TextPattern
  /-- The type that is given. -/
  result : MemberType
  deriving Repr

/-- Does the rule match the owner, the type and the member? -/
def Rule.matches (r : Rule) (owner type member : String) : Bool :=
  r.owner.node.matchesAll owner && r.type.node.matchesAll type && r.member.node.matchesAll member

/-- The type that the first matching rule gives. -/
def firstMatch (rules : List Rule) (owner type member : String) : Option MemberType :=
  (rules.find? fun r => r.matches owner type member).map Rule.result

/-- A pattern under a key. -/
def patternAt (key : String) (j : Json) : Option TextPattern := do
  let s ← Decode.text key j
  let n ← Pattern.ofText? s
  return ⟨s, n⟩

/-- A rule from its JSON object. -/
def ruleOf (j : Json) : Option Rule := do
  let owner ← patternAt "patternBaseType" j
  let type ← patternAt "patternValueType" j
  let member ← patternAt "patternValueName" j
  let name ← Decode.text "typeName" j
  let mask ← Decode.optionalText "formatMask" j
  let isReference ← Decode.flag "isReferenceType" j
  return ⟨owner, type, member, ⟨name, mask, isReference, false⟩⟩

/-- The rules of a JSON text. -/
def rulesOfText (content : String) : Except Refusal (List Rule) :=
  match (Json.ofText? content).bind fun j => (Decode.items? j).bind fun js => js.mapM ruleOf with
  | some rules => .ok rules
  | none => .error .malformedRules

end Bindery.Scalar
