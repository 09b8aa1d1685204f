import Bindery.Scalar.Resolve
import Mathlib.Logic.Basic
import Mathlib.Tactic.SplitIfs

/-!
# Expressions of types

The expression at a member is a name with lists around it, and at each level it says whether the
value can be left empty. Square brackets stand in it for nothing else: where the name has none, the
text can be read in one way only.

## What is proved

* `Expression.text_injective` — an expression whose name has no square bracket is known by its text.
* `annotation_forReference` — when the expression of a type says that the value can be left empty.
-/

namespace Bindery.Scalar

open Bindery.Schema

/-! ### Square brackets -/

/-- Is there no square bracket in the text? -/
def isBracketFree (s : String) : Bool :=
  s.toList.all fun ch => ch != '[' && ch != ']'

theorem isBracketFree_append (s t : String) :
    isBracketFree (s ++ t) = (isBracketFree s && isBracketFree t) := by
  rw [isBracketFree, String.toList_append, List.all_append]
  rfl

/-- What says that a value can be left empty, around the text. -/
def optionalIf (isOptional : Bool) (text : String) : String :=
  if isOptional then "Optional[" ++ text ++ "]" else text

/-- The text around that of the items. -/
def listText (item : String) : String :=
  "List[" ++ item ++ "]"

theorem optional_ne_of_isBracketFree {name : String} (h : isBracketFree name = true)
    (text : String) : name ≠ "Optional[" ++ text := by
  rintro rfl
  rw [isBracketFree_append] at h
  exact absurd (Bool.and_eq_true_iff.mp h).1 (by decide)

theorem optional_ne_listText (item text : String) : listText item ≠ "Optional[" ++ text := by
  intro h
  have hchars := congrArg String.toList h
  simp only [listText, String.toList_append] at hchars
  exact absurd (List.cons.inj hchars).1 (by decide)

theorem ne_listText_of_isBracketFree {name : String} (h : isBracketFree name = true)
    (item : String) : name ≠ listText item := by
  rintro rfl
  rw [listText, isBracketFree_append, isBracketFree_append] at h
  exact absurd (Bool.and_eq_true_iff.mp (Bool.and_eq_true_iff.mp h).1).1 (by decide)

theorem listText_inj {item item' : String} (h : listText item = listText item') : item = item' :=
  (String.append_right_inj _).mp ((String.append_left_inj _).mp h)

/-- Around texts that do not begin in this way, it can be told whether something stands. -/
theorem optionalIf_inj {o o' : Bool} {s s' : String} (hs : ∀ text, s ≠ "Optional[" ++ text)
    (hs' : ∀ text, s' ≠ "Optional[" ++ text) (h : optionalIf o s = optionalIf o' s') :
    o = o' ∧ s = s' := by
  cases o <;> cases o'
  · exact ⟨rfl, h⟩
  · refine absurd (h.trans ?_) (hs (s' ++ "]"))
    exact String.append_assoc ..
  · refine absurd (h.symm.trans ?_) (hs' (s ++ "]"))
    exact String.append_assoc ..
  · exact ⟨rfl, (String.append_right_inj _).mp ((String.append_left_inj _).mp h)⟩

/-! ### Expressions -/

/-- An expression of a type. -/
inductive Expression where
  /-- A name, and whether the value can be left empty. -/
  | named (isOptional : Bool) (name : String)
  /-- A list, and whether it can be left empty. -/
  | list (isOptional : Bool) (item : Expression)

namespace Expression

/-- The text of the expression. -/
def text : Expression → String
  | named o name => optionalIf o name
  | list o item => optionalIf o (listText item.text)

/-- The name inside the lists. -/
def name : Expression → String
  | named _ name => name
  | list _ item => item.name

/-- The expression without anything that says that values can be left empty. -/
def required : Expression → Expression
  | named _ name => named false name
  | list _ item => list false item.required

/-- Which values can be left empty, from the outside to the items of the lists. -/
def options : Expression → List Bool
  | named o _ => [o]
  | list o item => o :: item.options

/-- A name inside as many lists. -/
def listsOf (name : String) : Nat → Expression
  | 0 => named false name
  | n + 1 => list false (listsOf name n)

/-- **An expression whose name has no square bracket is known by its text.** -/
theorem text_injective {e e' : Expression} (h : isBracketFree e.name = true)
    (h' : isBracketFree e'.name = true) (heq : e.text = e'.text) : e = e' := by
  induction e generalizing e' with
  | named o n =>
    cases e' with
    | named o' n' =>
      obtain ⟨rfl, rfl⟩ := optionalIf_inj (optional_ne_of_isBracketFree h)
        (optional_ne_of_isBracketFree h') heq
      rfl
    | list o' item' =>
      obtain ⟨-, hlist⟩ := optionalIf_inj (optional_ne_of_isBracketFree h)
        (optional_ne_listText item'.text) heq
      exact absurd hlist (ne_listText_of_isBracketFree h _)
  | list o item ih =>
    cases e' with
    | named o' n' =>
      obtain ⟨-, hlist⟩ := optionalIf_inj (optional_ne_listText item.text)
        (optional_ne_of_isBracketFree h') heq
      exact absurd hlist.symm (ne_listText_of_isBracketFree h' _)
    | list o' item' =>
      obtain ⟨rfl, hlist⟩ := optionalIf_inj (optional_ne_listText item.text)
        (optional_ne_listText item'.text) heq
      have hitem : item = item' := ih h h' (listText_inj hlist)
      rw [hitem]

/-- The text is to be read as the expression, and as no other one. -/
structure Reads (e : Expression) (text : String) : Prop where
  /-- The name has no square bracket. -/
  plain : isBracketFree e.name = true
  /-- The text is that of the expression. -/
  eq : e.text = text
  /-- The text is that of no other expression. -/
  unique : ∀ e' : Expression, isBracketFree e'.name = true → e'.text = text → e' = e

theorem reads_text {e : Expression} (h : isBracketFree e.name = true) : e.Reads e.text :=
  ⟨h, rfl, fun _ h' heq => text_injective h' h heq⟩

end Expression

/-! ### Levels -/

/-- What decides whether the value at a level of a reference can be left empty. -/
structure Level where
  /-- Does the reference exclude null? -/
  excludesNull : Bool
  /-- Does the type lack a value of its own for what is missing? -/
  isReference : Bool
  /-- Does the type accept anything? -/
  isAny : Bool

/-- Can the value be left empty? -/
def Level.isOptional (nullableReferences always : Bool) (l : Level) : Bool :=
  !l.isAny && (always || !l.excludesNull || l.isReference && !nullableReferences)

/-- The level of a reference to a type. -/
def levelOf (t : MemberType) (ref : TypeRef) : Level :=
  ⟨ref.kind == .nonNull, t.isReference, t.name == anyName⟩

/-- The expression of a type says that the value can be left empty unless null is excluded; of a
reference it says so in any case, if references do not follow the schema; of what accepts anything
it never does. -/
theorem annotation_forReference (t : MemberType) (ref : TypeRef)
    (always nullableReferences : Bool) :
    MemberType.annotation (t.forReference ref always nullableReferences) =
      optionalIf ((levelOf t ref).isOptional nullableReferences always) t.name := by
  have hcondition : ((t.forReference ref always nullableReferences).isNullable &&
      (t.forReference ref always nullableReferences).name != anyName) =
        (levelOf t ref).isOptional nullableReferences always := by
    rw [MemberType.forReference, Level.isOptional, levelOf, bne, bne]
    cases t.isReference <;> cases nullableReferences <;> cases always <;>
      cases ref.kind == .nonNull <;> cases t.name == anyName <;> rfl
  rw [MemberType.annotation, hcondition, optionalIf]
  rfl

end Bindery.Scalar
