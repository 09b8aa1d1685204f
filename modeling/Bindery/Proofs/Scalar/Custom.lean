import Bindery.Proofs.Result
import Bindery.Proofs.Text.Blank
import Bindery.Scalar.Resolve

/-!
# Types that are left to the mapping

The type of a standard scalar can be left to the configured mapping. What the mapping says about a
member then decides alone; only where it says nothing, a member whose name tells a point in time is
resolved before the choice of the configuration is looked at.

## What is proved

* `resolve_of_answered` and `resolve_of_unanswered` — the type at a member, by what the mapping says.
* `custom_scalar_resolves` — when a scalar that is left to the mapping has a type and which one, and
  when it is refused.
-/

namespace Bindery.Scalar

open Bindery.Schema Bindery.Label Bindery.Text

/-- The configuration leaves the type of the standard scalar to the mapping. -/
inductive LeftToMapping (c : Configuration) : String → Prop where
  /-- Integers are left to it. -/
  | int : c.integers = .custom → LeftToMapping c "Int"
  /-- Floating point numbers are left to it. -/
  | float : c.floats = .custom → LeftToMapping c "Float"
  /-- Identifiers are left to it. -/
  | id : c.ids = .custom → LeftToMapping c "ID"
  /-- Truth values are left to it. -/
  | boolean : c.booleans = .custom → LeftToMapping c "Boolean"

/-- The configured mapping gives the member the type `a`. -/
def Answered (c : Configuration) (owner member : String) (ref : TypeRef) (a : MemberType) : Prop :=
  ∃ m, c.mapping = some m ∧ answerOf m owner member ref.nullable = some a

/-- No mapping is configured, or it says nothing about the member. -/
def Unanswered (c : Configuration) (owner member : String) (ref : TypeRef) : Prop :=
  c.mapping = none ∨ ∃ m, c.mapping = some m ∧ answerOf m owner member ref.nullable = none

section

variable {c : Configuration} {owner member scalar : String} {ref : TypeRef} {a : MemberType}

theorem answered_iff : Answered c owner member ref a ↔
    (c.mapping.bind fun m => answerOf m owner member ref.nullable) = some a :=
  Option.bind_eq_some_iff.symm

theorem unanswered_iff : Unanswered c owner member ref ↔
    (c.mapping.bind fun m => answerOf m owner member ref.nullable) = none := by
  rw [Unanswered]
  cases c.mapping <;> simp

/-- A member of which the mapping speaks is spoken of with one type. -/
theorem Answered.unique (h : Answered c owner member ref a) {a' : MemberType}
    (h' : Answered c owner member ref a') : a' = a := by
  rw [answered_iff] at h h'
  exact Option.some.inj (h'.symm.trans h)

theorem Answered.not_unanswered (h : Answered c owner member ref a) :
    ¬ Unanswered c owner member ref := by
  rw [answered_iff] at h
  rw [unanswered_iff, h]
  exact Option.some_ne_none a

theorem unanswered_or_exists_answered (c : Configuration) (owner member : String) (ref : TypeRef) :
    Unanswered c owner member ref ∨ ∃ a, Answered c owner member ref a := by
  simp only [unanswered_iff, answered_iff]
  exact Option.eq_none_or_eq_some _

/-! ### What the mapping says -/

theorem checked_eq_error_iff : (∃ e, checked owner member a = .error e) ↔
    isBlankText a.name = true ∨ ∃ m ∈ a.mask, isBlankText m = true := by
  simp only [checked, isEmpty_trim]
  split_ifs with hname hmask
  · exact iff_of_true ⟨_, rfl⟩ (.inl hname)
  · exact iff_of_true ⟨_, rfl⟩ (.inr ((Option.any_eq_true ..).mp hmask))
  · exact iff_of_false nofun (not_or.mpr ⟨hname, fun h => hmask ((Option.any_eq_true ..).mpr h)⟩)

theorem kind_of_checked {e : Refusal} (h : checked owner member a = .error e) :
    e.kind = .configuration := by
  rw [checked] at h
  split_ifs at h <;> · cases h; rfl

theorem of_checked {t : MemberType} (h : checked owner member a = .ok t) :
    t = { a with name := trim a.name } := by
  rw [checked] at h
  split_ifs at h
  cases h
  rfl

/-- What the mapping says counts, whatever the member is called and whatever is configured. -/
theorem resolve_of_answered (h : Answered c owner member ref a) (always : Bool)
    (enumName : String → String) :
    resolve c owner member ref always enumName =
      (checked owner member a).map fun t => t.forReference ref always c.nullableReferences := by
  rw [resolve, answered_iff.mp h]
  dsimp only
  cases checked owner member a <;> rfl

theorem resolve_of_unanswered (h : Unanswered c owner member ref) (always : Bool)
    (enumName : String → String) :
    resolve c owner member ref always enumName =
      (defaultType c owner member ref.nullable enumName).map fun t =>
        t.forReference ref always c.nullableReferences := by
  rw [resolve, unanswered_iff.mp h]
  dsimp only
  cases defaultType c owner member ref.nullable enumName <;> rfl

/-! ### What is left to the mapping -/

theorem LeftToMapping.chosenType? (h : LeftToMapping c scalar) :
    Scalar.chosenType? c scalar = some none := by
  cases h with
  | int h => rw [Scalar.chosenType?, h]; rfl
  | float h => rw [Scalar.chosenType?, h]; rfl
  | id h => rw [Scalar.chosenType?, h]; rfl
  | boolean h => rw [Scalar.chosenType?, h]; rfl

/-- What is left to a mapping that says nothing is a point in time by the name of the member, or it is
refused. -/
theorem defaultType_leftToMapping (hkind : ref.kind = .scalar) (hname : ref.name? = some scalar)
    (hleft : LeftToMapping c scalar) (enumName : String → String) :
    defaultType c owner member ref enumName =
      if isTemporal member then .ok dateTime
      else if c.mapping.isNone then .error (.mappingRequired scalar)
      else .error (.mappingMissing owner member scalar) := by
  have hchosen : ref.name?.bind (Scalar.chosenType? c) = some none := by
    rw [hname]
    exact hleft.chosenType?
  have hempty : ref.nameOrEmpty = scalar := by
    rw [TypeRef.nameOrEmpty, hname]
    rfl
  rw [defaultType, hkind, hchosen, hempty]
  rfl

theorem isNullable_forReference (t : MemberType) (ref : TypeRef) (always nullableReferences : Bool) :
    (t.forReference ref always nullableReferences).isNullable = true ↔
      always = true ∨ ref.kind ≠ .nonNull ∨ t.isReference = true ∧ nullableReferences = false := by
  rw [MemberType.forReference]
  cases t.isReference <;> cases nullableReferences <;> cases always <;> simp

/-- A scalar that is left to the mapping has the type that the mapping gives, with the blanks around
its expression removed, or it is refused for the configuration: where the expression or the mask is
blank, or where nothing is given and the name of the member tells no point in time. Where nothing is
given and the name tells one, the type is that of points in time. -/
theorem custom_scalar_resolves (hkind : ref.nullable.kind = .scalar)
    (hname : ref.nullable.name? = some scalar) (hleft : LeftToMapping c scalar) (always : Bool)
    (enumName : String → String) :
    (∀ e, resolve c owner member ref always enumName = .error e → e.kind = .configuration) ∧
    ((∃ e, resolve c owner member ref always enumName = .error e) ↔
      Unanswered c owner member ref ∧ isTemporal member = false ∨
        ∃ a, Answered c owner member ref a ∧
          (isBlankText a.name = true ∨ ∃ m ∈ a.mask, isBlankText m = true)) ∧
    ∀ t, resolve c owner member ref always enumName = .ok t →
      ((∃ a, Answered c owner member ref a ∧ t.name = trim a.name ∧ t.mask = a.mask ∧
          t.isReference = a.isReference) ∨
        Unanswered c owner member ref ∧ isTemporal member = true ∧
          t.name = "datetime.datetime" ∧ t.mask = none ∧ t.isReference = false) ∧
      (t.isNullable = true ↔ always = true ∨ ref.kind ≠ .nonNull ∨
        t.isReference = true ∧ c.nullableReferences = false) := by
  rcases unanswered_or_exists_answered c owner member ref with hnone | ⟨a, ha⟩
  · have hanswered : ¬ ∃ a, Answered c owner member ref a ∧
        (isBlankText a.name = true ∨ ∃ m ∈ a.mask, isBlankText m = true) :=
      fun ⟨a, ha, _⟩ => ha.not_unanswered hnone
    rw [resolve_of_unanswered hnone, defaultType_leftToMapping hkind hname hleft]
    simp only [hnone, hanswered, true_and, or_false]
    cases htemporal : isTemporal member with
    | false =>
      cases c.mapping <;> simp [Except.map, Refusal.kind]
    | true =>
      refine ⟨nofun, by simp [Except.map], ?_⟩
      rintro t ⟨rfl⟩
      exact ⟨.inr ⟨rfl, rfl, rfl, rfl⟩, isNullable_forReference ..⟩
  · rw [resolve_of_answered ha]
    cases hchecked : checked owner member a with
    | error e =>
      have hblank := checked_eq_error_iff.mp ⟨e, hchecked⟩
      refine ⟨?_, iff_of_true ⟨e, rfl⟩ (.inr ⟨a, ha, hblank⟩), nofun⟩
      rintro _ ⟨rfl⟩
      exact kind_of_checked hchecked
    | ok t =>
      obtain rfl := of_checked hchecked
      refine ⟨nofun, iff_of_false nofun ?_, ?_⟩
      · rintro (⟨hnone, -⟩ | ⟨a', ha', hblank⟩)
        · exact ha.not_unanswered hnone
        · obtain rfl := ha.unique ha'
          obtain ⟨e, he⟩ := checked_eq_error_iff.mpr hblank
          rw [hchecked] at he
          cases he
      · rintro _ ⟨rfl⟩
        exact ⟨.inl ⟨a, ha, rfl, rfl, rfl⟩, isNullable_forReference ..⟩

/-- Integers are left to a mapping that says the same of every member. -/
def moneyConfiguration : Configuration :=
  { integers := .custom, mapping := some (.fixed (some ⟨"  Money ", some "%Y", false, false⟩)) }

/-- A total that must be given has the type that the mapping says, and it is not refused. -/
theorem total_resolves : LeftToMapping moneyConfiguration "Int" ∧
    ∃ t, resolve moneyConfiguration "Order" "total"
      (.around .nonNull none (.leaf .scalar (some "Int"))) false id = .ok t ∧
      t.name = "Money" ∧ t.mask = some "%Y" ∧ t.isNullable = false := by
  have hleft : LeftToMapping moneyConfiguration "Int" := .int rfl
  have hgiven : Answered moneyConfiguration "Order" "total"
      (.around .nonNull none (.leaf .scalar (some "Int"))) ⟨"  Money ", some "%Y", false, false⟩ :=
    ⟨_, rfl, rfl⟩
  obtain ⟨-, hrefused, hresolved⟩ := @custom_scalar_resolves _ "Order" "total" _
    (.around .nonNull none (.leaf .scalar (some "Int"))) rfl rfl hleft false id
  have hok : ¬ ∃ e, resolve moneyConfiguration "Order" "total"
      (.around .nonNull none (.leaf .scalar (some "Int"))) false id = .error e := by
    rw [hrefused]
    rintro (⟨hnone, -⟩ | ⟨a, ha, hblank⟩)
    · exact hgiven.not_unanswered hnone
    · obtain rfl := hgiven.unique ha
      exact absurd hblank (by decide)
  cases ht : resolve moneyConfiguration "Order" "total"
      (.around .nonNull none (.leaf .scalar (some "Int"))) false id with
  | error e => exact absurd ⟨e, ht⟩ hok
  | ok t =>
    obtain ⟨⟨a, ha, hname, hmask, hreference⟩ | ⟨hnone, -⟩, hnullable⟩ := hresolved t ht
    · obtain rfl := hgiven.unique ha
      refine ⟨hleft, t, rfl, hname.trans (by decide), hmask, ?_⟩
      rw [← Bool.not_eq_true, hnullable, hreference]
      decide
    · exact absurd hnone hgiven.not_unanswered

/-- Integers are left to the mapping, and there is none. -/
def unmappedConfiguration : Configuration :=
  { integers := .custom }

/-- Where nothing is given, the name of the member can answer: nothing is refused. -/
theorem createdAt_not_refused : LeftToMapping unmappedConfiguration "Int" ∧
    Unanswered unmappedConfiguration "Order" "createdAt" (.leaf .scalar (some "Int")) ∧
    ¬ ∃ e, resolve unmappedConfiguration "Order" "createdAt" (.leaf .scalar (some "Int")) false id =
      .error e := by
  have htype : resolve unmappedConfiguration "Order" "createdAt" (.leaf .scalar (some "Int")) false id =
      .ok { dateTime with isNullable := true } := rfl
  refine ⟨.int rfl, .inl rfl, ?_⟩
  rintro ⟨e, he⟩
  rw [htype] at he
  cases he

end

end Bindery.Scalar
