import Bindery.Catalog.Members
import Bindery.Proofs.Catalog.Types
import Bindery.Proofs.Catalog.UnionFields

/-!
# References that a catalog looks up

Whether a field is generated depends on the type that it leads to, so the type of each generated
field whose values need a selection set is known, and so are the types of fragments. The type of a
member is an expression around the class of the type of its items, where this type has a class; it is
looked up unless it is an enumeration.

## What is proved

* `exists_get?_of_generates` — the type that a generated field leads to.
* `exists_get?_of_mem_fragmentTypes` — the types of fragments.
* `memberType_mentioned` — which class the type of a member names, and when it is refused.
-/

namespace Bindery.Catalog

open Bindery.Schema Bindery.Scalar

variable {c : Catalog} {t d : TypeDefinition} {f : Field} {r n : TypeRef} {owner member : String}
  {always : Bool} {m : MemberType}

/-- Where it can be told whether values of a type have fields, the type is known or needs no
selection set. -/
theorem exists_get?_of_hasFields {has : Bool} (h : c.hasFields r = .ok has)
    (hkind : r.innermost.kind.isComplex = true) :
    ∃ d, c.complex.get? r.innermost.nameOrEmpty = some d := by
  rw [hasFields] at h
  simp only [hkind, Bool.not_true, Bool.false_eq_true, if_false] at h
  cases hget : c.complex.get? r.innermost.nameOrEmpty with
  | none =>
    rw [hget] at h
    cases h
  | some d => exact ⟨d, rfl⟩

/-- A generated field leads to a type that is known or needs no selection set. -/
theorem exists_get?_of_generates (h : c.generates f = .ok true)
    (hkind : f.type.innermost.kind.isComplex = true) :
    ∃ d, c.complex.get? f.type.innermost.nameOrEmpty = some d := by
  rw [generates] at h
  split_ifs at h
  · exact exists_get?_of_hasFields h hkind
  · cases h

theorem exists_get?_of_mem_withFields {ts ds : List TypeDefinition} (h : c.withFields ts = .ok ds)
    (hd : d ∈ ds) : ∃ name, c.complex.get? name = some d := by
  induction ts generalizing ds with
  | nil =>
    cases h
    cases hd
  | cons t ts ih =>
    rw [withFields] at h
    cases hget : c.complex.get? t.name with
    | none =>
      rw [hget] at h
      exact ih h hd
    | some e =>
      rw [hget] at h
      obtain ⟨fields, -, h⟩ := bind_eq_ok.mp h
      obtain ⟨rest, hrest, h⟩ := bind_eq_ok.mp h
      rw [← pure_eq_ok.mp h] at hd
      split_ifs at hd
      · exact ih hrest hd
      · rcases List.mem_cons.mp hd with rfl | hd
        · exact ⟨t.name, hget⟩
        · exact ih hrest hd

/-- The types of fragments are known. -/
theorem exists_get?_of_mem_fragmentTypes {ds : List TypeDefinition} (h : c.fragmentTypes t = .ok ds)
    (hd : d ∈ ds) : ∃ name, c.complex.get? name = some d :=
  exists_get?_of_mem_withFields h hd

/-- A catalog finds the types of its schema by their names. -/
theorem types_of_make {configuration : Configuration} {s : Schema}
    (h : (make configuration s).2 = .ok c) : c.types = byName s.types := by
  obtain ⟨-, renamed, referenced, -, -, rfl⟩ := make_eq_ok_iff.mp h
  rfl

/-- The fields that a data class has are generated. -/
theorem generates_of_mem_effectiveFields {fields : List Field} (h : c.effectiveFields t = .ok fields)
    (hf : f ∈ fields) : c.generates f = .ok true := by
  rw [effectiveFields] at h
  split_ifs at h
  · obtain ⟨all, -, hall⟩ := bind_eq_ok.mp h
    exact ((mem_generated hall).mp hf).2
  · exact ((mem_generated h).mp hf).2

/-! ### Types of members -/

/-- What is inside the lists of a reference, without an exclusion of null at its outside. -/
def itemOf : TypeRef → TypeRef
  | .around .nonNull _ (.around .list _ item) => itemOf item
  | .around .list _ item => itemOf item
  | r => r.nullable

/-- No list is at the outside of a reference. -/
theorem itemOf_eq_nullable {r : TypeRef}
    (hnonNull : ∀ n m item, r = .around .nonNull n (.around .list m item) → False)
    (hlist : ∀ n item, r = .around .list n item → False) : itemOf r = r.nullable := by
  rw [itemOf] <;> assumption

/-- What is inside the lists of a reference is what it leads to, unless null is excluded twice. -/
theorem itemOf_eq (r : TypeRef) : itemOf r = r.innermost ∨ (itemOf r).kind = .nonNull := by
  induction r using itemOf.induct with
  | case1 _ _ item ih => exact ih
  | case2 _ item ih => exact ih
  | case3 r hnonNull hlist =>
    rw [itemOf_eq_nullable hnonNull hlist]
    match r, hnonNull, hlist with
    | .leaf _ _, _, _ => exact .inl rfl
    | .around .list _ _, _, hlist => exact absurd rfl (hlist _ _)
    | .around .nonNull _ (.leaf _ _), _, _ => exact .inl rfl
    | .around .nonNull _ (.around k _ _), hnonNull, _ =>
      cases k with
      | list => exact absurd rfl (hnonNull _ _ _)
      | nonNull => exact .inr rfl
      | _ => exact .inl rfl
    | .around .scalar _ _, _, _ | .around .enumeration _ _, _, _ | .around .object _ _, _, _
    | .around .inputObject _ _, _, _ | .around .union _ _, _, _ | .around .interface _ _, _, _ =>
      exact .inl rfl

/-- Where the items need a selection set, the reference leads to them. -/
theorem innermost_eq_itemOf (h : (itemOf r).kind.isComplex = true) : r.innermost = itemOf r := by
  rcases itemOf_eq r with hitem | hkind
  · exact hitem.symm
  · rw [hkind] at h
    cases h

/-- The type whose class the type of a member names: one with a class of its own, or an enumeration
of which no mapping speaks. -/
def mentioned (c : Catalog) (owner member : String) (r : TypeRef) : Option TypeRef :=
  if hasClass (itemOf r).kind || (itemOf r).kind == .enumeration &&
      (c.configuration.mapping.bind fun m => answerOf m owner member (itemOf r)).isNone then
    some (itemOf r)
  else none

/-- The expression is that of a type, with lists, options and parameters around it. -/
inductive Wraps (base : String) : String → Prop where
  /-- The type itself. -/
  | self : Wraps base base
  /-- A list. -/
  | list {e : String} : Wraps base e → Wraps base ("List[" ++ e ++ "]")
  /-- Something that can be left empty. -/
  | optional {e : String} : Wraps base e → Wraps base ("Optional[" ++ e ++ "]")
  /-- A value or a parameter for one. -/
  | either {e : String} : Wraps base e → Wraps base (e ++ " | QueryBuilderParameter[" ++ e ++ "]")

theorem Wraps.annotation {base : String} (h : Wraps base m.name) : Wraps base m.annotation := by
  rw [MemberType.annotation]
  split_ifs
  · exact h.optional
  · exact h

theorem typeOf_eq_ok {name : String} : c.typeOf name = .ok d ↔ c.types.get? name = some d := by
  rw [typeOf]
  cases c.types.get? name <;> simp

/-- The type of a member that is no list: that of its class, which is looked up, or what its scalar
or enumeration is resolved to. -/
theorem leafType_eq (c : Catalog) (owner member : String) (r : TypeRef) (always : Bool) :
    c.leafType owner member r always =
      if r.nullable.kind = .list then .error (.unresolvedItem owner member)
      else if hasClass r.nullable.kind then
        (c.typeOf r.nullable.nameOrEmpty).map fun _ =>
          (referring (c.className r.nullable.nameOrEmpty)).forReference r always
            c.configuration.nullableReferences
      else resolve c.configuration owner member r always c.className := by
  rw [leafType]
  by_cases hlist : r.nullable.kind = .list
  · rw [if_pos (by simp [hlist]), if_pos hlist]
    rfl
  · rw [if_neg (by simp [hlist]), if_neg hlist]
    by_cases hclass : hasClass r.nullable.kind = true
    · rw [if_pos hclass, if_pos hclass]
      cases c.typeOf r.nullable.nameOrEmpty <;> rfl
    · rw [if_neg hclass, if_neg hclass]

/-- An enumeration of which no mapping speaks has the type of its class, and nothing is looked up. -/
theorem resolve_enumeration {configuration : Configuration} {enumName : String → String}
    (hkind : r.nullable.kind = .enumeration)
    (hunmapped : configuration.mapping.bind (fun m => answerOf m owner member r.nullable) = none) :
    resolve configuration owner member r always enumName =
      .ok ((plain (enumName r.nullable.nameOrEmpty)).forReference r always
        configuration.nullableReferences) := by
  rw [resolve, hunmapped]
  simp only [defaultType, hkind, beq_self_eq_true, if_true]
  rfl

theorem of_mentioned (h : c.mentioned owner member r = some n) :
    n = itemOf r ∧ (hasClass n.kind = true ∨ n.kind = .enumeration ∧
      c.configuration.mapping.bind (fun m => answerOf m owner member n) = none) := by
  rw [mentioned] at h
  split_ifs at h with hmentioned
  cases h
  rw [Bool.or_eq_true, Bool.and_eq_true, beq_iff_eq, Option.isNone_iff_eq_none] at hmentioned
  exact ⟨rfl, hmentioned⟩

theorem mentioned_of_hasClass (h : hasClass (itemOf r).kind = true) :
    c.mentioned owner member r = some (itemOf r) := by
  rw [mentioned, if_pos (by simp [h])]

/-- The type of a member that is no list and mentions a class. -/
theorem leafType_mentioned (h : c.mentioned owner member r = some n) (hitem : itemOf r = r.nullable) :
    c.leafType owner member r always =
      if n.kind = .enumeration then
        .ok ((plain (c.className n.nameOrEmpty)).forReference r always
          c.configuration.nullableReferences)
      else (c.typeOf n.nameOrEmpty).map fun _ =>
        (referring (c.className n.nameOrEmpty)).forReference r always
          c.configuration.nullableReferences := by
  obtain ⟨rfl, hkind⟩ := of_mentioned h
  rw [leafType_eq, hitem] at *
  rcases hkind with hclass | ⟨hkind, hunmapped⟩
  · have hkinds : r.nullable.kind ≠ .list ∧ r.nullable.kind ≠ .enumeration := by
      constructor <;> intro hkind <;> rw [hkind] at hclass <;> cases hclass
    rw [if_neg hkinds.1, if_pos hclass, if_neg hkinds.2]
  · rw [if_neg (by simp [hkind]), if_neg (by rw [hkind]; decide), if_pos hkind]
    exact resolve_enumeration hkind hunmapped

/-- A list of items has a type where the items have one, around the same class. -/
theorem listType_spec {base : String} {x : Except Refusal MemberType} {list : MemberType → MemberType}
    (hname : ∀ i, (list i).name = "List[" ++ i.annotation ++ "]")
    (hwraps : ∀ i, x = .ok i → Wraps base i.name) :
    ((∃ m, (x >>= fun i => pure (list i)) = .ok m) ↔ ∃ i, x = .ok i) ∧
      ∀ m, (x >>= fun i => pure (list i)) = .ok m → Wraps base m.name := by
  refine ⟨⟨fun ⟨m, hm⟩ => ?_, fun ⟨i, hi⟩ => ⟨_, bind_eq_ok.mpr ⟨i, hi, rfl⟩⟩⟩, fun m hm => ?_⟩ <;>
    obtain ⟨i, hi, hm⟩ := bind_eq_ok.mp hm
  · exact ⟨i, hi⟩
  · rw [← pure_eq_ok.mp hm, hname]
    exact .list (Wraps.annotation (hwraps i hi))

/-- The type of a member that mentions a class is refused where no type has the name, unless it is an
enumeration; and it is an expression around the class. -/
theorem memberType_mentioned (h : c.mentioned owner member r = some n) (always : Bool) :
    ((∃ m, c.memberType owner member r always = .ok m) ↔
      n.kind = .enumeration ∨ ∃ d, c.types.get? n.nameOrEmpty = some d) ∧
    ∀ m, c.memberType owner member r always = .ok m → Wraps (c.className n.nameOrEmpty) m.name := by
  induction r, always using memberType.induct with
  | case1 name k item always ih =>
    obtain ⟨hok, hwraps⟩ := ih h
    rw [memberType, ← hok]
    exact listType_spec (fun _ => rfl) hwraps
  | case2 name item always ih =>
    obtain ⟨hok, hwraps⟩ := ih h
    rw [memberType, ← hok]
    exact listType_spec (fun _ => rfl) hwraps
  | case3 ref always hnonNull hlist =>
    rw [memberType] <;> try assumption
    rw [leafType_mentioned h (itemOf_eq_nullable hnonNull hlist)]
    split_ifs with henum
    · refine ⟨⟨fun _ => .inl henum, fun _ => ⟨_, rfl⟩⟩, fun m hm => ?_⟩
      cases hm
      exact .self
    · refine ⟨⟨fun ⟨m, hm⟩ => ?_, fun hfound => ?_⟩, fun m hm => ?_⟩
      · obtain ⟨d, hd, -⟩ := map_eq_ok.mp hm
        exact .inr ⟨d, typeOf_eq_ok.mp hd⟩
      · obtain ⟨d, hd⟩ := hfound.resolve_left henum
        exact ⟨_, map_eq_ok.mpr ⟨d, typeOf_eq_ok.mpr hd, rfl⟩⟩
      · obtain ⟨d, -, rfl⟩ := map_eq_ok.mp hm
        exact .self

end Bindery.Catalog
