import Bindery.Client.Data
import Bindery.Proofs.Keyed
import Mathlib.Data.List.Forall2
import Mathlib.Logic.Relation

/-!
# The ancestors of types

The ancestors of a type are asked for depth first, and what is found is noted. The search comes to
its end for any types, since a type is noted before its parents are asked. Where no type is an
ancestor of itself, what is noted of a type that is not being asked for is complete, so that the
answer does not depend on what was asked before.

## What is proved

* `asks_ancestorsOf` — the search takes the steps of a search without a bound.
* `Asks.complete`, `Notes.complete` — what a search notes is complete where no type is its own
  ancestor.
* `mem_ancestorsOf` — then the names that are found are those of the ancestors.
* `run_directParents` — then the parents that stay are those that no other parent inherits.
* `mem_inheritedTypes` — then the inherited types are the parents and their ancestors.
-/

namespace Bindery.Client

open Bindery.Schema

variable {c : Catalog} {name p : String} {m m' : Ancestors} {l ps : List String} {fuel : Nat}

/-! ### Answers that depend on a state -/

section State

variable {σ α β : Type}

/-- A loop that asks and notes is a fold over what is known. -/
theorem run_loop (ask : α → StateM σ β) (note : α → β → σ → σ) (xs : List α) (s : σ) :
    (forIn xs PUnit.unit fun x _ => do
      let a ← ask x
      modify (note x a)
      pure (ForInStep.yield PUnit.unit)).run s =
    (PUnit.unit, xs.foldl (fun s x => note x ((ask x).run s).1 ((ask x).run s).2) s) := by
  induction xs generalizing s with
  | nil => rfl
  | cons x xs ih =>
    rw [List.forIn_cons, List.foldl_cons, ← ih]
    rfl

variable {I : σ → Prop} {s : σ}

/-- Items are kept by a question whose answers are the same in all states that can occur. -/
theorem run_filterM {ask : α → StateM σ Bool} {keep : α → Bool}
    (hask : ∀ x s, I s → I ((ask x).run s).2 ∧ ((ask x).run s).1 = keep x) (hs : I s)
    (xs : List α) :
    I ((xs.filterM ask).run s).2 ∧ ((xs.filterM ask).run s).1 = xs.filter keep := by
  suffices key : ∀ (acc : List α) (s : σ), I s →
      I ((List.filterAuxM ask xs acc).run s).2 ∧
        ((List.filterAuxM ask xs acc).run s).1 = (xs.filter keep).reverse ++ acc by
    obtain ⟨hend, hkept⟩ := key [] s hs
    refine ⟨hend, ?_⟩
    change ((List.filterAuxM ask xs []).run s).1.reverse = xs.filter keep
    rw [hkept, List.append_nil, List.reverse_reverse]
  induction xs with
  | nil => exact fun acc s hs => ⟨hs, rfl⟩
  | cons x xs ih =>
    intro acc s hs
    obtain ⟨hstep, hanswer⟩ := hask x s hs
    obtain ⟨hend, hkept⟩ := ih (bif ((ask x).run s).1 then x :: acc else acc) _ hstep
    refine ⟨hend, ?_⟩
    change ((List.filterAuxM ask xs (bif ((ask x).run s).1 then x :: acc else acc)).run
      ((ask x).run s).2).1 = _
    rw [hkept, hanswer, List.filter_cons]
    cases keep x <;> simp

/-- Questions whose answers are related to the items in all states that can occur. -/
theorem run_mapM {ask : α → StateM σ β} {R : α → β → Prop}
    (hask : ∀ x s, I s → I ((ask x).run s).2 ∧ R x ((ask x).run s).1) (hs : I s) (xs : List α) :
    I ((xs.mapM ask).run s).2 ∧ List.Forall₂ R xs ((xs.mapM ask).run s).1 := by
  induction xs generalizing s with
  | nil => exact ⟨hs, .nil⟩
  | cons x xs ih =>
    obtain ⟨hstep, hanswer⟩ := hask x s hs
    obtain ⟨hend, hrest⟩ := ih hstep
    rw [List.mapM_cons]
    exact ⟨hend, .cons hanswer hrest⟩

end State

/-! ### Ancestors -/

/-- The interfaces and unions that the type of a name belongs to. -/
def parentsOf (c : Catalog) (name : String) : List String :=
  ((c.complex.get? name).map (parentTypes c)).getD []

/-- The second type is an ancestor of the first. -/
def IsAncestor (c : Catalog) : String → String → Prop :=
  Relation.TransGen fun n p => p ∈ parentsOf c n

/-- No type is an ancestor of itself. -/
def Acyclic (c : Catalog) : Prop :=
  ∀ n, ¬ IsAncestor c n n

theorem mem_parentTypes {t : TypeDefinition} : p ∈ parentTypes c t ↔
    (p ∈ (t.interfaces.filterMap TypeRef.name?).filter (fun n => !n.isEmpty) ∨
      p ∈ c.unionsOf t.name) ∧ p ∈ c.complex.keys := by
  rw [parentTypes, List.mem_eraseDups, List.mem_filter, List.mem_append, Keyed.contains_iff]

theorem parentsOf_of_get? {t : TypeDefinition} (h : c.complex.get? name = some t) :
    parentsOf c name = parentTypes c t := by
  rw [parentsOf, h]
  rfl

theorem mem_keys_of_mem_parentsOf (h : p ∈ parentsOf c name) : p ∈ c.complex.keys := by
  rw [parentsOf] at h
  cases hname : c.complex.get? name with
  | none =>
    rw [hname] at h
    cases h
  | some t =>
    rw [hname] at h
    exact (mem_parentTypes.mp h).2

theorem parentsOf_of_not_mem (h : name ∉ c.complex.keys) : parentsOf c name = [] := by
  rw [parentsOf]
  cases hname : c.complex.get? name with
  | none => rfl
  | some t => exact absurd (Keyed.mem_keys_of_get? hname) h

/-- The ancestors of a type are its parents and theirs. -/
theorem isAncestor_iff {a : String} :
    IsAncestor c name a ↔ ∃ p ∈ parentsOf c name, a = p ∨ IsAncestor c p a := by
  rw [IsAncestor, Relation.TransGen.head'_iff]
  simp only [Relation.reflTransGen_iff_eq_or_transGen]

/-! ### The search without a bound -/

mutual

/-- What is answered when the ancestors of a name are asked for, and what is noted afterwards. -/
inductive Asks (c : Catalog) : String → Ancestors → List String → Ancestors → Prop
  /-- What is noted is taken as it is. -/
  | known {name : String} {m : Ancestors} {l : List String} (h : m.get? name = some l) :
      Asks c name m l m
  /-- A name of which nothing is noted is noted before its parents are asked. -/
  | new {name : String} {m m' : Ancestors} (h : m.get? name = none)
      (hparents : Notes c name (parentsOf c name) (m.put name []) m') :
      Asks c name m ((m'.get? name).getD []) m'

/-- What is noted of a name while some of its parents are asked. -/
inductive Notes (c : Catalog) : String → List String → Ancestors → Ancestors → Prop
  /-- All parents were asked. -/
  | done {name : String} {m : Ancestors} : Notes c name [] m m
  /-- A parent and its ancestors are added to what is noted by then. -/
  | parent {name p : String} {ps l : List String} {m m₁ m' : Ancestors} (hparent : Asks c p m l m₁)
      (hrest : Notes c name ps
        (m₁.put name (unite ((m₁.get? name).getD []) (unite [p] l))) m') :
      Notes c name (p :: ps) m m'

end

/-- What is noted after a parent is asked. -/
def noteParent (c : Catalog) (fuel : Nat) (name : String) (m : Ancestors) (p : String) : Ancestors :=
  let asked := (ancestorsOf c fuel p).run m
  asked.2.put name (unite ((asked.2.get? name).getD []) (unite [p] asked.1))

theorem ancestorsOf_known (h : m.get? name = some l) :
    (ancestorsOf c (fuel + 1) name).run m = (l, m) := by
  simp only [ancestorsOf, StateT.run_bind, StateT.run_get, pure_bind, h]
  rfl

theorem ancestorsOf_new (h : m.get? name = none) :
    (ancestorsOf c (fuel + 1) name).run m =
      ((((parentsOf c name).foldl (noteParent c fuel name) (m.put name [])).get? name).getD [],
        (parentsOf c name).foldl (noteParent c fuel name) (m.put name [])) := by
  have hloop := run_loop (ancestorsOf c fuel)
    (fun p more (m : Ancestors) => m.put name (unite ((m.get? name).getD []) (unite [p] more)))
    (parentsOf c name) (m.put name [])
  rw [ancestorsOf]
  simp only [StateT.run_bind, StateT.run_get, pure_bind, h, StateT.run_modify]
  exact congrArg (fun r : PUnit × Ancestors => ((r.2.get? name).getD [], r.2)) hloop

mutual

/-- What is noted stays noted. -/
theorem Asks.keys_subset {c : Catalog} {name : String} {m m' : Ancestors} {l : List String} :
    Asks c name m l m' → ∀ k ∈ m.keys, k ∈ m'.keys
  | .known _ => fun _ hk => hk
  | .new _ hparents => fun k hk => hparents.keys_subset k (Keyed.mem_keys_put.mpr (.inr hk))

theorem Notes.keys_subset {c : Catalog} {name : String} {m m' : Ancestors} {ps : List String} :
    Notes c name ps m m' → ∀ k ∈ m.keys, k ∈ m'.keys
  | .done => fun _ hk => hk
  | .parent hparent hrest => fun k hk =>
    hrest.keys_subset k (Keyed.mem_keys_put.mpr (.inr (hparent.keys_subset k hk)))

end

/-- Fewer items pass a stronger test that one of them fails. -/
theorem length_filter_lt {α : Type} {p q : α → Bool} {xs : List α} {x : α}
    (h : ∀ x, q x = true → p x = true) (hx : x ∈ xs) (hp : p x = true) (hq : ¬ q x = true) :
    (xs.filter q).length < (xs.filter p).length := by
  have hq' : xs.filter q = (xs.filter p).filter q := by
    rw [List.filter_filter]
    refine List.filter_congr fun y _ => ?_
    cases hy : q y with
    | false => rfl
    | true => rw [h y hy]; rfl
  rw [hq', List.length_filter_lt_length_iff_exists]
  exact ⟨x, List.mem_filter.mpr ⟨hx, hp⟩, hq⟩

/-- The number of types of which nothing is noted. -/
def unasked (c : Catalog) (m : Ancestors) : Nat :=
  (c.complex.keys.filter fun k => !m.contains k).length

theorem not_contains_iff {k : String} : (!m.contains k) = true ↔ k ∉ m.keys := by
  rw [Bool.not_eq_true', ← Bool.not_eq_true, Keyed.contains_iff]

theorem unasked_le (h : ∀ k ∈ m.keys, k ∈ m'.keys) : unasked c m' ≤ unasked c m := by
  refine (List.monotone_filter_right _ fun k hk => ?_).length_le
  rw [not_contains_iff] at hk ⊢
  exact fun hm => hk (h k hm)

theorem not_mem_keys_of_get? (h : m.get? name = none) : name ∉ m.keys := by
  intro hk
  obtain ⟨v, hv⟩ := Keyed.exists_get?_of_mem_keys hk
  rw [h] at hv
  cases hv

/-- A type that is noted is one less. -/
theorem unasked_put_lt (hname : name ∈ c.complex.keys) (h : m.get? name = none) (v : List String) :
    unasked c (m.put name v) < unasked c m := by
  refine length_filter_lt (x := name) (fun k hk => ?_) hname
    (not_contains_iff.mpr (not_mem_keys_of_get? h)) fun hk => ?_
  · rw [not_contains_iff, Keyed.mem_keys_put, not_or] at hk
    exact not_contains_iff.mpr hk.2
  · exact not_contains_iff.mp hk (Keyed.mem_keys_put.mpr (.inl rfl))

/-- The parents are asked one after the other. -/
theorem notes_of_asks
    (hask : ∀ {p : String} {m : Ancestors}, unasked c m < fuel →
      Asks c p m ((ancestorsOf c fuel p).run m).1 ((ancestorsOf c fuel p).run m).2)
    (hfuel : unasked c m < fuel) : Notes c name ps m (ps.foldl (noteParent c fuel name) m) := by
  induction ps generalizing m with
  | nil => exact .done
  | cons p ps ih =>
    have hparent := hask (p := p) hfuel
    refine .parent hparent (ih (Nat.lt_of_le_of_lt (unasked_le fun k hk => ?_) hfuel))
    exact Keyed.mem_keys_put.mpr (.inr (hparent.keys_subset k hk))

/-- The search takes the steps of a search without a bound where its bound is above the number of
types of which nothing is noted. -/
theorem asks_of_unasked_lt (hfuel : unasked c m < fuel) :
    Asks c name m ((ancestorsOf c fuel name).run m).1 ((ancestorsOf c fuel name).run m).2 := by
  induction fuel generalizing name m with
  | zero => cases hfuel
  | succ fuel ih =>
    cases h : m.get? name with
    | some l =>
      rw [ancestorsOf_known h]
      exact .known h
    | none =>
      rw [ancestorsOf_new h]
      refine .new h ?_
      by_cases hname : name ∈ c.complex.keys
      · have hfuel' : unasked c (m.put name []) < fuel :=
          Nat.lt_of_lt_of_le (unasked_put_lt hname h []) (Nat.lt_succ_iff.mp hfuel)
        exact notes_of_asks ih hfuel'
      · rw [parentsOf_of_not_mem hname]
        exact .done

/-- The search for the ancestors of a type comes to its end. -/
theorem asks_ancestorsOf (c : Catalog) (name : String) (m : Ancestors) :
    Asks c name m ((ancestorsOf c (ancestorFuel c) name).run m).1
      ((ancestorsOf c (ancestorFuel c) name).run m).2 := by
  refine asks_of_unasked_lt (Nat.lt_succ_iff.mpr ?_)
  refine Nat.le_trans (List.length_filter_le _ _) (Nat.le_of_eq ?_)
  rw [Keyed.keys, List.length_map]
  rfl

/-! ### What is noted -/

theorem mem_unite {a : String} {xs ys : List String} : a ∈ unite xs ys ↔ a ∈ xs ∨ a ∈ ys := by
  simp only [unite, List.mem_append, List.mem_filter, Bool.not_eq_true', List.contains_eq_mem,
    decide_eq_false_iff_not]
  tauto

/-- What is noted of a name that is not being asked for is the list of its ancestors. -/
def Complete (c : Catalog) (asking : List String) (m : Ancestors) : Prop :=
  ∀ k l, m.get? k = some l → k ∉ asking → ∀ a, a ∈ l ↔ IsAncestor c k a

theorem complete_empty (c : Catalog) : Complete c [] .empty :=
  nofun

/-- What is noted of a name that is being asked for need not be complete. -/
theorem Complete.put {asking : List String} (h : Complete c (name :: asking) m) (v : List String) :
    Complete c (name :: asking) (m.put name v) := by
  intro k l hk hasking
  have hne : k ≠ name := fun heq => hasking (heq ▸ List.mem_cons_self)
  rw [Keyed.get?_put, if_neg hne] at hk
  exact h k l hk hasking

/-- What is noted of a name whose ancestors were found is complete. -/
theorem Complete.close {asking : List String} (h : Complete c (name :: asking) m)
    (hl : ∀ l, m.get? name = some l → ∀ a, a ∈ l ↔ IsAncestor c name a) : Complete c asking m := by
  intro k l hk hasking
  by_cases heq : k = name
  · subst heq
    exact hl l hk
  · exact h k l hk (List.not_mem_cons_of_ne_of_not_mem heq hasking)

mutual

/-- Where no type is its own ancestor, what is answered is the list of the ancestors, and what is
noted stays complete. -/
theorem Asks.complete {c : Catalog} (hc : Acyclic c) {name : String} {m m' : Ancestors}
    {l asking : List String} (hasking : ∀ o ∈ asking, IsAncestor c o name)
    (hm : Complete c asking m) :
    Asks c name m l m' →
      Complete c asking m' ∧ (∀ o ∈ asking, m'.get? o = m.get? o) ∧
        ∀ a, a ∈ l ↔ IsAncestor c name a
  | .known h => ⟨hm, fun _ _ => rfl, hm name _ h fun hname => hc name (hasking name hname)⟩
  | .new h hparents => by
    have hname : name ∉ asking := fun hmem => hc name (hasking name hmem)
    have hstart : Complete c (name :: asking) (m.put name []) := by
      intro k l hk hnot
      obtain ⟨hne, hnot⟩ := not_or.mp (mt List.mem_cons.mpr hnot)
      rw [Keyed.get?_put, if_neg hne] at hk
      exact hm k l hk hnot
    have hempty : (m.put name []).get? name = some [] := by rw [Keyed.get?_put, if_pos rfl]
    obtain ⟨hcomplete, hkept, own, hown, hmem⟩ :=
      hparents.complete hc hname hasking (fun p hp => hp) hstart hempty
    have hall : ∀ a, a ∈ own ↔ IsAncestor c name a := by
      intro a
      rw [hmem, isAncestor_iff, or_iff_right List.not_mem_nil]
    refine ⟨hcomplete.close fun l hl => ?_, fun o ho => ?_, ?_⟩
    · rw [hown] at hl
      exact Option.some.inj hl ▸ hall
    · have hne : o ≠ name := fun heq => hname (heq ▸ ho)
      rw [hkept o ho, Keyed.get?_put, if_neg hne]
    · rw [hown]
      exact hall

theorem Notes.complete {c : Catalog} (hc : Acyclic c) {name : String} {m m' : Ancestors}
    {ps own asking : List String} (hname : name ∉ asking)
    (hasking : ∀ o ∈ asking, IsAncestor c o name) (hps : ∀ p ∈ ps, p ∈ parentsOf c name)
    (hm : Complete c (name :: asking) m) (hown : m.get? name = some own) :
    Notes c name ps m m' →
      Complete c (name :: asking) m' ∧ (∀ o ∈ asking, m'.get? o = m.get? o) ∧
        ∃ own', m'.get? name = some own' ∧
          ∀ a, a ∈ own' ↔ a ∈ own ∨ ∃ p ∈ ps, a = p ∨ IsAncestor c p a
  | .done => ⟨hm, fun _ _ => rfl, own, hown, fun a => by simp⟩
  | @Notes.parent _ _ p rest l _ _ _ hparent hrest => by
    rw [List.forall_mem_cons] at hps
    have hbelow : ∀ o ∈ name :: asking, IsAncestor c o p := by
      rw [List.forall_mem_cons]
      exact ⟨.single hps.1, fun o ho => (hasking o ho).tail hps.1⟩
    obtain ⟨hcomplete, hkept, hl⟩ := hparent.complete hc hbelow hm
    rw [List.forall_mem_cons] at hkept
    obtain ⟨hcomplete', hkept', own', hown', hmem⟩ :=
      hrest.complete hc hname hasking hps.2 (hcomplete.put _)
        (by rw [Keyed.get?_put, if_pos rfl])
    refine ⟨hcomplete', fun o ho => ?_, own', hown', fun a => ?_⟩
    · have hne : o ≠ name := fun heq => hname (heq ▸ ho)
      rw [hkept' o ho, Keyed.get?_put, if_neg hne, hkept.2 o ho]
    · rw [hmem, hkept.1, hown, Option.getD_some, mem_unite, mem_unite, List.mem_singleton, hl]
      simp only [List.mem_cons, exists_eq_or_imp, or_assoc]

end

/-- Where no type is its own ancestor, the names that are found are those of the ancestors. -/
theorem mem_ancestorsOf (hc : Acyclic c) (hm : Complete c [] m) (name : String) :
    Complete c [] ((ancestorsOf c (ancestorFuel c) name).run m).2 ∧
      ∀ a, a ∈ ((ancestorsOf c (ancestorFuel c) name).run m).1 ↔ IsAncestor c name a := by
  obtain ⟨hcomplete, -, hmem⟩ := (asks_ancestorsOf c name m).complete hc (List.forall_mem_nil _) hm
  exact ⟨hcomplete, hmem⟩

/-! ### Parents that other parents inherit -/

theorem run_isInherited_cons {o : String} {others : List String} :
    (isInherited c name (o :: others)).run m =
      if o = name then (isInherited c name others).run m
      else if name ∈ ((ancestorsOf c (ancestorFuel c) o).run m).1 then
        (true, ((ancestorsOf c (ancestorFuel c) o).run m).2)
      else (isInherited c name others).run ((ancestorsOf c (ancestorFuel c) o).run m).2 := by
  by_cases ho : o = name
  · rw [if_pos ho, isInherited, if_pos (beq_iff_eq.mpr ho)]
  · rw [if_neg ho, isInherited, if_neg (mt beq_iff_eq.mp ho)]
    change (if ((ancestorsOf c (ancestorFuel c) o).run m).1.contains name = true then pure true
      else isInherited c name others : StateM Ancestors Bool).run
        ((ancestorsOf c (ancestorFuel c) o).run m).2 = _
    by_cases hname : name ∈ ((ancestorsOf c (ancestorFuel c) o).run m).1
    · rw [if_pos hname, if_pos (List.contains_iff_mem.mpr hname)]
      rfl
    · rw [if_neg hname, if_neg (mt List.contains_iff_mem.mp hname)]

/-- A name is inherited where it is that of an ancestor of another one. -/
theorem run_isInherited (hc : Acyclic c) (hm : Complete c [] m) (name : String)
    (others : List String) :
    Complete c [] ((isInherited c name others).run m).2 ∧
      (((isInherited c name others).run m).1 = true ↔
        ∃ o ∈ others, o ≠ name ∧ IsAncestor c o name) := by
  induction others generalizing m with
  | nil =>
    refine ⟨hm, ?_⟩
    change false = true ↔ _
    simp
  | cons o others ih =>
    simp only [run_isInherited_cons, List.mem_cons, exists_eq_or_imp]
    obtain ⟨hstep, hmem⟩ := mem_ancestorsOf hc hm o
    split_ifs with ho hname
    · obtain ⟨hend, hiff⟩ := ih hm
      exact ⟨hend, hiff.trans (or_iff_right fun h => h.1 ho).symm⟩
    · exact ⟨hstep, iff_of_true rfl (.inl ⟨ho, (hmem name).mp hname⟩)⟩
    · obtain ⟨hend, hiff⟩ := ih hstep
      exact ⟨hend, hiff.trans (or_iff_right fun h => hname ((hmem name).mpr h.2)).symm⟩

open scoped Classical in
/-- The parents that are no ancestors of other parents. -/
noncomputable def directOf (c : Catalog) (parents : List String) : List String :=
  parents.filter fun p => ∀ o ∈ parents, o ≠ p → ¬ IsAncestor c o p

/-- The parents that stay are those that no other parent inherits. -/
theorem run_directParents (hc : Acyclic c) (hm : Complete c [] m) (parents : List String) :
    Complete c [] ((directParents c parents).run m).2 ∧
      ((directParents c parents).run m).1 = directOf c parents := by
  classical
  refine run_filterM (I := Complete c []) (fun p m hm => ?_) hm parents
  obtain ⟨hend, hiff⟩ := run_isInherited hc hm p parents
  refine ⟨hend, ?_⟩
  change (!((isInherited c p parents).run m).1) = _
  rw [Bool.eq_iff_iff, Bool.not_eq_true', ← Bool.not_eq_true, hiff, decide_eq_true_iff]
  simp only [not_exists, not_and]

/-- The inherited types are the parents and their ancestors. -/
theorem mem_inheritedTypes (hc : Acyclic c) (hm : Complete c [] m) (parents : List String) :
    Complete c [] ((inheritedTypes c parents).run m).2 ∧
      ∀ a, a ∈ ((inheritedTypes c parents).run m).1 ↔
        ∃ p ∈ parents, a = p ∨ IsAncestor c p a := by
  obtain ⟨hend, habove⟩ := run_mapM (I := Complete c [])
    (R := fun p above => ∀ a, a ∈ above ↔ IsAncestor c p a)
    (fun p m hm => mem_ancestorsOf hc hm p) hm parents
  refine ⟨hend, fun a => ?_⟩
  change a ∈ parents ++ ((parents.mapM (ancestorsOf c (ancestorFuel c))).run m).1.flatten ↔ _
  generalize ((parents.mapM (ancestorsOf c (ancestorFuel c))).run m).1 = above at habove
  clear hend
  induction habove with
  | nil => simp
  | cons hp _ ih =>
    simp only [List.mem_append, List.flatten_cons, List.mem_cons, exists_eq_or_imp, ← ih, hp]
    tauto

end Bindery.Client
