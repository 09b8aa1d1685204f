import Bindery.Proofs.Catalog.Types
import Bindery.Proofs.Client.Ancestors
import Bindery.Proofs.Client.Order

/-!
# Every class once, and its bases first

Types are visited depth first, each behind its parents. The visit comes to its end for any types,
since a type that is being visited is not visited again, and it passes over no type. Where no type is
its own ancestor, a type that is being visited is no parent of what is visited for it, so all parents
of a type stand before it.

## What is proved

* `emits_emissionOrder` — the types in the order of their classes are what visits without a bound
  emit.
* `Emits.covers` — each type is emitted or being visited.
* `Emits.parentsFirst` — where no type is its own ancestor, parents are emitted first.
* `emissionOrder_perm` — the types in the order of their classes are the given types.
-/

namespace Bindery.Client

open Bindery.Schema

variable {c : Catalog} {e e' : Emission} {t : TypeDefinition} {ts : List TypeDefinition} {fuel : Nat}

/-! ### Visits without a bound -/

/-- Is a type of the name being visited, or was it emitted? -/
def Emission.Met (e : Emission) (name : String) : Prop :=
  name ∈ e.visiting ∨ name ∈ e.emitted.map TypeDefinition.name

/-- The types that a type belongs to. -/
def parentDefinitions (c : Catalog) (t : TypeDefinition) : List TypeDefinition :=
  (parentTypes c t).filterMap c.complex.get?

/-- What visits of types one after the other lead to. -/
inductive Emits (c : Catalog) : Emission → List TypeDefinition → Emission → Prop
  /-- All types were visited. -/
  | done {e : Emission} : Emits c e [] e
  /-- A type that was met before is passed over. -/
  | met {e e' : Emission} {t : TypeDefinition} {ts : List TypeDefinition} (h : e.Met t.name)
      (hrest : Emits c e ts e') : Emits c e (t :: ts) e'
  /-- A type is emitted behind its parents, which are visited while it is being visited. -/
  | new {e inner e' : Emission} {t : TypeDefinition} {ts : List TypeDefinition}
      (h : ¬ e.Met t.name)
      (hparents : Emits c { e with visiting := t.name :: e.visiting } (parentDefinitions c t) inner)
      (hrest : Emits c ⟨e.visiting, inner.emitted ++ [t]⟩ ts e') : Emits c e (t :: ts) e'

theorem met_iff {name : String} : (e.visiting.contains name ||
    e.emitted.any fun (x : TypeDefinition) => x.name == name) = true ↔ e.Met name := by
  simp [Emission.Met]

/-- The visit of a type that was met before. -/
theorem emit_met (h : e.Met t.name) : emit c (fuel + 1) e t = e := by
  rw [emit, if_pos (met_iff.mpr h)]

/-- The visit of a type that was not met before. -/
theorem emit_new (h : ¬ e.Met t.name) : emit c (fuel + 1) e t =
    ⟨e.visiting, ((parentDefinitions c t).foldl (emit c fuel)
      { e with visiting := t.name :: e.visiting }).emitted ++ [t]⟩ := by
  rw [emit, if_neg (mt met_iff.mp h)]
  rfl

/-- The number of types that are not being visited. -/
def unvisited (c : Catalog) (visiting : List String) : Nat :=
  (c.complex.keys.filter fun k => !visiting.contains k).length

theorem unvisited_cons_lt {visiting : List String} {name : String} (hname : name ∈ c.complex.keys)
    (hnew : name ∉ visiting) : unvisited c (name :: visiting) < unvisited c visiting := by
  refine length_filter_lt (x := name) (fun k hk => ?_) hname (by simpa using hnew) (by simp)
  simp only [List.contains_cons, Bool.not_or, Bool.and_eq_true] at hk
  exact hk.2

theorem mem_parentDefinitions (hc : c.Indexed) {p : TypeDefinition} :
    p ∈ parentDefinitions c t ↔ p ∈ c.complex.values ∧ p.name ∈ parentTypes c t := by
  rw [parentDefinitions, List.mem_filterMap]
  constructor
  · rintro ⟨name, hname, hget⟩
    obtain ⟨hp, rfl⟩ := hc.found hget
    exact ⟨hp, hname⟩
  · rintro ⟨hp, hname⟩
    exact ⟨p.name, hname, hc.listed hp⟩

/-- Visits take the steps of visits without a bound where their bound is above the number of types
that are not being visited. -/
theorem emits_foldl (hc : c.Indexed) (hts : ∀ t ∈ ts, t ∈ c.complex.values)
    (hfuel : unvisited c e.visiting < fuel) : Emits c e ts (ts.foldl (emit c fuel) e) := by
  induction fuel generalizing e ts with
  | zero => cases hfuel
  | succ fuel ih =>
    induction ts generalizing e with
    | nil => exact .done
    | cons t ts ihts =>
      rw [List.forall_mem_cons] at hts
      rw [List.foldl_cons]
      by_cases hmet : e.Met t.name
      · rw [emit_met hmet]
        exact .met hmet (ihts hts.2 hfuel)
      · have hnew : t.name ∉ e.visiting := fun h => hmet (.inl h)
        have hless := unvisited_cons_lt (hc.mem_keys hts.1) hnew
        rw [emit_new hmet]
        refine .new hmet (ih (fun p hp => ((mem_parentDefinitions hc).mp hp).1) ?_) (ihts hts.2 hfuel)
        exact Nat.lt_of_lt_of_le hless (Nat.lt_succ_iff.mp hfuel)

/-- The types in the order of their classes are what visits without a bound emit. -/
theorem emits_emissionOrder (hc : c.Indexed) (hts : ∀ t ∈ ts, t ∈ c.complex.values) :
    ∃ e, Emits c ⟨[], []⟩ ts e ∧ e.emitted = emissionOrder c ts := by
  have hfuel : unvisited c [] < c.complex.size + 1 := by
    refine Nat.lt_succ_iff.mpr (Nat.le_trans (List.length_filter_le _ _) (Nat.le_of_eq ?_))
    rw [Keyed.keys, List.length_map]
    rfl
  exact ⟨_, emits_foldl hc hts hfuel, rfl⟩

/-! ### What visits lead to -/

/-- Visits come back to the same place, with more types emitted. -/
theorem Emits.grows (h : Emits c e ts e') :
    e'.visiting = e.visiting ∧ e.emitted <+: e'.emitted := by
  induction h with
  | done => exact ⟨rfl, List.prefix_refl _⟩
  | met _ _ ih => exact ih
  | new _ _ _ ihparents ihrest =>
    refine ⟨ihrest.1, ihparents.2.trans ?_⟩
    exact (List.prefix_append _ _).trans ihrest.2

theorem Emission.Met.mono {name : String} (h : e.Met name) (hvisiting : e'.visiting = e.visiting)
    (hemitted : e.emitted <+: e'.emitted) : e'.Met name := by
  rcases h with h | h
  · exact .inl (hvisiting ▸ h)
  · exact .inr ((hemitted.map TypeDefinition.name).subset h)

/-- Each type is emitted or being visited. -/
theorem Emits.covers (h : Emits c e ts e') : ∀ t ∈ ts, e'.Met t.name := by
  induction h with
  | done => exact List.forall_mem_nil _
  | met hmet hrest ih =>
    exact List.forall_mem_cons.mpr ⟨hmet.mono hrest.grows.1 hrest.grows.2, ih⟩
  | @new e inner e' t ts _ _ hrest _ ih =>
    refine List.forall_mem_cons.mpr ⟨?_, ih⟩
    have hlast : Emission.Met ⟨e.visiting, inner.emitted ++ [t]⟩ t.name := .inr (by simp)
    exact hlast.mono hrest.grows.1 hrest.grows.2

/-- Each type stands behind its parents. -/
def ParentsFirst (c : Catalog) (ts : List TypeDefinition) : Prop :=
  ∀ before t after, ts = before ++ t :: after →
    ∀ p ∈ parentTypes c t, p ∈ before.map TypeDefinition.name

theorem ParentsFirst.snoc (h : ParentsFirst c ts)
    (ht : ∀ p ∈ parentTypes c t, p ∈ ts.map TypeDefinition.name) : ParentsFirst c (ts ++ [t]) := by
  intro before u after heq
  rcases List.eq_nil_or_concat after with rfl | ⟨after, last, rfl⟩
  · obtain ⟨rfl, hu⟩ := List.append_inj' heq rfl
    cases hu
    exact ht
  · rw [List.concat_eq_append, ← List.cons_append, ← List.append_assoc] at heq
    exact h before u after (List.append_inj' heq rfl).1

/-- Where no type is its own ancestor and those that are being visited have the visited ones as
ancestors, the emitted types stand behind their parents. -/
theorem Emits.parentsFirst (hc : c.Indexed) (hacyclic : Acyclic c) (h : Emits c e ts e')
    (hts : ∀ t ∈ ts, t ∈ c.complex.values)
    (hvisiting : ∀ v ∈ e.visiting, ∀ t ∈ ts, IsAncestor c v (TypeDefinition.name t))
    (he : ParentsFirst c e.emitted) : ParentsFirst c e'.emitted := by
  induction h with
  | done => exact he
  | met _ _ ih =>
    exact ih (List.forall_mem_cons.mp hts).2
      (fun v hv => (List.forall_mem_cons.mp (hvisiting v hv)).2) he
  | @new e inner e' t ts hmet hparents hrest ihparents ihrest =>
    rw [List.forall_mem_cons] at hts
    have hparent : ∀ p ∈ parentTypes c t, IsAncestor c t.name p := fun p hp =>
      .single (by rwa [parentsOf_of_get? (hc.listed hts.1)])
    have hbelow : ∀ v ∈ t.name :: e.visiting, ∀ p ∈ parentTypes c t, IsAncestor c v p := by
      rw [List.forall_mem_cons]
      exact ⟨hparent, fun v hv p hp => (hvisiting v hv t List.mem_cons_self).trans (hparent p hp)⟩
    have hinner : ParentsFirst c inner.emitted :=
      ihparents (fun p hp => ((mem_parentDefinitions hc).mp hp).1)
        (fun v hv p hp => hbelow v hv p.name ((mem_parentDefinitions hc).mp hp).2) he
    have hfirst : ∀ p ∈ parentTypes c t, p ∈ inner.emitted.map TypeDefinition.name := by
      intro p hp
      obtain ⟨u, hu⟩ := Keyed.exists_get?_of_mem_keys (mem_parentTypes.mp hp).2
      obtain ⟨hmem, rfl⟩ := hc.found hu
      rcases hparents.covers u ((mem_parentDefinitions hc).mpr ⟨hmem, hp⟩) with hv | hemitted
      · rw [hparents.grows.1] at hv
        exact absurd (hbelow u.name hv u.name hp) (hacyclic u.name)
      · exact hemitted
    refine ihrest hts.2 (fun v hv => ?_) (hinner.snoc hfirst)
    exact (List.forall_mem_cons.mp (hvisiting v hv)).2

/-- **The types in the order of their classes are the given types, each once.** -/
theorem emissionOrder_perm (hc : c.Indexed) (hperm : ts.Perm c.complex.values) :
    (emissionOrder c ts).Perm c.complex.values := by
  have hts : ∀ t ∈ ts, t ∈ c.complex.values := fun t ht => hperm.subset ht
  obtain ⟨hdistinct, hknown⟩ := emissionOrder_sound hts
  refine (List.perm_ext_iff_of_nodup hdistinct.of_map hc.distinct.of_map).mpr fun t => ?_
  refine ⟨hknown t, fun ht => ?_⟩
  obtain ⟨e, he, hemitted⟩ := emits_emissionOrder hc hts
  rcases he.covers t (hperm.mem_iff.mpr ht) with hv | hname
  · rw [he.grows.1] at hv
    cases hv
  · obtain ⟨u, hu, hname⟩ := List.mem_map.mp hname
    rw [hemitted] at hu
    exact List.inj_on_of_nodup_map hc.distinct (hknown u hu) ht hname ▸ hu

/-- Where no type is its own ancestor, each type stands behind its parents. -/
theorem parentsFirst_emissionOrder (hc : c.Indexed) (hacyclic : Acyclic c)
    (hts : ∀ t ∈ ts, t ∈ c.complex.values) : ParentsFirst c (emissionOrder c ts) := by
  obtain ⟨e, he, hemitted⟩ := emits_emissionOrder hc hts
  rw [← hemitted]
  refine he.parentsFirst hc hacyclic hts (List.forall_mem_nil _) fun before t after heq => ?_
  exact absurd heq.symm (by simp)

end Bindery.Client
