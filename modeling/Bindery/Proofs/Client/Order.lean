import Bindery.Client.Data
import Bindery.Proofs.Keyed
import Bindery.Proofs.Result
import Mathlib.Data.List.Nodup

/-!
# The order of classes

The configured order only rearranges the classes. The order in which parents stand before the types
that belong to them names each type once: while the parents of a type are visited the type itself is
not emitted, and what was emitted is not emitted again.

## What is proved

* `ordered_perm`, `exists_ordered` — the items in the configured order are the items, and there is
  such an order.
* `emit_sound` — the visit of a type emits known types, each once, and none that is being visited.
* `emissionOrder_sound` — so does the visit of all types.
-/

namespace Bindery.Client

open Bindery.Schema

/-! ### The configured order -/

/-- The items in the configured order are the items. -/
theorem ordered_perm {α : Type} {c : Configuration} {key : α → Except Refusal String}
    {xs ys : List α} (h : ordered c key xs = .ok ys) : ys.Perm xs := by
  rw [ordered] at h
  split at h
  · cases h
    exact .refl _
  · obtain ⟨keyed, hkeyed, rfl⟩ := map_eq_ok.mp h
    have hitems : keyed.map Prod.snd = xs := by
      refine (map_of_mapM hkeyed fun a p hp => ?_).trans (List.map_id xs)
      obtain ⟨k, -, rfl⟩ := map_eq_ok.mp hp
      rfl
    rw [← hitems]
    exact (List.mergeSort_perm _ _).map Prod.snd

/-- Items with usable keys can be put into the configured order. -/
theorem exists_ordered {α : Type} (c : Configuration) (key : α → Except Refusal String)
    (xs : List α) (h : ∀ x ∈ xs, ∃ k, key x = .ok k) : ∃ ys, ordered c key xs = .ok ys := by
  rw [ordered]
  split
  · exact ⟨xs, rfl⟩
  · have hkeyed : ∀ x ∈ xs, ∃ p, (key x).map (fun k => (k, x)) = .ok p := by
      intro x hx
      obtain ⟨k, hk⟩ := h x hx
      exact ⟨(k, x), map_eq_ok.mpr ⟨k, hk, rfl⟩⟩
    obtain ⟨ps, hps⟩ := exists_mapM hkeyed
    exact ⟨sortedBy ps, map_eq_ok.mpr ⟨ps, hps, rfl⟩⟩

/-! ### Parents before the types that belong to them -/

variable {c : Catalog}

/-- The emitted types are known and have different names. -/
structure Emission.Sound (c : Catalog) (e : Emission) : Prop where
  /-- No name is emitted twice. -/
  distinct : (e.emitted.map TypeDefinition.name).Nodup
  /-- Only types whose values need a selection set are emitted. -/
  known : ∀ t ∈ e.emitted, t ∈ c.complex.values

/-- A later emission of a visit: it is back at the same place, and no type that is being visited was
emitted on the way. -/
structure Emission.Leads (e e' : Emission) : Prop where
  /-- The same types are being visited. -/
  visiting : e'.visiting = e.visiting
  /-- What was emitted on the way is not being visited. -/
  fresh : ∀ t ∈ e'.emitted, t ∈ e.emitted ∨ t.name ∉ e.visiting

theorem Emission.Leads.refl (e : Emission) : e.Leads e :=
  ⟨rfl, fun _ => .inl⟩

theorem Emission.Leads.trans {e₁ e₂ e₃ : Emission} (h : e₁.Leads e₂) (h' : e₂.Leads e₃) :
    e₁.Leads e₃ := by
  refine ⟨h'.visiting.trans h.visiting, fun t ht => ?_⟩
  rcases h'.fresh t ht with ht | ht
  · exact h.fresh t ht
  · exact .inr (h.visiting ▸ ht)

/-- The visits of types one after the other, where each visit is sound. -/
theorem foldl_emit {fuel : Nat}
    (hemit : ∀ {e : Emission} {t : TypeDefinition}, e.Sound c → t ∈ c.complex.values →
      (emit c fuel e t).Sound c ∧ e.Leads (emit c fuel e t))
    {ts : List TypeDefinition} (hts : ∀ t ∈ ts, t ∈ c.complex.values) {e : Emission}
    (he : e.Sound c) :
    (ts.foldl (emit c fuel) e).Sound c ∧ e.Leads (ts.foldl (emit c fuel) e) := by
  induction ts generalizing e with
  | nil => exact ⟨he, .refl e⟩
  | cons t ts ih =>
    rw [List.forall_mem_cons] at hts
    obtain ⟨hsound, hleads⟩ := hemit he hts.1
    obtain ⟨hsound', hleads'⟩ := ih hts.2 hsound
    exact ⟨hsound', hleads.trans hleads'⟩

/-- A type behind what its parents emitted, where its name was not emitted before. -/
theorem Emission.Sound.push {e inner : Emission} {t : TypeDefinition}
    (hinner : inner.Sound c)
    (hleads : Emission.Leads { e with visiting := t.name :: e.visiting } inner)
    (ht : t ∈ c.complex.values) (hvisiting : t.name ∉ e.visiting)
    (hemitted : ∀ x ∈ e.emitted, x.name ≠ t.name) :
    Emission.Sound c ⟨e.visiting, inner.emitted ++ [t]⟩ ∧
      e.Leads ⟨e.visiting, inner.emitted ++ [t]⟩ := by
  have hnew : ∀ x ∈ inner.emitted, x.name ≠ t.name := by
    intro x hx
    rcases hleads.fresh x hx with hx | hx
    · exact hemitted x hx
    · exact fun hname => hx (hname ▸ List.mem_cons_self)
  refine ⟨⟨?_, fun x hx => ?_⟩, rfl, fun x hx => ?_⟩
  · rw [List.map_append, List.map_singleton]
    refine List.nodup_append'.mpr ⟨hinner.distinct, List.nodup_singleton _, ?_⟩
    intro name hname hlast
    obtain ⟨x, hx, rfl⟩ := List.mem_map.mp hname
    exact hnew x hx (List.mem_singleton.mp hlast)
  · rcases List.mem_append.mp hx with hx | hx
    · exact hinner.known x hx
    · rwa [List.mem_singleton.mp hx]
  · rcases List.mem_append.mp hx with hx | hx
    · exact (hleads.fresh x hx).imp_right fun h => List.not_mem_of_not_mem_cons h
    · exact .inr (List.mem_singleton.mp hx ▸ hvisiting)

/-- The visit of a type emits known types, each once, and none that is being visited. -/
theorem emit_sound {fuel : Nat} {e : Emission} {t : TypeDefinition} (he : e.Sound c)
    (ht : t ∈ c.complex.values) : (emit c fuel e t).Sound c ∧ e.Leads (emit c fuel e t) := by
  induction fuel generalizing e t with
  | zero => exact ⟨he, .refl e⟩
  | succ fuel ih =>
    rw [emit]
    split_ifs with hmet
    · exact ⟨he, .refl e⟩
    · have hparents : ∀ p ∈ (parentTypes c t).filterMap c.complex.get?, p ∈ c.complex.values := by
        intro p hp
        obtain ⟨name, -, hget⟩ := List.mem_filterMap.mp hp
        exact List.mem_map_of_mem (Keyed.mem_entries_of_get? hget)
      obtain ⟨hinner, hleads⟩ := foldl_emit ih hparents
        (e := { e with visiting := t.name :: e.visiting }) ⟨he.distinct, he.known⟩
      simp only [Bool.or_eq_true, List.contains_iff_mem, List.any_eq_true, beq_iff_eq, not_or,
        not_exists, not_and] at hmet
      exact hinner.push hleads ht hmet.1 hmet.2

/-- The types in the order of their classes are known and have different names. -/
theorem emissionOrder_sound {ts : List TypeDefinition} (hts : ∀ t ∈ ts, t ∈ c.complex.values) :
    ((emissionOrder c ts).map TypeDefinition.name).Nodup ∧
      ∀ t ∈ emissionOrder c ts, t ∈ c.complex.values := by
  have hstart : Emission.Sound c ⟨[], []⟩ := ⟨.nil, nofun⟩
  have h : (ts.foldl (emit c (c.complex.size + 1)) ⟨[], []⟩).Sound c :=
    (foldl_emit emit_sound hts hstart).1
  exact ⟨h.distinct, h.known⟩

end Bindery.Client
