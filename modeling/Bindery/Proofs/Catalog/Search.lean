import Bindery.Proofs.Catalog.Types
import Bindery.Proofs.Catalog.UnionFields
import Mathlib.Data.Finset.Card
import Mathlib.Logic.Relation

/-!
# The search for types that input types lead to

The search goes from type to type along the members that are generated. It has a bound for its depth
and shares what was visited between all types that it starts from. The bound is never reached, and
what a visit leaves behind is closed: each type that was visited leads to visited types only, those
apart at which the search still stands.

## What is proved

* `leadsTo_iff` — a type leads to those that a visit of it goes on to.
* `foldlM_visitFrom_bound` — beyond the number of types, the bound does not matter.
* `explored_of_visitFrom`, `explored_of_foldlM` — what a visit of one type adds, and of several.
* `exists_foldlM_visitFrom` — a search succeeds where the members of all types that it can reach can
  be looked up.
* `mem_found_iff` — a search finds the object types and interfaces that can be reached.
* `exists_foldlM_of_perm` — it finds them from whatever type it starts first.
-/

namespace Bindery.Catalog

open Bindery.Schema

variable {c : Catalog} {t u : TypeDefinition} {ts next : List TypeDefinition} {v v' : Visit}
  {bound bound' : Nat}

/-! ### From type to type -/

/-- The search follows a member of the type with the reference: a field of an input object type, or
a field of an object type or an interface that is generated. -/
inductive Follows (c : Catalog) (t : TypeDefinition) : TypeRef → Prop where
  /-- All fields of input object types are generated. -/
  | input {f : Argument} (hkind : t.kind = .inputObject) (hf : f ∈ t.inputFields) :
      Follows c t f.type
  /-- Of the fields of other types some are left out. -/
  | field {fs : List Field} {f : Field} (hkind : t.kind = .object ∨ t.kind = .interface)
      (hfs : c.ownFields t = .ok fs) (hf : f ∈ fs) : Follows c t f.type

/-- A member of the type leads to another one at which the search can go on. -/
def LeadsTo (c : Catalog) (t u : TypeDefinition) : Prop :=
  u ∈ c.schema.types ∧ (u.kind = .inputObject ∨ u.kind = .object ∨ u.kind = .interface) ∧
    ∃ r, c.Follows t r ∧ r.innermost.nameOrEmpty = u.name

/-- The type of a reference, if the search can go on there. -/
def target? (c : Catalog) (r : TypeRef) : Option TypeDefinition :=
  (c.types.get? r.innermost.nameOrEmpty).filter fun t => isPassage t.kind

/-- The types to which a visit of the type goes on. -/
def nextTypes (c : Catalog) (t : TypeDefinition) : Except Refusal (List TypeDefinition) :=
  (c.fieldTypes t).map (List.filterMap c.target?)

/-- The visit with one more type. -/
def Visit.mark (v : Visit) (t : TypeDefinition) : Visit :=
  ⟨t.name :: v.visited, if t.kind == .inputObject then v.found else t.name :: v.found⟩

/-- A visit passes over unions and what was visited. Else it visits all types to which the type
leads. -/
theorem visitFrom_succ (v : Visit) (t : TypeDefinition) :
    c.visitFrom (bound + 1) v t =
      if t.kind == .union || v.visited.contains t.name then .ok v
      else c.nextTypes t >>= fun next => next.foldlM (c.visitFrom bound) (v.mark t) := by
  rw [visitFrom, nextTypes]
  refine if_congr Iff.rfl rfl ?_
  cases c.fieldTypes t with
  | error e => rfl
  | ok rs =>
    -- to follow references is to visit those of their types at which the search can go on
    refine Eq.trans ?_ List.foldlM_filterMap.symm
    refine congrArg (fun visit => rs.foldlM visit (v.mark t)) (funext fun v => funext fun r => ?_)
    rw [target?]
    cases c.types.get? r.innermost.nameOrEmpty with
    | none => rfl
    | some u =>
      rw [Option.filter_some]
      by_cases hkind : isPassage u.kind = true
      · rw [if_pos hkind]
        exact if_pos hkind
      · rw [if_neg hkind]
        exact if_neg hkind

/-- The catalog finds the types of its schema under their names, which differ. -/
structure Named (c : Catalog) : Prop where
  /-- The types are found by their names. -/
  types : c.types = byName c.schema.types
  /-- The names differ. -/
  distinct : (c.schema.types.map TypeDefinition.name).Nodup

theorem Named.eq_of_name (h : c.Named) (ht : t ∈ c.schema.types) (hu : u ∈ c.schema.types)
    (hname : t.name = u.name) : t = u :=
  List.inj_on_of_nodup_map h.distinct ht hu hname

theorem isPassage_iff {k : Kind} :
    isPassage k = true ↔ k = .inputObject ∨ k = .object ∨ k = .interface := by
  cases k <;> simp [isPassage]

theorem target?_eq_some (h : c.Named) {r : TypeRef} :
    c.target? r = some u ↔
      u ∈ c.schema.types ∧ isPassage u.kind = true ∧ r.innermost.nameOrEmpty = u.name := by
  rw [target?, Option.filter_eq_some_iff, h.types, get?_byName_iff h.distinct, and_right_comm,
    and_assoc, eq_comm (a := u.name)]

/-- The references that a visit follows are those of the members that are generated. -/
theorem exists_fieldTypes_iff (hkind : isPassage t.kind = true) {r : TypeRef} :
    c.Follows t r ↔ ∃ rs, c.fieldTypes t = .ok rs ∧ r ∈ rs := by
  rw [fieldTypes]
  constructor
  · rintro (⟨hinput, hf⟩ | ⟨hobject, hfs, hf⟩)
    · exact ⟨_, if_pos (by simp [hinput]), List.mem_map_of_mem hf⟩
    · refine ⟨_, ?_, List.mem_map_of_mem hf⟩
      rw [if_neg (by rcases hobject with hk | hk <;> simp [hk]), hfs]
      rfl
  · rintro ⟨rs, hrs, hr⟩
    split_ifs at hrs with hinput
    · cases hrs
      obtain ⟨f, hf, rfl⟩ := List.mem_map.mp hr
      exact .input (by simpa using hinput) hf
    · obtain ⟨fs, hfs, rfl⟩ := map_eq_ok.mp hrs
      obtain ⟨f, hf, rfl⟩ := List.mem_map.mp hr
      exact .field ((isPassage_iff.mp hkind).resolve_left (by simpa using hinput)) hfs hf

/-- **A type leads to those that a visit of it goes on to.** -/
theorem leadsTo_iff (h : c.Named) (hkind : isPassage t.kind = true) :
    c.LeadsTo t u ↔ ∃ next, c.nextTypes t = .ok next ∧ u ∈ next := by
  simp only [LeadsTo, nextTypes, map_eq_ok, exists_fieldTypes_iff hkind, ← isPassage_iff]
  constructor
  · rintro ⟨hu, hpassage, r, ⟨rs, hrs, hr⟩, hname⟩
    exact ⟨_, ⟨rs, hrs, rfl⟩,
      List.mem_filterMap.mpr ⟨r, hr, (target?_eq_some h).mpr ⟨hu, hpassage, hname⟩⟩⟩
  · rintro ⟨-, ⟨rs, hrs, rfl⟩, hmem⟩
    obtain ⟨r, hr, htarget⟩ := List.mem_filterMap.mp hmem
    obtain ⟨hu, hpassage, hname⟩ := (target?_eq_some h).mp htarget
    exact ⟨hu, hpassage, r, ⟨rs, hrs, hr⟩, hname⟩

theorem LeadsTo.isPassage (h : c.LeadsTo t u) : isPassage u.kind = true :=
  isPassage_iff.mpr h.2.1

/-- Types that lead on are types at which the search can go on. -/
theorem LeadsTo.isPassage_left (h : c.LeadsTo t u) : Catalog.isPassage t.kind = true := by
  obtain ⟨-, -, r, ⟨hinput, -⟩ | ⟨hobject, -, -⟩, -⟩ := h
  · exact isPassage_iff.mpr (.inl hinput)
  · exact isPassage_iff.mpr (.inr hobject)

/-! ### The bound -/

/-- The names of types that were not visited. -/
def unvisited (c : Catalog) (v : Visit) : Finset String :=
  (c.schema.types.map TypeDefinition.name).toFinset \ v.visited.toFinset

theorem unvisited_subset (h : v.visited ⊆ v'.visited) : c.unvisited v' ⊆ c.unvisited v :=
  Finset.sdiff_subset_sdiff (Finset.Subset.refl _)
    fun _ hn => List.mem_toFinset.mpr (h (List.mem_toFinset.mp hn))

/-- A type that is visited for the first time leaves fewer types to visit. -/
theorem card_unvisited_mark (ht : t ∈ c.schema.types) (hnew : t.name ∉ v.visited) :
    (c.unvisited (v.mark t)).card < (c.unvisited v).card := by
  refine Finset.card_lt_card ⟨unvisited_subset (List.subset_cons_self _ _), fun hsub => ?_⟩
  have hmem : t.name ∈ c.unvisited v :=
    Finset.mem_sdiff.mpr ⟨List.mem_toFinset.mpr (List.mem_map_of_mem ht), by simpa using hnew⟩
  exact (Finset.mem_sdiff.mp (hsub hmem)).2 (List.mem_toFinset.mpr List.mem_cons_self)

theorem card_unvisited_le (c : Catalog) (v : Visit) :
    (c.unvisited v).card ≤ c.schema.types.length :=
  (Finset.card_le_card Finset.sdiff_subset).trans
    ((List.toFinset_card_le _).trans (List.length_map _).le)

/-- What was visited stays visited. -/
theorem visited_subset_of_visitFrom (h : c.visitFrom bound v t = .ok v') :
    v.visited ⊆ v'.visited := by
  induction bound generalizing v t v' with
  | zero =>
    cases h
    exact List.Subset.refl _
  | succ bound ih =>
    rw [visitFrom_succ] at h
    split_ifs at h
    · cases h
      exact List.Subset.refl _
    · obtain ⟨next, -, h⟩ := bind_eq_ok.mp h
      exact keeps_of_foldlM (P := fun v' => v.visited ⊆ v'.visited)
        (fun hstep hsub => List.Subset.trans hsub (ih hstep)) (List.subset_cons_self _ _) h

/-- Visits one after the other are the same where each of them is, as long as types are left. -/
theorem foldlM_visitFrom_congr
    (hstep : ∀ v, (c.unvisited v).card < bound → (c.unvisited v).card < bound' →
      ∀ t ∈ ts, c.visitFrom bound v t = c.visitFrom bound' v t)
    (h : (c.unvisited v).card < bound) (h' : (c.unvisited v).card < bound') :
    ts.foldlM (c.visitFrom bound) v = ts.foldlM (c.visitFrom bound') v := by
  induction ts generalizing v with
  | nil => rfl
  | cons t ts ih =>
    rw [List.foldlM_cons, List.foldlM_cons, ← hstep v h h' t List.mem_cons_self]
    cases hvisit : c.visitFrom bound v t with
    | error e => rfl
    | ok v₁ =>
      have hle := Finset.card_le_card
        (unvisited_subset (c := c) (visited_subset_of_visitFrom hvisit))
      exact ih (fun v h h' t ht => hstep v h h' t (List.mem_cons_of_mem _ ht))
        (hle.trans_lt h) (hle.trans_lt h')

theorem mem_types_of_nextTypes (hnamed : c.Named) (h : c.nextTypes t = .ok next) (hu : u ∈ next) :
    u ∈ c.schema.types ∧ isPassage u.kind = true := by
  obtain ⟨rs, -, rfl⟩ := map_eq_ok.mp h
  obtain ⟨r, -, htarget⟩ := List.mem_filterMap.mp hu
  obtain ⟨hmem, hkind, -⟩ := (target?_eq_some hnamed).mp htarget
  exact ⟨hmem, hkind⟩

/-- A visit with more depth than types are left ends by itself. -/
theorem visitFrom_bound (hnamed : c.Named) (ht : t ∈ c.schema.types)
    (h : (c.unvisited v).card < bound) (h' : (c.unvisited v).card < bound') :
    c.visitFrom bound v t = c.visitFrom bound' v t := by
  induction bound generalizing bound' v t with
  | zero => cases h
  | succ bound ih =>
    cases bound' with
    | zero => cases h'
    | succ bound' =>
      rw [visitFrom_succ, visitFrom_succ]
      split_ifs with hdone
      · rfl
      · have hnew : t.name ∉ v.visited := by
          rw [Bool.or_eq_true, not_or] at hdone
          simpa using hdone.2
        have hless := card_unvisited_mark (c := c) ht hnew
        cases hnext : c.nextTypes t with
        | error e => rfl
        | ok next =>
          refine foldlM_visitFrom_congr (fun v h h' u hu => ?_) (by omega) (by omega)
          exact ih (mem_types_of_nextTypes hnamed hnext hu).1 h h'

/-- **Beyond the number of types, the bound does not matter**: the search ends by itself. -/
theorem foldlM_visitFrom_bound (hnamed : c.Named) (hts : ∀ t ∈ ts, t ∈ c.schema.types) (v : Visit)
    (h : c.schema.types.length < bound) (h' : c.schema.types.length < bound') :
    ts.foldlM (c.visitFrom bound) v = ts.foldlM (c.visitFrom bound') v :=
  foldlM_visitFrom_congr (fun _ h h' t ht => visitFrom_bound hnamed (hts t ht) h h')
    ((card_unvisited_le c v).trans_lt h) ((card_unvisited_le c v).trans_lt h')

/-! ### What a visit leaves behind -/

/-- What was visited and found: types with a property, and of these the object types and interfaces
are found, each once. -/
structure Charted (c : Catalog) (P : TypeDefinition → Prop) (v : Visit) : Prop where
  /-- The visited types have the property. -/
  visited : ∀ n ∈ v.visited, ∃ t ∈ c.schema.types, t.name = n ∧ isPassage t.kind = true ∧ P t
  /-- The visited types that are no input object types are found. -/
  found : ∀ t ∈ c.schema.types, t.name ∈ v.found ↔ t.name ∈ v.visited ∧ t.kind ≠ .inputObject
  /-- Only visited types are found. -/
  subset : v.found ⊆ v.visited
  /-- No type is found twice. -/
  nodup : v.found.Nodup

/-- The visited types lead to visited types only, those apart at which the search stands. -/
def ClosedBut (c : Catalog) (pending : List String) (v : Visit) : Prop :=
  ∀ t ∈ c.schema.types, t.name ∈ v.visited → t.name ∉ pending →
    ∃ next, c.nextTypes t = .ok next ∧ ∀ u ∈ next, u.name ∈ v.visited

/-- What visits of some types add to what was visited. -/
structure Explored (c : Catalog) (ts : List TypeDefinition) (v v' : Visit) : Prop where
  /-- What was visited stays visited. -/
  kept : v.visited ⊆ v'.visited
  /-- The types are visited. -/
  reached : ∀ t ∈ ts, t.name ∈ v'.visited
  /-- No type is left from which the search did not go on. -/
  closed : ∀ pending, c.ClosedBut pending v → c.ClosedBut pending v'
  /-- What holds of the types and of those to which they lead holds of the types that are visited. -/
  charted : ∀ P : TypeDefinition → Prop, (∀ t u, P t → c.LeadsTo t u → P u) → (∀ t ∈ ts, P t) →
    c.Charted P v → c.Charted P v'

theorem explored_nil (c : Catalog) (v : Visit) : c.Explored [] v v :=
  ⟨List.Subset.refl _, nofun, fun _ => id, fun _ _ _ => id⟩

/-- One type after the other. -/
theorem Explored.cons {v₁ : Visit} (h : c.Explored [t] v v₁) (h' : c.Explored ts v₁ v') :
    c.Explored (t :: ts) v v' where
  kept := List.Subset.trans h.kept h'.kept
  reached := List.forall_mem_cons.mpr ⟨h'.kept (h.reached t (List.mem_singleton_self t)), h'.reached⟩
  closed pending hv := h'.closed pending (h.closed pending hv)
  charted P hP hts hv := by
    rw [List.forall_mem_cons] at hts
    exact h'.charted P hP hts.2 (h.charted P hP (List.forall_mem_singleton.mpr hts.1) hv)

/-- A type that was visited adds nothing. -/
theorem explored_of_visited (h : t.name ∈ v.visited) : c.Explored [t] v v :=
  ⟨List.Subset.refl _, List.forall_mem_singleton.mpr h, fun _ => id, fun _ _ _ => id⟩

theorem Charted.mark {P : TypeDefinition → Prop} (hnamed : c.Named) (h : c.Charted P v)
    (ht : t ∈ c.schema.types) (hkind : isPassage t.kind = true) (hP : P t)
    (hnew : t.name ∉ v.visited) : c.Charted P (v.mark t) where
  visited := List.forall_mem_cons.mpr ⟨⟨t, ht, rfl, hkind, hP⟩, h.visited⟩
  found u hu := by
    have hother : u.name = t.name → u = t := hnamed.eq_of_name hu ht
    simp only [Visit.mark, List.mem_cons, or_and_right, ← h.found u hu]
    split_ifs with hinput
    · rw [beq_iff_eq] at hinput
      refine (or_iff_right ?_).symm
      rintro ⟨hname, hother'⟩
      exact hother' (hother hname ▸ hinput)
    · rw [List.mem_cons]
      refine or_congr_left ⟨fun hname => ⟨hname, ?_⟩, And.left⟩
      rw [hother hname]
      simpa using hinput
  subset := by
    rw [Visit.mark]
    split_ifs
    · exact List.Subset.trans h.subset (List.subset_cons_self _ _)
    · exact List.cons_subset_cons _ h.subset
  nodup := by
    rw [Visit.mark]
    split_ifs
    · exact h.nodup
    · exact List.nodup_cons.mpr ⟨fun hmem => hnew (h.subset hmem), h.nodup⟩

/-- A type is explored where all types are to which it leads. -/
theorem Explored.mark (hnamed : c.Named) (ht : t ∈ c.schema.types)
    (hkind : isPassage t.kind = true) (hnew : t.name ∉ v.visited)
    (hnext : c.nextTypes t = .ok next) (h : c.Explored next (v.mark t) v') :
    c.Explored [t] v v' where
  kept := List.Subset.trans (List.subset_cons_self _ _) h.kept
  reached := List.forall_mem_singleton.mpr (h.kept List.mem_cons_self)
  closed pending hv := by
    -- while its members are followed, the type itself is pending
    have hmarked : c.ClosedBut (t.name :: pending) (v.mark t) := by
      intro u hu hvisited hpending
      rw [List.mem_cons, not_or] at hpending
      obtain ⟨nextOfU, hnextOfU, hall⟩ :=
        hv u hu (List.mem_of_ne_of_mem hpending.1 hvisited) hpending.2
      exact ⟨nextOfU, hnextOfU, fun w hw => List.mem_cons_of_mem _ (hall w hw)⟩
    intro u hu hvisited hpending
    by_cases hname : u.name = t.name
    · obtain rfl := hnamed.eq_of_name hu ht hname
      exact ⟨next, hnext, h.reached⟩
    · exact h.closed _ hmarked u hu hvisited (List.not_mem_cons_of_ne_of_not_mem hname hpending)
  charted P hP hts hv := by
    have hPt : P t := hts t (List.mem_singleton_self t)
    refine h.charted P hP (fun u hu => ?_) (hv.mark hnamed ht hkind hPt hnew)
    exact hP t u hPt ((leadsTo_iff hnamed hkind).mpr ⟨next, hnext, hu⟩)

/-- What visits of several types add, where each visit adds what it should. -/
theorem explored_foldlM
    (hstep : ∀ t ∈ ts, ∀ v v', (c.unvisited v).card < bound → c.visitFrom bound v t = .ok v' →
      c.Explored [t] v v')
    (hbound : (c.unvisited v).card < bound) (h : ts.foldlM (c.visitFrom bound) v = .ok v') :
    c.Explored ts v v' := by
  induction ts generalizing v with
  | nil =>
    rw [← pure_eq_ok.mp h]
    exact explored_nil c v
  | cons t ts ih =>
    rw [List.forall_mem_cons] at hstep
    obtain ⟨v₁, hvisit, hrest⟩ := bind_eq_ok.mp ((List.foldlM_cons ..).symm.trans h)
    have hfirst := hstep.1 v v₁ hbound hvisit
    have hle := Finset.card_le_card (unvisited_subset (c := c) hfirst.kept)
    exact hfirst.cons (ih hstep.2 (hle.trans_lt hbound) hrest)

/-- **A visit explores the type**: all that it leads to is visited. -/
theorem explored_of_visitFrom (hnamed : c.Named) (ht : t ∈ c.schema.types)
    (hkind : isPassage t.kind = true) (hbound : (c.unvisited v).card < bound)
    (h : c.visitFrom bound v t = .ok v') : c.Explored [t] v v' := by
  induction bound generalizing v t v' with
  | zero => cases hbound
  | succ bound ih =>
    rw [visitFrom_succ] at h
    split_ifs at h with hdone
    · cases h
      have hunion : t.kind ≠ .union := by
        intro hunion
        rw [hunion] at hkind
        cases hkind
      exact explored_of_visited (by simpa [hunion] using hdone)
    · rw [Bool.or_eq_true, not_or] at hdone
      have hnew : t.name ∉ v.visited := by simpa using hdone.2
      obtain ⟨next, hnext, h⟩ := bind_eq_ok.mp h
      have hless := card_unvisited_mark (c := c) ht hnew
      refine .mark hnamed ht hkind hnew hnext (explored_foldlM (fun u hu v v' => ?_) (by omega) h)
      obtain ⟨hmem, hpassage⟩ := mem_types_of_nextTypes hnamed hnext hu
      exact ih hmem hpassage

theorem explored_of_foldlM (hnamed : c.Named)
    (hts : ∀ t ∈ ts, t ∈ c.schema.types ∧ isPassage t.kind = true)
    (hbound : c.schema.types.length < bound) (h : ts.foldlM (c.visitFrom bound) v = .ok v') :
    c.Explored ts v v' := by
  refine explored_foldlM (fun t ht _ _ => ?_) ((card_unvisited_le c v).trans_lt hbound) h
  exact explored_of_visitFrom hnamed (hts t ht).1 (hts t ht).2

/-! ### Reachable types -/

/-- The type is one of some or can be reached from one of them. -/
def ReachableFrom (c : Catalog) (ts : List TypeDefinition) (u : TypeDefinition) : Prop :=
  ∃ t ∈ ts, Relation.ReflTransGen c.LeadsTo t u

theorem reachableFrom_of_mem (h : t ∈ ts) : c.ReachableFrom ts t :=
  ⟨t, h, .refl⟩

theorem ReachableFrom.step (h : c.ReachableFrom ts t) (hstep : c.LeadsTo t u) :
    c.ReachableFrom ts u := by
  obtain ⟨root, hroot, hpath⟩ := h
  exact ⟨root, hroot, hpath.tail hstep⟩

theorem ReachableFrom.mem_types (h : c.ReachableFrom ts u)
    (hts : ∀ t ∈ ts, t ∈ c.schema.types ∧ isPassage t.kind = true) :
    u ∈ c.schema.types ∧ isPassage u.kind = true := by
  obtain ⟨root, hroot, hpath⟩ := h
  cases hpath with
  | refl => exact hts u hroot
  | tail _ hstep => exact ⟨hstep.1, hstep.isPassage⟩

/-- Nothing was visited. -/
theorem charted_nil (c : Catalog) (P : TypeDefinition → Prop) : c.Charted P ⟨[], []⟩ :=
  ⟨nofun, fun _ _ => ⟨nofun, fun h => nomatch h.1⟩, List.Subset.refl _, .nil⟩

/-- **A search succeeds where the members of all types that it can reach can be looked up.** -/
theorem exists_foldlM_visitFrom {P : TypeDefinition → Prop}
    (hP : ∀ t, P t → ∃ next, c.nextTypes t = .ok next ∧ ∀ u ∈ next, P u) (hts : ∀ t ∈ ts, P t)
    (v : Visit) : ∃ v', ts.foldlM (c.visitFrom bound) v = .ok v' := by
  suffices hvisit : ∀ t, P t → ∀ v, ∃ v', c.visitFrom bound v t = .ok v' from
    exists_foldlM (fun v t ht => hvisit t (hts t ht) v) v
  clear hts v
  induction bound with
  | zero => exact fun t _ v => ⟨v, rfl⟩
  | succ bound ih =>
    intro t ht v
    rw [visitFrom_succ]
    split_ifs
    · exact ⟨v, rfl⟩
    · obtain ⟨next, hnext, hall⟩ := hP t ht
      obtain ⟨v', hv'⟩ := exists_foldlM (fun v u hu => ih u (hall u hu) v) (v.mark t)
      exact ⟨v', bind_eq_ok.mpr ⟨next, hnext, hv'⟩⟩

section Run

variable (hnamed : c.Named) (hts : ∀ t ∈ ts, t ∈ c.schema.types ∧ isPassage t.kind = true)
  (hbound : c.schema.types.length < bound) (h : ts.foldlM (c.visitFrom bound) ⟨[], []⟩ = .ok v)

include hnamed hts hbound h

/-- A search visits the types that can be reached, and no others. -/
theorem charted_of_foldlM : c.Charted (c.ReachableFrom ts) v :=
  (explored_of_foldlM hnamed hts hbound h).charted _ (fun _ _ => .step)
    (fun _ => reachableFrom_of_mem) (charted_nil c _)

theorem closed_of_foldlM : c.ClosedBut [] v :=
  (explored_of_foldlM hnamed hts hbound h).closed [] fun _ _ hvisited => nomatch hvisited

/-- The members of the types that can be reached are looked up, and these types are visited. -/
theorem visited_of_reachable (hu : c.ReachableFrom ts u) :
    u.name ∈ v.visited ∧ ∃ next, c.nextTypes u = .ok next := by
  have hclosed := closed_of_foldlM hnamed hts hbound h
  suffices hvisited : u.name ∈ v.visited by
    obtain ⟨next, hnext, -⟩ := hclosed u (hu.mem_types hts).1 hvisited List.not_mem_nil
    exact ⟨hvisited, next, hnext⟩
  obtain ⟨root, hroot, hpath⟩ := hu
  induction hpath with
  | refl => exact (explored_of_foldlM hnamed hts hbound h).reached _ hroot
  | @tail t u hpath hstep ih =>
    have ht : t ∈ c.schema.types := (ReachableFrom.mem_types ⟨root, hroot, hpath⟩ hts).1
    obtain ⟨next, hnext, hall⟩ := hclosed t ht ih List.not_mem_nil
    obtain ⟨next', hnext', hu⟩ := (leadsTo_iff hnamed hstep.isPassage_left).mp hstep
    cases hnext.symm.trans hnext'
    exact hall u hu

/-- **A search finds the object types and interfaces that can be reached.** -/
theorem mem_found_iff {n : String} :
    n ∈ v.found ↔
      ∃ u, c.ReachableFrom ts u ∧ (u.kind = .object ∨ u.kind = .interface) ∧ u.name = n := by
  have hcharted := charted_of_foldlM hnamed hts hbound h
  constructor
  · intro hn
    obtain ⟨u, hu, rfl, hkind, hreached⟩ := hcharted.visited n (hcharted.subset hn)
    exact ⟨u, hreached,
      (isPassage_iff.mp hkind).resolve_left ((hcharted.found u hu).mp hn).2, rfl⟩
  · rintro ⟨u, hreached, hkind, rfl⟩
    refine (hcharted.found u (hreached.mem_types hts).1).mpr
      ⟨(visited_of_reachable hnamed hts hbound h hreached).1, ?_⟩
    rcases hkind with hkind | hkind <;> simp [hkind]

/-- The order of the types from which a search starts makes no difference to what it finds. -/
theorem exists_foldlM_of_perm {ts' : List TypeDefinition} (hperm : ts'.Perm ts) :
    ∃ v', ts'.foldlM (c.visitFrom bound) ⟨[], []⟩ = .ok v' ∧ v'.found.Perm v.found := by
  have hts' : ∀ t ∈ ts', t ∈ c.schema.types ∧ isPassage t.kind = true :=
    fun t ht => hts t (hperm.mem_iff.mp ht)
  obtain ⟨v', hv'⟩ : ∃ v', ts'.foldlM (c.visitFrom bound) ⟨[], []⟩ = .ok v' := by
    refine exists_foldlM_visitFrom (P := c.ReachableFrom ts) (fun t ht => ?_)
      (fun t ht => reachableFrom_of_mem (hperm.mem_iff.mp ht)) _
    obtain ⟨-, next, hnext⟩ := visited_of_reachable hnamed hts hbound h ht
    refine ⟨next, hnext, fun u hu => ht.step ?_⟩
    exact (leadsTo_iff hnamed (ht.mem_types hts).2).mpr ⟨next, hnext, hu⟩
  refine ⟨v', hv', (List.perm_ext_iff_of_nodup (charted_of_foldlM hnamed hts' hbound hv').nodup
    (charted_of_foldlM hnamed hts hbound h).nodup).mpr fun n => ?_⟩
  rw [mem_found_iff hnamed hts' hbound hv', mem_found_iff hnamed hts hbound h]
  simp only [ReachableFrom, hperm.mem_iff]

end Run

end Bindery.Catalog
