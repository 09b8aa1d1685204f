import Bindery.Proofs.Document.Assembled
import Bindery.Proofs.Selection.Everything

/-!
# Types at their least depth

Types refer to each other through fields and fragments, and a chain of references from the root to a
type is as long as the level on which its last reference can be expanded. A type is expanded again
wherever it is met above the level on which it was recorded, so what was met first does not matter:
on the way of a shortest chain each type is expanded, each time that it is met there.

## What is proved

* `Expands.attained` — every level on which a type is recorded is the length of a chain of
  references to it, throughout the expansion.
* `Included.leads` — a builder at some depth inside a plan has a chain of that length.
* `Included.nearest` — a plan on a shortest chain to a type holds a builder of the type where the
  chain ends, if the type has a field without a builder.
* `withAll_nearest` — what selects everything holds a builder of each type at the length of the
  shortest chain, and none further up.
-/

namespace Bindery.Query

/-- `Deep n b c`: the builder `c` is that many levels inside `b`. -/
inductive Deep : Nat → Builder → Builder → Prop where
  /-- The builder itself. -/
  | self (b : Builder) : Deep 0 b b
  /-- What is inside the builder of a field or a fragment, one level further out. -/
  | child {n : Nat} {b c d : Builder} : c ∈ b.children → Deep n c d → Deep (n + 1) b d

/-! ### Chains of references -/

/-- `Leads registry n c x`: a chain of that many references leads from the class to the class `x`. -/
inductive Leads (registry : Registry) : Nat → BuilderClass → BuilderClass → Prop where
  /-- The class itself. -/
  | self (c : BuilderClass) : Leads registry 0 c c
  /-- A reference, and a chain from where it leads. -/
  | refer {n : Nat} {c x y : BuilderClass} : x.typeName ∈ c.references →
      registry.get? x.typeName = some x → Leads registry n x y → Leads registry (n + 1) c y

/-- The class has a field that needs no arguments and has no builder. -/
def BuilderClass.HasLeaf (c : BuilderClass) : Prop :=
  ∃ f ∈ c.selectable, f.builderType = none

/-- The class that is registered for the type of the root, if any, is the root. -/
def Registry.Roots (registry : Registry) (root : BuilderClass) : Prop :=
  ∀ c, registry.get? root.typeName = some c → c = root

/-- The fields of each class have names of their own. -/
def Registry.NamesDiffer (registry : Registry) : Prop :=
  ∀ t c, registry.get? t = some c → (c.fields.map FieldInfo.name).Nodup

theorem consistent_of_entries {registry : Registry}
    (h : ∀ e ∈ registry.entries, e.2.typeName = e.1 ∧
      ∀ u ∈ e.2.references, (registry.get? u).isSome = true) : Consistent registry where
  typeName hreg := (h _ (Keyed.mem_entries_of_get? hreg)).1
  references hreg u hu := Option.isSome_iff_exists.mp ((h _ (Keyed.mem_entries_of_get? hreg)).2 u hu)

theorem namesDiffer_of_entries {registry : Registry}
    (h : ∀ e ∈ registry.entries, (e.2.fields.map FieldInfo.name).Nodup) : registry.NamesDiffer := by
  intro t c hreg
  exact h _ (Keyed.mem_entries_of_get? hreg)

section Chains

variable {registry : Registry} {root c x y : BuilderClass} {m n : Nat}

theorem Leads.trans (h : Leads registry m c x) (h' : Leads registry n x y) :
    Leads registry (m + n) c y := by
  induction h with
  | self => rwa [Nat.zero_add]
  | refer hx hreg _ ih =>
    rw [Nat.add_right_comm]
    exact .refer hx hreg (ih h')

/-- A chain goes on to what its last class refers to. -/
theorem Leads.snoc (h : Leads registry n c x) (hy : y.typeName ∈ x.references)
    (hreg : registry.get? y.typeName = some y) : Leads registry (n + 1) c y :=
  h.trans (.refer hy hreg (.self y))

theorem Leads.eq_of_zero (h : Leads registry 0 c x) : x = c := by
  cases h
  rfl

theorem Leads.mem_of_one (h : Leads registry 1 c x) : x.typeName ∈ c.references := by
  cases h with
  | refer hx _ h => rwa [h.eq_of_zero]

theorem Leads.registered (h : Leads registry n c x) :
    x = c ∨ registry.get? x.typeName = some x := by
  induction h with
  | self => exact Or.inl rfl
  | refer _ hreg _ ih =>
    rcases ih with rfl | ih
    · exact Or.inr hreg
    · exact Or.inr ih

/-- Chains from the root that end in one type end in one class. -/
theorem Leads.unique (hroot : registry.Roots root) (h : Leads registry m root x)
    (h' : Leads registry n root y) (ht : x.typeName = y.typeName) : x = y := by
  rcases h.registered with rfl | hx
  · rcases h'.registered with rfl | hy
    · rfl
    · rw [← ht] at hy
      exact (hroot y hy).symm
  · rcases h'.registered with rfl | hy
    · rw [ht] at hx
      exact hroot x hx
    · rw [ht, hy] at hx
      exact (Option.some.inj hx).symm

end Chains

/-! ### Levels are attained -/

/-- Each level on which a type is recorded is at least the length of a chain from the root to it. -/
def Attained (registry : Registry) (root : BuilderClass) (ds : Depths) : Prop :=
  ∀ t level, recorded ds t level = true →
    ∃ n ≤ level, ∃ x, Leads registry n root x ∧ x.typeName = t

theorem recorded_put {ds : Depths} {t u : String} {m n : Nat}
    (h : recorded (ds.put t m) u n = true) : u = t ∧ m ≤ n ∨ recorded ds u n = true := by
  rw [recorded, Keyed.get?_put] at h
  by_cases hut : u = t
  · rw [if_pos hut] at h
    exact Or.inl ⟨hut, by simpa using h⟩
  · rw [if_neg hut] at h
    exact Or.inr h

section Levels

variable {registry : Registry} {root : BuilderClass}

theorem Attained.put {ds : Depths} (h : Attained registry root ds) {n : Nat} {x : BuilderClass}
    (hx : Leads registry n root x) {t : String} (ht : x.typeName = t) :
    Attained registry root (ds.put t n) := by
  intro u level hu
  rcases recorded_put hu with ⟨rfl, hle⟩ | hu
  · exact ⟨n, hle, x, hx, ht⟩
  · exact h u level hu

theorem attained_root (root : BuilderClass) :
    Attained registry root (.ofList [(root.typeName, 0)]) := by
  have hempty : Attained registry root .empty := by
    intro t level ht
    cases ht
  exact hempty.put (.self root) rfl

/-- The types are referred to by a class on the level and are registered. -/
def ReferredFrom (registry : Registry) (root : BuilderClass) (level : Nat) (ts : List String) :
    Prop :=
  ∀ t ∈ ts, ∃ x, registry.get? t = some x ∧ Leads registry (level + 1) root x

theorem ReferredFrom.tail {level : Nat} {f : FieldInfo} {r : List FieldInfo}
    (h : ReferredFrom registry root level ((f :: r).filterMap FieldInfo.builderType)) :
    ReferredFrom registry root level (r.filterMap FieldInfo.builderType) := by
  intro t ht
  exact h t (((List.sublist_cons_self f r).filterMap _).subset ht)

theorem ReferredFrom.head {level : Nat} {f : FieldInfo} {r : List FieldInfo}
    (h : ReferredFrom registry root level ((f :: r).filterMap FieldInfo.builderType)) {t : String}
    (ht : f.builderType = some t) : ∃ x, registry.get? t = some x ∧ Leads registry (level + 1) root x :=
  h t (by simp [ht])

/-- What a class refers to is referred to on the level of the class. -/
theorem referredFrom_references (hc : Consistent registry) {level : Nat} {c : BuilderClass}
    (hr : ∀ u ∈ c.references, ∃ x, registry.get? u = some x) (h : Leads registry level root c) :
    ReferredFrom registry root level (c.selectable.filterMap FieldInfo.builderType) ∧
      ReferredFrom registry root level c.fragmentTypes := by
  have hall : ∀ u ∈ c.references, ∃ x, registry.get? u = some x ∧
      Leads registry (level + 1) root x := by
    intro u hu
    obtain ⟨x, hx⟩ := hr u hu
    obtain rfl := hc.typeName hx
    exact ⟨x, hx, h.snoc hu hx⟩
  exact ⟨fun u hu => hall u (List.mem_append_left _ hu),
    fun u hu => hall u (List.mem_append_right _ hu)⟩

mutual

/-- The expansion of a type that is reached records levels that are attained. -/
theorem Expands.attained (hc : Consistent registry) {level : Nat} {t : String} {x : BuilderClass}
    {ds es : Depths} {b : Option Builder} (hreg : registry.get? t = some x)
    (hx : Leads registry (level + 1) root x) (hds : Attained registry root ds) :
    Expands registry level t ds b es → Attained registry root es
  | .recorded _ => hds
  | .fresh (c := c) _ hreg' hf hg => by
    have hcx : x = c := Option.some.inj (hreg.symm.trans hreg')
    rw [hcx] at hx
    obtain ⟨hfields, hfragments⟩ := referredFrom_references hc (hc.references hreg') hx
    exact hg.attained hc hfragments (hf.attained hc hfields (hds.put hx (hc.typeName hreg')))

theorem IncludesFields.attained (hc : Consistent registry) {level : Nat} {ds es : Depths}
    {h : BuilderHead} {infos : List FieldInfo} {fields : List (String × Option Builder)}
    (hr : ReferredFrom registry root level (infos.filterMap FieldInfo.builderType))
    (hds : Attained registry root ds) :
    IncludesFields registry level h infos ds fields es → Attained registry root es
  | .nil => hds
  | .leaf _ hi => hi.attained hc hr.tail hds
  | .back _ _ hi => hi.attained hc hr.tail hds
  | .skipped ht _ he hi =>
    let ⟨_, hreg, hx⟩ := hr.head ht
    hi.attained hc hr.tail (he.attained hc hreg hx hds)
  | .nested ht _ he hi =>
    let ⟨_, hreg, hx⟩ := hr.head ht
    hi.attained hc hr.tail (he.attained hc hreg hx hds)

theorem IncludesFragments.attained (hc : Consistent registry) {level : Nat} {ds es : Depths}
    {ts : List String} {fragments : List (String × Builder)}
    (hr : ReferredFrom registry root level ts) (hds : Attained registry root ds) :
    IncludesFragments registry level ts ds fragments es → Attained registry root es
  | .nil => hds
  | .skipped he hi =>
    let ⟨_, hreg, hx⟩ := hr _ List.mem_cons_self
    hi.attained hc (fun t ht => hr t (List.mem_cons_of_mem _ ht)) (he.attained hc hreg hx hds)
  | .nested he hi =>
    let ⟨_, hreg, hx⟩ := hr _ List.mem_cons_self
    hi.attained hc (fun t ht => hr t (List.mem_cons_of_mem _ ht)) (he.attained hc hreg hx hds)

end

end Levels

/-! ### What a builder includes -/

/-- The list has a part for each item, as the relation says, and nothing else. -/
structure HasParts {α β : Type} (part : α → List β → Prop) (as : List α) (bs : List β) : Prop where
  /-- What is in the list is in the part of an item. -/
  from_part : ∀ b ∈ bs, ∃ a ∈ as, ∃ l, part a l ∧ b ∈ l
  /-- The part of each item is in the list. -/
  part_of : ∀ a ∈ as, ∃ l, part a l ∧ ∀ b ∈ l, b ∈ bs

theorem HasParts.nil {α β : Type} {part : α → List β → Prop} : HasParts part [] [] where
  from_part := by simp
  part_of := by simp

theorem HasParts.cons {α β : Type} {part : α → List β → Prop} {a : α} {as : List α} {l bs : List β}
    (ha : part a l) (h : HasParts part as bs) : HasParts part (a :: as) (l ++ bs) where
  from_part b hb := by
    rcases List.mem_append.mp hb with hb | hb
    · exact ⟨a, List.mem_cons_self, l, ha, hb⟩
    · obtain ⟨x, hx, hl⟩ := h.from_part b hb
      exact ⟨x, List.mem_cons_of_mem a hx, hl⟩
  part_of := by
    refine List.forall_mem_cons.mpr ⟨⟨l, ha, fun b hb => List.mem_append_left bs hb⟩, ?_⟩
    intro x hx
    obtain ⟨k, hk, hsub⟩ := h.part_of x hx
    exact ⟨k, hk, fun b hb => List.mem_append_right l (hsub b hb)⟩

section Including

variable (registry : Registry) (root : BuilderClass) (level : Nat)

/-- `Grows t b`: where the recorded levels are attained, the type can be expanded below the level to
the builder `b`, if to any. -/
def Grows (t : String) (b : Option Builder) : Prop :=
  ∃ ds es, Attained registry root ds ∧ Expands registry level t ds b es

/-- What a builder on the level includes for a field. -/
inductive FieldPart (h : BuilderHead) : FieldInfo → List (String × Option Builder) → Prop where
  /-- A field without a builder is included. -/
  | leaf {f : FieldInfo} : f.builderType = none → FieldPart h f [(f.name, none)]
  /-- A field that leads back is not. -/
  | back {f : FieldInfo} {t : String} :
      f.builderType = some t → leadsBack h f = true → FieldPart h f []
  /-- Another field is included if its type is expanded to a builder. -/
  | grown {f : FieldInfo} {t : String} {b : Option Builder} :
      f.builderType = some t → leadsBack h f = false → Grows registry root level t b →
      FieldPart h f (b.map fun x => (f.name, some x)).toList

/-- What a builder on the level includes for the type of a fragment. -/
inductive FragmentPart : String → List (String × Builder) → Prop where
  /-- A fragment is included if its type is expanded to a builder. -/
  | grown {t : String} {b : Option Builder} :
      Grows registry root level t b → FragmentPart t (b.map fun x => (t, x)).toList

/-- What the builder of a class on the level includes. -/
structure Included (h : BuilderHead) (c : BuilderClass) (p : Plan) : Prop where
  /-- What the class refers to is registered. -/
  registered : ∀ t ∈ c.references, ∃ x, registry.get? t = some x
  /-- The fields. -/
  fields : HasParts (FieldPart registry root level h) c.selectable p.fields
  /-- The fragments. -/
  fragments : HasParts (FragmentPart registry root level) c.fragmentTypes p.fragments

end Including

section Parts

variable {registry : Registry} {root : BuilderClass} {level : Nat}

theorem IncludesFields.hasParts (hc : Consistent registry) {h : BuilderHead}
    {infos : List FieldInfo}
    (hr : ReferredFrom registry root level (infos.filterMap FieldInfo.builderType)) {ds es : Depths}
    {fields : List (String × Option Builder)} (hds : Attained registry root ds)
    (hi : IncludesFields registry level h infos ds fields es) :
    HasParts (FieldPart registry root level h) infos fields := by
  induction infos generalizing ds fields with
  | nil =>
    cases hi
    exact .nil
  | cons f r ih =>
    cases hi with
    | leaf ht hi => exact .cons (.leaf ht) (ih hr.tail hds hi)
    | back ht hback hi => exact .cons (.back ht hback) (ih hr.tail hds hi)
    | skipped ht hback he hi =>
      obtain ⟨x, hreg, hx⟩ := hr.head ht
      have hrest := ih hr.tail (he.attained hc hreg hx hds) hi
      exact .cons (.grown (b := none) ht hback ⟨ds, _, hds, he⟩) hrest
    | nested ht hback he hi =>
      obtain ⟨x, hreg, hx⟩ := hr.head ht
      have hrest := ih hr.tail (he.attained hc hreg hx hds) hi
      exact .cons (.grown (b := some _) ht hback ⟨ds, _, hds, he⟩) hrest

theorem IncludesFragments.hasParts (hc : Consistent registry) {ts : List String}
    (hr : ReferredFrom registry root level ts) {ds es : Depths}
    {fragments : List (String × Builder)} (hds : Attained registry root ds)
    (hi : IncludesFragments registry level ts ds fragments es) :
    HasParts (FragmentPart registry root level) ts fragments := by
  induction ts generalizing ds fragments with
  | nil =>
    cases hi
    exact .nil
  | cons t r ih =>
    obtain ⟨⟨x, hreg, hx⟩, hr⟩ := List.forall_mem_cons.mp hr
    cases hi with
    | skipped he hi =>
      exact .cons (.grown (b := none) ⟨ds, _, hds, he⟩) (ih hr (he.attained hc hreg hx hds) hi)
    | nested he hi =>
      exact .cons (.grown (b := some _) ⟨ds, _, hds, he⟩) (ih hr (he.attained hc hreg hx hds) hi)

/-- What is included for a class that is reached on the level. -/
theorem included_of_includes (hc : Consistent registry) {h : BuilderHead} {c : BuilderClass}
    (hr : ∀ u ∈ c.references, ∃ x, registry.get? u = some x) (hl : Leads registry level root c)
    {ds es gs : Depths} {fields : List (String × Option Builder)}
    {fragments : List (String × Builder)} (hds : Attained registry root ds)
    (hf : IncludesFields registry level h c.selectable ds fields es)
    (hg : IncludesFragments registry level c.fragmentTypes es fragments gs) :
    Included registry root level h c ⟨fields, fragments, none⟩ := by
  obtain ⟨hrf, hrg⟩ := referredFrom_references hc hr hl
  exact ⟨hr, hf.hasParts hc hrf hds, hg.hasParts hc hrg (hf.attained hc hrf hds)⟩

/-- A type is expanded to what its class includes, unless a shorter chain leads to it. -/
theorem Grows.included (hc : Consistent registry) (hroot : registry.Roots root) {t : String}
    {c : BuilderClass} {b : Option Builder} (h : Grows registry root level t b)
    (hreg : registry.get? t = some c) (hl : Leads registry (level + 1) root c) :
    (b = none ∧ ∃ n ≤ level, Leads registry n root c) ∨
      ∃ p, Included registry root (level + 1) c.head c p ∧ b = p.kept c.head := by
  obtain ⟨ds, es, hds, he⟩ := h
  have ht := hc.typeName hreg
  cases he with
  | recorded hr =>
    obtain ⟨n, hn, x, hx, hxt⟩ := hds t level hr
    obtain rfl := hx.unique hroot hl (hxt.trans ht.symm)
    exact Or.inl ⟨rfl, n, hn, hx⟩
  | fresh _ hreg' hf hg =>
    obtain rfl := Option.some.inj (hreg.symm.trans hreg')
    exact Or.inr ⟨_, included_of_includes hc (hc.references hreg) hl (hds.put hl ht) hf hg, rfl⟩

/-- The builders of a plan are those that references were expanded to. -/
theorem Included.grows {h : BuilderHead} {c : BuilderClass} {p : Plan}
    (hp : Included registry root level h c p) {x : Builder}
    (hx : (∃ e ∈ p.fields, e.2 = some x) ∨ ∃ e ∈ p.fragments, e.2 = x) :
    ∃ t ∈ c.references, Grows registry root level t (some x) := by
  rcases hx with ⟨e, he, hex⟩ | ⟨e, he, rfl⟩
  · obtain ⟨f, hf, l, hl, hel⟩ := hp.fields.from_part e he
    cases hl with
    | leaf ht =>
      rw [List.mem_singleton.mp hel] at hex
      cases hex
    | back => cases hel
    | grown ht _ hb =>
      rw [Option.mem_toList, Option.map_eq_some_iff] at hel
      obtain ⟨y, rfl, rfl⟩ := hel
      cases hex
      exact ⟨_, List.mem_append_left _ (List.mem_filterMap.mpr ⟨f, hf, ht⟩), hb⟩
  · obtain ⟨t, ht, l, hl, hel⟩ := hp.fragments.from_part e he
    cases hl with
    | grown hb =>
      rw [Option.mem_toList, Option.map_eq_some_iff] at hel
      obtain ⟨y, rfl, rfl⟩ := hel
      exact ⟨t, List.mem_append_right _ ht, hb⟩

/-- Each field of a plan has its place in the builder, with the selection that came last under its
name. -/
theorem exists_planField {p : Plan} {e : String × Option Builder} (he : e ∈ p.fields)
    (h : BuilderHead) :
    ∃ g ∈ p.fields, g.1 = e.1 ∧ (FieldSelection.plain g.1, g.2) ∈ (p.builder h).fields := by
  have hkey : e.1 ∈ (keyedFields p.fields).keys := by
    rw [keyedFields, Keyed.mem_keys_ofList, List.map_map]
    exact List.mem_map_of_mem he
  obtain ⟨x, hx, hname⟩ := List.mem_map.mp hkey
  obtain ⟨g, hg, rfl⟩ := List.mem_map.mp (Keyed.mem_entries_ofList hx)
  exact ⟨g, hg, hname, List.mem_map_of_mem hx⟩

theorem exists_planFragment {p : Plan} {e : String × Builder} (he : e ∈ p.fragments)
    (h : BuilderHead) :
    ∃ g ∈ p.fragments, g.1 = e.1 ∧ g.2 ∈ (p.builder h).children := by
  have hkey : e.1 ∈ (Keyed.ofList p.fragments).keys :=
    Keyed.mem_keys_ofList.mpr (List.mem_map_of_mem he)
  obtain ⟨g, hg, hname⟩ := List.mem_map.mp hkey
  exact ⟨g, Keyed.mem_entries_ofList hg, hname, List.mem_append_right _ (List.mem_map_of_mem hg)⟩

section Differ

variable {h : BuilderHead} {c : BuilderClass} {p : Plan}

theorem FieldPart.name {f : FieldInfo} {l : List (String × Option Builder)}
    (h : FieldPart registry root level h f l) {e : String × Option Builder} (he : e ∈ l) :
    e.1 = f.name := by
  cases h with
  | leaf => rw [List.mem_singleton.mp he]
  | back => cases he
  | grown =>
    rw [Option.mem_toList, Option.map_eq_some_iff] at he
    obtain ⟨x, -, rfl⟩ := he
    rfl

/-- Where the fields of the class have names of their own, a field has a place in the builder once
anything is included for it, and what is there was included for it. -/
theorem Included.exists_field (hp : Included registry root level h c p)
    (hn : (c.fields.map FieldInfo.name).Nodup) {f : FieldInfo} (hf : f ∈ c.selectable)
    {e : String × Option Builder} (he : e ∈ p.fields) (hef : e.1 = f.name) :
    ∃ l, FieldPart registry root level h f l ∧
      ∃ g ∈ l, (FieldSelection.plain g.1, g.2) ∈ (p.builder h).fields := by
  obtain ⟨g, hg, hge, hplace⟩ := exists_planField he h
  obtain ⟨f', hf', l, hl, hgl⟩ := hp.fields.from_part g hg
  have hsame : f' = f := by
    refine List.inj_on_of_nodup_map hn (List.mem_of_mem_filter hf') (List.mem_of_mem_filter hf) ?_
    rw [← hl.name hgl, hge, hef]
  rw [hsame] at hl
  exact ⟨l, hl, g, hgl, hplace⟩

/-- Where the fields of the class have names of their own, a field without a builder is selected. -/
theorem Included.leaf (hp : Included registry root level h c p)
    (hn : (c.fields.map FieldInfo.name).Nodup) (hleaf : c.HasLeaf) :
    ∃ f, (f, none) ∈ (p.builder h).fields := by
  obtain ⟨f, hf, ht⟩ := hleaf
  have leaf_only {l : List (String × Option Builder)} (hl : FieldPart registry root level h f l) :
      l = [(f.name, none)] := by
    cases hl with
    | leaf => rfl
    | back ht' => rw [ht] at ht'; cases ht'
    | grown ht' => rw [ht] at ht'; cases ht'
  obtain ⟨l, hl, hsub⟩ := hp.fields.part_of f hf
  rw [leaf_only hl] at hsub
  obtain ⟨l, hl, g, hg, hplace⟩ := hp.exists_field hn hf (hsub _ List.mem_cons_self) rfl
  rw [leaf_only hl] at hg
  rw [List.mem_singleton.mp hg] at hplace
  exact ⟨_, hplace⟩

/-- Where the fields of the class have names of their own and each expansion of a type that it refers
to gives a builder of some property, one of the builders inside has the property. -/
theorem Included.exists_child (hp : Included registry root level h c p)
    (hn : (c.fields.map FieldInfo.name).Nodup) {t : String} (ht : t ∈ c.references)
    (hback : h.typeName ≠ t) {P : Builder → Prop}
    (hP : ∀ b, Grows registry root level t b → ∃ x ∈ b, P x) :
    ∃ x ∈ (p.builder h).children, P x := by
  rcases List.mem_append.mp ht with ht | ht
  · obtain ⟨f, hf, ht⟩ := List.mem_filterMap.mp ht
    -- The part of the field is the builder to which its type was expanded.
    have grown_only {l : List (String × Option Builder)}
        (hl : FieldPart registry root level h f l) : ∃ x, P x ∧ l = [(f.name, some x)] := by
      cases hl with
      | leaf ht' => rw [ht] at ht'; cases ht'
      | back ht' hb =>
        rw [leadsBack, ht, Bool.and_eq_true, beq_iff_eq] at hb
        exact absurd (Option.some.inj hb.2).symm hback
      | grown ht' _ hb =>
        obtain rfl := Option.some.inj (ht.symm.trans ht')
        obtain ⟨x, rfl, hx⟩ := hP _ hb
        exact ⟨x, hx, rfl⟩
    obtain ⟨l, hl, hsub⟩ := hp.fields.part_of f hf
    obtain ⟨x, -, rfl⟩ := grown_only hl
    obtain ⟨l, hl, g, hg, hplace⟩ := hp.exists_field hn hf (hsub _ List.mem_cons_self) rfl
    obtain ⟨y, hy, rfl⟩ := grown_only hl
    rw [List.mem_singleton.mp hg] at hplace
    exact ⟨y, List.mem_append_left _ (List.mem_filterMap.mpr ⟨_, hplace, rfl⟩), hy⟩
  · obtain ⟨l, hl, hsub⟩ := hp.fragments.part_of t ht
    obtain ⟨hb⟩ := hl
    obtain ⟨x, rfl, -⟩ := hP _ hb
    obtain ⟨g, hg, hgt, hplace⟩ := exists_planFragment (hsub (t, x) List.mem_cons_self) h
    -- A later fragment of the type takes the place of an earlier one, and it was expanded as well.
    obtain ⟨u, -, k, ⟨hy⟩, hgk⟩ := hp.fragments.from_part g hg
    rw [Option.mem_toList, Option.map_eq_some_iff] at hgk
    obtain ⟨y, rfl, rfl⟩ := hgk
    obtain rfl : u = t := hgt
    obtain ⟨z, ⟨rfl⟩, hz⟩ := hP _ hy
    exact ⟨y, hplace, hz⟩

end Differ

/-! ### Builders and chains -/

/-- A builder selects something through a field without a builder or through a builder inside. -/
theorem hasSelection_iff {b : Builder} : b.hasSelection = true ↔
    (∃ f, (f, none) ∈ b.fields) ∨ ∃ c ∈ b.children, c.hasSelection = true := by
  obtain ⟨h, fields, fragments⟩ := b
  rw [Builder.hasSelection, anyField_eq, anyFragment_eq, Bool.or_eq_true, List.any_eq_true,
    List.any_eq_true]
  constructor
  · rintro (⟨o, ho, hsel⟩ | ⟨o, ho, hsel⟩)
    · obtain ⟨⟨f, o⟩, hf, rfl⟩ := List.mem_map.mp ho
      cases o with
      | none => exact Or.inl ⟨f, hf⟩
      | some c =>
        exact Or.inr ⟨c, List.mem_append_left _ (List.mem_filterMap.mpr ⟨_, hf, rfl⟩), hsel⟩
    · obtain ⟨f, hf, rfl⟩ := List.mem_map.mp ho
      exact Or.inr ⟨f.2, List.mem_append_right _ (List.mem_map_of_mem hf), hsel⟩
  · rintro (⟨f, hf⟩ | ⟨c, hc, hsel⟩)
    · exact Or.inl ⟨none, List.mem_map_of_mem hf, rfl⟩
    · rcases List.mem_append.mp hc with hc | hc
      · obtain ⟨f, hf, hfc⟩ := List.mem_filterMap.mp hc
        exact Or.inl ⟨f.2, List.mem_map_of_mem hf, by rw [hfc]; exact hsel⟩
      · obtain ⟨f, hf, rfl⟩ := List.mem_map.mp hc
        exact Or.inr ⟨some f.2, List.mem_map_of_mem hf, hsel⟩

theorem kept_eq_some {p : Plan} {h : BuilderHead} {b : Builder} (hb : p.kept h = some b) :
    b = p.builder h := by
  rw [Plan.kept] at hb
  split_ifs at hb
  exact (Option.some.inj hb).symm

/-- A chain leads from a class to the class of each builder inside what the class is expanded to. -/
theorem Grows.leads (hc : Consistent registry) (hroot : registry.Roots root) {c : BuilderClass}
    {b : Builder} (h : Grows registry root level c.typeName (some b))
    (hreg : registry.get? c.typeName = some c) (hl : Leads registry (level + 1) root c) {n : Nat}
    {d : Builder} (hd : Deep n b d) : ∃ x, Leads registry n c x ∧ d.head = x.head := by
  induction hd generalizing level c with
  | self b =>
    obtain ⟨⟨⟩, -⟩ | ⟨p, -, hb⟩ := h.included hc hroot hreg hl
    exact ⟨c, .self c, by rw [kept_eq_some hb.symm]; rfl⟩
  | child hx _ ih =>
    obtain ⟨⟨⟩, -⟩ | ⟨p, hp, hb⟩ := h.included hc hroot hreg hl
    rw [kept_eq_some hb.symm] at hx
    obtain ⟨t, ht, hg⟩ := hp.grows (mem_planChildren hx)
    obtain ⟨y, hy⟩ := hc.references hreg t ht
    obtain rfl := hc.typeName hy
    obtain ⟨x, hyx, hx⟩ := ih hg hy (hl.snoc ht hy)
    exact ⟨x, .refer ht hy hyx, hx⟩

section Chain

variable {h : BuilderHead} {c : BuilderClass} {p : Plan} {n : Nat}

/-- A chain leads from the class of a builder to the class of each builder inside. -/
theorem Included.leads (hc : Consistent registry) (hroot : registry.Roots root)
    (hl : Leads registry level root c) (hp : Included registry root level h c p) {x d : Builder}
    (hx : (∃ e ∈ p.fields, e.2 = some x) ∨ ∃ e ∈ p.fragments, e.2 = x) (hd : Deep n x d) :
    ∃ y, Leads registry (n + 1) c y ∧ d.head = y.head := by
  obtain ⟨t, ht, hg⟩ := hp.grows hx
  obtain ⟨y, hy⟩ := hp.registered t ht
  obtain rfl := hc.typeName hy
  obtain ⟨z, hyz, hz⟩ := hg.leads hc hroot hy (hl.snoc ht hy) hd
  exact ⟨z, .refer ht hy hyz, hz⟩

/-- On a shortest chain from the root, the builder of each class selects something, and inside it is
a builder of the class at the end of the chain, if that has a field without a builder. -/
theorem Included.nearest (hc : Consistent registry) (hroot : registry.Roots root)
    (hn : registry.NamesDiffer) (hnc : (c.fields.map FieldInfo.name).Nodup)
    (hl : Leads registry level root c) (hp : Included registry root level h c p)
    (hh : h.typeName = c.typeName) {y : BuilderClass} (hy : y.HasLeaf)
    (hcy : Leads registry n c y) (hleast : ∀ m, Leads registry m root y → level + n ≤ m) :
    (p.builder h).hasSelection = true ∧
      ∃ d, Deep n (p.builder h) d ∧ d.head.typeName = y.typeName := by
  induction hcy generalizing level h p with
  | self c =>
    exact ⟨hasSelection_iff.mpr (Or.inl (hp.leaf hnc hy)), _, .self _, hh⟩
  | @refer n c x y hx hreg hxy ih =>
    have hlx : Leads registry (level + 1) root x := hl.snoc hx hreg
    -- A reference of the class to itself would be a way around.
    have hback : h.typeName ≠ x.typeName := by
      intro heq
      obtain rfl := hl.unique hroot hlx (hh.symm.trans heq)
      have := hleast _ (hl.trans hxy)
      omega
    have hnext (b : Option Builder) (hb : Grows registry root level x.typeName b) :
        ∃ z ∈ b, z.hasSelection = true ∧ ∃ d, Deep n z d ∧ d.head.typeName = y.typeName := by
      obtain ⟨-, m, hm, hshort⟩ | ⟨q, hq, rfl⟩ := hb.included hc hroot hreg hlx
      · have := hleast _ (hshort.trans hxy)
        omega
      · obtain ⟨hsel, d, hd, hdy⟩ := ih (hn _ x hreg) hlx hq rfl hy fun m hm => by
          have := hleast m hm
          omega
        exact ⟨q.builder x.head, if_pos hsel, hsel, d, hd, hdy⟩
    obtain ⟨z, hz, hsel, d, hd, hdy⟩ := hp.exists_child hnc hx hback hnext
    exact ⟨hasSelection_iff.mpr (Or.inr ⟨z, hz, hsel⟩), d, .child hz hd, hdy⟩

end Chain

end Parts

/-! ### Selecting everything -/

/-- Selecting everything ends without a refusal, and in the resulting tree there is a builder of each
type that has a field without a builder, as many levels inside as the shortest chain of references
to the type is long, and none further up. -/
theorem withAll_nearest {registry : Registry} (hc : Consistent registry)
    (hn : registry.NamesDiffer) {d : Draft} (hf : d.fields = .empty) (hg : d.fragments = .empty)
    (hd : registry.get? d.cls.typeName = some d.cls) :
    ∃ b, (d.withAll registry).2 = none ∧
      (∀ (s : Store) (id : Nat), s.drafts[id]? = some (d.withAll registry).1 →
        s.builder id = .ok b) ∧
      ∀ n x, Leads registry n d.cls x → (∀ m, Leads registry m d.cls x → n ≤ m) → x.HasLeaf →
        (∃ c, Deep n b c ∧ c.head.typeName = x.typeName) ∧
        ∀ m c, Deep m b c → c.head.typeName = x.typeName → n ≤ m := by
  have hroot : registry.Roots d.cls := by
    intro c hreg
    exact (Option.some.inj (hd.symm.trans hreg)).symm
  obtain ⟨fields, fragments, es, gs, hplan, hinc, hinc', -⟩ :=
    planAll_includes hc (hc.references hd) (h := d.head) rfl
  have hp : Included registry d.cls 0 d.head d.cls ⟨fields, fragments, none⟩ :=
    included_of_includes hc (hc.references hd) (.self d.cls) (attained_root d.cls) hinc hinc'
  have hall : d.withAll registry = (d.withPlan ⟨fields, fragments, none⟩, none) := by
    rw [Draft.withAll, hplan]
  refine ⟨Plan.builder ⟨fields, fragments, none⟩ d.head, by rw [hall], ?_, ?_⟩
  · intro s id hid
    rw [hall] at hid
    exact builder_withPlan hf hg _ hid
  · intro n x hx hleast hleaf
    constructor
    · refine (hp.nearest hc hroot hn (hn _ _ hd) (.self d.cls) rfl hleaf hx ?_).2
      intro m hm
      rw [Nat.zero_add]
      exact hleast m hm
    · intro m c hdeep htype
      have hchain : ∃ y, Leads registry m d.cls y ∧ y.typeName = c.head.typeName := by
        cases hdeep with
        | self => exact ⟨d.cls, .self d.cls, rfl⟩
        | child hmem hdeep =>
          obtain ⟨y, hy, hhead⟩ :=
            hp.leads hc hroot (.self d.cls) (mem_planChildren hmem) hdeep
          exact ⟨y, hy, by rw [hhead]; rfl⟩
      obtain ⟨y, hy, hyc⟩ := hchain
      obtain rfl := hy.unique hroot hx (hyc.trans htype)
      exact hleast m hy

/-- A field with a builder that needs no arguments. -/
def FieldInfo.object (name typeName : String) : FieldInfo :=
  ⟨name, true, some typeName, false⟩

/-- The queries of a shop: its orders, whose lines have items, and its items. -/
def shopQuery : BuilderClass :=
  ⟨"Query", [.object "orders" "Order", .object "items" "Item"], [], some .query, 2⟩

/-- The makers of the items. -/
def makerClass : BuilderClass :=
  ⟨"Maker", [⟨"country", false, none, false⟩], [], none, 2⟩

/-- The items, which have makers. -/
def itemClass : BuilderClass :=
  ⟨"Item", [.object "maker" "Maker"], [], none, 2⟩

/-- A shop, in which the makers are met first inside the lines of orders. -/
def shop : Registry :=
  .ofList [("Query", shopQuery), ("Order", ⟨"Order", [.object "lines" "Line"], [], none, 2⟩),
    ("Line", ⟨"Line", [.object "item" "Item"], [], none, 2⟩), ("Item", itemClass),
    ("Maker", makerClass)]

/-- The makers of a shop are two levels inside its queries. -/
theorem shop_nearest_maker : ∃ b,
    (∀ (s : Store) (id : Nat), s.drafts[id]? = some ((Draft.blank shopQuery none).withAll shop).1 →
      s.builder id = .ok b) ∧
    (∃ c, Deep 2 b c ∧ c.head.typeName = "Maker") ∧
    ∀ m c, Deep m b c → c.head.typeName = "Maker" → 2 ≤ m := by
  have hc : Consistent shop := consistent_of_entries (by decide)
  have hn : shop.NamesDiffer := namesDiffer_of_entries (by decide)
  have hmaker : Leads shop 2 shopQuery makerClass :=
    .refer (x := itemClass) (by decide) rfl (.refer (x := makerClass) (by decide) rfl (.self _))
  have hleast (m : Nat) (h : Leads shop m shopQuery makerClass) : 2 ≤ m := by
    by_contra hm
    obtain rfl | rfl : m = 0 ∨ m = 1 := by omega
    · exact absurd (congrArg BuilderClass.typeName h.eq_of_zero) (by decide)
    · exact absurd h.mem_of_one (by decide)
  obtain ⟨b, -, hb, hnearest⟩ :=
    withAll_nearest hc hn (d := Draft.blank shopQuery none) rfl rfl rfl
  exact ⟨b, hb, hnearest 2 makerClass hmaker hleast ⟨_, List.mem_cons_self, rfl⟩⟩

end Bindery.Query
