import Bindery.Proofs.Selection.Repeated

/-!
# Fields of one type

Selecting everything expands the type of each field on its own, with the depths that the fields
before it left. Two fields of one type are expanded below the same level, so the type itself is not
in the way of the second one; a type inside may be, where it was met further up in the meantime.
This can happen within the expansion of the first field already.

## What is proved

* `IncludesFields.siblings` — the expansions of two fields of one type, one after the other.
* `MadeOn.deep` — each builder that selecting everything nests was made on its level.
* `withAll_siblings` — the second of two fields of one type is selected with a part of what the
  first one is selected with, and with the same if no shorter chain leads to a type nested there.
-/

namespace Bindery.Query

section Siblings

variable {registry : Registry} {level : Nat} {t : String} {h : BuilderHead}
  {infos l₁ l₂ : List FieldInfo} {fields : List (String × Option Builder)}
  {fragments : List (String × Builder)} {ds es : Depths} {f f₁ f₂ : FieldInfo}

/-! ### Fields one after the other -/

/-- Fields are selected one after the other. -/
theorem IncludesFields.append_cases
    (hi : IncludesFields registry level h (l₁ ++ l₂) ds fields es) : ∃ fs₁ mid fs₂,
      IncludesFields registry level h l₁ ds fs₁ mid ∧
      IncludesFields registry level h l₂ mid fs₂ es ∧ fields = fs₁ ++ fs₂ := by
  induction l₁ generalizing ds fields with
  | nil => exact ⟨[], ds, fields, .nil, hi, rfl⟩
  | cons f r ih =>
    rw [List.cons_append] at hi
    cases hi with
    | leaf ht hi =>
      obtain ⟨fs₁, mid, fs₂, hr, hl, rfl⟩ := ih hi
      exact ⟨_, mid, fs₂, .leaf ht hr, hl, rfl⟩
    | back ht hback hi =>
      obtain ⟨fs₁, mid, fs₂, hr, hl, rfl⟩ := ih hi
      exact ⟨_, mid, fs₂, .back ht hback hr, hl, rfl⟩
    | skipped ht hback he hi =>
      obtain ⟨fs₁, mid, fs₂, hr, hl, rfl⟩ := ih hi
      exact ⟨_, mid, fs₂, .skipped ht hback he hr, hl, rfl⟩
    | nested ht hback he hi =>
      obtain ⟨fs₁, mid, fs₂, hr, hl, rfl⟩ := ih hi
      exact ⟨_, mid, fs₂, .nested ht hback he hr, hl, rfl⟩

/-- What is selected under a name stands where the field of that name does. -/
theorem IncludesFields.mem_append_iff {mid : Depths} {fs₁ fs₂ : List (String × Option Builder)}
    (hn : ((l₁ ++ l₂).map FieldInfo.name).Nodup)
    (h₁ : IncludesFields registry level h l₁ ds fs₁ mid)
    (h₂ : IncludesFields registry level h l₂ mid fs₂ es) {z : Option Builder} :
    (f ∈ l₁ → ((f.name, z) ∈ fs₁ ++ fs₂ ↔ (f.name, z) ∈ fs₁)) ∧
      (f ∈ l₂ → ((f.name, z) ∈ fs₁ ++ fs₂ ↔ (f.name, z) ∈ fs₂)) := by
  rw [List.map_append, List.nodup_append'] at hn
  obtain ⟨-, -, hdisjoint⟩ := hn
  have name_mem {l : List FieldInfo} {ds es : Depths} {fs : List (String × Option Builder)}
      (hi : IncludesFields registry level h l ds fs es) (hz : (f.name, z) ∈ fs) :
      f.name ∈ l.map FieldInfo.name :=
    hi.names.subset (List.mem_map_of_mem hz)
  constructor
  · intro hf
    rw [List.mem_append]
    exact or_iff_left fun hz => hdisjoint (List.mem_map_of_mem hf) (name_mem h₂ hz)
  · intro hf
    rw [List.mem_append]
    exact or_iff_right fun hz => hdisjoint (name_mem h₁ hz) (List.mem_map_of_mem hf)

/-- The first field is selected as its type is expanded. -/
theorem IncludesFields.cons_of_builderType (hn : ((f :: infos).map FieldInfo.name).Nodup)
    (ht : f.builderType = some t) (hback : leadsBack h f = false)
    (hi : IncludesFields registry level h (f :: infos) ds fields es) :
    ∃ o after rest, Expands registry level t ds o after ∧
      IncludesFields registry level h infos after rest es ∧
      ∀ z, (f.name, z) ∈ fields ↔ ∃ b, o = some b ∧ z = some b := by
  obtain ⟨hleaf, -⟩ | ⟨t', -, hback', -⟩ | ⟨t', o, after, rest, ht', -, he, hr, rfl⟩ :=
    hi.cons_cases
  · cases ht.symm.trans hleaf
  · cases hback.symm.trans hback'
  · cases ht.symm.trans ht'
    rw [List.map_cons, List.nodup_cons] at hn
    refine ⟨o, after, rest, he, hr, fun z => ?_⟩
    rw [List.mem_append, mem_map_toList]
    constructor
    · rintro (⟨b, rfl, heq⟩ | hz)
      · exact ⟨b, rfl, (Prod.mk.inj heq).2.symm⟩
      · exact absurd (hr.names.subset (List.mem_map_of_mem hz)) hn.1
    · rintro ⟨b, rfl, rfl⟩
      exact .inl ⟨b, rfl, rfl⟩

/-- A field that leads back is left out. -/
theorem IncludesFields.not_mem_of_leadsBack (hn : (infos.map FieldInfo.name).Nodup)
    (hi : IncludesFields registry level h infos ds fields es) (hf : f ∈ infos)
    (ht : f.builderType = some t) (hback : leadsBack h f = true) (z : Option Builder) :
    (f.name, z) ∉ fields := by
  intro hz
  cases z with
  | none =>
    obtain ⟨g, hg, hname, hleaf⟩ := hi.leaf_iff.mp hz
    rw [List.inj_on_of_nodup_map hn hg hf hname, ht] at hleaf
    cases hleaf
  | some b =>
    obtain ⟨g, hg, hname, -, -, hback', -⟩ := hi.attempts_of_mem hz
    rw [List.inj_on_of_nodup_map hn hg hf hname, hback] at hback'
    cases hback'

variable (registry level) in
/-- The type is expanded below the level, and again later. -/
structure ExpandsTwice (t : String) (o₁ : Option Builder) (m₁ s₂ : Depths) (o₂ : Option Builder) :
    Prop where
  /-- The first expansion, where the type is recorded if it is recorded at the second one. -/
  first : ∃ s₁, Expands registry level t s₁ o₁ m₁ ∧
    (recorded s₂ t level = true → recorded s₁ t level = true)
  /-- Nothing is forgotten in between. -/
  between : Lower s₂ m₁
  /-- The second expansion. -/
  second : ∃ m₂, Expands registry level t s₂ o₂ m₂

section Twice

variable {root u : BuilderClass} {o₁ o₂ : Option Builder} {m₁ s₂ : Depths} {y₁ y₂ : Builder}

theorem ExpandsTwice.part (hn : registry.NamesDiffer)
    (h : ExpandsTwice registry level t o₁ m₁ s₂ (some y₂)) :
    ∃ y₁, o₁ = some y₁ ∧ y₂.IsPartOf y₁ := by
  obtain ⟨s₁, he₁, -⟩ := h.first
  obtain ⟨m₂, he₂⟩ := h.second
  exact he₁.contains hn h.between he₂

theorem ExpandsTwice.not_recorded (h : ExpandsTwice registry level t (some y₁) m₁ s₂ o₂) :
    recorded s₂ t level = false := by
  obtain ⟨s₁, he₁, habove⟩ := h.first
  obtain ⟨hr, -⟩ := he₁.of_some
  rw [Bool.eq_false_iff] at hr ⊢
  exact fun hr₂ => hr (habove hr₂)

/-- A type with a field without a builder is expanded to a builder again. -/
theorem ExpandsTwice.both (hn : registry.NamesDiffer) (hu : registry.get? t = some u)
    (hleaf : u.HasLeaf) (h : ExpandsTwice registry level t (some y₁) m₁ s₂ o₂) :
    ∃ y₂, o₂ = some y₂ := by
  obtain ⟨m₂, he₂⟩ := h.second
  obtain ⟨fields, fragments, mid, hf, -, rfl⟩ := he₂.of_not_recorded h.not_recorded hu
  obtain ⟨f, hfmem, hf'⟩ := hleaf
  have hplace : (FieldSelection.plain f.name, none) ∈
      (Plan.builder ⟨fields, fragments, none⟩ u.head).fields :=
    (mem_fields_planBuilder (hf.nodup_names (hn t u hu))).mpr
      ⟨f.name, rfl, hf.leaf_iff.mpr ⟨f, hfmem, rfl, hf'⟩⟩
  exact ⟨_, if_pos (hasSelection_iff.mpr (.inl ⟨_, hplace⟩))⟩

/-- No chain from the root to a type nested in the builder, which stands on the level, is shorter
than the way to where it is nested. -/
def NestsNearest (registry : Registry) (root : BuilderClass) (level : Nat) (b : Builder) : Prop :=
  ∀ n x, Deep (n + 1) b x → ∀ m c, Leads registry m root c → c.typeName = x.head.typeName →
    level + (n + 1) ≤ m

/-- The type is expanded to the same builder again, if no shorter chain leads to a type nested
there. -/
theorem ExpandsTwice.same (hc : Consistent registry) (hn : registry.NamesDiffer)
    (hs₂ : Attained registry root s₂) (h : ExpandsTwice registry level t (some y₁) m₁ s₂ o₂)
    (hnear : NestsNearest registry root (level + 1) y₁) : o₂ = some y₁ := by
  obtain ⟨s₁, he₁, -⟩ := h.first
  obtain ⟨m₂, he₂⟩ := h.second
  have huntouched : Untouched s₂ level y₁ := by
    intro n x hx
    cases n with
    | zero =>
      cases hx
      rw [he₁.typeName hc]
      exact h.not_recorded
    | succ n =>
      rw [Bool.eq_false_iff]
      intro hr
      obtain ⟨m, hm, c, hlc, hct⟩ := hs₂ _ _ hr
      have := hnear n x hx m c hlc hct
      omega
  exact he₁.reproduced hc hn h.between huntouched s₂ o₂ m₂ ⟨.refl s₂, .refl s₂⟩ he₂

end Twice

/-- The type of two fields is expanded twice. -/
theorem IncludesFields.siblings {l₃ : List FieldInfo}
    (hn : ((l₁ ++ f₁ :: l₂ ++ f₂ :: l₃).map FieldInfo.name).Nodup)
    (ht₁ : f₁.builderType = some t) (ht₂ : f₂.builderType = some t)
    (hback₁ : leadsBack h f₁ = false) (hback₂ : leadsBack h f₂ = false)
    (hi : IncludesFields registry level h (l₁ ++ f₁ :: l₂ ++ f₂ :: l₃) ds fields es) :
    ∃ o₁ m₁ fs s₂ o₂, IncludesFields registry level h (l₁ ++ f₁ :: l₂) ds fs s₂ ∧
      ExpandsTwice registry level t o₁ m₁ s₂ o₂ ∧
      (∀ z, (f₁.name, z) ∈ fields ↔ ∃ b, o₁ = some b ∧ z = some b) ∧
      ∀ z, (f₂.name, z) ∈ fields ↔ ∃ b, o₂ = some b ∧ z = some b := by
  obtain ⟨fs, s₂, fs₂, hpre, hsuf, rfl⟩ := hi.append_cases
  obtain ⟨fs₀, s₁, fs₁, hpre₀, hpre₁, rfl⟩ := hpre.append_cases
  have hn' := hn
  rw [List.map_append, List.nodup_append'] at hn'
  obtain ⟨hnpre, hnsuf, -⟩ := hn'
  have hnpre' := hnpre
  rw [List.map_append, List.nodup_append'] at hnpre'
  obtain ⟨o₁, m₁, rest₁, he₁, hr₁, hf₁⟩ := hpre₁.cons_of_builderType hnpre'.2.1 ht₁ hback₁
  obtain ⟨o₂, m₂, rest₂, he₂, hr₂, hf₂⟩ := hsuf.cons_of_builderType hnsuf ht₂ hback₂
  refine ⟨o₁, m₁, _, s₂, o₂, hpre, ⟨⟨s₁, he₁, ?_⟩, hr₁.lower, m₂, he₂⟩, fun z => ?_, fun z => ?_⟩
  · exact fun hr => he₁.recorded_above le_rfl (hr₁.recorded_above le_rfl hr)
  · have hf₁mem : f₁ ∈ f₁ :: l₂ := List.mem_cons_self
    rw [← hf₁, (hpre.mem_append_iff hn hsuf).1 (List.mem_append_right _ hf₁mem),
      (hpre₀.mem_append_iff hnpre hpre₁).2 hf₁mem]
  · rw [← hf₂, (hpre.mem_append_iff hn hsuf).2 List.mem_cons_self]

end Siblings

/-! ### The builders that selecting everything makes -/

section Making

variable (registry : Registry) (root : BuilderClass)

/-- The builder of the class was made on the level, which a chain of references from the root
reaches. -/
inductive MadeOn (level : Nat) (c : BuilderClass) : Builder → Prop where
  /-- It selects what the class includes. -/
  | intro {h : BuilderHead} {ds mid es : Depths} {fields : List (String × Option Builder)}
      {fragments : List (String × Builder)} :
      h.typeName = c.typeName → registry.get? c.typeName = some c → Leads registry level root c →
      Attained registry root ds →
      IncludesFields registry level h c.selectable ds fields mid →
      IncludesFragments registry level c.fragmentTypes mid fragments es →
      MadeOn level c (Plan.builder ⟨fields, fragments, none⟩ h)

end Making

section Made

variable {registry : Registry} {root c : BuilderClass} {level n : Nat} {b x : Builder}

theorem MadeOn.typeName (h : MadeOn registry root level c b) : b.head.typeName = c.typeName := by
  obtain ⟨hh, -⟩ := h
  exact hh

theorem MadeOn.registered (h : MadeOn registry root level c b) :
    registry.get? c.typeName = some c := by
  obtain ⟨-, hreg, -⟩ := h
  exact hreg

/-- What is inside a builder was made one level below. -/
theorem MadeOn.child (hc : Consistent registry) (h : MadeOn registry root level c b)
    (hx : x ∈ b.children) : ∃ d, MadeOn registry root (level + 1) d x := by
  obtain ⟨-, hreg, hl, hds, hf, hg⟩ := h
  have hr := hc.references hreg
  obtain ⟨u, hu, ds', es', hds', he⟩ :=
    (included_of_includes hc hr hl hds hf hg).grows (mem_planChildren hx)
  obtain ⟨-, d, fields, fragments, mid, hregd, hf', hg', rfl, -⟩ := he.of_some
  obtain rfl := hc.typeName hregd
  have hld := hl.snoc hu hregd
  exact ⟨d, .intro rfl hregd hld (hds'.put hld rfl) hf' hg'⟩

/-- **Each builder inside was made on its level.** -/
theorem MadeOn.deep (hc : Consistent registry) (h : MadeOn registry root level c b)
    (hx : Deep n b x) : ∃ d, MadeOn registry root (level + n) d x := by
  induction hx generalizing level c with
  | self => exact ⟨c, h⟩
  | @child n b y x hy _ ih =>
    obtain ⟨d, hd⟩ := h.child hc hy
    obtain ⟨e, he⟩ := ih hd
    exact ⟨e, by rwa [Nat.add_assoc, Nat.add_comm 1 n] at he⟩

end Made

/-! ### Two fields of one type -/

/-- The builder does not select the field. -/
def Builder.LeavesOut (b : Builder) (f : FieldInfo) : Prop :=
  ∀ z, (FieldSelection.plain f.name, z) ∉ b.fields

/-- The builder selects the field with the selection of another one. -/
def Builder.SelectsWith (b : Builder) (f : FieldInfo) (y : Builder) : Prop :=
  (FieldSelection.plain f.name, some y) ∈ b.fields

/-- The builder selects the field with this one alone, or leaves it out where there is none. -/
def Builder.SelectsJust (b : Builder) (f : FieldInfo) (o : Option Builder) : Prop :=
  (b.LeavesOut f ↔ o = none) ∧ ∀ y, b.SelectsWith f y ↔ o = some y

/-- How a builder on the level selects two fields of the type, the first one before the second. -/
structure Siblings (registry : Registry) (root : BuilderClass) (level : Nat) (t : String)
    (f₁ f₂ : FieldInfo) (b : Builder) : Prop where
  /-- The second one is left out or selected with a part of what the first one is selected with. -/
  part : b.LeavesOut f₂ ∨
    ∃ y₁ y₂, b.SelectsWith f₁ y₁ ∧ b.SelectsWith f₂ y₂ ∧ y₂.IsPartOf y₁
  /-- If the type has a field without a builder, both are left out or none is. -/
  both : ∀ u, registry.get? t = some u → u.HasLeaf → (b.LeavesOut f₁ ↔ b.LeavesOut f₂)
  /-- If no shorter chain leads to a type nested in the first one, the second one is selected with
  the same. -/
  same : ∀ y, b.SelectsWith f₁ y → NestsNearest registry root (level + 1) y → b.SelectsWith f₂ y

section Alike

variable {registry : Registry} {root c : BuilderClass} {level : Nat} {t : String} {b : Builder}
  {f f₁ f₂ : FieldInfo}

theorem exists_append_of_sublist {α : Type} {a b : α} {l : List α} (h : [a, b].Sublist l) :
    ∃ l₁ l₂ l₃, l = l₁ ++ a :: l₂ ++ b :: l₃ := by
  obtain ⟨r₁, r₂, rfl, ha, hb⟩ := List.cons_sublist_iff.mp h
  obtain ⟨l₁, l₂, rfl⟩ := List.append_of_mem ha
  obtain ⟨k₁, k₂, rfl⟩ := List.append_of_mem (List.singleton_sublist.mp hb)
  exact ⟨l₁, l₂ ++ k₁, k₂, by simp⟩

/-- What the builder of a plan selects a field with. -/
theorem selects_planBuilder (h : BuilderHead) {fields : List (String × Option Builder)}
    (fragments : List (String × Builder)) {o : Option Builder}
    (hnames : (fields.map Prod.fst).Nodup)
    (hf : ∀ z, (f.name, z) ∈ fields ↔ ∃ b, o = some b ∧ z = some b) :
    (Plan.builder ⟨fields, fragments, none⟩ h).SelectsJust f o := by
  have hmem (z : Option Builder) :
      (FieldSelection.plain f.name, z) ∈ (Plan.builder ⟨fields, fragments, none⟩ h).fields ↔
        ∃ b, o = some b ∧ z = some b := by
    rw [mem_fields_planBuilder hnames, ← hf]
    constructor
    · rintro ⟨n, heq, hmem⟩
      cases heq
      exact hmem
    · exact fun hmem => ⟨f.name, rfl, hmem⟩
  constructor
  · refine (forall_congr' fun z => not_congr (hmem z)).trans ?_
    cases o <;> simp
  · intro y
    rw [Builder.SelectsWith, hmem]
    simp

/-- Two fields that are left out. -/
theorem siblings_of_leavesOut (h₁ : b.LeavesOut f₁) (h₂ : b.LeavesOut f₂) :
    Siblings registry root level t f₁ f₂ b where
  part := .inl h₂
  both _ _ _ := iff_of_true h₁ h₂
  same y hy _ := absurd hy (h₁ (some y))

/-- Two fields that are selected with what the expansions of their type are. -/
theorem ExpandsTwice.siblings (hc : Consistent registry) (hn : registry.NamesDiffer)
    {m₁ s₂ : Depths} {o₁ o₂ : Option Builder} (h : ExpandsTwice registry level t o₁ m₁ s₂ o₂)
    (hs₂ : Attained registry root s₂) (h₁ : b.SelectsJust f₁ o₁) (h₂ : b.SelectsJust f₂ o₂) :
    Siblings registry root level t f₁ f₂ b := by
  obtain ⟨hout₁, hwith₁⟩ := h₁
  obtain ⟨hout₂, hwith₂⟩ := h₂
  constructor
  case part =>
    cases o₂ with
    | none => exact .inl (hout₂.mpr rfl)
    | some y₂ =>
      obtain ⟨y₁, rfl, hpart⟩ := h.part hn
      exact .inr ⟨y₁, y₂, (hwith₁ y₁).mpr rfl, (hwith₂ y₂).mpr rfl, hpart⟩
  case both =>
    intro u hu hleaf
    rw [hout₁, hout₂]
    cases o₁ with
    | none =>
      cases o₂ with
      | none => rfl
      | some y₂ =>
        obtain ⟨y₁, hy₁, -⟩ := h.part hn
        cases hy₁
    | some y₁ =>
      obtain ⟨y₂, rfl⟩ := h.both hn hu hleaf
      simp
  case same =>
    intro y hy hnear
    obtain rfl := (hwith₁ y).mp hy
    exact (hwith₂ y).mpr (h.same hc hn hs₂ hnear)

/-- A builder that was made selects a part for the second one of two fields of one type. -/
theorem MadeOn.siblings (hc : Consistent registry) (hn : registry.NamesDiffer)
    (h : MadeOn registry root level c b) (hsub : [f₁, f₂].Sublist c.selectable)
    (ht₁ : f₁.builderType = some t) (ht₂ : f₂.builderType = some t) :
    Siblings registry root level t f₁ f₂ b := by
  cases h with
  | @intro head ds mid es fields fragments _ hreg hl hds hf hg =>
  have hnames := hf.nodup_names (hn _ c hreg)
  have hninfos : (c.selectable.map FieldInfo.name).Nodup :=
    (hn _ c hreg).sublist (List.filter_sublist.map _)
  obtain ⟨hrefs, -⟩ := referredFrom_references hc (hc.references hreg) hl
  have hsame : leadsBack head f₂ = leadsBack head f₁ := by
    rw [leadsBack, ht₂, ← ht₁, leadsBack]
  cases hback : leadsBack head f₁ with
  | true =>
    -- Both fields lead back to the operation.
    have left_out {f : FieldInfo} (hmem : f ∈ c.selectable) (ht : f.builderType = some t)
        (hback : leadsBack head f = true) : (Plan.builder ⟨fields, fragments, none⟩ head).LeavesOut f :=
      (selects_planBuilder (o := none) head fragments hnames fun z =>
        iff_of_false (hf.not_mem_of_leadsBack hninfos hmem ht hback z) (by simp)).1.mpr rfl
    exact siblings_of_leavesOut (left_out (hsub.subset (by simp)) ht₁ hback)
      (left_out (hsub.subset (by simp)) ht₂ (hsame.trans hback))
  | false =>
    obtain ⟨l₁, l₂, l₃, heq⟩ := exists_append_of_sublist hsub
    rw [heq] at hf hninfos hrefs
    obtain ⟨o₁, m₁, fs, s₂, o₂, hpre, htwice, hf₁, hf₂⟩ :=
      hf.siblings hninfos ht₁ ht₂ hback (hsame.trans hback)
    have hrefs : ReferredFrom registry root level
        ((l₁ ++ f₁ :: l₂).filterMap FieldInfo.builderType) := by
      intro u hu
      exact hrefs u (List.filterMap_append ▸ List.mem_append_left _ hu)
    exact htwice.siblings hc hn (hpre.attained hc hrefs hds)
      (selects_planBuilder head fragments hnames hf₁)
      (selects_planBuilder head fragments hnames hf₂)

end Alike

/-- **Of two fields of one type, the second one is selected with a part of what the first one is
selected with**, and with the same unless a shorter chain leads to a type nested there. Selecting
everything ends without a refusal, and this holds of what it selects and of each builder inside. -/
theorem withAll_siblings {registry : Registry} (hc : Consistent registry)
    (hn : registry.NamesDiffer) {d : Draft} (hd : registry.get? d.cls.typeName = some d.cls) :
    ∃ p, d.withAll registry = (d.withPlan p, none) ∧
      (d.fields = .empty → d.fragments = .empty → ∀ (s : Store) (id : Nat),
        s.drafts[id]? = some (d.withAll registry).1 → s.builder id = .ok (p.builder d.head)) ∧
      ∀ n b c, Deep n (p.builder d.head) b → registry.get? b.head.typeName = some c →
        ∀ t f₁ f₂, [f₁, f₂].Sublist c.selectable → f₁.builderType = some t →
          f₂.builderType = some t → Siblings registry d.cls n t f₁ f₂ b := by
  obtain ⟨fields, fragments, es, gs, hplan, hinc, hinc', -⟩ :=
    planAll_includes hc (hc.references hd) (h := d.head) rfl
  have hall : d.withAll registry = (d.withPlan ⟨fields, fragments, none⟩, none) := by
    rw [Draft.withAll, hplan]
  refine ⟨⟨fields, fragments, none⟩, hall, fun hf hg s id hid => ?_, ?_⟩
  · rw [hall] at hid
    exact builder_withPlan hf hg _ hid
  · intro n b c hb hreg t f₁ f₂ hsub ht₁ ht₂
    have hroot : MadeOn registry d.cls 0 d.cls (Plan.builder ⟨fields, fragments, none⟩ d.head) :=
      .intro rfl hd (.self d.cls) (attained_root d.cls) hinc hinc'
    obtain ⟨x, hx⟩ := hroot.deep hc hb
    rw [Nat.zero_add] at hx
    rw [hx.typeName, hx.registered, Option.some.injEq] at hreg
    subst hreg
    exact hx.siblings hc hn hsub ht₁ ht₂

/-! ### Fields that are treated alike, and fields that are not -/

/-- The builder of a root class that selects everything, as it is stored alone. -/
def storeOfAll (registry : Registry) (c : BuilderClass) : Store :=
  ⟨registry, [((Draft.blank c c.head.operation).withAll registry).1]⟩

/-- A builder of the name of the type, with nothing but fields. -/
def objectBuilder (typeName : String) (fields : List (String × Option Builder)) : Builder :=
  .node ⟨typeName, none, .empty⟩ (fields.map fun f => (.plain f.1, f.2)) []

/-- The queries of a ledger: its first order and its last one. -/
def ledgerQuery : BuilderClass :=
  ⟨"Query", [.object "first" "Order", .object "last" "Order"], [], some .query, 2⟩

/-- A ledger, whose orders have items. -/
def ledger : Registry :=
  .ofList [("Query", ledgerQuery), ("Order", ⟨"Order", [.object "item" "Item"], [], none, 2⟩),
    ("Item", ⟨"Item", [⟨"name", false, none, false⟩], [], none, 2⟩)]

/-- An order with the name of its item. -/
def orderItem : Builder :=
  objectBuilder "Order" [("item", some (objectBuilder "Item" [("name", none)]))]

theorem orderItem_nestsNearest : NestsNearest ledger ledgerQuery 1 orderItem := by
  intro n x hx m c hc hname
  cases hx with
  | child hx hdeep =>
  obtain rfl := List.mem_singleton.mp hx
  cases hdeep with
  | child hx => cases hx
  | self =>
  by_contra hm
  obtain rfl | rfl : m = 0 ∨ m = 1 := by omega
  · rw [hc.eq_of_zero] at hname
    exact absurd hname (by decide)
  · have hmem := hc.mem_of_one
    rw [hname] at hmem
    exact absurd hmem (by decide)

/-- The first order and the last one are selected with the same. -/
theorem ledger_orders_alike : ∃ b y,
    (storeOfAll ledger ledgerQuery).builder 0 = .ok b ∧
    b.SelectsWith (.object "first" "Order") y ∧ b.SelectsWith (.object "last" "Order") y := by
  have hc : Consistent ledger := consistent_of_entries (by decide)
  have hn : ledger.NamesDiffer := namesDiffer_of_entries (by decide)
  obtain ⟨p, -, hstored, hall⟩ :=
    withAll_siblings hc hn (d := Draft.blank ledgerQuery ledgerQuery.head.operation) rfl
  have hbuilder := hstored rfl rfl (storeOfAll ledger ledgerQuery) 0 rfl
  have hsiblings := hall 0 _ ledgerQuery (.self _) rfl "Order" (.object "first" "Order")
    (.object "last" "Order") (by decide) rfl rfl
  -- the builder that is stored is the one that selects the plan
  have hsame : p.builder (Draft.blank ledgerQuery ledgerQuery.head.operation).head =
      .node ledgerQuery.head
        [(.plain "first", some orderItem), (.plain "last", some orderItem)] [] :=
    Except.ok.inj (hbuilder.symm.trans rfl)
  have hfirst : (p.builder (Draft.blank ledgerQuery ledgerQuery.head.operation).head).SelectsWith
      (.object "first" "Order") orderItem := by
    rw [hsame]
    exact List.mem_cons_self
  exact ⟨_, orderItem, hbuilder, hfirst, hsiblings.same _ hfirst orderItem_nestsNearest⟩

/-- The queries of a gallery: three of its paintings, and the artist who founded it. -/
def galleryQuery : BuilderClass :=
  ⟨"Query", [.object "oldest" "Painting", .object "newest" "Painting", .object "founder" "Artist",
    .object "latest" "Painting"], [], some .query, 2⟩

/-- A gallery, whose paintings lead to artists, also by way of their series. -/
def gallery : Registry :=
  .ofList [("Query", galleryQuery),
    ("Painting", ⟨"Painting", [.object "series" "Series", .object "artist" "Artist"], [], none, 2⟩),
    ("Series", ⟨"Series", [.object "artist" "Artist"], [], none, 2⟩),
    ("Artist", ⟨"Artist", [⟨"name", false, none, false⟩], [], none, 2⟩)]

/-- The oldest painting is selected with its series and its artist. Inside the series the artist was
met first, and then further up, so the newest painting is selected with its artist only. The founder
is an artist still further up, so the latest painting is left out. -/
theorem gallery_paintings_differ : Consistent gallery ∧ gallery.NamesDiffer ∧ ∃ b y₁ y₂,
    (storeOfAll gallery galleryQuery).builder 0 = .ok b ∧
    b.SelectsWith (.object "oldest" "Painting") y₁ ∧
    b.SelectsWith (.object "newest" "Painting") y₂ ∧
    y₁.build ⟨false, 2⟩ = .ok "{series{artist{name}},artist{name}}" ∧
    y₂.build ⟨false, 2⟩ = .ok "{artist{name}}" ∧
    b.LeavesOut (.object "latest" "Painting") := by
  have hstored : (storeOfAll gallery galleryQuery).builder 0 =
      .ok (.node galleryQuery.head [
        (.plain "oldest", some (objectBuilder "Painting" [
          ("series", some (objectBuilder "Series" [
            ("artist", some (objectBuilder "Artist" [("name", none)]))])),
          ("artist", some (objectBuilder "Artist" [("name", none)]))])),
        (.plain "newest", some (objectBuilder "Painting" [
          ("artist", some (objectBuilder "Artist" [("name", none)]))])),
        (.plain "founder", some (objectBuilder "Artist" [("name", none)]))] []) := rfl
  refine ⟨consistent_of_entries (by decide), namesDiffer_of_entries (by decide), _, _, _, hstored,
    List.mem_cons_self, List.mem_cons_of_mem _ List.mem_cons_self, rfl, rfl, fun z hz => ?_⟩
  have hname : "latest" ∈ ["oldest", "newest", "founder"] :=
    List.mem_map_of_mem (f := fun e => e.1.name) hz
  exact absurd hname (by decide)

end Bindery.Query
