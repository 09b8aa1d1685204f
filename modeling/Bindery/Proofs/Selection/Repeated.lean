import Bindery.Proofs.Selection.Nearest

/-!
# Expanding a type again

When a type is expanded a second time below one level, everything that its first expansion met is
recorded where it was met, or further up. So the second expansion records nothing new: its outcome
is decided by the depths that it starts from. It meets nothing that the first one did not meet, and
leaves out each builder whose type is recorded further up than the builder would stand.

## What is proved

* `Expands.lower`, `Expands.recorded_above` — what an expansion records.
* `Expands.contains` — the second expansion selects a part of what the first one selects.
* `Expands.settled` — it records nothing new.
* `Expands.reproduced` — it selects the same if nothing inside is recorded further up.
-/

namespace Bindery.Query

section Runs

variable {registry : Registry} {level : Nat} {t : String} {h : BuilderHead} {o : Option Builder}
  {infos : List FieldInfo} {ts : List String} {fields : List (String × Option Builder)}
  {fragments : List (String × Builder)} {base ds es : Depths}

/-! ### What an expansion records -/

mutual

/-- An expansion forgets nothing. -/
theorem Expands.lower {level : Nat} {t : String} {ds es : Depths} {o : Option Builder} :
    Expands registry level t ds o es → Lower es ds
  | .recorded _ => .refl ds
  | .fresh hr _ hf hg => hg.lower.trans (hf.lower.trans (lower_put hr))

theorem IncludesFields.lower {level : Nat} {infos : List FieldInfo} {ds es : Depths}
    {h : BuilderHead} {fields : List (String × Option Builder)} :
    IncludesFields registry level h infos ds fields es → Lower es ds
  | .nil => .refl ds
  | .leaf _ hi => hi.lower
  | .back _ _ hi => hi.lower
  | .skipped _ _ he hi => hi.lower.trans he.lower
  | .nested _ _ he hi => hi.lower.trans he.lower

theorem IncludesFragments.lower {level : Nat} {ts : List String} {ds es : Depths}
    {fragments : List (String × Builder)} :
    IncludesFragments registry level ts ds fragments es → Lower es ds
  | .nil => .refl ds
  | .skipped he hi => hi.lower.trans he.lower
  | .nested he hi => hi.lower.trans he.lower

end

mutual

/-- An expansion below a level records nothing on the level or above. -/
theorem Expands.recorded_above {level : Nat} {t u : String} {ds es : Depths} {o : Option Builder}
    {m : Nat} (hm : m ≤ level) (hu : recorded es u m = true) :
    Expands registry level t ds o es → recorded ds u m = true
  | .recorded _ => hu
  | .fresh _ _ hf hg =>
    have hput :=
      hf.recorded_above (Nat.le_succ_of_le hm) (hg.recorded_above (Nat.le_succ_of_le hm) hu)
    (recorded_put hput).resolve_left fun hnew => absurd hnew.2 (by omega)

theorem IncludesFields.recorded_above {level : Nat} {infos : List FieldInfo} {ds es : Depths}
    {h : BuilderHead} {fields : List (String × Option Builder)} {u : String} {m : Nat}
    (hm : m ≤ level) (hu : recorded es u m = true) :
    IncludesFields registry level h infos ds fields es → recorded ds u m = true
  | .nil => hu
  | .leaf _ hi => hi.recorded_above hm hu
  | .back _ _ hi => hi.recorded_above hm hu
  | .skipped _ _ he hi => he.recorded_above hm (hi.recorded_above hm hu)
  | .nested _ _ he hi => he.recorded_above hm (hi.recorded_above hm hu)

theorem IncludesFragments.recorded_above {level : Nat} {ts : List String} {ds es : Depths}
    {fragments : List (String × Builder)} {u : String} {m : Nat} (hm : m ≤ level)
    (hu : recorded es u m = true) :
    IncludesFragments registry level ts ds fragments es → recorded ds u m = true
  | .nil => hu
  | .skipped he hi => he.recorded_above hm (hi.recorded_above hm hu)
  | .nested he hi => he.recorded_above hm (hi.recorded_above hm hu)

end

/-! ### The expansions of a selection -/

variable (registry level) in
/-- On the way from some depths to others, the type is expanded below the level to the builder, if
to any. -/
def Attempts (ds es : Depths) (t : String) (o : Option Builder) : Prop :=
  ∃ before after, Lower before ds ∧ Expands registry level t before o after ∧ Lower es after

theorem Attempts.mono {ds' es' : Depths} (h : Attempts registry level ds es t o)
    (hds : Lower ds ds') (hes : Lower es' es) : Attempts registry level ds' es' t o := by
  obtain ⟨before, after, hbefore, he, hafter⟩ := h
  exact ⟨before, after, hbefore.trans hds, he, hes.trans hafter⟩

/-- A field is selected without a builder, left out because it leads back, or selected as its type
is expanded. -/
theorem IncludesFields.cons_cases {f : FieldInfo} {r : List FieldInfo}
    (hi : IncludesFields registry level h (f :: r) ds fields es) :
    (f.builderType = none ∧ ∃ rest, IncludesFields registry level h r ds rest es ∧
      fields = (f.name, none) :: rest) ∨
    (∃ t, f.builderType = some t ∧ leadsBack h f = true ∧
      IncludesFields registry level h r ds fields es) ∨
    ∃ t o after rest, f.builderType = some t ∧ leadsBack h f = false ∧
      Expands registry level t ds o after ∧ IncludesFields registry level h r after rest es ∧
      fields = (o.map fun b => (f.name, some b)).toList ++ rest := by
  cases hi with
  | leaf ht hi => exact .inl ⟨ht, _, hi, rfl⟩
  | back ht hback hi => exact .inr (.inl ⟨_, ht, hback, hi⟩)
  | skipped ht hback he hi => exact .inr (.inr ⟨_, none, _, _, ht, hback, he, hi, rfl⟩)
  | nested ht hback he hi => exact .inr (.inr ⟨_, some _, _, _, ht, hback, he, hi, rfl⟩)

/-- A fragment is selected as its type is expanded. -/
theorem IncludesFragments.cons_cases {r : List String}
    (hi : IncludesFragments registry level (t :: r) ds fragments es) :
    ∃ o after rest, Expands registry level t ds o after ∧
      IncludesFragments registry level r after rest es ∧
      fragments = (o.map fun b => (t, b)).toList ++ rest := by
  cases hi with
  | skipped he hi => exact ⟨none, _, _, he, hi, rfl⟩
  | nested he hi => exact ⟨some _, _, _, he, hi, rfl⟩

theorem mem_map_toList {α β : Type} {f : α → β} {o : Option α} {y : β} :
    y ∈ (o.map f).toList ↔ ∃ x, o = some x ∧ f x = y := by
  rw [Option.mem_toList, Option.map_eq_some_iff]

/-- The type of each field that does not lead back is expanded. -/
theorem IncludesFields.exists_attempt (hi : IncludesFields registry level h infos ds fields es)
    {f : FieldInfo} (hf : f ∈ infos) (ht : f.builderType = some t) (hback : leadsBack h f = false) :
    ∃ o, Attempts registry level ds es t o ∧ ∀ b ∈ o, (f.name, some b) ∈ fields := by
  induction infos generalizing ds fields with
  | nil => cases hf
  | cons g r ih =>
    rcases List.mem_cons.mp hf with rfl | hf
    · obtain ⟨hleaf, -⟩ | ⟨t', -, hback', -⟩ | ⟨t', o, after, rest, ht', -, he, hr, rfl⟩ :=
        hi.cons_cases
      · cases hleaf.symm.trans ht
      · cases hback'.symm.trans hback
      · cases ht'.symm.trans ht
        refine ⟨o, ⟨ds, after, .refl ds, he, hr.lower⟩, fun b hb => List.mem_append_left _ ?_⟩
        exact mem_map_toList.mpr ⟨b, hb, rfl⟩
    · obtain ⟨-, rest, hr, rfl⟩ | ⟨t', -, -, hr⟩ | ⟨t', o, after, rest, -, -, he, hr, rfl⟩ :=
        hi.cons_cases
      · obtain ⟨o, ho, hmem⟩ := ih hr hf
        exact ⟨o, ho, fun b hb => List.mem_cons_of_mem _ (hmem b hb)⟩
      · exact ih hr hf
      · obtain ⟨o', ho, hmem⟩ := ih hr hf
        exact ⟨o', ho.mono he.lower (.refl es), fun b hb => List.mem_append_right _ (hmem b hb)⟩

/-- A field with a builder is selected as its type is expanded. -/
theorem IncludesFields.attempts_of_mem (hi : IncludesFields registry level h infos ds fields es)
    {n : String} {b : Builder} (he : (n, some b) ∈ fields) :
    ∃ f ∈ infos, f.name = n ∧ ∃ t, f.builderType = some t ∧ leadsBack h f = false ∧
      Attempts registry level ds es t (some b) := by
  induction infos generalizing ds fields with
  | nil =>
    cases hi
    cases he
  | cons g r ih =>
    have later {ds' : Depths} {fields' : List (String × Option Builder)}
        (hi : IncludesFields registry level h r ds' fields' es) (hds : Lower ds' ds)
        (he : (n, some b) ∈ fields') : ∃ f ∈ g :: r, f.name = n ∧ ∃ t, f.builderType = some t ∧
          leadsBack h f = false ∧ Attempts registry level ds es t (some b) := by
      obtain ⟨f, hf, hname, t, ht, hback, ha⟩ := ih hi he
      exact ⟨f, List.mem_cons_of_mem _ hf, hname, t, ht, hback, ha.mono hds (.refl es)⟩
    obtain ⟨-, rest, hr, rfl⟩ | ⟨t, -, -, hr⟩ | ⟨t, o, after, rest, ht, hback, hexp, hr, rfl⟩ :=
      hi.cons_cases
    · refine later hr (.refl ds) ((List.mem_cons.mp he).resolve_left fun heq => ?_)
      cases (Prod.mk.inj heq).2
    · exact later hr (.refl ds) he
    · rcases List.mem_append.mp he with he | he
      · obtain ⟨b', rfl, heq⟩ := mem_map_toList.mp he
        obtain ⟨rfl, hb⟩ := Prod.mk.inj heq
        cases hb
        exact ⟨g, List.mem_cons_self, rfl, t, ht, hback, ds, after, .refl ds, hexp, hr.lower⟩
      · exact later hr hexp.lower he

/-- The fields without a builder are selected. -/
theorem IncludesFields.leaf_iff (hi : IncludesFields registry level h infos ds fields es)
    {n : String} : (n, none) ∈ fields ↔ ∃ f ∈ infos, f.name = n ∧ f.builderType = none := by
  induction infos generalizing ds fields with
  | nil =>
    cases hi
    simp
  | cons g r ih =>
    simp only [List.exists_mem_cons_iff]
    obtain ⟨ht, rest, hr, rfl⟩ | ⟨t, ht, -, hr⟩ | ⟨t, o, after, rest, ht, -, -, hr, rfl⟩ :=
      hi.cons_cases
    · rw [List.mem_cons, ih hr, Prod.mk.injEq, eq_comm (a := n)]
      simp [ht]
    · rw [ih hr]
      simp [ht]
    · rw [List.mem_append, ih hr, mem_map_toList]
      simp [ht]

/-- The selected fields have the names of infos, in their order. -/
theorem IncludesFields.names (hi : IncludesFields registry level h infos ds fields es) :
    (fields.map Prod.fst).Sublist (infos.map FieldInfo.name) := by
  induction infos generalizing ds fields with
  | nil =>
    cases hi
    exact .slnil
  | cons g r ih =>
    rw [List.map_cons]
    obtain ⟨-, rest, hr, rfl⟩ | ⟨t, -, -, hr⟩ | ⟨t, o, after, rest, -, -, -, hr, rfl⟩ :=
      hi.cons_cases
    · exact (ih hr).cons_cons g.name
    · exact (ih hr).cons g.name
    · cases o with
      | none => exact (ih hr).cons g.name
      | some b => exact (ih hr).cons_cons g.name

theorem IncludesFragments.exists_attempt
    (hi : IncludesFragments registry level ts ds fragments es) (ht : t ∈ ts) :
    ∃ o, Attempts registry level ds es t o ∧ ∀ b ∈ o, (t, b) ∈ fragments := by
  induction ts generalizing ds fragments with
  | nil => cases ht
  | cons u r ih =>
    obtain ⟨o, after, rest, he, hr, rfl⟩ := hi.cons_cases
    rcases List.mem_cons.mp ht with rfl | ht
    · refine ⟨o, ⟨ds, after, .refl ds, he, hr.lower⟩, fun b hb => List.mem_append_left _ ?_⟩
      exact mem_map_toList.mpr ⟨b, hb, rfl⟩
    · obtain ⟨o', ho, hmem⟩ := ih hr ht
      exact ⟨o', ho.mono he.lower (.refl es), fun b hb => List.mem_append_right _ (hmem b hb)⟩

theorem IncludesFragments.attempts_of_mem
    (hi : IncludesFragments registry level ts ds fragments es) {b : Builder}
    (he : (t, b) ∈ fragments) : t ∈ ts ∧ Attempts registry level ds es t (some b) := by
  induction ts generalizing ds fragments with
  | nil =>
    cases hi
    cases he
  | cons u r ih =>
    obtain ⟨o, after, rest, hexp, hr, rfl⟩ := hi.cons_cases
    rcases List.mem_append.mp he with he | he
    · obtain ⟨b', rfl, heq⟩ := mem_map_toList.mp he
      cases heq
      exact ⟨List.mem_cons_self, ds, after, .refl ds, hexp, hr.lower⟩
    · obtain ⟨ht, ha⟩ := ih hr he
      exact ⟨List.mem_cons_of_mem _ ht, ha.mono hexp.lower (.refl es)⟩

/-- Of several fragments on a type the last one stays, which was expanded as well. -/
theorem IncludesFragments.exists_last
    (hi : IncludesFragments registry level ts ds fragments es) {e : String × Builder}
    (he : e ∈ fragments) : ∃ last, (Keyed.ofList fragments).get? e.1 = some last ∧
      Attempts registry level ds es e.1 (some last) := by
  obtain ⟨last, hlast⟩ :=
    Keyed.exists_get?_of_mem_keys (Keyed.mem_keys_ofList.mpr (List.mem_map_of_mem he))
  have hmem := Keyed.mem_entries_ofList (Keyed.mem_entries_of_get? hlast)
  exact ⟨last, hlast, (hi.attempts_of_mem hmem).2⟩

end Runs

/-! ### Parts of a selection -/

mutual

/-- The builder selects a part of what another one selects: the same fields without a builder, and
some of the other fields and of the fragments, with parts of their selections. -/
def Builder.IsPartOf : Builder → Builder → Prop
  | .node h fields fragments, b =>
    h = b.head ∧ (∀ f, (f, none) ∈ fields ↔ (f, none) ∈ b.fields) ∧
      fieldsArePart fields b.fields ∧ fragmentsArePart fragments b.fragments

/-- Each field with a builder is one of others, with a part of its selection. -/
def fieldsArePart :
    List (FieldSelection × Option Builder) → List (FieldSelection × Option Builder) → Prop
  | [], _ => True
  | (_, none) :: r, fs => fieldsArePart r fs
  | (f, some b) :: r, fs => (∃ c, (f, some c) ∈ fs ∧ b.IsPartOf c) ∧ fieldsArePart r fs

/-- Each fragment is one of others, with a part of its selection. -/
def fragmentsArePart : List (String × Builder) → List (String × Builder) → Prop
  | [], _ => True
  | (t, b) :: r, fs => (∃ c, (t, c) ∈ fs ∧ b.IsPartOf c) ∧ fragmentsArePart r fs

end

theorem fieldsArePart_iff {fs gs : List (FieldSelection × Option Builder)} :
    fieldsArePart fs gs ↔ ∀ f b, (f, some b) ∈ fs → ∃ c, (f, some c) ∈ gs ∧ b.IsPartOf c := by
  induction fs with
  | nil => simp [fieldsArePart]
  | cons e r ih =>
    obtain ⟨g, _ | b⟩ := e
    · rw [fieldsArePart, ih]
      simp
    · rw [fieldsArePart, ih]
      simp only [List.mem_cons, Prod.mk.injEq, Option.some.injEq]
      constructor
      · rintro ⟨hhead, hrest⟩ f b (⟨rfl, rfl⟩ | hmem)
        · exact hhead
        · exact hrest f b hmem
      · exact fun hall => ⟨hall g b (.inl ⟨rfl, rfl⟩), fun f b hmem => hall f b (.inr hmem)⟩

theorem fragmentsArePart_iff {fs gs : List (String × Builder)} :
    fragmentsArePart fs gs ↔ ∀ t b, (t, b) ∈ fs → ∃ c, (t, c) ∈ gs ∧ b.IsPartOf c := by
  induction fs with
  | nil => simp [fragmentsArePart]
  | cons e r ih =>
    obtain ⟨u, b⟩ := e
    rw [fragmentsArePart, ih]
    simp only [List.mem_cons, Prod.mk.injEq]
    constructor
    · rintro ⟨hhead, hrest⟩ t b (⟨rfl, rfl⟩ | hmem)
      · exact hhead
      · exact hrest t b hmem
    · exact fun hall => ⟨hall u b (.inl ⟨rfl, rfl⟩), fun t b hmem => hall t b (.inr hmem)⟩

theorem isPartOf_iff {b c : Builder} : b.IsPartOf c ↔
    b.head = c.head ∧ (∀ f, (f, none) ∈ b.fields ↔ (f, none) ∈ c.fields) ∧
      (∀ f x, (f, some x) ∈ b.fields → ∃ y, (f, some y) ∈ c.fields ∧ x.IsPartOf y) ∧
      ∀ t x, (t, x) ∈ b.fragments → ∃ y, (t, y) ∈ c.fragments ∧ x.IsPartOf y := by
  obtain ⟨h, fields, fragments⟩ := b
  rw [Builder.IsPartOf, fieldsArePart_iff, fragmentsArePart_iff]
  rfl

theorem mem_children_of_field {b c : Builder} {f : FieldSelection} (h : (f, some c) ∈ b.fields) :
    c ∈ b.children :=
  List.mem_append_left _ (List.mem_filterMap.mpr ⟨_, h, rfl⟩)

theorem mem_children_of_fragment {b c : Builder} {t : String} (h : (t, c) ∈ b.fragments) :
    c ∈ b.children :=
  List.mem_append_right _ (List.mem_map_of_mem h)

/-- What is inside a builder is smaller. -/
theorem sizeOf_lt_of_mem_children {b c : Builder} (h : c ∈ b.children) : sizeOf c < sizeOf b := by
  obtain ⟨head, fields, fragments⟩ := b
  rcases List.mem_append.mp h with h | h
  · obtain ⟨⟨f, o⟩, hf, rfl⟩ := List.mem_filterMap.mp h
    change (f, some c) ∈ fields at hf
    have hlt := List.sizeOf_lt_of_mem hf
    simp only [Prod.mk.sizeOf_spec, Option.some.sizeOf_spec, Builder.node.sizeOf_spec] at hlt ⊢
    omega
  · obtain ⟨⟨t, c⟩, hf, rfl⟩ := List.mem_map.mp h
    change (t, c) ∈ fragments at hf
    have hlt := List.sizeOf_lt_of_mem hf
    simp only [Prod.mk.sizeOf_spec, Builder.node.sizeOf_spec] at hlt ⊢
    omega

/-- What selects a part of what selects nothing selects nothing. -/
theorem Builder.IsPartOf.hasSelection {b c : Builder} (h : b.IsPartOf c)
    (hb : b.hasSelection = true) : c.hasSelection = true := by
  induction hsize : sizeOf b using Nat.strong_induction_on generalizing b c with
  | _ n ih =>
    obtain ⟨-, hleaves, hfields, hfragments⟩ := isPartOf_iff.mp h
    rcases hasSelection_iff.mp hb with ⟨f, hf⟩ | ⟨x, hx, hsel⟩
    · exact hasSelection_iff.mpr (.inl ⟨f, (hleaves f).mp hf⟩)
    · have hlt := hsize ▸ sizeOf_lt_of_mem_children hx
      obtain ⟨y, hy, hpart⟩ : ∃ y ∈ c.children, x.IsPartOf y := by
        rcases List.mem_append.mp hx with hx | hx
        · obtain ⟨⟨f, o⟩, hf, rfl⟩ := List.mem_filterMap.mp hx
          obtain ⟨y, hy, hpart⟩ := hfields f x hf
          exact ⟨y, mem_children_of_field hy, hpart⟩
        · obtain ⟨⟨t, x⟩, hf, rfl⟩ := List.mem_map.mp hx
          obtain ⟨y, hy, hpart⟩ := hfragments t x hf
          exact ⟨y, mem_children_of_fragment hy, hpart⟩
      exact hasSelection_iff.mpr (.inr ⟨y, hy, ih _ hlt hpart hsel rfl⟩)

/-! ### The second expansion -/

section Again

variable {registry : Registry} {level : Nat} {t : String} {h : BuilderHead} {o : Option Builder}
  {infos : List FieldInfo} {ts : List String} {fields : List (String × Option Builder)}
  {fragments : List (String × Builder)} {base ds es ds' es' : Depths}

/-- Where the names of its fields differ, the builder of a plan has the fields of the plan. -/
theorem fields_planBuilder (hnames : (fields.map Prod.fst).Nodup) (e : Option Error) :
    (Plan.builder ⟨fields, fragments, e⟩ h).fields =
      fields.map fun f => (FieldSelection.plain f.1, f.2) := by
  change (keyedFields fields).entries.map Prod.snd = _
  rw [keyedFields, Keyed.entries_ofList, List.map_map]
  · rfl
  · rwa [List.map_map]

theorem mem_fields_planBuilder (hnames : (fields.map Prod.fst).Nodup) {e : Option Error}
    {f : FieldSelection} {b : Option Builder} :
    (f, b) ∈ (Plan.builder ⟨fields, fragments, e⟩ h).fields ↔
      ∃ n, f = .plain n ∧ (n, b) ∈ fields := by
  rw [fields_planBuilder hnames, List.mem_map]
  constructor
  · rintro ⟨⟨n, b⟩, hmem, heq⟩
    cases heq
    exact ⟨n, rfl, hmem⟩
  · rintro ⟨n, rfl, hmem⟩
    exact ⟨(n, b), hmem, rfl⟩

/-- The names of the fields that are selected for a class differ. -/
theorem IncludesFields.nodup_names {c : BuilderClass} (hn : (c.fields.map FieldInfo.name).Nodup)
    (hi : IncludesFields registry level h c.selectable ds fields es) :
    (fields.map Prod.fst).Nodup :=
  hn.sublist (hi.names.trans (List.filter_sublist.map _))

/-- A type that is expanded to a builder was not recorded, and the builder is that of a plan which
selects something. -/
theorem Expands.of_some {b : Builder} (he : Expands registry level t ds (some b) es) :
    Query.recorded ds t level = false ∧ ∃ c fields fragments mid, registry.get? t = some c ∧
      IncludesFields registry (level + 1) c.head c.selectable (ds.put t (level + 1)) fields mid ∧
      IncludesFragments registry (level + 1) c.fragmentTypes mid fragments es ∧
      b = Plan.builder ⟨fields, fragments, none⟩ c.head ∧ b.hasSelection = true := by
  generalize ho : some b = o at he
  cases he with
  | recorded => cases ho
  | @fresh _ _ _ mid _ c fields fragments hr hreg hf hg =>
    have hb := kept_eq_some ho.symm
    refine ⟨hr, c, fields, fragments, mid, hreg, hf, hg, hb, ?_⟩
    rw [Plan.kept] at ho
    split_ifs at ho with hsel
    rw [hb]
    exact hsel

/-- A type is expanded to a builder of the type. -/
theorem Expands.typeName (hc : Consistent registry) {b : Builder}
    (he : Expands registry level t ds (some b) es) : b.head.typeName = t := by
  obtain ⟨-, c, -, -, -, hreg, -, -, rfl, -⟩ := he.of_some
  exact hc.typeName hreg

/-- A type that was not recorded is expanded to the builder of a plan, if that selects anything. -/
theorem Expands.of_not_recorded {c : BuilderClass} (he : Expands registry level t ds o es)
    (hr : Query.recorded ds t level = false) (hreg : registry.get? t = some c) :
    ∃ fields fragments mid,
      IncludesFields registry (level + 1) c.head c.selectable (ds.put t (level + 1)) fields mid ∧
      IncludesFragments registry (level + 1) c.fragmentTypes mid fragments es ∧
      o = Plan.kept ⟨fields, fragments, none⟩ c.head := by
  cases he with
  | recorded hr' => cases hr.symm.trans hr'
  | fresh _ hreg' hf hg =>
    cases hreg.symm.trans hreg'
    exact ⟨_, _, _, hf, hg, rfl⟩

/-- **The second expansion selects a part of what the first one selects.** It starts from depths in
which all is recorded that the first expansion recorded. -/
theorem Expands.contains (hn : registry.NamesDiffer) (he : Expands registry level t ds o es)
    (hl : Lower ds' es) {x : Builder} (hx : Expands registry level t ds' (some x) es') :
    ∃ y ∈ o, x.IsPartOf y := by
  -- by the size of the builder that the second expansion makes
  induction hsize : sizeOf x using Nat.strong_induction_on
    generalizing level t o ds es ds' es' x with
  | _ n ih =>
    obtain ⟨hr', c, fields', fragments', mid', hreg, hf', hg', rfl, hsel⟩ := hx.of_some
    have hr : Query.recorded ds t level = false := by
      by_contra hr
      rw [Bool.not_eq_false] at hr
      cases hr'.symm.trans (hl t level (he.lower t level hr))
    obtain ⟨fields, fragments, mid, hf, hg, rfl⟩ := he.of_not_recorded hr hreg
    have hnames := hf.nodup_names (hn t c hreg)
    have hnames' := hf'.nodup_names (hn t c hreg)
    -- whatever the second expansion makes inside is part of what the first one makes
    have inside {u : String} {o : Option Builder} {z : Builder} {ds₁ es₁ : Depths}
        (hu : Attempts registry (level + 1) ds₁ es₁ u o) (hes : Lower es es₁)
        (hz : Attempts registry (level + 1) (ds'.put t (level + 1)) es' u (some z))
        (hmem : z ∈ (Plan.builder ⟨fields', fragments', none⟩ c.head).children) :
        ∃ y ∈ o, z.IsPartOf y := by
      obtain ⟨before, after, -, hexp, hafter⟩ := hu
      obtain ⟨before', after', hbefore', hexp', -⟩ := hz
      refine ih _ (hsize ▸ sizeOf_lt_of_mem_children hmem) hexp ?_ hexp' rfl
      exact hbefore'.trans ((lower_put hr').trans (hl.trans (hes.trans hafter)))
    have hpart : (Plan.builder ⟨fields', fragments', none⟩ c.head).IsPartOf
        (Plan.builder ⟨fields, fragments, none⟩ c.head) := by
      refine isPartOf_iff.mpr ⟨rfl, fun f => ?_, fun f z hz => ?_, fun u z hz => ?_⟩
      · simp only [mem_fields_planBuilder hnames, mem_fields_planBuilder hnames', hf.leaf_iff,
          hf'.leaf_iff]
      · obtain ⟨n, rfl, hmem⟩ := (mem_fields_planBuilder hnames').mp hz
        obtain ⟨f, hfmem, rfl, u, hu, hback, hattempt'⟩ := hf'.attempts_of_mem hmem
        obtain ⟨o, hattempt, ho⟩ := hf.exists_attempt hfmem hu hback
        obtain ⟨y, hy, hpart⟩ :=
          inside hattempt hg.lower (hattempt'.mono (.refl _) hg'.lower) (mem_children_of_field hz)
        exact ⟨y, (mem_fields_planBuilder hnames).mpr ⟨f.name, rfl, ho y hy⟩, hpart⟩
      · obtain ⟨hu, hattempt'⟩ := hg'.attempts_of_mem (Keyed.mem_entries_ofList hz)
        have hattempt' := hattempt'.mono hf'.lower (.refl es')
        obtain ⟨o, hattempt, ho⟩ := hg.exists_attempt hu
        obtain ⟨y, hy, -⟩ := inside hattempt (.refl es) hattempt' (mem_children_of_fragment hz)
        -- the fragment of the first expansion need not stay, but the last one on the type does
        obtain ⟨last, hlast, hattempt⟩ := hg.exists_last (ho y hy)
        obtain ⟨y, hy, hpart⟩ := inside hattempt (.refl es) hattempt' (mem_children_of_fragment hz)
        cases hy
        exact ⟨last, Keyed.mem_entries_of_get? hlast, hpart⟩
    refine ⟨_, ?_, hpart⟩
    rw [Plan.kept, if_pos (hpart.hasSelection hsel)]
    rfl

/-- The same types are recorded on each level. -/
def Agree (base ds : Depths) : Prop :=
  Lower base ds ∧ Lower ds base

variable (registry level) in
/-- From depths that agree with the base, the expansion of the type below the level records nothing
new. -/
def Settled (base : Depths) (t : String) : Prop :=
  ∀ ds o es, Agree base ds → Expands registry level t ds o es → Agree base es

theorem IncludesFields.agree
    (hs : ∀ f ∈ infos, ∀ t, f.builderType = some t → leadsBack h f = false →
      Settled registry level base t)
    (hds : Agree base ds) (hi : IncludesFields registry level h infos ds fields es) :
    Agree base es := by
  induction infos generalizing ds fields with
  | nil =>
    cases hi
    exact hds
  | cons f r ih =>
    obtain ⟨hf, hs⟩ := List.forall_mem_cons.mp hs
    obtain ⟨-, rest, hr, -⟩ | ⟨t, -, -, hr⟩ | ⟨t, o, after, rest, ht, hback, he, hr, -⟩ :=
      hi.cons_cases
    · exact ih hs hds hr
    · exact ih hs hds hr
    · exact ih hs (hf t ht hback ds o after hds he) hr

theorem IncludesFragments.agree (hs : ∀ t ∈ ts, Settled registry level base t)
    (hds : Agree base ds) (hi : IncludesFragments registry level ts ds fragments es) :
    Agree base es := by
  induction ts generalizing ds fragments with
  | nil =>
    cases hi
    exact hds
  | cons t r ih =>
    obtain ⟨ht, hs⟩ := List.forall_mem_cons.mp hs
    obtain ⟨o, after, rest, he, hr, -⟩ := hi.cons_cases
    exact ih hs (ht ds o after hds he) hr

/-- Where the type is recorded below the level, recording it there again changes nothing. -/
theorem Agree.put (h : Agree base ds) {n : Nat} (ht : recorded base t (n + 1) = true)
    (hr : recorded ds t n = false) : Agree base (ds.put t (n + 1)) := by
  refine ⟨fun u m hu => ?_, (lower_put hr).trans h.2⟩
  rcases recorded_put hu with ⟨rfl, hle⟩ | hu
  · exact recorded_mono ht hle
  · exact h.1 u m hu

mutual

/-- **The second expansion records nothing new.** -/
theorem Expands.settled {level : Nat} {t : String} {base ds es : Depths} {o : Option Builder}
    (hbase : Lower base es) :
    Expands registry level t ds o es → Settled registry level base t
  | .recorded hr => by
    intro ds' o' es' hds he
    cases he with
    | recorded => exact hds
    | fresh hr' => cases hr'.symm.trans (hds.2 t level (hbase t level hr))
  | .fresh (c := c) _ hreg hf hg => by
    intro ds' o' es' hds he
    cases he with
    | recorded => exact hds
    | fresh hr' hreg' hf' hg' =>
      cases hreg.symm.trans hreg'
      have ht := hbase t (level + 1)
        (hg.lower t _ (hf.lower t _ (recorded_put_self ds t (level + 1))))
      exact hg'.agree (hg.settled hbase)
        (hf'.agree (hf.settled (hbase.trans hg.lower)) (hds.put ht hr'))

theorem IncludesFields.settled {level : Nat} {infos : List FieldInfo} {base ds es : Depths}
    {h : BuilderHead} {fields : List (String × Option Builder)} (hbase : Lower base es) :
    IncludesFields registry level h infos ds fields es →
      ∀ f ∈ infos, ∀ t, f.builderType = some t → leadsBack h f = false →
        Settled registry level base t
  | .nil => nofun
  | .leaf hleaf hi => by
    refine List.forall_mem_cons.mpr ⟨fun t ht _ => ?_, hi.settled hbase⟩
    cases hleaf.symm.trans ht
  | .back _ hback hi => by
    refine List.forall_mem_cons.mpr ⟨fun t _ hback' => ?_, hi.settled hbase⟩
    cases hback.symm.trans hback'
  | .skipped ht _ he hi => by
    refine List.forall_mem_cons.mpr ⟨fun t ht' _ => ?_, hi.settled hbase⟩
    cases ht.symm.trans ht'
    exact he.settled (hbase.trans hi.lower)
  | .nested ht _ he hi => by
    refine List.forall_mem_cons.mpr ⟨fun t ht' _ => ?_, hi.settled hbase⟩
    cases ht.symm.trans ht'
    exact he.settled (hbase.trans hi.lower)

theorem IncludesFragments.settled {level : Nat} {ts : List String} {base ds es : Depths}
    {fragments : List (String × Builder)} (hbase : Lower base es) :
    IncludesFragments registry level ts ds fragments es → ∀ t ∈ ts, Settled registry level base t
  | .nil => nofun
  | .skipped he hi =>
    List.forall_mem_cons.mpr ⟨he.settled (hbase.trans hi.lower), hi.settled hbase⟩
  | .nested he hi =>
    List.forall_mem_cons.mpr ⟨he.settled (hbase.trans hi.lower), hi.settled hbase⟩

end

/-! ### Selections that are made again -/

/-- No type of a builder inside is recorded further up than the builder stands, where the builder is
expanded below the level. -/
def Untouched (base : Depths) (level : Nat) (b : Builder) : Prop :=
  ∀ n x, Deep n b x → recorded base x.head.typeName (level + n) = false

theorem Untouched.child {b c : Builder} (h : Untouched base level b) (hc : c ∈ b.children) :
    Untouched base (level + 1) c := by
  intro n x hx
  rw [Nat.add_assoc, Nat.add_comm 1 n]
  exact h (n + 1) x (.child hc hx)

variable (registry level) in
/-- From depths that agree with the base, the type is expanded below the level to the builder. -/
def MakesAgain (base : Depths) (t : String) (b : Builder) : Prop :=
  ∀ ds o es, Agree base ds → Expands registry level t ds o es → o = some b

/-- A type that the first expansion left out is left out again. -/
theorem Expands.none_again (hn : registry.NamesDiffer) (hbase : Lower base es)
    (he : Expands registry level t ds none es) (hds : Agree base ds')
    (he' : Expands registry level t ds' o es') : o = none := by
  cases o with
  | none => rfl
  | some x =>
    obtain ⟨y, hy, -⟩ := he.contains hn (hds.2.trans hbase) he'
    cases hy

/-- The same fields are selected again if the builder of each field is made again. -/
theorem IncludesFields.eq_again (hn : registry.NamesDiffer) (hbase : Lower base es)
    (hagain : ∀ f ∈ infos, ∀ t, f.builderType = some t → ∀ b, (f.name, some b) ∈ fields →
      MakesAgain registry level base t b)
    (hi : IncludesFields registry level h infos ds fields es)
    {fields' : List (String × Option Builder)} (hds : Agree base ds')
    (hi' : IncludesFields registry level h infos ds' fields' es') : fields' = fields := by
  induction infos generalizing ds ds' fields fields' with
  | nil =>
    cases hi
    cases hi'
    rfl
  | cons f r ih =>
    obtain ⟨hfirst, hagain⟩ := List.forall_mem_cons.mp hagain
    -- a field is selected in the same way both times
    obtain ⟨ht, rest, hr, rfl⟩ | ⟨t, ht, hback, hr⟩ | ⟨t, o, after, rest, ht, hback, he, hr, rfl⟩ :=
      hi.cons_cases
    · obtain ⟨-, rest', hr', rfl⟩ | ⟨t', ht', -⟩ | ⟨t', -, -, -, ht', -⟩ := hi'.cons_cases
      · have hrest := ih (fun g hg t ht b hb => hagain g hg t ht b (List.mem_cons_of_mem _ hb)) hr
          hds hr'
        rw [hrest]
      · cases ht.symm.trans ht'
      · cases ht.symm.trans ht'
    · obtain ⟨ht', -⟩ | ⟨-, -, -, hr'⟩ | ⟨t', -, -, -, -, hback', -⟩ := hi'.cons_cases
      · cases ht.symm.trans ht'
      · exact ih hagain hr hds hr'
      · cases hback.symm.trans hback'
    · obtain ⟨ht', -⟩ | ⟨t', -, hback', -⟩ | ⟨t', o', after', rest', ht', -, he', hr', rfl⟩ :=
        hi'.cons_cases
      · cases ht.symm.trans ht'
      · cases hback.symm.trans hback'
      · cases ht.symm.trans ht'
        have hafter := hbase.trans hr.lower
        have hsame : o' = o := by
          cases o with
          | none => exact he.none_again hn hafter hds he'
          | some b => exact hfirst t ht b List.mem_cons_self ds' o' after' hds he'
        have hrest := ih (fun g hg t ht b hb => hagain g hg t ht b (List.mem_append_right _ hb)) hr
          (he.settled hafter ds' o' after' hds he') hr'
        rw [hsame, hrest]

/-- Fragments on the same types are selected again, each with the builder that is made again for its
type. -/
theorem IncludesFragments.eq_again (hn : registry.NamesDiffer) (hbase : Lower base es)
    {made : String → Option Builder}
    (hagain : ∀ e ∈ fragments, ∃ b ∈ made e.1, MakesAgain registry level base e.1 b)
    (hi : IncludesFragments registry level ts ds fragments es)
    {fragments' : List (String × Builder)} (hds : Agree base ds')
    (hi' : IncludesFragments registry level ts ds' fragments' es') :
    fragments'.map Prod.fst = fragments.map Prod.fst ∧ ∀ e ∈ fragments', made e.1 = some e.2 := by
  induction ts generalizing ds ds' fragments fragments' with
  | nil =>
    cases hi
    cases hi'
    exact ⟨rfl, nofun⟩
  | cons t r ih =>
    obtain ⟨o, after, rest, he, hr, rfl⟩ := hi.cons_cases
    obtain ⟨o', after', rest', he', hr', rfl⟩ := hi'.cons_cases
    have hafter := hbase.trans hr.lower
    obtain ⟨hkeys, hmade⟩ := ih (fun e he => hagain e (List.mem_append_right _ he)) hr
      (he.settled hafter ds' o' after' hds he') hr'
    cases o with
    | none =>
      obtain rfl := he.none_again hn hafter hds he'
      exact ⟨hkeys, hmade⟩
    | some x =>
      obtain ⟨b, hb, hagain⟩ := hagain (t, x) List.mem_cons_self
      obtain rfl := hagain ds' o' after' hds he'
      exact ⟨congrArg (t :: ·) hkeys, List.forall_mem_cons.mpr ⟨hb, hmade⟩⟩

/-- **The second expansion selects the same** if no type inside the builder is recorded further up
than it stands there. -/
theorem Expands.reproduced (hc : Consistent registry) (hn : registry.NamesDiffer) {b : Builder}
    (hbase : Lower base es) (he : Expands registry level t ds (some b) es)
    (hb : Untouched base level b) : MakesAgain registry level base t b := by
  induction hsize : sizeOf b using Nat.strong_induction_on generalizing level t ds es b with
  | _ n ih =>
    intro ds' o es' hds he'
    -- the type itself is not recorded, as it would be recorded in the base as well
    have hr' : Query.recorded ds' t level = false := by
      have hself := hb 0 b (.self b)
      rw [he.typeName hc, Nat.add_zero, Bool.eq_false_iff] at hself
      exact Bool.eq_false_iff.mpr fun hr' => hself (hds.1 t level hr')
    obtain ⟨-, c, fields, fragments, mid, hreg, hf, hg, rfl, hsel⟩ := he.of_some
    have hnames := hf.nodup_names (hn t c hreg)
    obtain ⟨fields', fragments', mid', hf', hg', rfl⟩ := he'.of_not_recorded hr' hreg
    -- what stands inside is made again
    have inside {u : String} {x : Builder} {ds₁ es₁ : Depths}
        (ha : Attempts registry (level + 1) ds₁ es₁ u (some x)) (hes : Lower base es₁)
        (hmem : x ∈ (Plan.builder ⟨fields, fragments, none⟩ c.head).children) :
        MakesAgain registry (level + 1) base u x := by
      obtain ⟨before, after, -, hexp, hafter⟩ := ha
      have hlt := hsize ▸ sizeOf_lt_of_mem_children hmem
      exact ih _ hlt (hes.trans hafter) hexp (hb.child hmem) rfl
    have hstart : Agree base (ds'.put t (level + 1)) := hds.put (hbase t (level + 1)
      (hg.lower t _ (hf.lower t _ (recorded_put_self ds t (level + 1))))) hr'
    have hfields : fields' = fields := by
      refine hf.eq_again hn (hbase.trans hg.lower) ?_ hstart hf'
      intro f hfmem u hu x hx
      obtain ⟨g, hgmem, hname, u', hu', -, hattempt⟩ := hf.attempts_of_mem hx
      have hgf : g = f := List.inj_on_of_nodup_map (hn t c hreg) (List.mem_of_mem_filter hgmem)
        (List.mem_of_mem_filter hfmem) hname
      rw [hgf, hu, Option.some.injEq] at hu'
      have hplace : (FieldSelection.plain f.name, some x) ∈
          (Plan.builder ⟨fields, fragments, none⟩ c.head).fields :=
        (mem_fields_planBuilder hnames).mpr ⟨f.name, rfl, hx⟩
      exact inside (hu' ▸ hattempt) (hbase.trans hg.lower) (mem_children_of_field hplace)
    have hagain : ∀ e ∈ fragments, ∃ x ∈ (Keyed.ofList fragments).get? e.1,
        MakesAgain registry (level + 1) base e.1 x := by
      intro e he
      obtain ⟨x, hx, hattempt⟩ := hg.exists_last he
      have hplace := Keyed.mem_entries_of_get? hx
      exact ⟨x, hx, inside hattempt hbase (mem_children_of_fragment hplace)⟩
    obtain ⟨hkeys, hmade⟩ := hg.eq_again hn hbase hagain
      (hf'.agree (hf.settled (hbase.trans hg.lower)) hstart) hg'
    have hsame : Plan.builder ⟨fields', fragments', none⟩ c.head =
        Plan.builder ⟨fields, fragments, none⟩ c.head := by
      rw [Plan.builder, Plan.builder, hfields, Keyed.ofList_congr hkeys hmade]
    rw [Plan.kept, hsame, if_pos hsel]

end Again

end Bindery.Query
