import Bindery.Proofs.Keyed
import Bindery.Query.Plan

/-!
# Expanding types

What it is to select everything, told without a bound on the recursion: a type is expanded below a
level unless it was recorded there or above, and expanding it expands what its fields and its
fragments refer to. The depths pass through all of this in the order of the fields.

## What is proved

* `lower_put` — recording a type where it is expanded forgets nothing, so what was recorded on some
  level stays recorded there.
* `PlannedBelow.expanded` — where everything that a builder nests was expanded below its own type,
  no type comes twice on a path from the builder inwards.
-/

namespace Bindery.Query

/-! ### Builders inside a builder -/

/-- The fields of a builder with their builders. -/
def Builder.fields : Builder → List (FieldSelection × Option Builder)
  | .node _ fields _ => fields

/-- The fragments of a builder. -/
def Builder.fragments : Builder → List (String × Builder)
  | .node _ _ fragments => fragments

/-- The builders of the fields and the fragments of a builder. -/
def Builder.children (b : Builder) : List Builder :=
  b.fields.filterMap Prod.snd ++ b.fragments.map Prod.snd

/-- `Within b c`: the builder `c` is `b` or inside it. -/
inductive Within : Builder → Builder → Prop where
  /-- The builder itself. -/
  | self (b : Builder) : Within b b
  /-- What is inside the builder of a field or a fragment. -/
  | child {b c d : Builder} : c ∈ b.children → Within c d → Within b d

/-- What is known of a builder and of those inside its children is known of all inside it. -/
theorem forall_within_iff {P : Builder → Prop} {b : Builder} :
    (∀ c, Within b c → P c) ↔ P b ∧ ∀ c ∈ b.children, ∀ d, Within c d → P d := by
  constructor
  · intro h
    exact ⟨h b (.self b), fun c hc d hd => h d (.child hc hd)⟩
  · rintro ⟨hb, hc⟩ d hd
    cases hd with
    | self => exact hb
    | child hmem hd => exact hc _ hmem d hd

/-- `TypePath b ts`: the types on a path through fields and fragments, from that of `b` inwards. -/
inductive TypePath : Builder → List String → Prop where
  /-- The path that ends at the builder. -/
  | here (b : Builder) : TypePath b [b.head.typeName]
  /-- A path through the builder of a field or a fragment. -/
  | child {b c : Builder} {ts : List String} :
      c ∈ b.children → TypePath c ts → TypePath b (b.head.typeName :: ts)

/-! ### Expansion without fuel -/

/-- The builder that selects the plan, if it selects anything. -/
def Plan.kept (p : Plan) (h : BuilderHead) : Option Builder :=
  if (p.builder h).hasSelection then some (p.builder h) else none

section Expansion

variable (registry : Registry)

mutual

/-- `Expands level t ds b es`: where the depths are `ds`, the type is expanded below the level to
the builder `b`, if to any, and the depths are `es` afterwards. -/
inductive Expands : Nat → String → Depths → Option Builder → Depths → Prop where
  /-- The type was expanded on the level or above. -/
  | recorded {level : Nat} {t : String} {ds : Depths} :
      recorded ds t level = true → Expands level t ds none ds
  /-- The type is expanded, and its builder is kept if it selects anything. -/
  | fresh {level : Nat} {t : String} {ds es gs : Depths} {c : BuilderClass}
      {fields : List (String × Option Builder)} {fragments : List (String × Builder)} :
      recorded ds t level = false → registry.get? t = some c →
      IncludesFields (level + 1) c.head c.selectable (ds.put t (level + 1)) fields es →
      IncludesFragments (level + 1) c.fragmentTypes es fragments gs →
      Expands level t ds (Plan.kept ⟨fields, fragments, none⟩ c.head) gs

/-- `IncludesFields level h infos ds fields es`: a builder on the level selects the fields. -/
inductive IncludesFields : Nat → BuilderHead → List FieldInfo → Depths →
    List (String × Option Builder) → Depths → Prop where
  /-- There are no more fields. -/
  | nil {level : Nat} {h : BuilderHead} {ds : Depths} : IncludesFields level h [] ds [] ds
  /-- A field without a builder. -/
  | leaf {level : Nat} {h : BuilderHead} {f : FieldInfo} {r : List FieldInfo} {ds es : Depths}
      {fields : List (String × Option Builder)} :
      f.builderType = none → IncludesFields level h r ds fields es →
      IncludesFields level h (f :: r) ds ((f.name, none) :: fields) es
  /-- A field that leads from an operation back to its own type. -/
  | back {level : Nat} {h : BuilderHead} {f : FieldInfo} {r : List FieldInfo} {ds es : Depths}
      {t : String} {fields : List (String × Option Builder)} :
      f.builderType = some t → leadsBack h f = true → IncludesFields level h r ds fields es →
      IncludesFields level h (f :: r) ds fields es
  /-- A field whose type is not expanded. -/
  | skipped {level : Nat} {h : BuilderHead} {f : FieldInfo} {r : List FieldInfo} {t : String}
      {ds es gs : Depths} {fields : List (String × Option Builder)} :
      f.builderType = some t → leadsBack h f = false → Expands level t ds none es →
      IncludesFields level h r es fields gs → IncludesFields level h (f :: r) ds fields gs
  /-- A field with a builder. -/
  | nested {level : Nat} {h : BuilderHead} {f : FieldInfo} {r : List FieldInfo} {t : String}
      {b : Builder} {ds es gs : Depths} {fields : List (String × Option Builder)} :
      f.builderType = some t → leadsBack h f = false → Expands level t ds (some b) es →
      IncludesFields level h r es fields gs →
      IncludesFields level h (f :: r) ds ((f.name, some b) :: fields) gs

/-- `IncludesFragments level ts ds fragments es`: a builder on the level selects the fragments. -/
inductive IncludesFragments : Nat → List String → Depths → List (String × Builder) → Depths →
    Prop where
  /-- There are no more fragments. -/
  | nil {level : Nat} {ds : Depths} : IncludesFragments level [] ds [] ds
  /-- A type that is not expanded. -/
  | skipped {level : Nat} {t : String} {r : List String} {ds es gs : Depths}
      {fragments : List (String × Builder)} :
      Expands level t ds none es → IncludesFragments level r es fragments gs →
      IncludesFragments level (t :: r) ds fragments gs
  /-- A fragment. -/
  | nested {level : Nat} {t : String} {r : List String} {b : Builder} {ds es gs : Depths}
      {fragments : List (String × Builder)} :
      Expands level t ds (some b) es → IncludesFragments level r es fragments gs →
      IncludesFragments level (t :: r) ds ((t, b) :: fragments) gs

end

end Expansion

/-! ### Depths -/

/-- Every type is recorded at least as far up as before. -/
def Lower (es ds : Depths) : Prop :=
  ∀ t level, recorded ds t level = true → recorded es t level = true

theorem Lower.refl (ds : Depths) : Lower ds ds := fun _ _ h => h

theorem Lower.trans {gs es ds : Depths} (h : Lower gs es) (h' : Lower es ds) : Lower gs ds := by
  intro t level hr
  exact h t level (h' t level hr)

theorem recorded_mono {ds : Depths} {t : String} {m n : Nat} (h : recorded ds t m = true)
    (hmn : m ≤ n) : recorded ds t n = true := by
  unfold recorded at h ⊢
  split at h
  · simp only [decide_eq_true_eq] at h ⊢
    omega
  · cases h

theorem recorded_put_self (ds : Depths) (t : String) (n : Nat) :
    recorded (ds.put t n) t n = true := by
  rw [recorded, Keyed.get?_put, if_pos rfl]
  simp

/-- Recording a type below a level on which it was not recorded forgets nothing. -/
theorem lower_put {ds : Depths} {t : String} {n : Nat} (h : recorded ds t n = false) :
    Lower (ds.put t (n + 1)) ds := by
  intro u level hu
  by_cases hut : u = t
  · subst hut
    have hlevel : n + 1 ≤ level := by
      by_contra hlt
      rw [recorded_mono hu (by omega)] at h
      cases h
    exact recorded_mono (recorded_put_self ds u (n + 1)) hlevel
  · rw [recorded, Keyed.get?_put, if_neg hut]
    exact hu

/-- The types are recorded on the level or above. -/
def AllRecorded (ds : Depths) (ts : List String) (level : Nat) : Prop :=
  ∀ t ∈ ts, recorded ds t level = true

theorem AllRecorded.lower {ds es : Depths} {ts : List String} {level : Nat}
    (h : AllRecorded ds ts level) (hl : Lower es ds) : AllRecorded es ts level := by
  intro t ht
  exact hl t level (h t ht)

/-! ### What an expansion makes -/

/-- The types that builders of a class may nest. -/
def BuilderClass.references (c : BuilderClass) : List String :=
  c.selectable.filterMap FieldInfo.builderType ++ c.fragmentTypes

/-- Each class is registered under its type, and each type that it may nest is registered. -/
structure Consistent (registry : Registry) : Prop where
  /-- Classes are registered under their types. -/
  typeName : ∀ {t c}, registry.get? t = some c → c.typeName = t
  /-- References lead to registered types. -/
  references : ∀ {t c}, registry.get? t = some c → ∀ u ∈ c.references, ∃ x, registry.get? u = some x

/-- Each field that the builder selects is one of the class, is selected with nothing else, and
needs no arguments. -/
def Builder.SelectsOptional (b : Builder) (c : BuilderClass) : Prop :=
  ∀ f ∈ b.fields, ∃ info ∈ c.fields, info.requiresArguments = false ∧ f.1 = .plain info.name

/-- What the expansion of a type below the types `above` makes. -/
structure ExpandedBelow (registry : Registry) (above : List String) (b : Builder) : Prop where
  /-- No type comes twice on a path, and none of those above comes again. -/
  paths : ∀ ts, TypePath b ts → ts.Nodup ∧ ∀ t ∈ ts, t ∉ above
  /-- Each builder selects something. -/
  selects : ∀ c, Within b c → c.hasSelection = true
  /-- Each builder selects only fields of its class that need no arguments. -/
  optional : ∀ c, Within b c →
    ∃ cls, registry.get? c.head.typeName = some cls ∧ c.SelectsOptional cls

theorem mem_planFields {p : Plan} {h : BuilderHead} {f : FieldSelection × Option Builder}
    (hf : f ∈ (p.builder h).fields) : ∃ e ∈ p.fields, f = (.plain e.1, e.2) := by
  obtain ⟨x, hx, rfl⟩ := List.mem_map.mp (hf : f ∈ (keyedFields p.fields).entries.map Prod.snd)
  obtain ⟨e, he, rfl⟩ := List.mem_map.mp (Keyed.mem_entries_ofList hx)
  exact ⟨e, he, rfl⟩

theorem mem_planChildren {p : Plan} {h : BuilderHead} {c : Builder}
    (hc : c ∈ (p.builder h).children) :
    (∃ e ∈ p.fields, e.2 = some c) ∨ ∃ e ∈ p.fragments, e.2 = c := by
  rw [Builder.children, List.mem_append] at hc
  rcases hc with hc | hc
  · obtain ⟨f, hf, hfc⟩ := List.mem_filterMap.mp hc
    obtain ⟨e, he, rfl⟩ := mem_planFields hf
    exact Or.inl ⟨e, he, hfc⟩
  · obtain ⟨f, hf, rfl⟩ := List.mem_map.mp hc
    exact Or.inr ⟨f, Keyed.mem_entries_ofList hf, rfl⟩

/-- What a plan is made of, below the types `above`: fields of the infos, and builders that were
expanded. -/
structure PlannedBelow (registry : Registry) (above : List String) (infos : List FieldInfo)
    (p : Plan) : Prop where
  /-- Each field is one of the infos. -/
  fields : ∀ e ∈ p.fields, ∃ info ∈ infos, e.1 = info.name
  /-- Each builder of a field was expanded. -/
  builders : ∀ e ∈ p.fields, ∀ b ∈ e.2, ExpandedBelow registry above b
  /-- Each fragment was expanded. -/
  fragments : ∀ e ∈ p.fragments, ExpandedBelow registry above e.2

theorem PlannedBelow.children {registry : Registry} {above : List String} {infos : List FieldInfo}
    {p : Plan} (h : PlannedBelow registry above infos p) (head : BuilderHead) :
    ∀ c ∈ (p.builder head).children, ExpandedBelow registry above c := by
  intro c hc
  rcases mem_planChildren hc with ⟨e, he, hec⟩ | ⟨e, he, rfl⟩
  · exact h.builders e he c hec
  · exact h.fragments e he

theorem PlannedBelow.optional {registry : Registry} {above : List String} {cls : BuilderClass}
    {p : Plan} (h : PlannedBelow registry above cls.selectable p) (head : BuilderHead) :
    (p.builder head).SelectsOptional cls := by
  intro f hf
  obtain ⟨e, he, rfl⟩ := mem_planFields hf
  obtain ⟨info, hinfo, hname⟩ := h.fields e he
  rw [BuilderClass.selectable, List.mem_filter] at hinfo
  exact ⟨info, hinfo.1, by simpa using hinfo.2, by rw [hname]⟩

/-- No type comes twice on a path of a builder whose children were expanded below its type. -/
theorem typePath_nodup {registry : Registry} {above : List String} {b : Builder}
    (hc : ∀ c ∈ b.children, ExpandedBelow registry (b.head.typeName :: above) c)
    (hb : b.head.typeName ∉ above) {ts : List String} (h : TypePath b ts) :
    ts.Nodup ∧ ∀ t ∈ ts, t ∉ above := by
  cases h with
  | here => simpa using hb
  | child hmem hpath =>
    obtain ⟨hnodup, habove⟩ := (hc _ hmem).paths _ hpath
    constructor
    · refine List.nodup_cons.mpr ⟨?_, hnodup⟩
      intro h
      exact habove _ h List.mem_cons_self
    · rw [List.forall_mem_cons]
      refine ⟨hb, ?_⟩
      intro t ht h
      exact habove t ht (List.mem_cons_of_mem _ h)

/-- A plan below a type that comes nowhere above makes a builder that was expanded, if the builder
selects anything. -/
theorem PlannedBelow.expanded {registry : Registry} {above : List String} {cls : BuilderClass}
    {p : Plan} (h : PlannedBelow registry (cls.typeName :: above) cls.selectable p)
    (habove : cls.typeName ∉ above) (hcls : registry.get? cls.typeName = some cls) :
    ∀ b ∈ p.kept cls.head, ExpandedBelow registry above b := by
  intro b hb
  rw [Plan.kept] at hb
  split_ifs at hb with hsel
  · cases hb
    have hc := h.children cls.head
    refine ⟨?_, ?_, ?_⟩
    · intro ts hts
      exact typePath_nodup hc habove hts
    · intro c hw
      cases hw with
      | self => exact hsel
      | child hmem hw => exact (hc _ hmem).selects _ hw
    · intro c hw
      cases hw with
      | self => exact ⟨cls, hcls, h.optional cls.head⟩
      | child hmem hw => exact (hc _ hmem).optional _ hw
  · cases hb

end Bindery.Query
