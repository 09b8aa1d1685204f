import Bindery.Proofs.Result
import Bindery.Proofs.Selection.Expansion
import Bindery.Query.Store
import Mathlib.Data.List.Perm.Subperm

/-!
# Selecting everything

A builder selects every field of its type that needs no arguments, and the same again in each nested
type. The depths are shared by all of the recursion, and a type that was met deep inside may be
expanded again further up; what bounds the recursion is that the types on the way from the root are
recorded at their own levels, so none of them is expanded again below itself.

## What is proved

* `expand_expands` — with fuel for the registered types that are not on the way from the root, a
  type is expanded as `Expands` says: the fuel never runs out.
* `builder_withPlan` — a draft that selects a plan is finished to the builder of the plan.
* `withAll_expands` — selecting everything ends without a refusal; in the resulting tree no type
  comes twice on a path from the root, each nested builder selects something, and no field is
  selected that needs arguments.
-/

namespace Bindery.Query

section Steps

variable {registry : Registry} {level : Nat} {above : List String}
  {expand : String → Depths → Except Error (Option Builder × Depths)}

/-- The function expands every registered type below the types `above`, as long as these are
recorded on the level. -/
def ExpandsBelow (registry : Registry) (level : Nat) (above : List String)
    (expand : String → Depths → Except Error (Option Builder × Depths)) : Prop :=
  ∀ t ds, (∃ c, registry.get? t = some c) → AllRecorded ds above level →
    ∃ b es, expand t ds = .ok (b, es) ∧ Expands registry level t ds b es ∧ Lower es ds ∧
      ∀ x ∈ b, ExpandedBelow registry above x

theorem planFields_expands (he : ExpandsBelow registry level above expand) (h : BuilderHead)
    {infos : List FieldInfo}
    (hr : ∀ t ∈ infos.filterMap FieldInfo.builderType, ∃ c, registry.get? t = some c) :
    ∀ ds, AllRecorded ds above level → ∃ fields es,
      planFields expand h infos ds = (fields, es, none) ∧
      IncludesFields registry level h infos ds fields es ∧ Lower es ds ∧
      (∀ e ∈ fields, ∃ info ∈ infos, e.1 = info.name) ∧
      ∀ e ∈ fields, ∀ b ∈ e.2, ExpandedBelow registry above b := by
  induction infos with
  | nil => exact fun ds _ => ⟨[], ds, rfl, .nil, .refl ds, by simp, by simp⟩
  | cons f r ih =>
    intro ds hds
    have hrest : ∀ t ∈ r.filterMap FieldInfo.builderType, ∃ c, registry.get? t = some c := by
      intro t ht
      exact hr t (((List.sublist_cons_self f r).filterMap _).subset ht)
    have later {fields : List (String × Option Builder)}
        (h : ∀ e ∈ fields, ∃ info ∈ r, e.1 = info.name) :
        ∀ e ∈ fields, ∃ info ∈ f :: r, e.1 = info.name := by
      intro e he
      obtain ⟨info, hinfo, hname⟩ := h e he
      exact ⟨info, List.mem_cons_of_mem _ hinfo, hname⟩
    cases ht : f.builderType with
    | none =>
      obtain ⟨fields, es, hfields, hinc, hl, hn, hb⟩ := ih hrest ds hds
      refine ⟨(f.name, none) :: fields, es, ?_, .leaf ht hinc, hl, ?_, ?_⟩
      · simp only [planFields, ht, hfields]
      · exact List.forall_mem_cons.mpr ⟨⟨f, List.mem_cons_self, rfl⟩, later hn⟩
      · exact List.forall_mem_cons.mpr ⟨by simp, hb⟩
    | some t =>
      by_cases hback : leadsBack h f = true
      · obtain ⟨fields, es, hfields, hinc, hl, hn, hb⟩ := ih hrest ds hds
        refine ⟨fields, es, ?_, .back ht hback hinc, hl, later hn, hb⟩
        simp only [planFields, ht, hback, if_true, hfields]
      · have hback : leadsBack h f = false := by simpa using hback
        have hreg : ∃ c, registry.get? t = some c := hr t (by simp [ht])
        obtain ⟨b, es, hexp, hrel, hl, hb⟩ := he t ds hreg hds
        obtain ⟨fields, gs, hfields, hinc, hl', hn, hbs⟩ := ih hrest es (hds.lower hl)
        cases b with
        | none =>
          refine ⟨fields, gs, ?_, .skipped ht hback hrel hinc, hl'.trans hl, later hn, hbs⟩
          simp [planFields, ht, hback, hexp, hfields]
        | some b =>
          refine ⟨(f.name, some b) :: fields, gs, ?_, .nested ht hback hrel hinc, hl'.trans hl,
            ?_, ?_⟩
          · simp [planFields, ht, hback, hexp, hfields]
          · exact List.forall_mem_cons.mpr ⟨⟨f, List.mem_cons_self, rfl⟩, later hn⟩
          · exact List.forall_mem_cons.mpr ⟨hb, hbs⟩

theorem planFragments_expands (he : ExpandsBelow registry level above expand) {ts : List String}
    (hr : ∀ t ∈ ts, ∃ c, registry.get? t = some c) :
    ∀ ds, AllRecorded ds above level → ∃ fragments es,
      planFragments expand ts ds = (fragments, es, none) ∧
      IncludesFragments registry level ts ds fragments es ∧ Lower es ds ∧
      ∀ e ∈ fragments, ExpandedBelow registry above e.2 := by
  induction ts with
  | nil => exact fun ds _ => ⟨[], ds, rfl, .nil, .refl ds, by simp⟩
  | cons t r ih =>
    intro ds hds
    rw [List.forall_mem_cons] at hr
    obtain ⟨b, es, hexp, hrel, hl, hb⟩ := he t ds hr.1 hds
    obtain ⟨fragments, gs, hfragments, hinc, hl', hbs⟩ := ih hr.2 es (hds.lower hl)
    cases b with
    | none =>
      refine ⟨fragments, gs, ?_, .skipped hrel hinc, hl'.trans hl, hbs⟩
      simp [planFragments, hexp, hfragments]
    | some b =>
      refine ⟨(t, b) :: fragments, gs, ?_, .nested hrel hinc, hl'.trans hl, ?_⟩
      · simp [planFragments, hexp, hfragments]
      · exact List.forall_mem_cons.mpr ⟨hb b rfl, hbs⟩

/-- Everything that a builder of a class selects is expanded. -/
theorem planClass_expands (he : ExpandsBelow registry level above expand) {c : BuilderClass}
    (hr : ∀ t ∈ c.references, ∃ x, registry.get? t = some x) (h : BuilderHead) {ds : Depths}
    (hds : AllRecorded ds above level) : ∃ fields fragments es gs,
      planClass expand c h ds = (⟨fields, fragments, none⟩, gs) ∧
      IncludesFields registry level h c.selectable ds fields es ∧
      IncludesFragments registry level c.fragmentTypes es fragments gs ∧ Lower gs ds ∧
      PlannedBelow registry above c.selectable ⟨fields, fragments, none⟩ := by
  simp only [BuilderClass.references, List.mem_append] at hr
  obtain ⟨fields, es, hfields, hinc, hl, hn, hb⟩ :=
    planFields_expands he h (fun t ht => hr t (Or.inl ht)) ds hds
  obtain ⟨fragments, gs, hfragments, hinc', hl', hb'⟩ :=
    planFragments_expands he (fun t ht => hr t (Or.inr ht)) es (hds.lower hl)
  refine ⟨fields, fragments, es, gs, ?_, hinc, hinc', hl'.trans hl, ⟨hn, hb, hb'⟩⟩
  simp only [planClass, hfields, hfragments]

end Steps

/-! ### The recursion -/

/-- The types on the way to a level differ and are registered, so they are no more than are
registered. -/
theorem length_le_size {registry : Registry} {ts : List String} (hn : ts.Nodup)
    (hr : ∀ t ∈ ts, ∃ c, registry.get? t = some c) : ts.length ≤ registry.size := by
  have hsub : ts ⊆ registry.keys := by
    intro t ht
    obtain ⟨c, hc⟩ := hr t ht
    exact Keyed.mem_keys_of_get? hc
  have hle := (hn.subperm hsub).length_le
  rwa [Keyed.keys, List.length_map] at hle

/-- With fuel for every registered type that is not on the way from the root, each type is expanded
below those on the way. -/
theorem expand_expands {registry : Registry} (hc : Consistent registry) (root : String) :
    ∀ fuel level (ts : List String), fuel + level = registry.size + 1 → ts.length = level →
      ts.Nodup → (∀ t ∈ ts, ∃ c, registry.get? t = some c) →
      ExpandsBelow registry level (ts ++ [root]) (expand registry fuel level) := by
  intro fuel
  induction fuel with
  | zero =>
    intro level ts hsize hlen hn hr
    have := length_le_size hn hr
    omega
  | succ fuel ih =>
    intro level ts hsize hlen hn hr t ds ⟨c, hreg⟩ hds
    by_cases hrec : recorded ds t level = true
    · refine ⟨none, ds, ?_, .recorded hrec, .refl ds, by simp⟩
      simp only [expand, hrec, if_true]
    · have hrec : recorded ds t level = false := by simpa using hrec
      obtain rfl := hc.typeName hreg
      have hfresh : c.typeName ∉ ts ++ [root] := by
        intro h
        rw [hds _ h] at hrec
        cases hrec
      have hlower := lower_put hrec
      -- What is expanded inside finds the type and all those above it recorded on its level.
      have hnext : AllRecorded (ds.put c.typeName (level + 1)) (c.typeName :: (ts ++ [root]))
          (level + 1) := by
        refine List.forall_mem_cons.mpr ⟨recorded_put_self _ _ _, ?_⟩
        intro u hu
        exact recorded_mono (hlower u level (hds u hu)) (Nat.le_succ level)
      have hnodup : (c.typeName :: ts).Nodup := by
        refine List.nodup_cons.mpr ⟨?_, hn⟩
        intro h
        exact hfresh (List.mem_append_left _ h)
      have hbelow := ih (level + 1) (c.typeName :: ts) (by omega) (by simp [hlen]) hnodup
        (List.forall_mem_cons.mpr ⟨⟨c, hreg⟩, hr⟩)
      obtain ⟨fields, fragments, es, gs, hplan, hinc, hinc', hl, hp⟩ :=
        planClass_expands hbelow (hc.references hreg) c.head hnext
      refine ⟨Plan.kept ⟨fields, fragments, none⟩ c.head, gs, ?_, .fresh hrec hreg hinc hinc',
        hl.trans hlower, hp.expanded hfresh hreg⟩
      simp only [expand, hrec, hreg, hplan]
      rfl

/-! ### Selecting everything -/

/-- A field of a plan as a draft keeps it. -/
def ownField (f : FieldSelection × Option Builder) : FieldSelection × Option Handle :=
  (f.1, f.2.map Handle.owned)

theorem withFields_fields (fields : List (String × Option Builder)) {d : Draft}
    {m : Keyed (FieldSelection × Option Builder)} (h : d.fields = m.map ownField) :
    (d.withFields fields).fields =
      (fields.foldl (fun m f => m.put f.1 (.plain f.1, f.2)) m).map ownField ∧
    (d.withFields fields).fragments = d.fragments ∧ (d.withFields fields).head = d.head := by
  induction fields generalizing d m with
  | nil => exact ⟨h, rfl, rfl⟩
  | cons f r ih =>
    refine ih ?_
    rw [Keyed.map_put, ← h]
    rfl

theorem withFragments_fragments (fragments : List (String × Builder)) {d : Draft}
    {m : Keyed Builder} (h : d.fragments = m.map Handle.owned) :
    (d.withFragments fragments).fragments =
      (fragments.foldl (fun m f => m.put f.1 f.2) m).map Handle.owned ∧
    (d.withFragments fragments).fields = d.fields ∧
    (d.withFragments fragments).head = d.head := by
  induction fragments generalizing d m with
  | nil => exact ⟨h, rfl, rfl⟩
  | cons f r ih =>
    refine ih ?_
    rw [Keyed.map_put, ← h]

/-- A draft that selected nothing and then a plan is finished to the builder of the plan. -/
theorem builder_withPlan {d : Draft} (hf : d.fields = .empty) (hg : d.fragments = .empty) (p : Plan)
    {s : Store} {id : Nat} (h : s.drafts[id]? = some (d.withPlan p)) :
    s.builder id = .ok (p.builder d.head) := by
  obtain ⟨hfields, hkept, hhead⟩ := withFields_fields p.fields (m := .empty) hf
  obtain ⟨hfragments, hfields', hhead'⟩ :=
    withFragments_fragments p.fragments (m := .empty) (hkept.trans hg)
  have hallFields : (d.withPlan p).fields = (keyedFields p.fields).map ownField := by
    rw [Draft.withPlan, hfields', hfields, keyedFields, Keyed.ofList, List.foldl_map]
  have hallFragments : (d.withPlan p).fragments = (Keyed.ofList p.fragments).map Handle.owned :=
    hfragments
  have hfinish (fuel : Nat) : inOrder ((d.withPlan p).fields.entries.map fun e =>
      finishField (s.finish fuel) e.2) = .ok (keyedFields p.fields).values := by
    rw [hallFields, Keyed.map, List.map_map]
    refine inOrder_map_ok ?_
    intro e _
    obtain ⟨k, f, _ | b⟩ := e <;> rfl
  have hfinish' (fuel : Nat) : inOrder ((d.withPlan p).fragments.entries.map
      (finishFragment (s.finish fuel))) = .ok (Keyed.ofList p.fragments).entries := by
    rw [hallFragments, Keyed.map, List.map_map]
    refine (inOrder_map_ok (g := fun e => e) fun e _ => ?_).trans (by rw [List.map_id'])
    rfl
  rw [Store.builder, Store.finish, Store.draft, h]
  simp only [bind, Except.bind, hfinish, hfinish']
  rw [Draft.withPlan, hhead', hhead]
  rfl

/-- Selecting everything includes what the class refers to, and nothing is refused. -/
theorem planAll_includes {registry : Registry} (hc : Consistent registry) {c : BuilderClass}
    (hr : ∀ t ∈ c.references, ∃ x, registry.get? t = some x) {h : BuilderHead}
    (hh : h.typeName = c.typeName) : ∃ fields fragments es gs,
      planAll registry c h = ⟨fields, fragments, none⟩ ∧
      IncludesFields registry 0 h c.selectable (.ofList [(c.typeName, 0)]) fields es ∧
      IncludesFragments registry 0 c.fragmentTypes es fragments gs ∧
      PlannedBelow registry [c.typeName] c.selectable ⟨fields, fragments, none⟩ := by
  have hroot : AllRecorded (.ofList [(c.typeName, 0)]) [c.typeName] 0 := by
    intro t ht
    obtain rfl := List.mem_singleton.mp ht
    exact recorded_put_self .empty _ 0
  have hexpand := expand_expands hc c.typeName (registry.size + 1) 0 [] rfl rfl .nil (by simp)
  obtain ⟨fields, fragments, es, gs, hplan, hinc, hinc', -, hp⟩ :=
    planClass_expands hexpand hr h hroot
  refine ⟨fields, fragments, es, gs, ?_, hinc, hinc', hp⟩
  rw [planAll, hh, hplan]

/-- What selecting everything makes of a builder of the class that selected nothing. -/
structure SelectsEverything (registry : Registry) (root : BuilderClass) (b : Builder) : Prop where
  /-- No type comes twice on a path. -/
  paths : ∀ ts, TypePath b ts → ts.Nodup
  /-- Each builder inside selects something. -/
  selects : ∀ c ∈ b.children, ∀ x, Within c x → x.hasSelection = true
  /-- The builder selects only fields that need no arguments. -/
  optional : b.SelectsOptional root
  /-- So does each builder inside. -/
  optionalInside : ∀ c ∈ b.children, ∀ x, Within c x →
    ∃ cls, registry.get? x.head.typeName = some cls ∧ x.SelectsOptional cls

/-- Selecting everything ends without a refusal, and no type is expanded inside itself. -/
theorem withAll_expands {registry : Registry} (hc : Consistent registry) {d : Draft}
    (hf : d.fields = .empty) (hg : d.fragments = .empty)
    (hr : ∀ t ∈ d.cls.references, ∃ c, registry.get? t = some c) :
    ∃ fields fragments es gs,
      IncludesFields registry 0 d.head d.cls.selectable (.ofList [(d.cls.typeName, 0)]) fields es ∧
      IncludesFragments registry 0 d.cls.fragmentTypes es fragments gs ∧
      d.withAll registry = (d.withPlan ⟨fields, fragments, none⟩, none) ∧
      SelectsEverything registry d.cls (Plan.builder ⟨fields, fragments, none⟩ d.head) ∧
      ∀ (s : Store) (id : Nat), s.drafts[id]? = some (d.withAll registry).1 →
        s.builder id = .ok (Plan.builder ⟨fields, fragments, none⟩ d.head) := by
  have hroot : AllRecorded (.ofList [(d.cls.typeName, 0)]) [d.cls.typeName] 0 := by
    intro t ht
    obtain rfl := List.mem_singleton.mp ht
    exact recorded_put_self .empty _ 0
  have hexpand := expand_expands hc d.cls.typeName (registry.size + 1) 0 [] rfl rfl .nil (by simp)
  obtain ⟨fields, fragments, es, gs, hplan, hinc, hinc', -, hp⟩ :=
    planClass_expands hexpand hr d.head hroot
  have hall : d.withAll registry = (d.withPlan ⟨fields, fragments, none⟩, none) := by
    have : planAll registry d.cls d.head = ⟨fields, fragments, none⟩ := congrArg Prod.fst hplan
    rw [Draft.withAll, this]
  have hchildren := hp.children d.head
  refine ⟨fields, fragments, es, gs, hinc, hinc', hall, ⟨?_, ?_, hp.optional d.head, ?_⟩, ?_⟩
  · intro ts hts
    exact (typePath_nodup hchildren (List.not_mem_nil : _ ∉ []) hts).1
  · intro c hmem x hw
    exact (hchildren c hmem).selects x hw
  · intro c hmem x hw
    exact (hchildren c hmem).optional x hw
  · intro s id hid
    rw [hall] at hid
    exact builder_withPlan hf hg _ hid

/-- The type of users, who have posts. -/
def userClass : BuilderClass :=
  ⟨"User", [⟨"name", false, none, false⟩, ⟨"posts", true, some "Post", false⟩], [], none, 2⟩

/-- The type of posts, which have authors. -/
def postClass : BuilderClass :=
  ⟨"Post", [⟨"title", false, none, false⟩, ⟨"author", true, some "User", false⟩], [], none, 2⟩

/-- Two types that lead to each other. -/
def forum : Registry :=
  .ofList [("User", userClass), ("Post", postClass)]

theorem forum_get? {t : String} {c : BuilderClass} (h : forum.get? t = some c) :
    t = "User" ∧ c = userClass ∨ t = "Post" ∧ c = postClass := by
  rw [forum, Keyed.ofList, List.foldl_cons, List.foldl_cons, List.foldl_nil, Keyed.get?_put,
    Keyed.get?_put] at h
  split_ifs at h with hp hu
  · exact Or.inr ⟨hp, (Option.some.inj h).symm⟩
  · exact Or.inl ⟨hu, (Option.some.inj h).symm⟩
  · cases h

theorem forum_consistent : Consistent forum where
  typeName h := by
    rcases forum_get? h with ⟨rfl, rfl⟩ | ⟨rfl, rfl⟩ <;> rfl
  references h u hu := by
    rcases forum_get? h with ⟨-, rfl⟩ | ⟨-, rfl⟩
    · obtain rfl := List.mem_singleton.mp hu
      exact ⟨postClass, rfl⟩
    · obtain rfl := List.mem_singleton.mp hu
      exact ⟨userClass, rfl⟩

/-- The users of the forum, with their posts. -/
theorem forum_withAll : ∃ b,
    (∀ (s : Store) (id : Nat), s.drafts[id]? = some ((Draft.blank userClass none).withAll forum).1 →
      s.builder id = .ok b) ∧ SelectsEverything forum userClass b := by
  have hr : ∀ t ∈ userClass.references, ∃ c, forum.get? t = some c := by
    intro t ht
    obtain rfl := List.mem_singleton.mp ht
    exact ⟨postClass, rfl⟩
  obtain ⟨fields, fragments, -, -, -, -, -, hall, hbuilder⟩ :=
    withAll_expands forum_consistent (d := Draft.blank userClass none) rfl rfl hr
  exact ⟨_, hbuilder, hall⟩

end Bindery.Query
