import Bindery.Proofs.Selection.Nearest

/-!
# Operations inside selections

A builder of a root type performs an operation, whose keyword belongs in front of the whole document
only. Nesting by hand refuses such a builder. Selecting everything does not ask, so it nests one
wherever a class refers to a root type that is not its own.

## What is proved

* `Used.forall_drafts` — what calls of every kind keep holds of all drafts.
* `Used.nestsNoOperation` — where no class refers to another class that performs an operation, no
  call nests one, selecting everything included.
* `Builder.Rooted.unsigned` — the document of a builder has no keyword inside then.
* `nests_operation_unless_apart` — and only then: where a class does refer to one, selecting
  everything nests it.
-/

namespace Bindery.Query

/-! ### Calls of every kind -/

/-- `Used registry s`: the drafts of the store were made from registered classes or of no type, and
were changed by calls of every kind. -/
inductive Used (registry : Registry) : Store → Prop where
  /-- There are no drafts. -/
  | empty : Used registry ⟨registry, []⟩
  /-- A draft of a registered class is made. -/
  | make {s : Store} {cls : BuilderClass} {d : Draft} (name : Option String) : Used registry s →
      registry.get? cls.typeName = some cls → cls.draft name = .ok d → Used registry (s.add d).1
  /-- A draft of no type is made. -/
  | raw {s : Store} {operation : Option Operation} (keyword name : Option String) :
      Used registry s → makeOperation keyword name = .ok operation →
      Used registry (s.add (.blank .untyped operation)).1
  /-- A draft is changed by hand. -/
  | call {s : Store} {id : Nat} {d d' : Draft} :
      Used registry s → s.draft id = .ok d → ManualCall s d d' → Used registry (s.set id d')
  /-- A draft selects everything. -/
  | all {s : Store} {id : Nat} {d : Draft} :
      Used registry s → s.draft id = .ok d → Used registry (s.set id (d.withAll registry).1)

/-- No class refers to another one that performs an operation. -/
def Registry.OperationsApart (registry : Registry) : Prop :=
  ∀ t c, registry.get? t = some c → ∀ u ∈ c.references, u ≠ t →
    ∀ x, registry.get? u = some x → x.operation = none

/-! ### Builders that perform no operation -/

theorem rootedFields_iff {fields : List (FieldSelection × Option Builder)} :
    RootedFields fields ↔ ∀ f ∈ fields, ∀ c ∈ f.2, c.Inert := by
  induction fields with
  | nil => exact ⟨fun _ => by simp, fun _ => trivial⟩
  | cons f r ih =>
    rw [List.forall_mem_cons, ← ih]
    obtain ⟨f, _ | c⟩ := f
    · simp [RootedFields]
    · simp [RootedFields, Builder.Inert, and_assoc]

theorem rootedFragments_iff {fragments : List (String × Builder)} :
    RootedFragments fragments ↔ ∀ f ∈ fragments, f.2.Inert := by
  induction fragments with
  | nil => exact ⟨fun _ => by simp, fun _ => trivial⟩
  | cons f r ih =>
    rw [List.forall_mem_cons, ← ih]
    simp [RootedFragments, Builder.Inert, and_assoc]

/-- Nothing inside a builder performs an operation where its children and what is inside them perform
none. -/
theorem rooted_iff {b : Builder} : b.Rooted ↔ ∀ c ∈ b.children, c.Inert := by
  obtain ⟨h, fields, fragments⟩ := b
  rw [Builder.Rooted, rootedFields_iff, rootedFragments_iff]
  constructor
  · rintro ⟨hf, hg⟩ c hc
    rcases List.mem_append.mp hc with hc | hc
    · obtain ⟨f, hf', hfc⟩ := List.mem_filterMap.mp hc
      exact hf f hf' c hfc
    · obtain ⟨f, hf', rfl⟩ := List.mem_map.mp hc
      exact hg f hf'
  · intro hc
    constructor
    · intro f hf c hfc
      exact hc c (List.mem_append_left _ (List.mem_filterMap.mpr ⟨f, hf, hfc⟩))
    · intro f hf
      exact hc f.2 (List.mem_append_right _ (List.mem_map_of_mem hf))

mutual

/-- A builder in which no builder at any depth performs an operation is inert. -/
theorem inert_of_deep : ∀ b : Builder, (∀ n d, Deep n b d → d.head.operation = none) → b.Inert
  | .node _ fields fragments, hd =>
    ⟨hd 0 _ (.self _),
      inertFields_of_deep fields fun f hf _ hfc n d hcd =>
        hd (n + 1) d (.child (List.mem_append_left _ (List.mem_filterMap.mpr ⟨f, hf, hfc⟩)) hcd),
      inertFragments_of_deep fragments fun _ hf n d hcd =>
        hd (n + 1) d (.child (List.mem_append_right _ (List.mem_map_of_mem hf)) hcd)⟩

theorem inertFields_of_deep : ∀ fields : List (FieldSelection × Option Builder),
    (∀ f ∈ fields, ∀ c ∈ f.2, ∀ n d, Deep n c d → d.head.operation = none) → RootedFields fields
  | [], _ => trivial
  | (_, none) :: r, hd =>
    inertFields_of_deep r fun f hf => hd f (List.mem_cons_of_mem _ hf)
  | (_, some b) :: r, hd =>
    have hb := inert_of_deep b (hd _ List.mem_cons_self b rfl)
    ⟨hb.1, hb.2, inertFields_of_deep r fun f hf => hd f (List.mem_cons_of_mem _ hf)⟩

theorem inertFragments_of_deep : ∀ fragments : List (String × Builder),
    (∀ f ∈ fragments, ∀ n d, Deep n f.2 d → d.head.operation = none) → RootedFragments fragments
  | [], _ => trivial
  | (_, b) :: r, hd =>
    have hb := inert_of_deep b (hd _ List.mem_cons_self)
    ⟨hb.1, hb.2, inertFragments_of_deep r fun f hf => hd f (List.mem_cons_of_mem _ hf)⟩

end

/-! ### Keywords inside documents -/

mutual

/-- No selection set inside the selection stands behind a signature. -/
def Selection.Unsigned : Selection → Prop
  | .leaf _ => True
  | .nested _ s children => s = none ∧ UnsignedSelections children
  | .fragment _ s children => s = none ∧ UnsignedSelections children

/-- The same for selections. -/
def UnsignedSelections : List Selection → Prop
  | [] => True
  | x :: r => x.Unsigned ∧ UnsignedSelections r

end

theorem unsignedSelections_append {xs ys : List Selection} (h : UnsignedSelections xs)
    (h' : UnsignedSelections ys) : UnsignedSelections (xs ++ ys) := by
  induction xs with
  | nil => exact h'
  | cons x xs ih => exact ⟨h.1, ih h.2⟩

theorem unsigned_assemble (fields : List (FieldSelection × Option Builder))
    {fragments items : List Selection} (hf : UnsignedSelections fragments)
    (hi : UnsignedSelections items) : UnsignedSelections (assemble fields fragments items) := by
  refine unsignedSelections_append (unsignedSelections_append ?_ hi) hf
  split_ifs
  · exact ⟨trivial, trivial⟩
  · trivial

mutual

/-- The content of a builder inside which nothing performs an operation has no keyword inside. -/
theorem Builder.Rooted.unsigned : ∀ b : Builder, b.Rooted → ∀ s xs, b.content = .ok (s, xs) →
    b.head.signature = .ok s ∧ UnsignedSelections xs
  | .node h fields fragments, hr, s, xs, hb => by
    simp only [Builder.content, bind_eq_ok, pure_eq_ok] at hb
    obtain ⟨fs, hfs, items, hitems, signature, hs, hb⟩ := hb
    cases hb
    exact ⟨hs, unsigned_assemble fields (unsignedFragments fragments hr.2 fs hfs)
      (unsignedFields fields hr.1 items hitems)⟩

theorem unsignedFields : ∀ fields : List (FieldSelection × Option Builder), RootedFields fields →
    ∀ xs, fieldSelections fields = .ok xs → UnsignedSelections xs
  | [], _, xs, h => by
    cases h
    trivial
  | (f, none) :: r, hr, xs, h => by
    simp only [fieldSelections, bind_eq_ok, pure_eq_ok] at h
    obtain ⟨head, -, rest, hrest, rfl⟩ := h
    have ih := unsignedFields r hr rest hrest
    split_ifs
    · exact ih
    · exact ⟨trivial, ih⟩
  | (f, some b) :: r, hr, xs, h => by
    rw [fieldSelections] at h
    split_ifs at h with hsel
    · simp only [bind_eq_ok, pure_eq_ok] at h
      obtain ⟨head, -, ⟨s, children⟩, hb, rest, hrest, rfl⟩ := h
      obtain ⟨hs, hchildren⟩ := Builder.Rooted.unsigned b hr.2.1 s children hb
      rw [BuilderHead.signature_none hr.1] at hs
      cases hs
      exact ⟨⟨rfl, hchildren⟩, unsignedFields r hr.2.2 rest hrest⟩
    · exact unsignedFields r hr.2.2 xs h

theorem unsignedFragments : ∀ fragments : List (String × Builder), RootedFragments fragments →
    ∀ xs, fragmentSelections fragments = .ok xs → UnsignedSelections xs
  | [], _, xs, h => by
    cases h
    trivial
  | (t, b) :: r, hr, xs, h => by
    rw [fragmentSelections] at h
    split_ifs at h with hsel
    · simp only [bind_eq_ok, pure_eq_ok] at h
      obtain ⟨⟨s, children⟩, hb, rest, hrest, rfl⟩ := h
      obtain ⟨hs, hchildren⟩ := Builder.Rooted.unsigned b hr.2.1 s children hb
      rw [BuilderHead.signature_none hr.1] at hs
      cases hs
      exact ⟨⟨rfl, hchildren⟩, unsignedFragments r hr.2.2 rest hrest⟩
    · exact unsignedFragments r hr.2.2 xs h

end

/-! ### Selecting everything -/

theorem Deep.typePath {n : Nat} {b d : Builder} (h : Deep n b d) :
    ∃ ts, TypePath b ts ∧ d.head.typeName ∈ ts := by
  induction h with
  | self b => exact ⟨_, .here b, List.mem_singleton_self _⟩
  | child hc _ ih =>
    obtain ⟨ts, hts, hmem⟩ := ih
    exact ⟨_, .child hc hts, List.mem_cons_of_mem _ hmem⟩

section Apart

variable {registry : Registry}

/-- A chain to a class that performs an operation starts there. -/
theorem Leads.operation (hap : registry.OperationsApart) {n : Nat} {c x : BuilderClass}
    (h : Leads registry n c x) (hreg : registry.get? c.typeName = some c)
    (hx : x.operation ≠ none) : x = c := by
  induction h with
  | self => rfl
  | @refer n c y x hy hregy _ ih =>
    obtain rfl := ih hregy hx
    by_contra hne
    refine hx (hap _ c hreg _ hy ?_ _ hregy)
    intro heq
    rw [heq, hreg] at hregy
    exact hne (Option.some.inj hregy).symm

/-- Where operations are apart, a plan nests none. -/
theorem inert_of_planAll (hc : Consistent registry) (hap : registry.OperationsApart)
    {c : BuilderClass} (hreg : registry.get? c.typeName = some c) {h : BuilderHead}
    (hh : h.typeName = c.typeName) {b : Builder}
    (hb : (∃ e ∈ (planAll registry c h).fields, e.2 = some b) ∨
      ∃ e ∈ (planAll registry c h).fragments, e.2 = b) : b.Inert := by
  have hroot : registry.Roots c := by
    intro x hx
    exact (Option.some.inj (hreg.symm.trans hx)).symm
  obtain ⟨fields, fragments, es, gs, hplan, hinc, hinc', hbelow⟩ :=
    planAll_includes hc (hc.references hreg) hh
  rw [hplan] at hb
  have hp : Included registry c 0 h c ⟨fields, fragments, none⟩ :=
    included_of_includes hc (hc.references hreg) (.self c) (attained_root c) hinc hinc'
  have hexpanded : ExpandedBelow registry [c.typeName] b := by
    rcases hb with ⟨e, he, heb⟩ | ⟨e, he, rfl⟩
    · exact hbelow.builders e he b heb
    · exact hbelow.fragments e he
  refine inert_of_deep b fun n d hd => ?_
  obtain ⟨x, hx, hhead⟩ := hp.leads hc hroot (.self c) hb hd
  by_contra hop
  have hxop : x.operation ≠ none := by
    intro hnone
    rw [hhead, BuilderClass.head, hnone] at hop
    exact hop rfl
  -- The class would be that of the root, whose type does not come again inside.
  obtain rfl := hx.operation hap hreg hxop
  obtain ⟨ts, hts, hmem⟩ := hd.typePath
  rw [hhead] at hmem
  exact (hexpanded.paths ts hts).2 _ hmem List.mem_cons_self

theorem planAll_untyped (registry : Registry) (h : BuilderHead) :
    planAll registry .untyped h = ⟨[], [], none⟩ :=
  rfl

theorem withFragments_handles (fragments : List (String × Builder)) (d : Draft) :
    (d.withFragments fragments).operation = d.operation ∧
      (d.withFragments fragments).cls = d.cls ∧
      ∀ x ∈ (d.withFragments fragments).handles, x ∈ d.handles ∨ ∃ e ∈ fragments, x = .owned e.2 := by
  induction fragments generalizing d with
  | nil => exact ⟨rfl, rfl, fun x hx => Or.inl hx⟩
  | cons f r ih =>
    obtain ⟨ho, hcls, hh⟩ := ih { d with fragments := d.fragments.put f.1 (.owned f.2) }
    refine ⟨ho, hcls, ?_⟩
    intro x hx
    rcases hh x hx with hx | ⟨e, he, hx⟩
    · rcases mem_handles_putFragment hx with rfl | hx
      · exact Or.inr ⟨f, List.mem_cons_self, rfl⟩
      · exact Or.inl hx
    · exact Or.inr ⟨e, List.mem_cons_of_mem _ he, hx⟩

/-- What a draft with a plan nests: what it nested before, and the builders of the plan. -/
theorem withPlan_handles (p : Plan) (d : Draft) :
    (d.withPlan p).operation = d.operation ∧ (d.withPlan p).cls = d.cls ∧
      ∀ x ∈ (d.withPlan p).handles, x ∈ d.handles ∨
        ∃ b, x = .owned b ∧ ((∃ e ∈ p.fields, e.2 = some b) ∨ ∃ e ∈ p.fragments, e.2 = b) := by
  obtain ⟨ho, hcls, hh⟩ := withFields_handles p.fields d
  obtain ⟨ho', hcls', hh'⟩ := withFragments_handles p.fragments (d.withFields p.fields)
  refine ⟨ho'.trans ho, hcls'.trans hcls, ?_⟩
  intro x hx
  rcases hh' x hx with hx | ⟨e, he, rfl⟩
  · rcases hh x hx with hx | ⟨e, he, b, hb, rfl⟩
    · exact Or.inl hx
    · exact Or.inr ⟨b, rfl, Or.inl ⟨e, he, hb⟩⟩
  · exact Or.inr ⟨e.2, rfl, Or.inr ⟨e, he, rfl⟩⟩

/-! ### Runs -/

theorem draft_eq_blank {cls : BuilderClass} {name : Option String} {d : Draft}
    (h : cls.draft name = .ok d) : ∃ operation, d = .blank cls operation := by
  obtain ⟨operation, -, rfl⟩ := map_eq_ok.mp h
  exact ⟨operation, rfl⟩

theorem forall_drafts_add {P : Draft → Prop} {s : Store} {d : Draft} (h : ∀ e ∈ s.drafts, P e)
    (hd : P d) : ∀ e ∈ (s.add d).1.drafts, P e :=
  List.forall_mem_append.mpr ⟨h, List.forall_mem_singleton.mpr hd⟩

theorem forall_drafts_set {P : Draft → Prop} {s : Store} {id : Nat} {d d' : Draft}
    (h : ∀ e ∈ s.drafts, P e) (hid : s.draft id = .ok d) (hd : P d → P d') :
    ∀ e ∈ (s.set id d').drafts, P e := by
  intro e he
  rcases List.mem_or_eq_of_mem_set he with he | rfl
  · exact h e he
  · exact hd (h d (List.mem_of_getElem? (draft_eq_ok.mp hid)))

/-- What holds of every draft that is made, and what calls of every kind keep, holds of all drafts. -/
theorem Used.forall_drafts {P : Draft → Prop} {s : Store} (h : Used registry s)
    (hmade : ∀ cls operation, registry.get? cls.typeName = some cls ∨ cls = .untyped →
      P (.blank cls operation))
    (hcall : ∀ {s d d'}, ManualCall s d d' → P d → P d')
    (hall : ∀ {d : Draft}, P d → P (d.withAll registry).1) : ∀ d ∈ s.drafts, P d := by
  induction h with
  | empty => exact nofun
  | make name _ hreg hd ih =>
    obtain ⟨operation, rfl⟩ := draft_eq_blank hd
    exact forall_drafts_add ih (hmade _ operation (.inl hreg))
  | raw keyword name _ _ ih => exact forall_drafts_add ih (hmade _ _ (.inr rfl))
  | call _ hid hc ih => exact forall_drafts_set ih hid (hcall hc)
  | all _ hid ih => exact forall_drafts_set ih hid hall

/-- Every draft is of a registered class or of no type. -/
theorem Used.registered {s : Store} (h : Used registry s) :
    ∀ d ∈ s.drafts, registry.get? d.cls.typeName = some d.cls ∨ d.cls = .untyped := by
  refine h.forall_drafts (fun _ _ hmade => hmade) (fun hcall hd => ?_) fun {d} hd => ?_
  · rwa [hcall.step.2.1]
  · have hcls : (d.withAll registry).1.cls = d.cls := (withPlan_handles _ d).2.1
    rwa [hcls]

/-- Where operations are apart, nothing that a draft selects in whatever way performs one. -/
theorem Used.nestsNoOperation (hc : Consistent registry) (hap : registry.OperationsApart)
    {s : Store} (h : Used registry s) : s.NestsNoOperation := by
  induction h with
  | empty => exact fun d hd => by cases hd
  | make name _ _ hd ih =>
    obtain ⟨operation, rfl⟩ := draft_eq_blank hd
    exact nestsNoOperation_make _ operation ih
  | raw keyword name _ _ ih => exact nestsNoOperation_make _ _ ih
  | call _ hid hcall ih => exact nestsNoOperation_call ih hid hcall
  | @all s id d hs hid ih =>
    obtain ⟨ho, -, hh⟩ := withPlan_handles (planAll registry d.cls d.head) d
    have hid := draft_eq_ok.mp hid
    refine nestsNoOperation_set ih hid ho ?_
    intro x hx
    rcases hh x hx with hx | ⟨b, rfl, hb⟩
    · exact Or.inl hx
    · refine Or.inr ?_
      rcases hs.registered d (List.mem_of_getElem? hid) with hreg | hcls
      · exact inert_of_planAll hc hap hreg (h := d.head) rfl hb
      · rw [hcls, planAll_untyped] at hb
        rcases hb with ⟨e, he, -⟩ | ⟨e, he, -⟩ <;> cases he

end Apart

/-- A class can be used without an operation name. -/
theorem exists_draft (c : BuilderClass) : ∃ operation, c.draft none = .ok (.blank c operation) := by
  obtain ⟨typeName, fields, fragmentTypes, _ | o, indentation⟩ := c
  · exact ⟨none, rfl⟩
  · cases o <;> exact ⟨_, rfl⟩

/-- Where a class refers to another one that performs an operation, a draft that selects everything
nests it. -/
theorem withAll_nests {registry : Registry} (hc : Consistent registry)
    (hn : registry.NamesDiffer) {c x : BuilderClass} (hreg : registry.get? c.typeName = some c)
    (hx : x.typeName ∈ c.references) (hne : x.typeName ≠ c.typeName)
    (hregx : registry.get? x.typeName = some x) (hop : x.operation ≠ none) (hleaf : x.HasLeaf) :
    ∃ s b, Used registry s ∧ s.builder 0 = .ok b ∧ ¬ b.Rooted := by
  have hroot : registry.Roots c := by
    intro y hy
    exact (Option.some.inj (hreg.symm.trans hy)).symm
  obtain ⟨operation, hd⟩ := exists_draft c
  have hused := (Used.empty.make none hreg hd).all (rfl : Store.draft _ 0 = _)
  obtain ⟨fields, fragments, es, gs, hplan, hinc, hinc', -⟩ :=
    planAll_includes hc (hc.references hreg) (h := (Draft.blank c operation).head) rfl
  have hp : Included registry c 0 (Draft.blank c operation).head c ⟨fields, fragments, none⟩ :=
    included_of_includes hc (hc.references hreg) (.self c) (attained_root c) hinc hinc'
  refine ⟨_, (planAll registry c (Draft.blank c operation).head).builder _, hused,
    builder_withPlan rfl rfl _ rfl, ?_⟩
  rw [hplan]
  have hnested : ∀ b, Grows registry c 0 x.typeName b → ∃ y ∈ b, y.head = x.head := by
    intro b hb
    obtain ⟨-, n, hle, hshort⟩ | ⟨q, hq, rfl⟩ :=
      hb.included hc hroot hregx (.refer hx hregx (.self x))
    · obtain rfl : n = 0 := by omega
      exact absurd (congrArg BuilderClass.typeName hshort.eq_of_zero) hne
    · have hsel : (q.builder x.head).hasSelection = true :=
        hasSelection_iff.mpr (Or.inl (hq.leaf (hn _ x hregx) hleaf))
      exact ⟨q.builder x.head, if_pos hsel, rfl⟩
  obtain ⟨y, hy, hhead⟩ := hp.exists_child (hn _ c hreg) hx (Ne.symm hne) hnested
  intro hr
  have hinert : y.head.operation = none := (rooted_iff.mp hr y hy).1
  rw [hhead, BuilderClass.head, Option.map_eq_none_iff] at hinert
  exact hop hinert

/-- Where operations are apart, no call nests one, and the keyword of an operation stands in front of
its document only; where they are not and each has a field of its own, a draft that selects everything
nests one. -/
theorem nests_operation_unless_apart {registry : Registry} (hc : Consistent registry) :
    (registry.OperationsApart → ∀ s, Used registry s → ∀ id b, s.builder id = .ok b →
      b.Rooted ∧ ∀ doc, b.document = .ok doc → UnsignedSelections doc.selections) ∧
    (registry.NamesDiffer →
      (∀ t c, registry.get? t = some c → c.operation ≠ none → c.HasLeaf) →
      ¬ registry.OperationsApart →
        ∃ s b, Used registry s ∧ s.builder 0 = .ok b ∧ ¬ b.Rooted) := by
  constructor
  · intro hap s hs id b hb
    obtain ⟨d, -, -, hr⟩ := finish_rooted (hs.nestsNoOperation hc hap) hb
    refine ⟨hr, ?_⟩
    intro doc hdoc
    obtain ⟨⟨signature, xs⟩, hcontent, rfl⟩ := map_eq_ok.mp hdoc
    exact (Builder.Rooted.unsigned b hr signature xs hcontent).2
  · intro hn hleaf hap
    simp only [Registry.OperationsApart, not_forall] at hap
    obtain ⟨t, c, hreg, u, hu, hne, x, hregx, hop⟩ := hap
    obtain rfl := hc.typeName hreg
    obtain rfl := hc.typeName hregx
    exact withAll_nests hc hn hreg hu hne hregx hop (hleaf _ x hregx hop)

/-- The root type of queries. -/
def rootQuery : BuilderClass :=
  ⟨"Query", [⟨"version", false, none, false⟩], [], some .query, 2⟩

/-- What a change answers with: a number, and everything that can be asked. -/
def answerClass : BuilderClass :=
  ⟨"Answer", [⟨"id", false, none, false⟩, .object "query" "Query"], [], none, 2⟩

/-- The root type of changes. -/
def rootMutation : BuilderClass :=
  ⟨"Mutation", [⟨"version", false, none, false⟩, .object "create" "Answer"], [], some .mutation, 2⟩

/-- Changes whose answers lead to the queries. -/
def answering : Registry :=
  .ofList [("Query", rootQuery), ("Answer", answerClass), ("Mutation", rootMutation)]

/-- Nothing in a shop nests an operation, and answers that lead to the queries do. -/
theorem shop_rooted_answering_nested :
    (∀ s, Used shop s → ∀ id b, s.builder id = .ok b →
      b.Rooted ∧ ∀ doc, b.document = .ok doc → UnsignedSelections doc.selections) ∧
    ∃ s b, Used answering s ∧ s.builder 0 = .ok b ∧ ¬ b.Rooted := by
  have hshop : shop.OperationsApart := by
    intro t c hreg u hu hne x hx
    have hall : ∀ e ∈ shop.entries, ∀ u ∈ e.2.references,
        ∀ g ∈ shop.entries, g.1 = u → g.2.operation = none := by
      decide
    exact hall _ (Keyed.mem_entries_of_get? hreg) u hu _ (Keyed.mem_entries_of_get? hx) rfl
  have hleaf : ∀ t c, answering.get? t = some c → c.operation ≠ none → c.HasLeaf := by
    intro t c hreg _
    have hall : ∀ e ∈ answering.entries, ∃ f ∈ e.2.selectable, f.builderType = none := by
      decide
    exact hall _ (Keyed.mem_entries_of_get? hreg)
  have hapart : ¬ answering.OperationsApart := by
    intro h
    cases h "Answer" answerClass rfl "Query" (by decide) (by decide) rootQuery rfl
  exact ⟨(nests_operation_unless_apart (consistent_of_entries (by decide))).1 hshop,
    (nests_operation_unless_apart (consistent_of_entries (by decide))).2
      (namesDiffer_of_entries (by decide)) hleaf hapart⟩

end Bindery.Query
