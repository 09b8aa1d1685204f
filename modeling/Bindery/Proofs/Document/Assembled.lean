import Bindery.Proofs.Document.Draft
import Mathlib.Data.List.Perm.Subperm

/-!
# Builders put together by hand

The builder that a draft is finished to, and what is read in its text where the drafts were put
together by hand.

## What is proved

* `builder_of_isTree` — a draft in which nesting comes to an end is finished to a builder, since the
  drafts on a path are distinct.
* `finish_rooted` and `selects_of_finish` — nothing inside the builder performs an operation, and it
  selects something exactly where the draft does.
* `assembled_build_reads` — its text is read as the document that it asks for.
-/

namespace Bindery.Query

open Bindery.Definition (executable?)

/-! ### Finished builders -/

/-- What a nested selection is finished to, given how a draft is finished. -/
def FinishesTo (finish : Nat → Except Error Builder) : Option Handle → Option Builder → Prop
  | none, none => True
  | some (.owned b), some c => b = c
  | some (.shared id), some c => finish id = .ok c
  | _, _ => False

theorem finishField_eq_ok {finish : Nat → Except Error Builder}
    {e : FieldSelection × Option Handle} {g : FieldSelection × Option Builder}
    (h : finishField finish e = .ok g) : e.1 = g.1 ∧ FinishesTo finish e.2 g.2 := by
  obtain ⟨f, _ | b | id⟩ := e
  · cases h
    exact ⟨rfl, trivial⟩
  · obtain ⟨b, hb, rfl⟩ := map_eq_ok.mp h
    exact ⟨rfl, hb⟩
  · cases h
    exact ⟨rfl, rfl⟩

theorem finishFragment_eq_ok {finish : Nat → Except Error Builder} {e : String × Handle}
    {g : String × Builder} (h : finishFragment finish e = .ok g) :
    e.1 = g.1 ∧ FinishesTo finish (some e.2) (some g.2) := by
  obtain ⟨t, b | id⟩ := e
  · obtain ⟨b, hb, rfl⟩ := map_eq_ok.mp h
    exact ⟨rfl, hb⟩
  · cases h
    exact ⟨rfl, rfl⟩

/-- The fields and the fragments of a finished builder are those of its draft in order. -/
theorem finish_eq_ok {s : Store} {fuel id : Nat} {b : Builder}
    (h : s.finish (fuel + 1) id = .ok b) : ∃ d fields fragments, s.drafts[id]? = some d ∧
      List.Forall₂ (fun e g => e.1 = g.1 ∧ FinishesTo (s.finish fuel) e.2 g.2) d.fields.values
        fields ∧
      List.Forall₂ (fun e g => e.1 = g.1 ∧ FinishesTo (s.finish fuel) (some e.2) (some g.2))
        d.fragments.entries fragments ∧
      b = .node d.head fields fragments := by
  simp only [Store.finish, bind_eq_ok, pure_eq_ok, draft_eq_ok] at h
  obtain ⟨d, hd, fields, hf, fragments, hg, rfl⟩ := h
  refine ⟨d, fields, fragments, hd, ?_, ?_, rfl⟩
  · rw [Keyed.values, List.forall₂_map_left_iff]
    exact (forall₂_of_inOrder hf).imp fun _ _ h => finishField_eq_ok h
  · exact (forall₂_of_inOrder hg).imp fun _ _ h => finishFragment_eq_ok h

/-- A draft is finished where the drafts nested in it are. -/
theorem finish_of_nested {s : Store} {fuel id : Nat} {d : Draft} (hd : s.drafts[id]? = some d)
    (h : ∀ k, .shared k ∈ d.handles → ∃ b, s.finish fuel k = .ok b) :
    ∃ b, s.finish (fuel + 1) id = .ok b := by
  have hfields : ∀ e ∈ d.fields.entries, ∃ g, finishField (s.finish fuel) e.2 = .ok g := by
    rintro ⟨key, f, _ | k | b⟩ he
    · exact ⟨_, rfl⟩
    · obtain ⟨b, hb⟩ := h k (mem_handles.mpr (Or.inl ⟨f, List.mem_map_of_mem he⟩))
      exact ⟨(f, some b), by rw [finishField, hb]; rfl⟩
    · exact ⟨_, rfl⟩
  have hfragments : ∀ e ∈ d.fragments.entries, ∃ g, finishFragment (s.finish fuel) e = .ok g := by
    rintro ⟨typeName, k | b⟩ he
    · obtain ⟨b, hb⟩ := h k (mem_handles.mpr (Or.inr (List.mem_map_of_mem he)))
      exact ⟨(typeName, b), by rw [finishFragment, hb]; rfl⟩
    · exact ⟨_, rfl⟩
  obtain ⟨fields, hfields⟩ := exists_inOrder hfields
  obtain ⟨fragments, hfragments⟩ := exists_inOrder hfragments
  refine ⟨.node d.head fields fragments, ?_⟩
  rw [Store.finish, draft_eq_ok.mpr hd]
  simp only [bind, Except.bind, hfields, hfragments]
  rfl

/-- With more fuel than there are drafts besides those above it, a tree is finished: no draft stands
above itself. -/
theorem finish_of_isTree {s : Store} (hs : s.NestsNoOperation) {fuel id : Nat} {above : List Nat}
    (h : s.IsTree id) (hn : above.Nodup)
    (habove : ∀ a ∈ above, a < s.drafts.length ∧ Relation.TransGen s.Inside id a)
    (hfuel : s.drafts.length < above.length + fuel) : ∃ b, s.finish fuel id = .ok b := by
  induction fuel generalizing id above with
  | zero =>
    have hsub : above ⊆ List.range s.drafts.length := by
      intro a ha
      exact List.mem_range.mpr (habove a ha).1
    have hle := (hn.subperm hsub).length_le
    rw [List.length_range] at hle
    omega
  | succ fuel ih =>
    have hself : id ∉ above := by
      intro hid
      exact h.not_inside (habove id hid).2
    have hd := List.getElem?_eq_getElem h.known
    refine finish_of_nested hd ?_
    intro k hx
    have hk : s.Inside k id := ⟨_, hd, hx⟩
    refine ih (h.nested hs hk) (List.nodup_cons.mpr ⟨hself, hn⟩) ?_ (by simp; omega)
    rw [List.forall_mem_cons]
    refine ⟨⟨h.known, .single hk⟩, ?_⟩
    intro a ha
    exact ⟨(habove a ha).1, .head hk (habove a ha).2⟩

/-- A tree has a builder. -/
theorem builder_of_isTree {s : Store} (hs : s.NestsNoOperation) {id : Nat} (h : s.IsTree id) :
    ∃ b, s.builder id = .ok b := by
  refine finish_of_isTree hs h .nil (by simp) ?_
  rw [List.length_nil]
  omega

theorem rootedFields_of_finish {finish : Nat → Except Error Builder}
    {es : List (FieldSelection × Option Handle)} {gs : List (FieldSelection × Option Builder)}
    (h : List.Forall₂ (fun e g => e.1 = g.1 ∧ FinishesTo finish e.2 g.2) es gs)
    (hx : ∀ e ∈ es, ∀ x ∈ e.2, ∀ c, FinishesTo finish (some x) (some c) → c.Inert) :
    RootedFields gs := by
  induction h with
  | nil => trivial
  | @cons e g es gs he _ ih =>
    rw [List.forall_mem_cons] at hx
    obtain ⟨f, x⟩ := e
    obtain ⟨f', _ | c⟩ := g
    · exact ih hx.2
    · have hc : ∃ y, x = some y ∧ FinishesTo finish (some y) (some c) := by
        cases x with
        | none => exact he.2.elim
        | some y => exact ⟨y, rfl, he.2⟩
      obtain ⟨y, rfl, hc⟩ := hc
      exact ⟨(hx.1 y rfl c hc).1, (hx.1 y rfl c hc).2, ih hx.2⟩

theorem rootedFragments_of_finish {finish : Nat → Except Error Builder}
    {es : List (String × Handle)} {gs : List (String × Builder)}
    (h : List.Forall₂ (fun e g => e.1 = g.1 ∧ FinishesTo finish (some e.2) (some g.2)) es gs)
    (hx : ∀ e ∈ es, ∀ c, FinishesTo finish (some e.2) (some c) → c.Inert) : RootedFragments gs := by
  induction h with
  | nil => trivial
  | @cons e g es gs he _ ih =>
    rw [List.forall_mem_cons] at hx
    exact ⟨(hx.1 _ he.2).1, (hx.1 _ he.2).2, ih hx.2⟩

/-- Where drafts nest nothing that performs an operation, neither does what they are finished to. -/
theorem finish_rooted {s : Store} (hs : s.NestsNoOperation) {fuel id : Nat} {b : Builder}
    (h : s.finish fuel id = .ok b) :
    ∃ d, s.drafts[id]? = some d ∧ b.head = d.head ∧ b.Rooted := by
  induction fuel generalizing id b with
  | zero => cases h
  | succ fuel ih =>
    obtain ⟨d, fields, fragments, hd, hfields, hfragments, rfl⟩ := finish_eq_ok h
    have hnested (x : Handle) (hx : x ∈ d.handles) (c : Builder)
        (hc : FinishesTo (s.finish fuel) (some x) (some c)) : c.Inert := by
      have hn := hs d (List.mem_of_getElem? hd) x hx
      cases x with
      | shared k =>
        obtain ⟨e, he, ho⟩ := hn
        obtain ⟨e', he', hhead, hr⟩ := ih hc
        rw [he] at he'
        cases he'
        exact ⟨by rw [hhead]; exact ho, hr⟩
      | owned b =>
        obtain rfl : b = c := hc
        exact hn
    refine ⟨d, hd, rfl, rootedFields_of_finish hfields fun e he x hx => hnested x ?_,
      rootedFragments_of_finish hfragments fun e he => hnested e.2 ?_⟩
    · obtain ⟨f, _⟩ := e
      cases hx
      exact mem_handles.mpr (Or.inl ⟨f, he⟩)
    · exact mem_handles.mpr (Or.inr (List.mem_map_of_mem he))

theorem anyField_eq (fields : List (FieldSelection × Option Builder)) :
    anyField fields = (fields.map Prod.snd).any fun b => b.elim true Builder.hasSelection := by
  induction fields with
  | nil => rfl
  | cons f r ih =>
    obtain ⟨f, _ | b⟩ := f
    · rfl
    · rw [anyField, ih]
      rfl

theorem anyFragment_eq (fragments : List (String × Builder)) :
    anyFragment fragments =
      (fragments.map fun f => some f.2).any fun b => b.elim true Builder.hasSelection := by
  induction fragments with
  | nil => rfl
  | cons f r ih =>
    rw [anyFragment, ih]
    rfl

/-- Whether nested selections select anything is whether what they are finished to does. -/
theorem anySelects_of_finish {finish : Nat → Except Error Builder}
    {selects : Nat → Except Error Bool}
    (h : ∀ id b, finish id = .ok b → selects id = .ok b.hasSelection)
    {xs : List (Option Handle)} {bs : List (Option Builder)}
    (hb : List.Forall₂ (FinishesTo finish) xs bs) :
    anySelects selects xs = .ok (bs.any fun b => b.elim true Builder.hasSelection) := by
  induction hb with
  | nil => rfl
  | @cons x b xs bs hx _ ih =>
    match x, b, hx with
    | none, none, _ => rfl
    | some (.owned c), some _, rfl =>
      rw [anySelects, List.any_cons, Option.elim_some, ih]
      cases c.hasSelection <;> rfl
    | some (.shared id), some c, hc =>
      rw [anySelects, List.any_cons, Option.elim_some, h id c hc, ih]
      cases c.hasSelection <;> rfl

/-- Whether a draft selects anything is whether its finished builder does. -/
theorem selects_of_finish {s : Store} {fuel id : Nat} {b : Builder}
    (h : s.finish fuel id = .ok b) : s.selects fuel id = .ok b.hasSelection := by
  induction fuel generalizing id b with
  | zero => cases h
  | succ fuel ih =>
    obtain ⟨d, fields, fragments, hd, hfields, hfragments, rfl⟩ := finish_eq_ok h
    have hall : List.Forall₂ (FinishesTo (s.finish fuel))
        (d.fields.values.map Prod.snd ++ d.fragments.values.map some)
        (fields.map Prod.snd ++ fragments.map fun f => some f.2) := by
      refine List.rel_append ?_ ?_
      · rw [List.forall₂_map_left_iff, List.forall₂_map_right_iff]
        exact hfields.imp fun _ _ h => h.2
      · rw [Keyed.values, List.map_map, List.forall₂_map_left_iff, List.forall₂_map_right_iff]
        exact hfragments.imp fun _ _ h => h.2
    have hany := anySelects_of_finish (fun _ _ => ih) hall
    rw [Store.selects, draft_eq_ok.mpr hd]
    simp only [bind, Except.bind]
    rw [hany, List.any_append, ← anyField_eq, ← anyFragment_eq]
    rfl

/-! ### Reading back what was assembled -/

/-- A tree of drafts that was assembled by hand has a builder. Where the names of the builder are
names, its values can be read back, its variables have types that can be written and constant
defaults, and it selects something, the compact text is read as one document, the one that the
builder asks for. -/
theorem assembled_build_reads {s : Store} (hs : Assembled s) {id : Nat} (h : s.IsTree id) :
    ∃ b, s.builder id = .ok b ∧
      (b.Named Value.ReadsBack Variable.ReadsBack → s.hasSelection id = .ok true →
        ∃ text e, s.build id false none = .ok text ∧ executable? text = some [e] ∧
          ∀ e', b.AsksFor e' ↔ e' = e) := by
  obtain ⟨b, hb⟩ := builder_of_isTree hs.nestsNoOperation h
  refine ⟨b, hb, ?_⟩
  intro hn hsel
  obtain ⟨d, hd, -, hr⟩ := finish_rooted hs.nestsNoOperation hb
  have hb' : b.hasSelection = true := by
    have hselects := (selects_of_finish hb).symm.trans hsel
    injection hselects
  obtain ⟨text, e, htext, hread, hiff⟩ := hn.build_reads hr hb' ⟨false, d.cls.indentation⟩
  refine ⟨text, e, ?_, hread, hiff⟩
  rw [Store.build, draft_eq_ok.mpr hd, hb]
  exact htext

/-- A query with a variable that asks for the name of one user. -/
def userQuery : Store :=
  let query : Draft := .blank ⟨"Query", [], [], some .query, 2⟩ (some ⟨.query, some "One"⟩)
  let user : Draft := .blank ⟨"User", [], [], none, 2⟩ none
  let id : Value := .parameter ⟨some "id", some "ID!", some 0⟩ .null
  ⟨.empty, [{ query with
      fields := .ofList [("user", (⟨"user", none, [⟨"id", id, none⟩], []⟩, some (.shared 1)))]
      declared := .ofList [("id", ⟨"id", "ID!", .null, 0⟩)] },
    { user with fields := .ofList [("n", (⟨"name", some "n", [], []⟩, none))] }]⟩

theorem userQuery_assembled : Assembled userQuery := by
  have hquery := (Assembled.empty .empty).make ⟨"Query", [], [], some .query, 2⟩
    (some ⟨.query, some "One"⟩)
  have huser := hquery.make ⟨"User", [], [], none, 2⟩ none
  have hname := Assembled.call huser (rfl : Store.draft _ 1 = _)
    (.field "name" (some "n") [] [] rfl)
  have hid := Assembled.call hname (rfl : Store.draft _ 0 = _)
    (.declare (.parameter ⟨some "id", some "ID!", some 0⟩ .null) rfl)
  exact Assembled.call hid (rfl : Store.draft _ 0 = _) (.object "user" none []
    [⟨"id", .parameter ⟨some "id", some "ID!", some 0⟩ .null, none⟩] (some 1) rfl)

theorem userQuery_isTree : userQuery.IsTree 0 := by
  have huser : Acc userQuery.Inside 1 := by
    refine .intro 1 ?_
    intro k hk
    obtain ⟨d, ⟨rfl⟩, hx⟩ := hk
    change Handle.shared k ∈ [] at hx
    cases hx
  refine ⟨by decide, .intro 0 ?_⟩
  intro k hk
  obtain ⟨d, ⟨rfl⟩, hx⟩ := hk
  change Handle.shared k ∈ [.shared 1] at hx
  cases List.mem_singleton.mp hx
  exact huser

/-- The text of the query is read as what the query asks for. -/
theorem userQuery_reads : ∃ b, userQuery.builder 0 = .ok b ∧
    b.Named Value.ReadsBack Variable.ReadsBack ∧ userQuery.hasSelection 0 = .ok true ∧
    ∃ text e, userQuery.build 0 false none = .ok text ∧ executable? text = some [e] ∧
      ∀ e', b.AsksFor e' ↔ e' = e := by
  obtain ⟨b, hb, hreads⟩ := assembled_build_reads userQuery_assembled userQuery_isTree
  have hid : Value.ReadsBack none (.parameter ⟨some "id", some "ID!", some 0⟩ .null) :=
    ⟨.variable "id", .named rfl, by simp [Definition.Literal.variables]; rfl⟩
  have hvariable : Variable.ReadsBack ⟨"id", "ID!", .null, 0⟩ :=
    ⟨⟨.nonNull (.named "ID"), rfl, rfl⟩, by simp [Variable.hasFallback]⟩
  have huser : FieldSelection.Named Value.ReadsBack
      ⟨"user", none, [⟨"id", .parameter ⟨some "id", some "ID!", some 0⟩ .null, none⟩], []⟩ :=
    ⟨by simp, rfl, by simpa using ⟨rfl, hid⟩, by simp⟩
  have hname : FieldSelection.Named Value.ReadsBack ⟨"name", some "n", [], []⟩ :=
    ⟨by simp; rfl, rfl, by simp, by simp⟩
  have hquery : BuilderHead.Named Variable.ReadsBack
      ⟨"Query", some ⟨.query, some "One"⟩, .ofList [("id", ⟨"id", "ID!", .null, 0⟩)]⟩ :=
    ⟨by simp; rfl, by
      simpa [Keyed.ofList, Keyed.values, Keyed.put, Keyed.empty, Keyed.putEntry] using
        ⟨rfl, hvariable⟩⟩
  have hinner : BuilderHead.Named Variable.ReadsBack ⟨"User", none, .empty⟩ :=
    ⟨by simp, by simp [Keyed.empty, Keyed.values]⟩
  have hnamed : b.Named Value.ReadsBack Variable.ReadsBack := by
    cases hb
    exact ⟨hquery, ⟨huser, ⟨hinner, ⟨hname, trivial⟩, trivial⟩, trivial⟩, trivial⟩
  exact ⟨b, hb, hnamed, rfl, hreads hnamed rfl⟩

end Bindery.Query
