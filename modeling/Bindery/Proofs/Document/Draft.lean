import Bindery.Proofs.Document.Content
import Bindery.Proofs.Keyed
import Bindery.Query.Store
import Mathlib.Logic.Relation

/-!
# Drafts made by hand

Drafts that are made one by one and changed by calls that select, leave out or declare by hand. No
such call nests a draft that performs an operation, whatever the order of the calls, and no call
changes the operation of a draft.

## What is proved

* `ManualCall.step` — a call keeps the operation of the draft that it changes, and what the draft
  nests afterwards it nested before or performs no operation.
* `Assembled.nestsNoOperation` — so nothing in an assembled store nests a draft with an operation.
-/

namespace Bindery.Query

/-! ### Calls -/

/-- `ManualCall s d d'`: a call that selects, leaves out or declares by hand changes the draft `d`
of the store into `d'`. -/
inductive ManualCall (s : Store) : Draft → Draft → Prop where
  /-- A field without a selection set is selected. -/
  | field {d d' : Draft} (name : String) (aliasName : Option String)
      (directives : List DirectiveValue) (arguments : List ArgumentValue) :
      d.select name aliasName directives arguments none = .ok d' → ManualCall s d d'
  /-- A field is selected with the selection of another draft. -/
  | object {d d' : Draft} (name : String) (aliasName : Option String)
      (directives : List DirectiveValue) (arguments : List ArgumentValue) (inner : Option Nat) :
      s.selectObject d name aliasName directives arguments inner = .ok d' → ManualCall s d d'
  /-- The selection of another draft is selected as a fragment. -/
  | fragment {d d' : Draft} (inner : Nat) : s.selectFragment d inner = .ok d' → ManualCall s d d'
  /-- Every field that needs neither arguments nor a selection set is selected. -/
  | scalars {d : Draft} : ManualCall s d d.withAllScalars
  /-- A field is left out. -/
  | exceptField {d d' : Draft} (key : String) : d.exceptField key = .ok d' → ManualCall s d d'
  /-- A fragment is left out. -/
  | exceptFragment {d : Draft} (typeName : String) : ManualCall s d (d.exceptFragment typeName)
  /-- Everything is left out. -/
  | clear {d : Draft} : ManualCall s d d.clear
  /-- A variable is declared. -/
  | declare {d d' : Draft} (v : Value) : d.declare v = .ok d' → ManualCall s d d'

/-- `Assembled s`: the drafts of the store were made one by one and changed by hand. -/
inductive Assembled : Store → Prop where
  /-- There are no drafts. -/
  | empty (registry : Registry) : Assembled ⟨registry, []⟩
  /-- A draft is made. -/
  | make {s : Store} (cls : BuilderClass) (operation : Option Operation) :
      Assembled s → Assembled (s.add (.blank cls operation)).1
  /-- A draft is changed. -/
  | call {s : Store} {id : Nat} {d d' : Draft} :
      Assembled s → s.draft id = .ok d → ManualCall s d d' → Assembled (s.set id d')

/-! ### What is nested -/

/-- The nested selections of a draft. -/
def Draft.handles (d : Draft) : List Handle :=
  d.fields.values.filterMap Prod.snd ++ d.fragments.values

/-- Neither the builder nor one inside it performs an operation. -/
def Builder.Inert (b : Builder) : Prop :=
  b.head.operation = none ∧ b.Rooted

/-- The nested selection performs no operation: it is one of a draft that performs none, or a finished
builder that performs none. -/
def Store.Nests (s : Store) : Handle → Prop
  | .shared id => ∃ d, s.drafts[id]? = some d ∧ d.operation = none
  | .owned b => b.Inert

theorem draft_eq_ok {s : Store} {id : Nat} {d : Draft} :
    s.draft id = .ok d ↔ s.drafts[id]? = some d := by
  unfold Store.draft
  cases s.drafts[id]? with
  | none => exact ⟨nofun, nofun⟩
  | some x => exact ⟨fun h => by cases h; rfl, fun h => by cases h; rfl⟩

/-- What may be nested is a draft that performs no operation. -/
theorem nestable_eq_ok {s : Store} {id : Nat} {refusal : Error} {d : Draft}
    (h : s.nestable id refusal = .ok d) : s.drafts[id]? = some d ∧ d.operation = none := by
  rw [Store.nestable] at h
  obtain ⟨x, hx, h⟩ := bind_eq_ok.mp h
  rw [draft_eq_ok] at hx
  cases ho : x.operation with
  | none =>
    rw [ho] at h
    cases h
    exact ⟨hx, ho⟩
  | some o =>
    rw [ho] at h
    cases h

section Handles

variable {d d' : Draft} {x : Handle}

theorem mem_handles : x ∈ d.handles ↔
    (∃ f, (f, some x) ∈ d.fields.values) ∨ x ∈ d.fragments.values := by
  simp [Draft.handles, List.mem_filterMap]

theorem mem_handles_putField {key : String} {f : FieldSelection} {nested : Option Handle}
    (h : x ∈ ({ d with fields := d.fields.put key (f, nested) } : Draft).handles) :
    nested = some x ∨ x ∈ d.handles := by
  rw [mem_handles] at h ⊢
  rcases h with ⟨g, h⟩ | h
  · rcases Keyed.mem_values_put h with h | h
    · exact Or.inl (congrArg Prod.snd h).symm
    · exact Or.inr (Or.inl ⟨g, h⟩)
  · exact Or.inr (Or.inr h)

theorem mem_handles_putFragment {key : String} {nested : Handle}
    (h : x ∈ ({ d with fragments := d.fragments.put key nested } : Draft).handles) :
    x = nested ∨ x ∈ d.handles := by
  rw [mem_handles] at h ⊢
  rcases h with h | h
  · exact Or.inr (Or.inl h)
  · exact (Keyed.mem_values_put h).imp_right Or.inr

/-- Fields of a plan nest their builders, and they change neither the operation nor the class. -/
theorem withFields_handles (fields : List (String × Option Builder)) (d : Draft) :
    (d.withFields fields).operation = d.operation ∧ (d.withFields fields).cls = d.cls ∧
      ∀ x ∈ (d.withFields fields).handles,
        x ∈ d.handles ∨ ∃ e ∈ fields, ∃ b ∈ e.2, x = .owned b := by
  induction fields generalizing d with
  | nil => exact ⟨rfl, rfl, fun x hx => Or.inl hx⟩
  | cons f r ih =>
    obtain ⟨ho, hcls, hh⟩ :=
      ih { d with fields := d.fields.put f.1 (FieldSelection.plain f.1, f.2.map Handle.owned) }
    refine ⟨ho, hcls, ?_⟩
    intro x hx
    rcases hh x hx with hx | ⟨e, he, hb⟩
    · rcases mem_handles_putField hx with hx | hx
      · obtain ⟨b, hb, rfl⟩ := Option.map_eq_some_iff.mp hx
        exact Or.inr ⟨f, List.mem_cons_self, b, hb, rfl⟩
      · exact Or.inl hx
    · exact Or.inr ⟨e, List.mem_cons_of_mem _ he, hb⟩

/-- What is selected is a field whose alias is accepted, under the key of the field. -/
theorem select_eq_ok {name : String} {aliasName : Option String} {directives : List DirectiveValue}
    {arguments : List ArgumentValue} {nested : Option Handle}
    (h : d.select name aliasName directives arguments nested = .ok d') :
    ∃ f : FieldSelection, (∀ a ∈ f.aliasName, acceptsName a = true) ∧
      d' = { d with fields := d.fields.put f.key (f, nested) } := by
  unfold Draft.select at h
  cases aliasName with
  | none =>
    cases h
    exact ⟨_, by simp, rfl⟩
  | some a =>
    obtain ⟨_, hcheck, h⟩ := bind_eq_ok.mp h
    obtain ⟨_, hcheck⟩ := discard_eq_ok.mp hcheck
    have ha : acceptsName a = true := by
      unfold checkName at hcheck
      split_ifs at hcheck with ha
      exact ha
    cases h
    exact ⟨_, by simpa using ha, rfl⟩

/-- To select a field nests nothing but what is given, and changes neither the operation nor the
class. -/
theorem select_handles {name : String} {aliasName : Option String}
    {directives : List DirectiveValue} {arguments : List ArgumentValue} {nested : Option Handle}
    (h : d.select name aliasName directives arguments nested = .ok d') :
    d'.operation = d.operation ∧ d'.cls = d.cls ∧
      ∀ x ∈ d'.handles, x ∈ d.handles ∨ nested = some x := by
  obtain ⟨f, -, rfl⟩ := select_eq_ok h
  exact ⟨rfl, rfl, fun x hx => (mem_handles_putField hx).symm⟩

theorem exceptField_eq_ok {key : String} (h : d.exceptField key = .ok d') :
    d' = { d with fields := (d.fields.remove key).1 } := by
  rw [Draft.exceptField] at h
  split_ifs at h
  cases h
  rfl

theorem declare_eq_ok {v : Value} (h : d.declare v = .ok d') :
    ∃ declared, d' = { d with declared := declared } := by
  unfold Draft.declare at h
  split_ifs at h
  split at h
  · split at h
    · split_ifs at h
      cases h
      exact ⟨_, rfl⟩
    · cases h
      exact ⟨_, rfl⟩
  · cases h

end Handles

/-- What a call by hand changes: the operation and the class stay, and nothing is nested but a draft
that performs no operation. -/
theorem ManualCall.step {s : Store} {d d' : Draft} (h : ManualCall s d d') :
    d'.operation = d.operation ∧ d'.cls = d.cls ∧ ∀ x ∈ d'.handles, x ∈ d.handles ∨ s.Nests x := by
  cases h with
  | field name aliasName directives arguments h =>
    obtain ⟨ho, hcls, hh⟩ := select_handles h
    exact ⟨ho, hcls, fun x hx => (hh x hx).imp_right nofun⟩
  | object name aliasName directives arguments inner h =>
    cases inner with
    | none => cases h
    | some id =>
      obtain ⟨_, hn, h⟩ := bind_eq_ok.mp h
      obtain ⟨e, he⟩ := discard_eq_ok.mp hn
      obtain ⟨hid, hnone⟩ := nestable_eq_ok he
      obtain ⟨ho, hcls, hh⟩ := select_handles h
      refine ⟨ho, hcls, fun x hx => (hh x hx).imp_right ?_⟩
      rintro ⟨rfl⟩
      exact ⟨e, hid, hnone⟩
  | fragment inner h =>
    obtain ⟨e, he, h⟩ := bind_eq_ok.mp h
    cases h
    obtain ⟨hid, ho⟩ := nestable_eq_ok he
    refine ⟨rfl, rfl, ?_⟩
    intro x hx
    rcases mem_handles_putFragment hx with rfl | h
    · exact Or.inr ⟨e, hid, ho⟩
    · exact Or.inl h
  | scalars =>
    obtain ⟨ho, hcls, hh⟩ := withFields_handles (d.cls.scalarFields.map fun f => (f, none)) d
    refine ⟨ho, hcls, ?_⟩
    intro x hx
    rcases hh x hx with hx | ⟨e, he, b, hb, -⟩
    · exact Or.inl hx
    · obtain ⟨f, -, rfl⟩ := List.mem_map.mp he
      cases hb
  | exceptField key h =>
    rw [exceptField_eq_ok h]
    refine ⟨rfl, rfl, fun x hx => Or.inl ?_⟩
    rw [mem_handles] at hx ⊢
    exact hx.imp_left fun ⟨f, hf⟩ => ⟨f, Keyed.mem_values_remove hf⟩
  | exceptFragment typeName =>
    refine ⟨rfl, rfl, fun x hx => Or.inl ?_⟩
    rw [mem_handles] at hx ⊢
    exact hx.imp_right Keyed.mem_values_remove
  | clear =>
    refine ⟨rfl, rfl, ?_⟩
    intro x hx
    simp [mem_handles, Draft.clear, Keyed.empty, Keyed.values] at hx
  | declare v h =>
    obtain ⟨declared, rfl⟩ := declare_eq_ok h
    exact ⟨rfl, rfl, fun x hx => Or.inl hx⟩

/-- No nested selection in the store performs an operation. -/
def Store.NestsNoOperation (s : Store) : Prop :=
  ∀ d ∈ s.drafts, ∀ x ∈ d.handles, s.Nests x

/-- What is nested stays nested where the drafts of the store keep their operations. -/
theorem Store.Nests.of_drafts {s t : Store} {x : Handle} (h : s.Nests x)
    (ht : ∀ (id : Nat) (d : Draft), s.drafts[id]? = some d →
      ∃ d' : Draft, t.drafts[id]? = some d' ∧ d'.operation = d.operation) : t.Nests x := by
  cases x with
  | shared id =>
    obtain ⟨d, hid, ho⟩ := h
    obtain ⟨d', hid', ho'⟩ := ht id d hid
    exact ⟨d', hid', ho'.trans ho⟩
  | owned b => exact h

theorem nestsNoOperation_make {s : Store} (cls : BuilderClass) (operation : Option Operation)
    (h : s.NestsNoOperation) : (s.add (.blank cls operation)).1.NestsNoOperation := by
  intro d hd x hx
  simp only [Store.add, List.mem_append, List.mem_singleton] at hd
  rcases hd with hd | rfl
  · refine (h d hd x hx).of_drafts fun id d hid => ⟨d, ?_, rfl⟩
    simp only [Store.add]
    rw [List.getElem?_append_left (List.getElem?_eq_some_iff.mp hid).1, hid]
  · simp [mem_handles, Draft.blank, Keyed.empty, Keyed.values] at hx

theorem nestsNoOperation_set {s : Store} {id : Nat} {d d' : Draft} (h : s.NestsNoOperation)
    (hid : s.drafts[id]? = some d) (ho : d'.operation = d.operation)
    (hh : ∀ x ∈ d'.handles, x ∈ d.handles ∨ s.Nests x) : (s.set id d').NestsNoOperation := by
  have hdrafts : ∀ (k : Nat) (e : Draft), s.drafts[k]? = some e →
      ∃ e' : Draft, (s.set id d').drafts[k]? = some e' ∧ e'.operation = e.operation := by
    intro k e hk
    by_cases heq : id = k
    · subst heq
      rw [hid] at hk
      cases hk
      exact ⟨d', by rw [Store.set, List.getElem?_set_self (List.getElem?_eq_some_iff.mp hid).1], ho⟩
    · exact ⟨e, by rw [Store.set, List.getElem?_set_ne heq, hk], rfl⟩
  intro e he x hx
  refine Store.Nests.of_drafts ?_ hdrafts
  rcases List.mem_or_eq_of_mem_set he with he | rfl
  · exact h e he x hx
  · exact (hh x hx).elim (h d (List.mem_of_getElem? hid) x) fun hn => hn

theorem nestsNoOperation_call {s : Store} {id : Nat} {d d' : Draft} (h : s.NestsNoOperation)
    (hid : s.draft id = .ok d) (hc : ManualCall s d d') : (s.set id d').NestsNoOperation := by
  obtain ⟨ho, -, hh⟩ := hc.step
  exact nestsNoOperation_set h (draft_eq_ok.mp hid) ho hh

/-- By hand nothing is nested but drafts that perform no operation. -/
theorem Assembled.nestsNoOperation {s : Store} (h : Assembled s) : s.NestsNoOperation := by
  induction h with
  | empty registry => intro d hd; cases hd
  | make cls operation _ ih => exact nestsNoOperation_make cls operation ih
  | call _ hid hc ih => exact nestsNoOperation_call ih hid hc

/-! ### Trees -/

/-- `s.Inside k id`: the draft `k` is nested in the draft `id`. -/
def Store.Inside (s : Store) (k id : Nat) : Prop :=
  ∃ d, s.drafts[id]? = some d ∧ .shared k ∈ d.handles

/-- The draft is there, and from it on nesting comes to an end. -/
structure Store.IsTree (s : Store) (id : Nat) : Prop where
  /-- The draft is there. -/
  known : id < s.drafts.length
  /-- Nesting comes to an end. -/
  ends : Acc s.Inside id

theorem Store.IsTree.not_inside {s : Store} {id : Nat} (h : s.IsTree id) :
    ¬ Relation.TransGen s.Inside id id := by
  have hacc := h.ends.transGen
  clear h
  induction hacc with
  | intro x _ ih =>
    intro hx
    exact ih x hx hx

/-- What is nested in a tree is a tree. -/
theorem Store.IsTree.nested {s : Store} (hs : s.NestsNoOperation) {id : Nat} (h : s.IsTree id)
    {k : Nat} (hk : s.Inside k id) : s.IsTree k := by
  refine ⟨?_, h.ends.inv hk⟩
  obtain ⟨d, hd, hx⟩ := hk
  obtain ⟨e, he, -⟩ := hs d (List.mem_of_getElem? hd) _ hx
  exact (List.getElem?_eq_some_iff.mp he).1

end Bindery.Query
