import Bindery.Proofs.Document.Named
import Bindery.Proofs.Document.Operation
import Bindery.Proofs.Literal.Denotes

/-!
# What a builder asks for

The document that a builder stands for, told without its text: per selection set the name of the
type where fragments are rendered, the fields in the order in which they were selected, and the
fragments behind them, where what selects nothing is left out.

## What is proved

* `Builder.Named.content_selects` — a builder whose names are names, whose values can be read back
  and inside which nothing performs an operation has a content, and what is read there is what it
  selects.
* `Builder.Named.build_reads` — the text of such a builder, in every layout, is read as the one
  document that it asks for.
-/

namespace Bindery.Query

open Bindery.Definition hiding Literal Document
open Bindery.Text

/-! ### The selections of a builder -/

/-- The argument stands for an argument of a document. -/
def ArgumentValue.StandsFor (a : ArgumentValue) (p : String × Definition.Literal) : Prop :=
  p.1 = a.name ∧ Denotes a.mask a.value p.2

/-- The directive stands for a directive of a document. -/
def DirectiveValue.StandsFor (d : DirectiveValue) (p : Applied) : Prop :=
  p.name = d.name ∧ List.Forall₂ ArgumentValue.StandsFor d.arguments p.arguments

/-- The arguments and the directives of a field stand for those of a document. -/
def FieldSelection.StandsFor (f : FieldSelection) (args : List (String × Definition.Literal))
    (ds : List Applied) : Prop :=
  List.Forall₂ ArgumentValue.StandsFor f.arguments args ∧
    List.Forall₂ DirectiveValue.StandsFor f.directives ds

/-- The field that asks for the name of the type, where fragments are rendered and none of the
fields has its key. -/
def typenameSelected (fields : List (FieldSelection × Option Builder)) (fragments : List Selected) :
    List Selected :=
  if !fragments.isEmpty && !fields.any fun f => f.1.key == typenameField then
    [.field none typenameField [] [] []]
  else []

mutual

/-- `Selects b xs`: the selection set of the builder is `xs`. The fields come in the order in which
they were selected, and the fragments come behind them. -/
inductive Selects : Builder → List Selected → Prop where
  /-- The name of the type, the fields and the fragments. -/
  | node {head : BuilderHead} {fields : List (FieldSelection × Option Builder)}
      {fragments : List (String × Builder)} {xs ys : List Selected} :
      SelectsFields fields xs → SelectsFragments fragments ys →
      Selects (.node head fields fragments) (typenameSelected fields ys ++ xs ++ ys)

/-- The selections of fields; one whose builder selects nothing is left out. -/
inductive SelectsFields : List (FieldSelection × Option Builder) → List Selected → Prop where
  /-- No fields select nothing. -/
  | nil : SelectsFields [] []
  /-- A field without a builder. -/
  | leaf {f : FieldSelection} {args : List (String × Definition.Literal)} {ds : List Applied}
      {r : List (FieldSelection × Option Builder)} {xs : List Selected} :
      f.StandsFor args ds → SelectsFields r xs →
      SelectsFields ((f, none) :: r) (.field f.aliasName f.name args ds [] :: xs)
  /-- A field with a builder that selects something. -/
  | nested {f : FieldSelection} {b : Builder} {args : List (String × Definition.Literal)}
      {ds : List Applied} {r : List (FieldSelection × Option Builder)} {ys xs : List Selected} :
      b.hasSelection = true → f.StandsFor args ds → Selects b ys → SelectsFields r xs →
      SelectsFields ((f, some b) :: r) (.field f.aliasName f.name args ds ys :: xs)
  /-- A field with a builder that selects nothing. -/
  | empty {f : FieldSelection} {b : Builder} {r : List (FieldSelection × Option Builder)}
      {xs : List Selected} :
      b.hasSelection = false → SelectsFields r xs → SelectsFields ((f, some b) :: r) xs

/-- The selections of fragments; one that selects nothing is left out. -/
inductive SelectsFragments : List (String × Builder) → List Selected → Prop where
  /-- No fragments select nothing. -/
  | nil : SelectsFragments [] []
  /-- A fragment that selects something. -/
  | nested {typeName : String} {b : Builder} {r : List (String × Builder)}
      {ys xs : List Selected} :
      b.hasSelection = true → Selects b ys → SelectsFragments r xs →
      SelectsFragments ((typeName, b) :: r) (.inline (some typeName) [] ys :: xs)
  /-- A fragment that selects nothing. -/
  | empty {typeName : String} {b : Builder} {r : List (String × Builder)} {xs : List Selected} :
      b.hasSelection = false → SelectsFragments r xs → SelectsFragments ((typeName, b) :: r) xs

end

section Inversion

variable {head : BuilderHead} {fields : List (FieldSelection × Option Builder)}
  {fragments : List (String × Builder)} {f : FieldSelection} {b : Builder} {typeName : String}
  {r : List (FieldSelection × Option Builder)} {t : List (String × Builder)} {zs : List Selected}

theorem selects_node_iff : Selects (.node head fields fragments) zs ↔
    ∃ xs ys, SelectsFields fields xs ∧ SelectsFragments fragments ys ∧
      zs = typenameSelected fields ys ++ xs ++ ys := by
  constructor
  · rintro ⟨hx, hy⟩
    exact ⟨_, _, hx, hy, rfl⟩
  · rintro ⟨xs, ys, hx, hy, rfl⟩
    exact .node hx hy

theorem selectsFields_nil_iff : SelectsFields [] zs ↔ zs = [] := by
  constructor
  · rintro ⟨⟩
    rfl
  · rintro rfl
    exact .nil

theorem selectsFields_leaf_iff : SelectsFields ((f, none) :: r) zs ↔
    ∃ ps qs xs, f.StandsFor ps qs ∧ SelectsFields r xs ∧
      zs = .field f.aliasName f.name ps qs [] :: xs := by
  constructor
  · rintro (_ | ⟨h, hr⟩)
    exact ⟨_, _, _, h, hr, rfl⟩
  · rintro ⟨ps, qs, xs, h, hr, rfl⟩
    exact .leaf h hr

theorem selectsFields_nested_iff (hb : b.hasSelection = true) :
    SelectsFields ((f, some b) :: r) zs ↔ ∃ ps qs ys xs, f.StandsFor ps qs ∧ Selects b ys ∧
      SelectsFields r xs ∧ zs = .field f.aliasName f.name ps qs ys :: xs := by
  constructor
  · intro h
    cases h with
    | nested _ hf hs hr => exact ⟨_, _, _, _, hf, hs, hr, rfl⟩
    | empty he => rw [hb] at he; cases he
  · rintro ⟨ps, qs, ys, xs, hf, hs, hr, rfl⟩
    exact .nested hb hf hs hr

theorem selectsFields_empty_iff (hb : b.hasSelection = false) :
    SelectsFields ((f, some b) :: r) zs ↔ SelectsFields r zs := by
  constructor
  · intro h
    cases h with
    | nested he => rw [hb] at he; cases he
    | empty _ hr => exact hr
  · exact .empty hb

theorem selectsFragments_nil_iff : SelectsFragments [] zs ↔ zs = [] := by
  constructor
  · rintro ⟨⟩
    rfl
  · rintro rfl
    exact .nil

theorem selectsFragments_nested_iff (hb : b.hasSelection = true) :
    SelectsFragments ((typeName, b) :: t) zs ↔ ∃ ys xs, Selects b ys ∧ SelectsFragments t xs ∧
      zs = .inline (some typeName) [] ys :: xs := by
  constructor
  · intro h
    cases h with
    | nested _ hs hr => exact ⟨_, _, hs, hr, rfl⟩
    | empty he => rw [hb] at he; cases he
  · rintro ⟨ys, xs, hs, hr, rfl⟩
    exact .nested hb hs hr

theorem selectsFragments_empty_iff (hb : b.hasSelection = false) :
    SelectsFragments ((typeName, b) :: t) zs ↔ SelectsFragments t zs := by
  constructor
  · intro h
    cases h with
    | nested he => rw [hb] at he; cases he
    | empty _ hr => exact hr
  · exact .empty hb

end Inversion

/-- Is the variable defined with a default value? It has one, and its type does not exclude null. -/
def Variable.hasFallback (v : Variable) : Bool :=
  match v.value with
  | .null => false
  | _ => !(v.typeName.toList.getLast? == some '!')

/-- The variable stands for a variable of a document. -/
structure Variable.StandsFor (v : Variable) (p : VariablePart) : Prop where
  /-- The name is kept. -/
  name : p.name = v.name
  /-- The type can be written. -/
  isWellFormed : p.type.isWellFormed = true
  /-- The type is the one of the text. -/
  type : v.typeName.toList = p.type.chars
  /-- The default value is the value of the variable, where it is defined with one. -/
  fallback : if v.hasFallback then ∃ y, p.fallback = some y ∧ Denotes none v.value y
    else p.fallback = none
  /-- There are no directives. -/
  directives : p.directives = []

/-- What the builder asks for: a selection set alone, or an operation with its keyword, its name and
its variables in the order in which they were declared. -/
inductive Builder.AsksFor : Builder → Executable → Prop where
  /-- A builder without an operation. -/
  | bare {b : Builder} {xs : List Selected} :
      b.head.operation = none → Selects b xs → b.AsksFor (.bare xs)
  /-- A builder with an operation. -/
  | operation {b : Builder} {o : Operation} {vs : List VariablePart} {xs : List Selected} :
      b.head.operation = some o → List.Forall₂ Variable.StandsFor b.head.declared.values vs →
      Selects b xs → b.AsksFor (.operation o.type.keyword o.name vs [] xs)

/-! ### Values that can be read back -/

/-- The value stands for a literal whose variables are names. -/
def Value.ReadsBack (mask : Option String) (v : Value) : Prop :=
  ∃ y, Denotes mask v y ∧ ∀ n ∈ y.variables, isGraphQLName n = true

/-- The type of the variable can be written, and a default value stands for a constant literal. -/
def Variable.ReadsBack (v : Variable) : Prop :=
  (∃ t : TypeExpr, t.isWellFormed = true ∧ v.typeName.toList = t.chars) ∧
    (v.hasFallback = true → ∃ y, Denotes none v.value y ∧ y.variables = [])

theorem Denotes.literal_reading {mask : Option String} {v : Value} {y : Definition.Literal}
    (h : Denotes mask v y) (hn : ∀ n ∈ y.variables, isGraphQLName n = true) :
    ∃ x, v.literal mask = .ok x ∧ x.Readable ∧ x.reading = y := by
  obtain ⟨x, hx, hr, hiff⟩ := h.literal
  exact ⟨x, hx, hr, hiff.mpr hn⟩

/-- Where each item of a list has one result and stands for one thing only, the list has its results
in order and stands for those things only. -/
theorem inOrder_standsFor {α β γ : Type} {f : α → Except Error β} {P : β → γ → Prop}
    {S : α → γ → Prop} {xs : List α}
    (h : ∀ x ∈ xs, ∃ y z, f x = .ok y ∧ P y z ∧ ∀ w, S x w ↔ w = z) :
    ∃ ys zs, inOrder (xs.map f) = .ok ys ∧ List.Forall₂ P ys zs ∧
      ∀ ws, List.Forall₂ S xs ws ↔ ws = zs := by
  induction xs with
  | nil => exact ⟨[], [], rfl, .nil, by simp⟩
  | cons x xs ih =>
    obtain ⟨y, z, hy, hp, hs⟩ := h x (by simp)
    obtain ⟨ys, zs, hys, hps, hss⟩ := ih fun x hx => h x (List.mem_cons_of_mem _ hx)
    refine ⟨y :: ys, z :: zs, ?_, .cons hp hps, ?_⟩
    · exact inOrder_cons_eq_ok.mpr ⟨y, ys, hy, hys, rfl⟩
    intro ws
    cases ws with
    | nil => simp
    | cons w ws => rw [List.forall₂_cons, hs, hss, List.cons.injEq]

/-- What is read where each item is read as one thing. -/
theorem forall₂_reading {β γ : Type} {P : β → Prop} {g : β → γ} {ys : List β} {zs : List γ}
    (h : List.Forall₂ (fun y z => P y ∧ z = g y) ys zs) : (∀ y ∈ ys, P y) ∧ zs = ys.map g := by
  induction h with
  | nil => simp
  | cons h _ ih =>
    refine ⟨List.forall_mem_cons.mpr ⟨h.1, ih.1⟩, ?_⟩
    rw [h.2, ih.2, List.map_cons]

theorem ArgumentValue.Named.standsFor {a : ArgumentValue} (h : a.Named Value.ReadsBack) :
    ∃ x p, a.argument = .ok x ∧ (x.Named Literal.Readable ∧ p = x.reading) ∧
      ∀ q, a.StandsFor q ↔ q = p := by
  obtain ⟨hn, y, hy, hvars⟩ := h
  obtain ⟨x, hx, hr, rfl⟩ := hy.literal_reading hvars
  refine ⟨⟨a.name, x⟩, (a.name, x.reading), ?_, ⟨⟨hn, hr⟩, rfl⟩, ?_⟩
  · rw [ArgumentValue.argument, hx]
    rfl
  · intro q
    constructor
    · intro hq
      exact Prod.ext hq.1 (hq.2.unique hy)
    · rintro rfl
      exact ⟨rfl, hy⟩

/-- Arguments have their documents' arguments and stand for what is read there. -/
theorem argumentsOf_standsFor {as : List ArgumentValue} (h : ∀ a ∈ as, a.Named Value.ReadsBack) :
    ∃ xs, argumentsOf as = .ok xs ∧ (∀ x ∈ xs, x.Named Literal.Readable) ∧
      ∀ ps, List.Forall₂ ArgumentValue.StandsFor as ps ↔ ps = xs.map Argument.reading := by
  obtain ⟨xs, ps, hxs, hps, hiff⟩ := inOrder_standsFor fun a ha => (h a ha).standsFor
  obtain ⟨hnamed, rfl⟩ := forall₂_reading hps
  exact ⟨xs, hxs, hnamed, hiff⟩

theorem DirectiveValue.Named.standsFor {d : DirectiveValue} (h : d.Named Value.ReadsBack) :
    ∃ x p, d.directive = .ok x ∧ (x.Named Literal.Readable ∧ p = x.reading) ∧
      ∀ q, d.StandsFor q ↔ q = p := by
  obtain ⟨xs, hxs, hnamed, hiff⟩ := argumentsOf_standsFor h.2
  refine ⟨⟨d.name, xs⟩, ⟨d.name, xs.map Argument.reading⟩, ?_, ⟨⟨h.1, hnamed⟩, rfl⟩, ?_⟩
  · rw [DirectiveValue.directive, hxs]
    rfl
  · intro q
    obtain ⟨n, ps⟩ := q
    simp only [DirectiveValue.StandsFor, hiff, Applied.mk.injEq]

/-- A field has its document's field and stands for what is read there. -/
theorem FieldSelection.Named.standsFor {f : FieldSelection} (h : f.Named Value.ReadsBack) :
    ∃ as ds, f.head = .ok ⟨f.aliasName, f.name, as, ds⟩ ∧
      FieldHead.Named Literal.Readable ⟨f.aliasName, f.name, as, ds⟩ ∧
      ∀ ps qs, f.StandsFor ps qs ↔
        ps = as.map Argument.reading ∧ qs = ds.map Directive.reading := by
  obtain ⟨as, has, hnamed, hiff⟩ := argumentsOf_standsFor h.arguments
  obtain ⟨ds, qs, hds, hqs, hiff'⟩ := inOrder_standsFor fun d hd => (h.directives d hd).standsFor
  obtain ⟨hnamed', rfl⟩ := forall₂_reading hqs
  refine ⟨as, ds, ?_, ⟨h.aliasName, h.name, hnamed, hnamed'⟩, ?_⟩
  · rw [FieldSelection.head, has, hds]
    rfl
  · intro ps qs
    rw [FieldSelection.StandsFor, hiff, hiff']

/-! ### The content of a builder -/

mutual

/-- No builder inside performs an operation. -/
def Builder.Rooted : Builder → Prop
  | .node _ fields fragments => RootedFields fields ∧ RootedFragments fragments

/-- The same for the builders of fields. -/
def RootedFields : List (FieldSelection × Option Builder) → Prop
  | [] => True
  | (_, none) :: r => RootedFields r
  | (_, some b) :: r => b.head.operation = none ∧ b.Rooted ∧ RootedFields r

/-- The same for fragments. -/
def RootedFragments : List (String × Builder) → Prop
  | [] => True
  | (_, b) :: r => b.head.operation = none ∧ b.Rooted ∧ RootedFragments r

end

theorem BuilderHead.signature_none {h : BuilderHead} (ho : h.operation = none) :
    h.signature = .ok none := by
  rw [BuilderHead.signature, ho]

theorem selectionReadings_append (xs ys : List Selection) :
    selectionReadings (xs ++ ys) = selectionReadings xs ++ selectionReadings ys := by
  induction xs with
  | nil => rfl
  | cons x xs ih =>
    rw [List.cons_append, selectionReadings, ih, selectionReadings, List.cons_append]

theorem isEmpty_selectionReadings (xs : List Selection) :
    (selectionReadings xs).isEmpty = xs.isEmpty := by
  cases xs <;> rfl

theorem legibleSelections_append {xs ys : List Selection} (h : LegibleSelections xs)
    (h' : LegibleSelections ys) : LegibleSelections (xs ++ ys) := by
  induction xs with
  | nil => exact h'
  | cons x xs ih => exact ⟨h.1, ih h.2⟩

theorem selectionReadings_assemble (fields : List (FieldSelection × Option Builder))
    (fragments items : List Selection) :
    selectionReadings (assemble fields fragments items) =
      typenameSelected fields (selectionReadings fragments) ++ selectionReadings items ++
        selectionReadings fragments := by
  have htypename : selectionReadings
      (if needsTypename fragments fields then [.leaf (.plain typenameField)] else []) =
        typenameSelected fields (selectionReadings fragments) := by
    rw [typenameSelected, isEmpty_selectionReadings, needsTypename]
    split_ifs <;> rfl
  rw [assemble, selectionReadings_append, selectionReadings_append, htypename]

theorem legible_assemble (fields : List (FieldSelection × Option Builder))
    {fragments items : List Selection} (hf : LegibleSelections fragments)
    (hi : LegibleSelections items) : LegibleSelections (assemble fields fragments items) := by
  have htypename : (Selection.leaf (.plain typenameField)).Legible :=
    ⟨by simp [FieldHead.plain], rfl, by simp [FieldHead.plain], by simp [FieldHead.plain]⟩
  refine legibleSelections_append (legibleSelections_append ?_ hi) hf
  split_ifs
  · exact ⟨htypename, trivial⟩
  · trivial

theorem assemble_ne_nil (fields : List (FieldSelection × Option Builder))
    {fragments items : List Selection} (h : items ≠ [] ∨ fragments ≠ []) :
    assemble fields fragments items ≠ [] := by
  rw [assemble, ne_eq, List.append_eq_nil_iff, List.append_eq_nil_iff]
  tauto

theorem FieldHead.Named.isBlank {literal : Literal → Prop} {f : FieldHead} (h : f.Named literal) :
    f.isBlank = false := by
  have hne : f.name ≠ "" := by
    intro he
    have := h.name
    rw [he] at this
    cases this
  simp [FieldHead.isBlank, hne]

mutual

/-- A builder whose names are names and inside which nothing performs an operation has a content
that can be read, and it selects what is read. -/
theorem Builder.Named.content_selects : ∀ b : Builder,
    b.Named Value.ReadsBack Variable.ReadsBack → b.Rooted →
    ∀ s, b.head.signature = .ok s → ∃ xs, b.content = .ok (s, xs) ∧ LegibleSelections xs ∧
      (b.hasSelection = true → xs ≠ []) ∧ ∀ ys, Selects b ys ↔ ys = selectionReadings xs
  | .node head fields fragments, h, hr, s, hs => by
    obtain ⟨fs, hfs, hfl, hfe, hfi⟩ := fragmentSelections_selects fragments h.2.2 hr.2
    obtain ⟨xs, hxs, hxl, hxe, hxi⟩ := fieldSelections_selects fields h.2.1 hr.1
    have hs : head.signature = .ok s := hs
    refine ⟨assemble fields fs xs, ?_, legible_assemble fields hfl hxl, ?_, ?_⟩
    · rw [Builder.content, hfs, hxs, hs]
      rfl
    · intro hsel
      rw [Builder.hasSelection, Bool.or_eq_true] at hsel
      exact assemble_ne_nil fields (hsel.imp hxe hfe)
    · intro ys
      simp only [selects_node_iff, hxi, hfi, selectionReadings_assemble]
      constructor
      · rintro ⟨_, _, rfl, rfl, rfl⟩
        rfl
      · rintro rfl
        exact ⟨_, _, rfl, rfl, rfl⟩

theorem fieldSelections_selects : ∀ fields : List (FieldSelection × Option Builder),
    FieldsNamed Value.ReadsBack Variable.ReadsBack fields → RootedFields fields →
    ∃ xs, fieldSelections fields = .ok xs ∧ LegibleSelections xs ∧
      (anyField fields = true → xs ≠ []) ∧ ∀ ys, SelectsFields fields ys ↔ ys = selectionReadings xs
  | [], _, _ => ⟨[], rfl, trivial, by simp [anyField], fun _ => selectsFields_nil_iff⟩
  | (f, none) :: r, h, hr => by
    obtain ⟨as, ds, hhead, hnamed, hiff⟩ := h.1.standsFor
    obtain ⟨xs, hxs, hl, -, hi⟩ := fieldSelections_selects r h.2 hr
    refine ⟨.leaf ⟨f.aliasName, f.name, as, ds⟩ :: xs, ?_, ⟨hnamed, hl⟩, by simp, ?_⟩
    · rw [fieldSelections, hhead, hxs]
      simp only [bind, Except.bind, hnamed.isBlank]
      rfl
    · intro ys
      simp only [selectsFields_leaf_iff, hiff, hi]
      constructor
      · rintro ⟨_, _, _, ⟨rfl, rfl⟩, rfl, rfl⟩
        rfl
      · rintro rfl
        exact ⟨_, _, _, ⟨rfl, rfl⟩, rfl, rfl⟩
  | (f, some b) :: r, h, hr => by
    obtain ⟨xs, hxs, hl, he, hi⟩ := fieldSelections_selects r h.2.2 hr.2.2
    by_cases hsel : b.hasSelection = true
    · obtain ⟨as, ds, hhead, hnamed, hiff⟩ := h.1.standsFor
      obtain ⟨cs, hcs, hcl, hce, hci⟩ := Builder.Named.content_selects b h.2.1 hr.2.1 none
        (BuilderHead.signature_none hr.1)
      refine ⟨.nested ⟨f.aliasName, f.name, as, ds⟩ none cs :: xs, ?_,
        ⟨⟨hnamed, rfl, hce hsel, hcl⟩, hl⟩, by simp, ?_⟩
      · rw [fieldSelections, if_pos hsel, hhead, hcs, hxs]
        rfl
      · intro ys
        simp only [selectsFields_nested_iff hsel, hiff, hci, hi]
        constructor
        · rintro ⟨_, _, _, _, ⟨rfl, rfl⟩, rfl, rfl, rfl⟩
          rfl
        · rintro rfl
          exact ⟨_, _, _, _, ⟨rfl, rfl⟩, rfl, rfl, rfl⟩
    · rw [Bool.not_eq_true] at hsel
      refine ⟨xs, ?_, hl, ?_, ?_⟩
      · rw [fieldSelections, hsel, hxs]
        rfl
      · rw [anyField, hsel, Bool.false_or]
        exact he
      · intro ys
        rw [selectsFields_empty_iff hsel, hi]

theorem fragmentSelections_selects : ∀ fragments : List (String × Builder),
    FragmentsNamed Value.ReadsBack Variable.ReadsBack fragments → RootedFragments fragments →
    ∃ xs, fragmentSelections fragments = .ok xs ∧ LegibleSelections xs ∧
      (anyFragment fragments = true → xs ≠ []) ∧
      ∀ ys, SelectsFragments fragments ys ↔ ys = selectionReadings xs
  | [], _, _ => ⟨[], rfl, trivial, by simp [anyFragment], fun _ => selectsFragments_nil_iff⟩
  | (typeName, b) :: r, h, hr => by
    obtain ⟨xs, hxs, hl, he, hi⟩ := fragmentSelections_selects r h.2.2 hr.2.2
    by_cases hsel : b.hasSelection = true
    · obtain ⟨cs, hcs, hcl, hce, hci⟩ := Builder.Named.content_selects b h.2.1 hr.2.1 none
        (BuilderHead.signature_none hr.1)
      refine ⟨.fragment typeName none cs :: xs, ?_, ⟨⟨h.1, rfl, hce hsel, hcl⟩, hl⟩, by simp, ?_⟩
      · rw [fragmentSelections, if_pos hsel, hcs, hxs]
        rfl
      · intro ys
        simp only [selectsFragments_nested_iff hsel, hci, hi]
        constructor
        · rintro ⟨_, _, rfl, rfl, rfl⟩
          rfl
        · rintro rfl
          exact ⟨_, _, rfl, rfl, rfl⟩
    · rw [Bool.not_eq_true] at hsel
      refine ⟨xs, ?_, hl, ?_, ?_⟩
      · rw [fragmentSelections, hsel, hxs]
        rfl
      · rw [anyFragment, hsel, Bool.false_or]
        exact he
      · intro ys
        rw [selectsFragments_empty_iff hsel, hi]

end

/-! ### The document of a builder -/

theorem Variable.definition_eq (v : Variable) : v.definition =
    if v.hasFallback then (v.value.literal none).map fun x => ⟨v.name, v.typeName, some x⟩
    else .ok ⟨v.name, v.typeName, none⟩ := by
  obtain ⟨n, t, value, k⟩ := v
  cases hl : t.toList.getLast? == some '!' <;> cases value <;>
    simp only [Variable.definition, Variable.hasFallback, hl] <;> rfl

/-- A variable has its document's definition and stands for what is read there. -/
theorem Variable.ReadsBack.standsFor {v : Variable} (hn : isGraphQLName v.name = true)
    (h : v.ReadsBack) :
    ∃ x p, v.definition = .ok x ∧ x.ReadAs p ∧ ∀ q, v.StandsFor q ↔ q = p := by
  obtain ⟨⟨t, hwf, ht⟩, hfallback⟩ := h
  -- The type and the default value are the only ones of the variable.
  have hiff (y : Option Definition.Literal)
      (hy : ∀ z, (if v.hasFallback then ∃ y, z = some y ∧ Denotes none v.value y else z = none) ↔
        z = y) (q : VariablePart) : v.StandsFor q ↔ q = ⟨v.name, t, y, []⟩ := by
    constructor
    · rintro ⟨hname, hwf', ht', hz, hd⟩
      have htype := TypeExpr.eq_of_chars hwf' hwf (ht'.symm.trans ht)
      have hz := (hy _).mp hz
      obtain ⟨n, u, z, ds⟩ := q
      simp only at hname htype hz hd
      rw [hname, htype, hz, hd]
    · rintro rfl
      exact ⟨rfl, hwf, ht, (hy _).mpr rfl, rfl⟩
  rw [Variable.definition_eq]
  by_cases hf : v.hasFallback = true
  · obtain ⟨y, hy, hc⟩ := hfallback hf
    obtain ⟨x, hx, hr, rfl⟩ := hy.literal_reading (by simp [hc])
    refine ⟨⟨v.name, v.typeName, some x⟩, ⟨v.name, t, some x.reading, []⟩, ?_,
      ⟨hn, rfl, hwf, ht, ?_, rfl, rfl⟩, hiff _ ?_⟩
    · rw [if_pos hf, hx]
      rfl
    · rintro _ ⟨rfl⟩
      exact ⟨hr, hc⟩
    · intro z
      rw [if_pos hf]
      constructor
      · rintro ⟨z, rfl, hz⟩
        rw [hz.unique hy]
      · rintro rfl
        exact ⟨_, rfl, hy⟩
  · refine ⟨⟨v.name, v.typeName, none⟩, ⟨v.name, t, none, []⟩, if_neg hf,
      ⟨hn, rfl, hwf, ht, by simp, rfl, rfl⟩, hiff _ ?_⟩
    intro z
    rw [if_neg hf]

/-- An operation has a signature whose variables can be read, and its variables stand for what is read
there. -/
theorem BuilderHead.Named.signature_reads {h : BuilderHead} (hn : h.Named Variable.ReadsBack)
    {o : Operation} (ho : h.operation = some o) :
    ∃ ds ps, h.signature = .ok (some ⟨o.type, o.name, ds⟩) ∧
      List.Forall₂ VariableDefinition.ReadAs ds ps ∧
      ∀ vs, List.Forall₂ Variable.StandsFor h.declared.values vs ↔ vs = ps := by
  obtain ⟨ds, ps, hds, hps, hstands⟩ := inOrder_standsFor fun v hv =>
    (hn.declared v hv).2.standsFor (hn.declared v hv).1
  refine ⟨ds, ps, ?_, hps, hstands⟩
  rw [BuilderHead.signature, ho]
  simp only [hds]
  rfl

/-- The document of a builder that selects something can be read, and it is what the builder asks
for. -/
theorem Builder.Named.document_asksFor {b : Builder}
    (h : b.Named Value.ReadsBack Variable.ReadsBack) (hr : b.Rooted) (hb : b.hasSelection = true) :
    ∃ d e, b.document = .ok d ∧ d.ReadAs e ∧
      (∀ s ∈ d.signature, ∀ n ∈ s.name, isGraphQLName n = true) ∧ d.selections ≠ [] ∧
      LegibleSelections d.selections ∧ ∀ e', b.AsksFor e' ↔ e' = e := by
  have hhead : b.head.Named Variable.ReadsBack := by
    cases b with
    | node head fields fragments => exact h.1
  cases ho : b.head.operation with
  | none =>
    obtain ⟨xs, hxs, hl, hne, hiff⟩ := Builder.Named.content_selects b h hr none
      (BuilderHead.signature_none ho)
    refine ⟨⟨none, xs⟩, .bare (selectionReadings xs), ?_, .bare, by simp, hne hb, hl, ?_⟩
    · rw [Builder.document, hxs]
      rfl
    intro e
    constructor
    · intro he
      cases he with
      | bare _ hs => rw [(hiff _).mp hs]
      | operation ho' => rw [ho] at ho'; cases ho'
    · rintro rfl
      exact .bare ho ((hiff _).mpr rfl)
  | some o =>
    obtain ⟨ds, ps, hsignature, hps, hstands⟩ := hhead.signature_reads ho
    obtain ⟨xs, hxs, hl, hne, hiff⟩ := Builder.Named.content_selects b h hr _ hsignature
    refine ⟨⟨some ⟨o.type, o.name, ds⟩, xs⟩,
      .operation o.type.keyword o.name ps [] (selectionReadings xs), ?_, .operation hps, ?_, hne hb,
      hl, ?_⟩
    · rw [Builder.document, hxs]
      rfl
    · rintro _ ⟨rfl⟩
      exact hhead.operation o ho
    intro e
    constructor
    · intro he
      cases he with
      | bare ho' => rw [ho] at ho'; cases ho'
      | operation ho' hvs hs =>
        rw [ho] at ho'
        cases ho'
        rw [(hstands _).mp hvs, (hiff _).mp hs]
    · rintro rfl
      exact .operation ho ((hstands _).mpr rfl) ((hiff _).mpr rfl)

/-- The text of a builder that selects something is read as what the builder asks for, in every
layout. -/
theorem Builder.Named.build_reads {b : Builder}
    (h : b.Named Value.ReadsBack Variable.ReadsBack) (hr : b.Rooted) (hb : b.hasSelection = true)
    (l : Layout) : ∃ text e, b.build l = .ok text ∧ executable? text = some [e] ∧
      ∀ e', b.AsksFor e' ↔ e' = e := by
  obtain ⟨d, e, hd, hread, hname, hne, hl, hiff⟩ := h.document_asksFor hr hb
  refine ⟨_, e, ?_, executable?_print hread hname hne hl l, hiff⟩
  rw [Builder.build, hd]
  rfl

end Bindery.Query
