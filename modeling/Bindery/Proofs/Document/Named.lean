import Bindery.Proofs.Document.Tokens
import Bindery.Proofs.Number.Shown
import Bindery.Proofs.Result
import Bindery.Query.Builder

/-!
# Builders whose names are names

What a builder is made of, with the condition that everything it writes without quotes is a name and
that its argument values satisfy a further condition. Proved here: the document of such a builder is
one whose names are names and whose literals come from such values.
-/

namespace Bindery.Query

open Bindery.Number Bindery.Text

section Conditions

variable (value : Option String → Value → Prop) (variable' : Variable → Prop)

/-- An argument under a name, with a value that satisfies the condition. -/
def ArgumentValue.Named (a : ArgumentValue) : Prop :=
  isGraphQLName a.name = true ∧ value a.mask a.value

/-- A directive of a name with such arguments. -/
def DirectiveValue.Named (d : DirectiveValue) : Prop :=
  isGraphQLName d.name = true ∧ ∀ a ∈ d.arguments, a.Named value

/-- A field of a name, perhaps under another, with such arguments and directives. -/
structure FieldSelection.Named (f : FieldSelection) : Prop where
  /-- The alias is a name. -/
  aliasName : ∀ a ∈ f.aliasName, isGraphQLName a = true
  /-- The field has a name. -/
  name : isGraphQLName f.name = true
  /-- The arguments have names. -/
  arguments : ∀ a ∈ f.arguments, a.Named value
  /-- The directives have names. -/
  directives : ∀ d ∈ f.directives, d.Named value

/-- An operation of a name, with variables under names that satisfy the condition. -/
structure BuilderHead.Named (h : BuilderHead) : Prop where
  /-- The operation has a name, if it has any. -/
  operation : ∀ o ∈ h.operation, ∀ n ∈ o.name, isGraphQLName n = true
  /-- The variables have names. -/
  declared : ∀ v ∈ h.declared.values, isGraphQLName v.name = true ∧ variable' v

mutual

/-- All names of a builder are names, and its values and variables satisfy the conditions. -/
def Builder.Named : Builder → Prop
  | .node head fields fragments =>
    head.Named variable' ∧ FieldsNamed fields ∧ FragmentsNamed fragments

/-- The same for the fields of a builder. -/
def FieldsNamed : List (FieldSelection × Option Builder) → Prop
  | [] => True
  | (f, none) :: r => f.Named value ∧ FieldsNamed r
  | (f, some b) :: r => f.Named value ∧ b.Named ∧ FieldsNamed r

/-- The same for the fragments of a builder. -/
def FragmentsNamed : List (String × Builder) → Prop
  | [] => True
  | (typeName, b) :: r => isGraphQLName typeName = true ∧ b.Named ∧ FragmentsNamed r

end

end Conditions

/-- The field of a name with nothing else has names. -/
theorem FieldSelection.named_plain {value : Option String → Value → Prop} {name : String}
    (h : isGraphQLName name = true) : (FieldSelection.plain name).Named value :=
  ⟨by simp [FieldSelection.plain], h, List.forall_mem_nil _, List.forall_mem_nil _⟩

section Documents

variable {value : Option String → Value → Prop} {variable' : Variable → Prop}
  {literal : Literal → Prop}

/-- Values and variables that satisfy the conditions are written as literals that satisfy a third
one. -/
structure Writes (value : Option String → Value → Prop) (variable' : Variable → Prop)
    (literal : Literal → Prop) : Prop where
  /-- The literal of a value. -/
  value : ∀ {mask v x}, value mask v → v.literal mask = .ok x → literal x
  /-- The definition of a variable. -/
  definition : ∀ {v x}, isGraphQLName v.name = true → variable' v → v.definition = .ok x →
    x.Named literal

theorem ArgumentValue.Named.argument (w : Writes value variable' literal) {a : ArgumentValue}
    (h : a.Named value) {x : Argument} (hx : a.argument = .ok x) : x.Named literal := by
  obtain ⟨y, hy, rfl⟩ := map_eq_ok.mp hx
  exact ⟨h.1, w.value h.2 hy⟩

theorem DirectiveValue.Named.directive (w : Writes value variable' literal) {d : DirectiveValue}
    (h : d.Named value) {x : Directive} (hx : d.directive = .ok x) : x.Named literal := by
  obtain ⟨as, has, rfl⟩ := map_eq_ok.mp hx
  refine ⟨h.1, forall_of_inOrder has ?_⟩
  intro a ha y hy
  exact (h.2 a ha).argument w hy

theorem FieldSelection.Named.head (w : Writes value variable' literal) {f : FieldSelection}
    (h : f.Named value) {x : FieldHead} (hx : f.head = .ok x) : x.Named literal := by
  simp only [FieldSelection.head, bind_eq_ok, pure_eq_ok] at hx
  obtain ⟨as, has, ds, hds, rfl⟩ := hx
  refine ⟨h.aliasName, h.name, forall_of_inOrder has ?_, forall_of_inOrder hds ?_⟩
  · intro a ha y hy
    exact (h.arguments a ha).argument w hy
  · intro d hd y hy
    exact (h.directives d hd).directive w hy

/-- A signature has the name of the operation and defines its variables. -/
theorem BuilderHead.of_signature {b : BuilderHead} {x : Signature}
    (h : b.signature = .ok (some x)) :
    (∃ o ∈ b.operation, x.name = o.name) ∧
      ∀ y ∈ x.definitions, ∃ v ∈ b.declared.values, v.definition = .ok y := by
  unfold BuilderHead.signature at h
  split at h
  · cases h
  · rename_i o ho
    obtain ⟨vs, hvs, hx⟩ := map_eq_ok.mp h
    cases hx
    exact ⟨⟨o, ho, rfl⟩, forall_of_inOrder hvs fun v hv y hy => ⟨v, hv, hy⟩⟩

theorem BuilderHead.Named.signature (w : Writes value variable' literal) {b : BuilderHead}
    (h : b.Named variable') {s : Option Signature} (hs : b.signature = .ok s) :
    ∀ x ∈ s, x.Named literal := by
  rintro x rfl
  obtain ⟨⟨o, ho, hname⟩, hdefinitions⟩ := BuilderHead.of_signature hs
  refine ⟨hname ▸ h.operation o ho, fun y hy => ?_⟩
  obtain ⟨v, hv, hy⟩ := hdefinitions y hy
  exact w.definition (h.declared v hv).1 (h.declared v hv).2 hy

theorem selectionsNamed_append {xs ys : List Selection} (h : SelectionsNamed literal xs)
    (h' : SelectionsNamed literal ys) : SelectionsNamed literal (xs ++ ys) := by
  induction xs with
  | nil => exact h'
  | cons x xs ih => exact ⟨h.1, ih h.2⟩

theorem assemble_named (fields : List (FieldSelection × Option Builder))
    {fragments items : List Selection} (hf : SelectionsNamed literal fragments)
    (hi : SelectionsNamed literal items) :
    SelectionsNamed literal (assemble fields fragments items) := by
  have htypename : (Selection.leaf (.plain typenameField)).Named literal :=
    ⟨by simp [FieldHead.plain], rfl, List.forall_mem_nil _, List.forall_mem_nil _⟩
  refine selectionsNamed_append (selectionsNamed_append ?_ hi) hf
  split_ifs
  · exact ⟨htypename, trivial⟩
  · trivial

mutual

theorem Builder.Named.content (w : Writes value variable' literal) : ∀ b : Builder,
    b.Named value variable' → ∀ s xs, b.content = .ok (s, xs) →
      (∀ x ∈ s, x.Named literal) ∧ SelectionsNamed literal xs
  | .node head fields fragments, h, s, xs, hx => by
    simp only [Builder.content, bind_eq_ok, pure_eq_ok, Prod.mk.injEq] at hx
    obtain ⟨fs, hfs, items, hitems, s, hs, rfl, rfl⟩ := hx
    have hfragments := fragmentSelections_named w fragments h.2.2 fs hfs
    have hitems := fieldSelections_named w fields h.2.1 items hitems
    exact ⟨h.1.signature w hs, assemble_named fields hfragments hitems⟩

theorem fieldSelections_named (w : Writes value variable' literal) :
    ∀ fields : List (FieldSelection × Option Builder), FieldsNamed value variable' fields →
      ∀ xs, fieldSelections fields = .ok xs → SelectionsNamed literal xs
  | [], _, xs, hx => by
    cases hx
    trivial
  | (f, none) :: r, h, xs, hx => by
    simp only [fieldSelections, bind_eq_ok, pure_eq_ok] at hx
    obtain ⟨head, hhead, rest, hrest, rfl⟩ := hx
    have hr := fieldSelections_named w r h.2 rest hrest
    split_ifs
    · exact hr
    · exact ⟨h.1.head w hhead, hr⟩
  | (f, some b) :: r, h, xs, hx => by
    rw [fieldSelections] at hx
    split_ifs at hx
    · simp only [bind_eq_ok, pure_eq_ok] at hx
      obtain ⟨head, hhead, ⟨s, children⟩, hb, rest, hrest, rfl⟩ := hx
      obtain ⟨hs, hc⟩ := Builder.Named.content w b h.2.1 s children hb
      exact ⟨⟨h.1.head w hhead, hs, hc⟩, fieldSelections_named w r h.2.2 rest hrest⟩
    · exact fieldSelections_named w r h.2.2 xs hx

theorem fragmentSelections_named (w : Writes value variable' literal) :
    ∀ fragments : List (String × Builder), FragmentsNamed value variable' fragments →
      ∀ xs, fragmentSelections fragments = .ok xs → SelectionsNamed literal xs
  | [], _, xs, hx => by
    cases hx
    trivial
  | (typeName, b) :: r, h, xs, hx => by
    rw [fragmentSelections] at hx
    split_ifs at hx
    · simp only [bind_eq_ok, pure_eq_ok] at hx
      obtain ⟨⟨s, children⟩, hb, rest, hrest, rfl⟩ := hx
      obtain ⟨hs, hc⟩ := Builder.Named.content w b h.2.1 s children hb
      exact ⟨⟨h.1, hs, hc⟩, fragmentSelections_named w r h.2.2 rest hrest⟩
    · exact fragmentSelections_named w r h.2.2 xs hx

end

/-- The document of a builder whose names are names is one whose names are names. -/
theorem Builder.Named.document (w : Writes value variable' literal) {b : Builder}
    (h : b.Named value variable') {d : Document}
    (hdoc : b.document = .ok d) : d.Named literal := by
  obtain ⟨⟨s, xs⟩, hx, rfl⟩ := map_eq_ok.mp hdoc
  obtain ⟨hs, hxs⟩ := Builder.Named.content w b h s xs hx
  exact ⟨hs, hxs⟩

end Documents

/-! ### Values whose names are names -/

mutual

/-- All names that a value writes without quotes are names, and its numbers of double precision are
such. -/
def Value.Proper : Value → Prop
  | .float x => x.isFinite = true → x.isDouble = true
  | .member wire _ => isGraphQLName wire.plain = true
  | .parameter ⟨some name, _, _⟩ _ => acceptsName name = true
  | .parameter ⟨none, _, _⟩ v => v.Proper
  | .list items => ProperItems items
  | .tuple items => ProperItems items
  | .mapping entries => ProperEntries entries
  | .record properties => ProperProperties properties
  | .input cls assigned =>
    (∀ p ∈ cls.properties, isGraphQLName p.graphqlName = true) ∧ ProperAssigned assigned
  | _ => True

/-- The items of a sequence write only names without quotes. -/
def ProperItems : List Value → Prop
  | [] => True
  | v :: r => v.Proper ∧ ProperItems r

/-- The entries of a mapping write only names without quotes. -/
def ProperEntries : List (Value × Value) → Prop
  | [] => True
  | (k, v) :: r => isGraphQLName k.plain = true ∧ v.Proper ∧ ProperEntries r

/-- Named values write only names without quotes. -/
def ProperProperties : List (String × Value × Option String) → Prop
  | [] => True
  | (k, v, _) :: r => isGraphQLName k = true ∧ v.Proper ∧ ProperProperties r

/-- Assigned values write only names without quotes. -/
def ProperAssigned : List (String × Value) → Prop
  | [] => True
  | (_, v) :: r => v.Proper ∧ ProperAssigned r

end

/-- The numbers of the literal are numbers or words. -/
def Literal.Spelt : Literal → Prop :=
  Literal.Bare Definition.Spelt fun _ => True

/-- The same for the items of a list. -/
def SpeltItems : List Literal → Prop :=
  BareItems Definition.Spelt fun _ => True

/-- The same for the fields of an object. -/
def SpeltFields : List (String × Literal) → Prop :=
  BareFields Definition.Spelt fun _ => True

theorem Literal.Spelt.separable {x : Literal} (h : x.Spelt) : x.Separable :=
  Literal.Bare.weaken (fun _ hn => hn.scans) (fun _ h => h) x h

/-- The fields that the properties of a class send, where those of each assigned value are spelt. -/
theorem spelt_properties {assigned : List (String × Value)}
    (h : ∀ attr mask x, literalAt attr mask assigned = some (.ok x) → x.Spelt)
    {ps : List InputProperty} (hp : ∀ p ∈ ps, isGraphQLName p.graphqlName = true)
    {fs : List (String × Literal)}
    (hf : inOrder (ps.filterMap fun (p : InputProperty) =>
      (literalAt p.attr p.mask assigned).map (named p.graphqlName)) = .ok fs) :
    SpeltFields fs := by
  induction ps generalizing fs with
  | nil =>
    cases hf
    trivial
  | cons p ps ih =>
    rw [List.forall_mem_cons] at hp
    rw [List.filterMap_cons] at hf
    cases ha : literalAt p.attr p.mask assigned with
    | none =>
      rw [ha] at hf
      exact ih hp.2 hf
    | some y =>
      rw [ha, Option.map_some] at hf
      obtain ⟨f, r, hy, hr, rfl⟩ := inOrder_cons_eq_ok.mp hf
      obtain ⟨x, rfl, rfl⟩ := map_eq_ok.mp hy
      exact ⟨hp.1, h _ _ _ ha, ih hp.2 hr⟩

mutual

/-- The numbers in the literal of a proper value are spelt. -/
theorem Value.Proper.spelt : ∀ (v : Value) (mask : Option String) (x : Literal), v.Proper →
    v.literal mask = .ok x → x.Spelt
  | .null, _, x, _, hx => by
    cases hx
    trivial
  | .bool b, _, x, _, hx => by
    cases hx
    trivial
  | .int n, _, x, _, hx => by
    cases hx
    exact Or.inl (numeral_integer n)
  | .float y, _, x, h, hx => by
    rw [Value.literal] at hx
    split_ifs at hx with hf
    cases hx
    exact Or.inl (numeral_double (h hf))
  | .decimal d, _, x, _, hx => by
    cases hx
    exact spelt_decimal d
  | .text s, _, x, _, hx => by
    cases hx
    trivial
  | .uuid s, _, x, _, hx => by
    cases hx
    trivial
  | .moment m, _, x, _, hx => by
    cases hx
    trivial
  | .member wire label, _, x, h, hx => by
    cases hx
    exact ⟨h, trivial⟩
  | .parameter ⟨some name, _, _⟩ _, _, x, h, hx => by
    cases hx
    exact h
  | .parameter ⟨none, _, _⟩ v, mask, x, h, hx => Value.Proper.spelt v mask x h hx
  | .list items, mask, x, h, hx => by
    obtain ⟨xs, hxs, rfl⟩ := map_eq_ok.mp hx
    exact spelt_items items mask xs h hxs
  | .tuple items, mask, x, h, hx => by
    obtain ⟨xs, hxs, rfl⟩ := map_eq_ok.mp hx
    exact spelt_items items mask xs h hxs
  | .mapping entries, _, x, h, hx => by
    obtain ⟨fs, hfs, rfl⟩ := map_eq_ok.mp hx
    exact spelt_entries entries fs h hfs
  | .record properties, _, x, h, hx => by
    obtain ⟨fs, hfs, rfl⟩ := map_eq_ok.mp hx
    exact spelt_record properties fs h hfs
  | .input cls assigned, _, x, h, hx => by
    obtain ⟨fs, hfs, rfl⟩ := map_eq_ok.mp hx
    exact spelt_properties (spelt_assigned assigned h.2) h.1 hfs
  | .bytes bs, _, x, _, hx => by
    cases hx
    trivial
  | .shared id, _, x, _, hx => by cases hx

theorem spelt_items : ∀ (vs : List Value) (mask : Option String) (xs : List Literal),
    ProperItems vs → literalItems mask vs = .ok xs →
      SpeltItems xs
  | [], _, xs, _, hx => by
    cases hx
    trivial
  | v :: r, mask, xs, h, hx => by
    simp only [literalItems, bind_eq_ok, Except.ok.injEq] at hx
    obtain ⟨y, hy, ys, hys, rfl⟩ := hx
    exact ⟨Value.Proper.spelt v mask y h.1 hy, spelt_items r mask ys h.2 hys⟩

theorem spelt_entries : ∀ (es : List (Value × Value)) (fs : List (String × Literal)),
    ProperEntries es → literalEntries es = .ok fs → SpeltFields fs
  | [], fs, _, hx => by
    cases hx
    trivial
  | (k, v) :: r, fs, h, hx => by
    rw [literalEntries] at hx
    split_ifs at hx
    simp only [bind_eq_ok, Except.ok.injEq] at hx
    obtain ⟨y, hy, ys, hys, rfl⟩ := hx
    exact ⟨h.1, Value.Proper.spelt v none y h.2.1 hy, spelt_entries r ys h.2.2 hys⟩

theorem spelt_record : ∀ (ps : List (String × Value × Option String))
    (fs : List (String × Literal)), ProperProperties ps → literalProperties ps = .ok fs →
      SpeltFields fs
  | [], fs, _, hx => by
    cases hx
    trivial
  | (k, v, mask) :: r, fs, h, hx => by
    simp only [literalProperties, bind_eq_ok, Except.ok.injEq] at hx
    obtain ⟨y, hy, ys, hys, rfl⟩ := hx
    exact ⟨h.1, Value.Proper.spelt v mask y h.2.1 hy, spelt_record r ys h.2.2 hys⟩

theorem spelt_assigned : ∀ assigned : List (String × Value), ProperAssigned assigned →
    ∀ (attr : String) (mask : Option String) (x : Literal),
      literalAt attr mask assigned = some (.ok x) → x.Spelt
  | [], _, _, _, _, hx => by cases hx
  | (k, v) :: r, h, attr, mask, x, hx => by
    rw [literalAt] at hx
    split_ifs at hx
    · exact Value.Proper.spelt v mask x h.1 (Option.some.inj hx)
    · exact spelt_assigned r h.2 attr mask x hx

end

/-- The literal of a proper value can be told from what stands around it. -/
theorem Value.Proper.literal {v : Value} (h : v.Proper) {mask : Option String} {x : Literal}
    (hx : v.literal mask = .ok x) : x.Separable :=
  (Value.Proper.spelt v mask x h hx).separable

end Bindery.Query
