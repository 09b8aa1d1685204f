import Bindery.Proofs.Document.Aliases
import Bindery.Proofs.Selection.Expansion

/-!
# What of a builder is rendered

The selection set of a builder holds the fields and the fragments that select something, and the name
of the type where fragments are rendered. The signature of its operation stands in front of it. What
selects nothing is left out before any of its values is written, so a value that cannot be written
matters only where it is rendered.

## What is proved

* `Builder.content_eq_ok` — the content of a builder is its selection set behind its signature.
* `Builder.set_within` — each selection set inside the one of a builder is the selection set of a
  builder inside it that selects something.
* `Builder.exists_selections_iff` — a builder has a selection set exactly if all values that are
  rendered can be written.
* `Builder.build_eq_ok` — the text of a builder is that of the block with the texts of its selections,
  behind its signature.
* `hasSelection_iff_rendered` — a builder says that it selects something exactly where selections are
  rendered for it or a value among them cannot be written, and inside what it renders no selection
  set is empty.
-/

namespace Bindery.Query

/-- The selections in the selection set of a builder. -/
def Builder.selections (b : Builder) : Except Error (List Selection) := do
  let fragments ← fragmentSelections b.fragments
  let items ← fieldSelections b.fields
  return assemble b.fields fragments items

theorem Builder.selections_eq_ok {b : Builder} {xs : List Selection} :
    b.selections = .ok xs ↔ ∃ fs, fragmentSelections b.fragments = .ok fs ∧
      ∃ items, fieldSelections b.fields = .ok items ∧ assemble b.fields fs items = xs := by
  simp only [Builder.selections, bind_eq_ok, pure_eq_ok]

theorem Builder.content_eq_ok {b : Builder} {s : Option Signature} {xs : List Selection} :
    b.content = .ok (s, xs) ↔ b.selections = .ok xs ∧ b.head.signature = .ok s := by
  obtain ⟨head, fields, fragments⟩ := b
  simp only [Builder.content, Builder.selections_eq_ok, bind_eq_ok, pure_eq_ok, Prod.mk.injEq]
  constructor
  · rintro ⟨fs, hfs, items, hitems, s, hs, rfl, rfl⟩
    exact ⟨⟨fs, hfs, items, hitems, rfl⟩, hs⟩
  · rintro ⟨⟨fs, hfs, items, hitems, rfl⟩, hs⟩
    exact ⟨fs, hfs, items, hitems, s, hs, rfl, rfl⟩

theorem FieldSelection.head_eq_ok {f : FieldSelection} {x : FieldHead} (h : f.head = .ok x) :
    x.aliasName = f.aliasName ∧ x.name = f.name := by
  simp only [FieldSelection.head, bind_eq_ok, pure_eq_ok] at h
  obtain ⟨as, -, ds, -, rfl⟩ := h
  exact ⟨rfl, rfl⟩

/-! ### The fields of the selection set -/

theorem fieldHeads_append (xs ys : List Selection) :
    fieldHeads (xs ++ ys) = fieldHeads xs ++ fieldHeads ys :=
  List.filterMap_append

/-- The fields that are written are among those of the builder, in the same order. -/
theorem labels_sublist {fields : List (FieldSelection × Option Builder)} {xs : List Selection}
    (h : fieldSelections fields = .ok xs) :
    ((fieldHeads xs).map fun f => (f.aliasName, f.name)).Sublist
      (fields.map fun f => (f.1.aliasName, f.1.name)) := by
  induction fields generalizing xs with
  | nil =>
    cases h
    exact List.Sublist.refl _
  | cons f r ih =>
    obtain ⟨f, _ | b⟩ := f
    · simp only [fieldSelections, bind_eq_ok, pure_eq_ok] at h
      obtain ⟨head, hhead, rest, hrest, rfl⟩ := h
      obtain ⟨ha, hn⟩ := FieldSelection.head_eq_ok hhead
      split_ifs
      · exact (ih hrest).cons _
      · simpa [fieldHeads, Selection.head?, ha, hn] using ih hrest
    · rw [fieldSelections] at h
      split_ifs at h
      · simp only [bind_eq_ok, pure_eq_ok] at h
        obtain ⟨head, hhead, _, -, rest, hrest, rfl⟩ := h
        obtain ⟨ha, hn⟩ := FieldSelection.head_eq_ok hhead
        simpa [fieldHeads, Selection.head?, ha, hn] using ih hrest
      · exact (ih h).cons _

theorem fieldHeads_fragmentSelections {fragments : List (String × Builder)} {xs : List Selection}
    (h : fragmentSelections fragments = .ok xs) : fieldHeads xs = [] := by
  induction fragments generalizing xs with
  | nil =>
    cases h
    rfl
  | cons f r ih =>
    rw [fragmentSelections] at h
    split_ifs at h
    · simp only [bind_eq_ok, pure_eq_ok] at h
      obtain ⟨_, -, rest, hrest, rfl⟩ := h
      rw [fieldHeads, List.filterMap_cons]
      exact ih hrest
    · exact ih h

/-- The fields of a selection set are those of the builder, behind the name of the type where it is
asked for. -/
theorem fieldHeads_assemble {fields : List (FieldSelection × Option Builder)}
    {fragments : List (String × Builder)} {fs : List Selection}
    (hfs : fragmentSelections fragments = .ok fs) (items : List Selection) :
    fieldHeads (assemble fields fs items) =
      (if needsTypename fs fields then [.plain typenameField] else []) ++ fieldHeads items := by
  rw [assemble, fieldHeads_append, fieldHeads_append, fieldHeads_fragmentSelections hfs,
    List.append_nil]
  split_ifs <;> rfl

/-! ### The selection sets inside -/

theorem setsInside_append (xs ys : List Selection) :
    setsInside (xs ++ ys) = setsInside xs ++ setsInside ys := by
  induction xs with
  | nil => rfl
  | cons x xs ih => rw [List.cons_append, setsInside, setsInside, ih, List.append_assoc]

/-- The selections are those of a builder that selects something, in one of the given builders. -/
def SetOf (cs : List Builder) (ys : List Selection) : Prop :=
  ∃ c ∈ cs, ∃ d, Within c d ∧ d.hasSelection = true ∧ d.selections = .ok ys

theorem SetOf.mono {cs ds : List Builder} {ys : List Selection} (h : SetOf cs ys) (hs : cs ⊆ ds) :
    SetOf ds ys := by
  obtain ⟨c, hc, rest⟩ := h
  exact ⟨c, hs hc, rest⟩

/-- The selection set of a builder that selects something, and those inside it. -/
theorem setOf_cons {b : Builder} {xs : List Selection} (hsel : b.hasSelection = true)
    (hb : b.selections = .ok xs) (hin : ∀ ys ∈ setsInside xs, SetOf b.children ys)
    (cs : List Builder) : ∀ ys ∈ xs :: setsInside xs, SetOf (b :: cs) ys := by
  rw [List.forall_mem_cons]
  refine ⟨⟨b, List.mem_cons_self, b, .self b, hsel, hb⟩, fun ys hys => ?_⟩
  obtain ⟨c, hc, d, hd, hset⟩ := hin ys hys
  exact ⟨b, List.mem_cons_self, d, .child hc hd, hset⟩

mutual

/-- The selection sets inside the one of a builder are those of the builders inside it. -/
theorem Builder.sets_within : ∀ (b : Builder) (xs : List Selection), b.selections = .ok xs →
    ∀ ys ∈ setsInside xs, SetOf b.children ys
  | .node head fields fragments, xs, h => by
    obtain ⟨fs, hfs, items, hitems, rfl⟩ := Builder.selections_eq_ok.mp h
    intro ys hys
    rw [assemble, setsInside_append, setsInside_append, List.mem_append, List.mem_append] at hys
    rcases hys with (hys | hys) | hys
    · -- The name of the type is asked for without a selection set.
      split_ifs at hys <;> cases hys
    · exact (sets_withinFields fields items hitems ys hys).mono (List.subset_append_left _ _)
    · exact (sets_withinFragments fragments fs hfs ys hys).mono (List.subset_append_right _ _)

theorem sets_withinFields : ∀ (fields : List (FieldSelection × Option Builder))
    (xs : List Selection), fieldSelections fields = .ok xs →
    ∀ ys ∈ setsInside xs, SetOf (fields.filterMap Prod.snd) ys
  | [], xs, h => by
    cases h
    nofun
  | (f, none) :: r, xs, h => by
    simp only [fieldSelections, bind_eq_ok, pure_eq_ok] at h
    obtain ⟨head, -, rest, hrest, rfl⟩ := h
    have ih := sets_withinFields r rest hrest
    split_ifs
    · exact ih
    · exact ih
  | (f, some b) :: r, xs, h => by
    rw [fieldSelections] at h
    split_ifs at h with hsel
    · simp only [bind_eq_ok, pure_eq_ok] at h
      obtain ⟨head, -, ⟨s, children⟩, hb, rest, hrest, rfl⟩ := h
      have hb := (Builder.content_eq_ok.mp hb).1
      have hin := setOf_cons hsel hb (Builder.sets_within b children hb)
      have ih := sets_withinFields r rest hrest
      rw [setsInside, Selection.sets, List.forall_mem_append]
      exact ⟨hin _, fun ys hys => (ih ys hys).mono (List.subset_cons_self _ _)⟩
    · intro ys hys
      exact (sets_withinFields r xs h ys hys).mono (List.subset_cons_self _ _)

theorem sets_withinFragments : ∀ (fragments : List (String × Builder)) (xs : List Selection),
    fragmentSelections fragments = .ok xs →
    ∀ ys ∈ setsInside xs, SetOf (fragments.map Prod.snd) ys
  | [], xs, h => by
    cases h
    nofun
  | (t, b) :: r, xs, h => by
    rw [fragmentSelections] at h
    split_ifs at h with hsel
    · simp only [bind_eq_ok, pure_eq_ok] at h
      obtain ⟨⟨s, children⟩, hb, rest, hrest, rfl⟩ := h
      have hb := (Builder.content_eq_ok.mp hb).1
      have hin := setOf_cons hsel hb (Builder.sets_within b children hb)
      have ih := sets_withinFragments r rest hrest
      rw [setsInside, Selection.sets, List.forall_mem_append]
      exact ⟨hin _, fun ys hys => (ih ys hys).mono (List.subset_cons_self _ _)⟩
    · intro ys hys
      exact (sets_withinFragments r xs h ys hys).mono (List.subset_cons_self _ _)

end

/-- Each selection set inside the one of a builder is that of a builder inside it, and that builder
selects something. -/
theorem Builder.set_within {b : Builder} {xs : List Selection} (h : b.selections = .ok xs)
    {ys : List Selection} (hys : ys ∈ setsInside xs) :
    ∃ c, Within b c ∧ c.hasSelection = true ∧ c.selections = .ok ys := by
  obtain ⟨c, hc, d, hd, hset⟩ := Builder.sets_within b xs h ys hys
  exact ⟨d, .child hc hd, hset⟩

/-! ### What can be written -/

/-- The value can be written, its moments through the mask. -/
def Value.Encodable (mask : Option String) (v : Value) : Prop :=
  ∃ x, v.literal mask = .ok x

/-- The values of the field can be written: those of its arguments and those of its directives. -/
structure FieldSelection.Encodable (f : FieldSelection) : Prop where
  /-- The arguments. -/
  arguments : ∀ a ∈ f.arguments, a.value.Encodable a.mask
  /-- The directives. -/
  directives : ∀ d ∈ f.directives, ∀ a ∈ d.arguments, a.value.Encodable a.mask

/-- The default values of the variables can be written, where there is an operation. -/
def BuilderHead.Encodable (h : BuilderHead) : Prop :=
  h.operation.isSome = true →
    ∀ v ∈ h.declared.values, v.hasFallback = true → v.value.Encodable none

mutual

/-- Everything can be written that is rendered in the selection set of the builder. -/
def Builder.Encodable : Builder → Prop
  | .node _ fields fragments => FieldsEncodable fields ∧ FragmentsEncodable fragments

/-- The same for fields; one whose builder selects nothing is not rendered. -/
def FieldsEncodable : List (FieldSelection × Option Builder) → Prop
  | [] => True
  | (f, none) :: r => f.Encodable ∧ FieldsEncodable r
  | (f, some b) :: r =>
    (b.hasSelection = true → f.Encodable ∧ b.Encodable ∧ b.head.Encodable) ∧ FieldsEncodable r

/-- The same for fragments. -/
def FragmentsEncodable : List (String × Builder) → Prop
  | [] => True
  | (_, b) :: r => (b.hasSelection = true → b.Encodable ∧ b.head.Encodable) ∧ FragmentsEncodable r

end

theorem exists_argumentsOf_iff {as : List ArgumentValue} :
    (∃ xs, argumentsOf as = .ok xs) ↔ ∀ a ∈ as, a.value.Encodable a.mask := by
  rw [argumentsOf, exists_inOrder_iff]
  exact forall₂_congr fun a _ => exists_map_iff

theorem FieldSelection.exists_head_iff {f : FieldSelection} :
    (∃ x, f.head = .ok x) ↔ f.Encodable := by
  have hds : (∃ ds, inOrder (f.directives.map DirectiveValue.directive) = .ok ds) ↔
      ∀ d ∈ f.directives, ∀ a ∈ d.arguments, a.value.Encodable a.mask := by
    rw [exists_inOrder_iff]
    exact forall₂_congr fun d _ => exists_map_iff.trans exists_argumentsOf_iff
  simp only [FieldSelection.head, bind_eq_ok, pure_eq_ok]
  constructor
  · rintro ⟨_, as, has, ds, hd, -⟩
    exact ⟨exists_argumentsOf_iff.mp ⟨as, has⟩, hds.mp ⟨ds, hd⟩⟩
  · rintro ⟨ha, hd⟩
    obtain ⟨as, has⟩ := exists_argumentsOf_iff.mpr ha
    obtain ⟨ds, hd⟩ := hds.mpr hd
    exact ⟨_, as, has, ds, hd, rfl⟩

theorem Variable.exists_definition_iff {v : Variable} :
    (∃ x, v.definition = .ok x) ↔ (v.hasFallback = true → v.value.Encodable none) := by
  rw [Variable.definition_eq]
  split_ifs with h
  · rw [exists_map_iff]
    exact ⟨fun hx _ => hx, fun hx => hx h⟩
  · simp [h]

theorem BuilderHead.exists_signature_iff {h : BuilderHead} :
    (∃ s, h.signature = .ok s) ↔ h.Encodable := by
  rw [BuilderHead.signature, BuilderHead.Encodable]
  cases h.operation with
  | none => simp
  | some o =>
    rw [exists_map_iff, exists_inOrder_iff]
    simp [Variable.exists_definition_iff]

theorem Builder.exists_content_iff {b : Builder} :
    (∃ c, b.content = .ok c) ↔ (∃ xs, b.selections = .ok xs) ∧ ∃ s, b.head.signature = .ok s := by
  constructor
  · rintro ⟨⟨s, xs⟩, h⟩
    exact ⟨⟨xs, (content_eq_ok.mp h).1⟩, ⟨s, (content_eq_ok.mp h).2⟩⟩
  · rintro ⟨⟨xs, hxs⟩, ⟨s, hs⟩⟩
    exact ⟨(s, xs), content_eq_ok.mpr ⟨hxs, hs⟩⟩

mutual

/-- A builder has a selection set exactly if everything can be written that is rendered in it. -/
theorem Builder.exists_selections_iff : ∀ b : Builder,
    (∃ xs, b.selections = .ok xs) ↔ b.Encodable
  | .node head fields fragments => by
    rw [Builder.Encodable, ← exists_fieldSelections_iff fields,
      ← exists_fragmentSelections_iff fragments]
    simp only [Builder.selections_eq_ok]
    constructor
    · rintro ⟨_, fs, hfs, items, hitems, -⟩
      exact ⟨⟨items, hitems⟩, ⟨fs, hfs⟩⟩
    · rintro ⟨⟨items, hitems⟩, ⟨fs, hfs⟩⟩
      exact ⟨_, fs, hfs, items, hitems, rfl⟩

theorem exists_fieldSelections_iff : ∀ fields : List (FieldSelection × Option Builder),
    (∃ xs, fieldSelections fields = .ok xs) ↔ FieldsEncodable fields
  | [] => by simp [fieldSelections, FieldsEncodable]
  | (f, none) :: r => by
    rw [FieldsEncodable, ← FieldSelection.exists_head_iff, ← exists_fieldSelections_iff r]
    simp only [fieldSelections, bind_eq_ok, pure_eq_ok]
    constructor
    · rintro ⟨_, x, hx, xs, hxs, -⟩
      exact ⟨⟨x, hx⟩, ⟨xs, hxs⟩⟩
    · rintro ⟨⟨x, hx⟩, ⟨xs, hxs⟩⟩
      exact ⟨_, x, hx, xs, hxs, rfl⟩
  | (f, some b) :: r => by
    rw [FieldsEncodable, ← FieldSelection.exists_head_iff, ← BuilderHead.exists_signature_iff,
      ← Builder.exists_selections_iff b, ← Builder.exists_content_iff,
      ← exists_fieldSelections_iff r, fieldSelections]
    split_ifs with hsel
    · simp only [hsel, true_imp_iff, bind_eq_ok, pure_eq_ok]
      constructor
      · rintro ⟨_, x, hx, c, hc, xs, hxs, -⟩
        exact ⟨⟨⟨x, hx⟩, ⟨c, hc⟩⟩, ⟨xs, hxs⟩⟩
      · rintro ⟨⟨⟨x, hx⟩, ⟨c, hc⟩⟩, ⟨xs, hxs⟩⟩
        exact ⟨_, x, hx, c, hc, xs, hxs, rfl⟩
    · simp [hsel]

theorem exists_fragmentSelections_iff : ∀ fragments : List (String × Builder),
    (∃ xs, fragmentSelections fragments = .ok xs) ↔ FragmentsEncodable fragments
  | [] => by simp [fragmentSelections, FragmentsEncodable]
  | (t, b) :: r => by
    rw [FragmentsEncodable, ← BuilderHead.exists_signature_iff,
      ← Builder.exists_selections_iff b, ← Builder.exists_content_iff,
      ← exists_fragmentSelections_iff r, fragmentSelections]
    split_ifs with hsel
    · simp only [hsel, true_imp_iff, bind_eq_ok, pure_eq_ok]
      constructor
      · rintro ⟨_, c, hc, xs, hxs, -⟩
        exact ⟨⟨c, hc⟩, ⟨xs, hxs⟩⟩
      · rintro ⟨⟨c, hc⟩, ⟨xs, hxs⟩⟩
        exact ⟨_, c, hc, xs, hxs, rfl⟩
    · simp [hsel]

end

/-! ### Nothing to render -/

theorem assemble_eq_nil_iff {fields : List (FieldSelection × Option Builder)}
    {fragments items : List Selection} :
    assemble fields fragments items = [] ↔ items = [] ∧ fragments = [] := by
  constructor
  · intro h
    by_contra hne
    exact assemble_ne_nil fields (not_and_or.mp hne) h
  · rintro ⟨rfl, rfl⟩
    rfl

/-- Every field in the builder and in those inside it has a name. -/
def Builder.Titled (b : Builder) : Prop :=
  ∀ c, Within b c → ∀ f ∈ c.fields, f.1.name ≠ ""

theorem titled_iff {b : Builder} :
    b.Titled ↔ (∀ f ∈ b.fields, f.1.name ≠ "") ∧ ∀ c ∈ b.children, c.Titled :=
  forall_within_iff

/-- Fields with names have no selections exactly if none of them selects anything. -/
theorem fieldSelections_nil_iff {fields : List (FieldSelection × Option Builder)}
    (hn : ∀ f ∈ fields, f.1.name ≠ "") :
    fieldSelections fields = .ok [] ↔ anyField fields = false := by
  induction fields with
  | nil => simp [fieldSelections, anyField]
  | cons f r ih =>
    rw [List.forall_mem_cons] at hn
    obtain ⟨f, _ | b⟩ := f
    · simp only [fieldSelections, anyField, bind_eq_ok, pure_eq_ok, Bool.true_eq_false, iff_false]
      -- A field with a name has a text, so it is not left out.
      rintro ⟨head, hhead, rest, -, hnil⟩
      have hname : head.name ≠ "" := by
        rw [(FieldSelection.head_eq_ok hhead).2]
        exact hn.1
      simp [FieldHead.isBlank, hname] at hnil
    · rw [fieldSelections, anyField]
      split_ifs with hsel
      · simp only [hsel, Bool.true_or, Bool.true_eq_false, iff_false, bind_eq_ok, pure_eq_ok]
        rintro ⟨_, -, _, -, _, -, hnil⟩
        cases hnil
      · simp [hsel, ih hn.2]

/-- Fragments have no selections exactly if none of them selects anything. -/
theorem fragmentSelections_nil_iff {fragments : List (String × Builder)} :
    fragmentSelections fragments = .ok [] ↔ anyFragment fragments = false := by
  induction fragments with
  | nil => simp [fragmentSelections, anyFragment]
  | cons f r ih =>
    rw [fragmentSelections, anyFragment]
    split_ifs with hsel
    · simp only [hsel, Bool.true_or, Bool.true_eq_false, iff_false, bind_eq_ok, pure_eq_ok]
      rintro ⟨_, -, _, -, hnil⟩
      cases hnil
    · simp [hsel, ih]

/-- A selection set is empty exactly if the builder selects nothing. -/
theorem Builder.selections_nil_iff {b : Builder} (hn : ∀ f ∈ b.fields, f.1.name ≠ "") :
    b.selections = .ok [] ↔ b.hasSelection = false := by
  have hsel : b.hasSelection = false ↔
      fieldSelections b.fields = .ok [] ∧ fragmentSelections b.fragments = .ok [] := by
    rw [fieldSelections_nil_iff hn, fragmentSelections_nil_iff]
    cases b
    rw [Builder.hasSelection, Bool.or_eq_false_iff]
    rfl
  simp only [Builder.selections_eq_ok, assemble_eq_nil_iff, hsel]
  constructor
  · rintro ⟨_, hfs, _, hitems, rfl, rfl⟩
    exact ⟨hitems, hfs⟩
  · rintro ⟨hitems, hfs⟩
    exact ⟨_, hfs, _, hitems, rfl, rfl⟩

/-- The fields in the selection set of such a builder have names. -/
theorem name_ne_of_mem_fieldHeads {b : Builder} (hn : ∀ f ∈ b.fields, f.1.name ≠ "")
    {xs : List Selection} (h : b.selections = .ok xs) : ∀ f ∈ fieldHeads xs, f.name ≠ "" := by
  obtain ⟨fs, hfs, items, hitems, rfl⟩ := Builder.selections_eq_ok.mp h
  intro f hf
  rw [fieldHeads_assemble hfs, List.mem_append] at hf
  rcases hf with hf | hf
  · split_ifs at hf
    · rw [List.mem_singleton.mp hf]
      decide
    · cases hf
  · obtain ⟨g, hg, heq⟩ := List.mem_map.mp ((labels_sublist hitems).subset (List.mem_map_of_mem hf))
    have hname : g.1.name = f.name := congrArg Prod.snd heq
    rw [← hname]
    exact hn g hg

/-! ### Texts of selections -/

section Text

variable (l : Layout) (level : Int)

theorem FieldHead.print_ne_nil {f : FieldHead} (h : f.name ≠ "") : f.print l level ≠ [] := by
  have hname : f.name.toList ≠ [] := by
    rwa [ne_eq, String.toList_eq_nil_iff]
  simp [FieldHead.print, hname]

/-- A selection has a text where its field has a name. -/
theorem Selection.print_ne_nil : ∀ x : Selection, (∀ f ∈ x.head?, f.name ≠ "") →
    x.print l level ≠ []
  | .leaf head, h => head.print_ne_nil l level (h head rfl)
  | .nested head s children, h => by
    rw [Selection.print_nested, ne_eq, List.append_eq_nil_iff, List.append_eq_nil_iff]
    exact fun hnil => head.print_ne_nil l level (h head rfl) hnil.1.1
  | .fragment typeName s children, _ => by simp [Selection.print_fragment]

theorem printSelections_eq_nil_iff {xs : List Selection} :
    printSelections l level xs = [] ↔ xs = [] := by
  cases xs <;> simp [printSelections]

theorem separated_ne_nil {sep p : List Char} {ps : List (List Char)} (hp : p ≠ []) :
    separated sep (p :: ps) ≠ [] := by
  cases ps <;> simp [separated, hp]

/-- Nothing stands between the brackets of a selection set exactly if it is empty. -/
theorem printBlock_eq_brackets_iff {xs : List Selection}
    (hn : ∀ f ∈ fieldHeads xs, f.name ≠ "") :
    printBlock l level (printSelections l level xs) = ['{', '}'] ↔ xs = [] := by
  cases xs with
  | nil => cases hi : l.indented <;> simp [printBlock, printSelections, separated, hi]
  | cons x r =>
    have hx : x.print l level ≠ [] := by
      refine x.print_ne_nil l level fun f hf => hn f ?_
      exact List.mem_filterMap.mpr ⟨x, List.mem_cons_self, hf⟩
    cases hi : l.indented
    · have hitems : separated [','] (x.print l level :: printSelections l level r) ≠ [] :=
        separated_ne_nil hx
      simp [printBlock, printSelections, hi, hitems]
    · simp [printBlock, printSelections, hi]

/-- The texts of the selections of a builder, on lines of the level. -/
def Builder.items (b : Builder) : Except Error (List (List Char)) :=
  b.selections.map (printSelections l level)

theorem Builder.items_eq_nil_iff {b : Builder} :
    b.items l level = .ok [] ↔ b.selections = .ok [] := by
  simp only [Builder.items, map_eq_ok, printSelections_eq_nil_iff, exists_eq_right]

/-- The document of a builder is the selection set with these texts, behind the signature of its
operation. -/
theorem Builder.build_eq_ok {b : Builder} {text : String} :
    b.build l = .ok text ↔ ∃ items, b.items l 1 = .ok items ∧ ∃ s, b.head.signature = .ok s ∧
      text = String.ofList (printSigned l 1 s items) := by
  simp only [Builder.build, Builder.document, Builder.items, map_eq_ok, Document.print]
  constructor
  · rintro ⟨_, ⟨⟨s, xs⟩, h, rfl⟩, rfl⟩
    obtain ⟨hxs, hs⟩ := content_eq_ok.mp h
    exact ⟨_, ⟨xs, hxs, rfl⟩, s, hs, rfl⟩
  · rintro ⟨_, ⟨xs, hxs, rfl⟩, s, hs, rfl⟩
    exact ⟨_, ⟨(s, xs), content_eq_ok.mpr ⟨hxs, hs⟩, rfl⟩, rfl⟩

end Text

/-! ### Selections and texts -/

/-- The selection set of a builder is rendered, with something in it, exactly if the builder selects
something and all that is rendered can be written. -/
theorem Builder.exists_ne_nil_iff {b : Builder} (hn : ∀ f ∈ b.fields, f.1.name ≠ "") :
    (∃ xs, b.selections = .ok xs ∧ xs ≠ []) ↔ b.hasSelection = true ∧ b.Encodable := by
  rw [← Builder.exists_selections_iff b]
  constructor
  · rintro ⟨xs, hxs, hne⟩
    refine ⟨?_, xs, hxs⟩
    by_contra hsel
    rw [Bool.not_eq_true, ← Builder.selections_nil_iff hn, hxs] at hsel
    exact hne (Except.ok.inj hsel)
  · rintro ⟨hsel, xs, hxs⟩
    refine ⟨xs, hxs, ?_⟩
    rintro rfl
    rw [(Builder.selections_nil_iff hn).mp hxs] at hsel
    cases hsel

/-- The selection sets inside the one of a builder whose fields have names are not empty, and the
fields in all of them have names. -/
theorem Builder.Titled.sets {b : Builder} (h : b.Titled) {xs : List Selection}
    (hxs : b.selections = .ok xs) :
    (∀ ys ∈ setsInside xs, ys ≠ []) ∧
      ∀ ys ∈ xs :: setsInside xs, ∀ f ∈ fieldHeads ys, f.name ≠ "" := by
  rw [List.forall_mem_cons]
  refine ⟨fun ys hys => ?_, name_ne_of_mem_fieldHeads (h b (.self b)) hxs, fun ys hys => ?_⟩
  · obtain ⟨c, hc, hsel, hset⟩ := Builder.set_within hxs hys
    rintro rfl
    rw [(Builder.selections_nil_iff (h c hc)).mp hset] at hsel
    cases hsel
  · obtain ⟨c, hc, -, hset⟩ := Builder.set_within hxs hys
    exact name_ne_of_mem_fieldHeads (h c hc) hset

/-- A builder whose fields have names says that it selects nothing exactly where its selections are
rendered and there are none, in every layout and on every level. Otherwise they are rendered if the
values in them can be written, and there are some. A document is rendered where the default values of
its variables can be written as well; all selection sets inside the one of the builder hold
selections, that one holds some if the builder selects something, and only a set without any is
written as a pair of brackets. -/
theorem hasSelection_iff_rendered (l : Layout) {b : Builder} (h : b.Titled) :
    (∀ level, b.items l level = .ok [] ↔ b.hasSelection = false) ∧
    (∀ level, (∃ items, b.items l level = .ok items ∧ items ≠ []) ↔
      b.hasSelection = true ∧ b.Encodable) ∧
    ((∃ text, b.build l = .ok text) ↔ b.Encodable ∧ b.head.Encodable) ∧
    ∀ text, b.build l = .ok text → ∃ d, b.document = .ok d ∧ text = String.ofList (d.print l) ∧
      (d.selections = [] ↔ b.hasSelection = false) ∧ (∀ xs ∈ setsInside d.selections, xs ≠ []) ∧
      ∀ xs ∈ d.selectionSets, ∀ level,
        printBlock l level (printSelections l level xs) = ['{', '}'] ↔ xs = [] := by
  have hn := h b (.self b)
  refine ⟨fun level => ?_, fun level => ?_, ?_, fun text htext => ?_⟩
  · rw [Builder.items_eq_nil_iff, Builder.selections_nil_iff hn]
  · rw [← Builder.exists_ne_nil_iff hn]
    simp only [Builder.items, map_eq_ok]
    constructor
    · rintro ⟨_, ⟨xs, hxs, rfl⟩, hne⟩
      exact ⟨xs, hxs, mt (printSelections_eq_nil_iff l level).mpr hne⟩
    · rintro ⟨xs, hxs, hne⟩
      exact ⟨_, ⟨xs, hxs, rfl⟩, mt (printSelections_eq_nil_iff l level).mp hne⟩
  · rw [Builder.build, exists_map_iff, Builder.document, exists_map_iff,
      Builder.exists_content_iff, Builder.exists_selections_iff, BuilderHead.exists_signature_iff]
  · obtain ⟨d, hd, rfl⟩ := map_eq_ok.mp htext
    obtain ⟨⟨s, xs⟩, hcontent, rfl⟩ := map_eq_ok.mp hd
    have hxs := (Builder.content_eq_ok.mp hcontent).1
    obtain ⟨hinside, hnames⟩ := h.sets hxs
    refine ⟨_, hd, rfl, ?_, hinside, fun ys hys level =>
      printBlock_eq_brackets_iff l level (hnames ys hys)⟩
    rw [← Builder.selections_nil_iff hn, hxs]
    exact ⟨congrArg _, Except.ok.inj⟩

/-- A page of a catalog: its title, an owner and an archive of which nothing is selected, and the
number of a book. -/
def catalogPage : Builder :=
  .node ⟨"Page", none, .empty⟩
    [(.plain "title", none), (.plain "owner", some (.node ⟨"User", none, .empty⟩ [] []))]
    [("Archive", .node ⟨"Archive", none, .empty⟩ [] []),
      ("Book", .node ⟨"Book", none, .empty⟩ [(.plain "id", none)] [])]

/-- What is empty on the page is left out. -/
theorem catalogPage_rendered : catalogPage.Titled ∧ catalogPage.Encodable ∧
    (∃ items, catalogPage.items .compact 1 = .ok items ∧ items ≠ []) ∧
    ∃ d, catalogPage.document = .ok d ∧ (∀ xs ∈ setsInside d.selections, xs ≠ []) ∧
      String.ofList (d.print .compact) = "{__typename,title,...on Book{id}}" := by
  have hempty (t : String) : Builder.Titled (.node ⟨t, none, .empty⟩ [] []) :=
    titled_iff.mpr ⟨nofun, nofun⟩
  have hbook : Builder.Titled (.node ⟨"Book", none, .empty⟩ [(.plain "id", none)] []) :=
    titled_iff.mpr ⟨by decide, nofun⟩
  have htitled : catalogPage.Titled := by
    refine titled_iff.mpr ⟨by decide, ?_⟩
    simp [catalogPage, Builder.children, Builder.fields, Builder.fragments, hempty, hbook]
  have hplain (n : String) : (FieldSelection.plain n).Encodable := ⟨nofun, nofun⟩
  have hencodable : catalogPage.Encodable :=
    ⟨⟨hplain _, nofun, trivial⟩, nofun, fun _ => ⟨⟨⟨hplain _, trivial⟩, trivial⟩, nofun⟩, trivial⟩
  obtain ⟨-, hitems, hbuild, hdocument⟩ := hasSelection_iff_rendered .compact htitled
  obtain ⟨text, htext⟩ := hbuild.mpr ⟨hencodable, nofun⟩
  obtain ⟨d, hd, -, -, hinside, -⟩ := hdocument text htext
  refine ⟨htitled, hencodable, (hitems 1).mpr ⟨rfl, hencodable⟩, d, hd, hinside, ?_⟩
  cases hd
  rfl

/-- A field with an argument that is no number. -/
def notANumber : Builder :=
  .node ⟨"Query", none, .empty⟩ [(⟨"near", none, [⟨"distance", .float .nan, none⟩], []⟩, none)] []

/-- The builder says that it selects something, but its selections are refused. -/
theorem notANumber_refused : notANumber.Titled ∧ notANumber.hasSelection = true ∧
    notANumber.items .compact 1 = .error (.notFinite .nan) ∧
    ¬ (notANumber.hasSelection = true ↔
      ∃ items, notANumber.items .compact 1 = .ok items ∧ items ≠ []) := by
  have htitled : notANumber.Titled := titled_iff.mpr ⟨by decide, nofun⟩
  have hitems : notANumber.items .compact 1 = .error (.notFinite .nan) := rfl
  refine ⟨htitled, rfl, hitems, fun h => ?_⟩
  obtain ⟨items, hok, -⟩ := h.mp rfl
  rw [hitems] at hok
  cases hok

end Bindery.Query
