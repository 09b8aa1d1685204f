import Bindery.Proofs.Selection.Keys
import Bindery.Proofs.Selection.Rendered

/-!
# Response keys

The fields of a selection set are written with different keys: those of its builder have different
ones, and the name of the type is asked for only where no field has its key. The keys that are read
are the names that the written ones stand for, and an alias with a line feed at its end stands for
the same name as the one without.

## What is proved

* `Builder.KeysApart.sets` — in each selection set of the document of a builder the fields are
  written with different keys.
* `Builder.legible_bare` — the document with the names that its aliases stand for can be read, where
  the builder without its aliases can.
* `response_keys_distinct_iff` — after calls of every kind the response keys of each selection set
  differ exactly where none of them is another one with a line feed behind it.
-/

namespace Bindery.Query

open Bindery.Definition hiding Literal Document
open Bindery.Text

/-! ### Written keys -/

/-- The fields of the selection set are written with different keys and with aliases that are
accepted. -/
structure WrittenApart (xs : List Selection) : Prop where
  /-- No key comes twice. -/
  nodup : (writtenKeys xs).Nodup
  /-- The aliases are accepted. -/
  accepted : AliasesAccepted xs

/-- A selection set with the fields and the fragments of a builder, and the name of the type where no
field has its key. -/
theorem FieldsApart.writtenApart {fields : List (FieldSelection × Option Builder)}
    (h : FieldsApart fields) {fragments : List (String × Builder)} {items fs : List Selection}
    (hitems : fieldSelections fields = .ok items) (hfs : fragmentSelections fragments = .ok fs) :
    WrittenApart (assemble fields fs items) := by
  have hlabels := labels_sublist hitems
  have hkeys : (writtenKeys items).Sublist (fields.map fun f => f.1.key) := by
    have := hlabels.map fun p => p.1.getD p.2
    rwa [List.map_map, List.map_map] at this
  have haccepted : AliasesAccepted items := by
    intro f hf
    obtain ⟨g, hg, heq⟩ := List.mem_map.mp (hlabels.subset (List.mem_map_of_mem hf))
    have ha : g.1.aliasName = f.aliasName := congrArg Prod.fst heq
    rw [← ha]
    exact h.accepted g hg
  have hheads : fieldHeads (assemble fields fs items) = _ := fieldHeads_assemble hfs items
  constructor
  · rw [writtenKeys, hheads]
    split_ifs with ht
    · refine List.nodup_cons.mpr ⟨?_, h.nodup.sublist hkeys⟩
      -- The name of the type is asked for only where no field of the builder has its key.
      intro hmem
      obtain ⟨g, hg, hkey⟩ := List.mem_map.mp (hkeys.subset hmem)
      rw [needsTypename, Bool.and_eq_true, Bool.not_eq_true', Bool.not_eq_true',
        List.any_eq_false] at ht
      exact ht.2 g hg (by rw [hkey]; rfl)
    · exact h.nodup.sublist hkeys
  · rw [AliasesAccepted, hheads]
    intro f hf
    rcases List.mem_append.mp hf with hf | hf
    · split_ifs at hf
      · rw [List.mem_singleton.mp hf]
        intro a ha
        cases ha
      · cases hf
    · exact haccepted f hf

/-- In each selection set of the content of a builder the fields are written with different keys. -/
theorem Builder.KeysApart.sets {b : Builder} (h : b.KeysApart) {s : Option Signature}
    {xs : List Selection} (hb : b.content = .ok (s, xs)) :
    ∀ ys ∈ xs :: setsInside xs, WrittenApart ys := by
  have hset (c : Builder) (hc : Within b c) (ys : List Selection) (hys : c.selections = .ok ys) :
      WrittenApart ys := by
    obtain ⟨fs, hfs, items, hitems, rfl⟩ := Builder.selections_eq_ok.mp hys
    exact (h c hc).writtenApart hitems hfs
  have hxs := (Builder.content_eq_ok.mp hb).1
  rw [List.forall_mem_cons]
  refine ⟨hset b (.self b) xs hxs, fun ys hys => ?_⟩
  obtain ⟨c, hc, -, hset'⟩ := Builder.set_within hxs hys
  exact hset c hc ys hset'

/-! ### Builders without their aliases -/

/-- The field without its alias. -/
def FieldSelection.unaliased (f : FieldSelection) : FieldSelection :=
  { f with aliasName := none }

mutual

/-- The builder without the aliases in it. -/
def Builder.unaliased : Builder → Builder
  | .node head fields fragments =>
    .node head (unaliasedFields fields) (unaliasedFragments fragments)

/-- The fields without their aliases. -/
def unaliasedFields :
    List (FieldSelection × Option Builder) → List (FieldSelection × Option Builder)
  | [] => []
  | (f, none) :: r => (f.unaliased, none) :: unaliasedFields r
  | (f, some b) :: r => (f.unaliased, some b.unaliased) :: unaliasedFields r

/-- The fragments without the aliases in them. -/
def unaliasedFragments : List (String × Builder) → List (String × Builder)
  | [] => []
  | (typeName, b) :: r => (typeName, b.unaliased) :: unaliasedFragments r

end

theorem writes_readable : Writes Value.ReadsBack Variable.ReadsBack Literal.Readable where
  value h hx := by
    obtain ⟨y, hy, hvars⟩ := h
    obtain ⟨x, hx', hr, -⟩ := hy.literal_reading hvars
    rw [hx'] at hx
    cases hx
    exact hr
  definition hn h hx := by
    obtain ⟨x, p, hx', hread, -⟩ := h.standsFor hn
    rw [hx'] at hx
    cases hx
    exact ⟨hread.isName, hread.named.typeName, fun y hy => (hread.isConstant y hy).1⟩

/-- A field can be read under the name that its alias stands for. -/
theorem FieldSelection.bare_head {f : FieldSelection} (h : f.unaliased.Named Value.ReadsBack)
    (ha : ∀ a ∈ f.aliasName, acceptsName a = true) {x : FieldHead} (hx : f.head = .ok x) :
    x.bare.Named Literal.Readable := by
  simp only [FieldSelection.head, bind_eq_ok, pure_eq_ok] at hx
  obtain ⟨as, has, ds, hds, rfl⟩ := hx
  have hunaliased : f.unaliased.head = .ok ⟨none, f.name, as, ds⟩ := by
    simp only [FieldSelection.head, bind_eq_ok, pure_eq_ok]
    exact ⟨as, has, ds, hds, rfl⟩
  have hnamed := h.head writes_readable hunaliased
  refine ⟨?_, hnamed.name, hnamed.arguments, hnamed.directives⟩
  intro n hn
  obtain ⟨a, haf, rfl⟩ := Option.map_eq_some_iff.mp hn
  exact isGraphQLName_bareName (ha a haf)

theorem bareSelections_append (xs ys : List Selection) :
    bareSelections (xs ++ ys) = bareSelections xs ++ bareSelections ys := by
  induction xs with
  | nil => rfl
  | cons x xs ih => rw [List.cons_append, bareSelections, bareSelections, ih, List.cons_append]

theorem bareSelections_assemble (fields : List (FieldSelection × Option Builder))
    (fs items : List Selection) :
    bareSelections (assemble fields fs items) =
      assemble fields (bareSelections fs) (bareSelections items) := by
  have htypename : needsTypename (bareSelections fs) fields = needsTypename fs fields := by
    cases fs <;> rfl
  rw [assemble, assemble, bareSelections_append, bareSelections_append, htypename]
  split_ifs <;> rfl

mutual

/-- The content of a builder, with the names that its aliases stand for, can be read where the builder
without its aliases can and nothing inside it performs an operation. -/
theorem Builder.legible_bare : ∀ b : Builder,
    b.unaliased.Named Value.ReadsBack Variable.ReadsBack → b.Rooted → b.KeysApart →
    ∀ s xs, b.content = .ok (s, xs) → LegibleSelections (bareSelections xs) ∧
      (b.hasSelection = true → xs ≠ [])
  | .node head fields fragments, h, hr, hk, s, xs, hb => by
    simp only [Builder.content, bind_eq_ok, pure_eq_ok] at hb
    obtain ⟨fs, hfs, items, hitems, signature, -, hb⟩ := hb
    cases hb
    obtain ⟨hfields, hchildren⟩ := keysApart_iff.mp hk
    obtain ⟨hil, hie⟩ := legible_bareFields fields h.2.1 hr.1 hfields.accepted (fun f hf c hc =>
      hchildren c (List.mem_append_left _ (List.mem_filterMap.mpr ⟨f, hf, hc⟩))) items hitems
    obtain ⟨hfl, hfe⟩ := legible_bareFragments fragments h.2.2 hr.2 (fun f hf =>
      hchildren f.2 (List.mem_append_right _ (List.mem_map_of_mem hf))) fs hfs
    rw [bareSelections_assemble]
    refine ⟨legible_assemble fields hfl hil, ?_⟩
    intro hsel
    rw [Builder.hasSelection, Bool.or_eq_true] at hsel
    exact assemble_ne_nil fields (hsel.imp hie hfe)

theorem legible_bareFields : ∀ fields : List (FieldSelection × Option Builder),
    FieldsNamed Value.ReadsBack Variable.ReadsBack (unaliasedFields fields) →
    RootedFields fields → (∀ f ∈ fields, ∀ a ∈ f.1.aliasName, acceptsName a = true) →
    (∀ f ∈ fields, ∀ c ∈ f.2, c.KeysApart) → ∀ xs, fieldSelections fields = .ok xs →
    LegibleSelections (bareSelections xs) ∧ (anyField fields = true → xs ≠ [])
  | [], _, _, _, _, xs, hx => by
    cases hx
    exact ⟨trivial, by simp [anyField]⟩
  | (f, none) :: r, h, hr, ha, hk, xs, hx => by
    simp only [fieldSelections, bind_eq_ok, pure_eq_ok] at hx
    obtain ⟨head, hhead, rest, hrest, rfl⟩ := hx
    rw [List.forall_mem_cons] at ha hk
    have hnamed := FieldSelection.bare_head h.1 ha.1 hhead
    have hblank : head.isBlank = false := by
      simpa [FieldHead.isBlank, FieldHead.bare] using hnamed.isBlank
    have ih := legible_bareFields r h.2 hr ha.2 hk.2 rest hrest
    rw [hblank, if_neg Bool.false_ne_true]
    exact ⟨⟨hnamed, ih.1⟩, by simp⟩
  | (f, some b) :: r, h, hr, ha, hk, xs, hx => by
    rw [List.forall_mem_cons] at ha hk
    rw [fieldSelections] at hx
    split_ifs at hx with hsel
    · simp only [bind_eq_ok, pure_eq_ok] at hx
      obtain ⟨head, hhead, ⟨s, children⟩, hb, rest, hrest, rfl⟩ := hx
      have hs := (Builder.Rooted.unsigned b hr.2.1 s children hb).1
      rw [BuilderHead.signature_none hr.1] at hs
      cases hs
      obtain ⟨hc, hne⟩ := Builder.legible_bare b h.2.1 hr.2.1 (hk.1 b rfl) none children hb
      have ih := legible_bareFields r h.2.2 hr.2.2 ha.2 hk.2 rest hrest
      refine ⟨⟨⟨FieldSelection.bare_head h.1 ha.1 hhead, rfl, ?_, hc⟩, ih.1⟩, by simp⟩
      rw [ne_eq, bareSelections_eq_nil_iff]
      exact hne hsel
    · have ih := legible_bareFields r h.2.2 hr.2.2 ha.2 hk.2 xs hx
      rw [Bool.not_eq_true] at hsel
      rw [anyField, hsel, Bool.false_or]
      exact ih

theorem legible_bareFragments : ∀ fragments : List (String × Builder),
    FragmentsNamed Value.ReadsBack Variable.ReadsBack (unaliasedFragments fragments) →
    RootedFragments fragments → (∀ f ∈ fragments, f.2.KeysApart) →
    ∀ xs, fragmentSelections fragments = .ok xs →
    LegibleSelections (bareSelections xs) ∧ (anyFragment fragments = true → xs ≠ [])
  | [], _, _, _, xs, hx => by
    cases hx
    exact ⟨trivial, by simp [anyFragment]⟩
  | (t, b) :: r, h, hr, hk, xs, hx => by
    rw [List.forall_mem_cons] at hk
    rw [fragmentSelections] at hx
    split_ifs at hx with hsel
    · simp only [bind_eq_ok, pure_eq_ok] at hx
      obtain ⟨⟨s, children⟩, hb, rest, hrest, rfl⟩ := hx
      have hs := (Builder.Rooted.unsigned b hr.2.1 s children hb).1
      rw [BuilderHead.signature_none hr.1] at hs
      cases hs
      obtain ⟨hc, hne⟩ := Builder.legible_bare b h.2.1 hr.2.1 hk.1 none children hb
      have ih := legible_bareFragments r h.2.2 hr.2.2 hk.2 rest hrest
      refine ⟨⟨⟨h.1, rfl, ?_, hc⟩, ih.1⟩, by simp⟩
      rw [ne_eq, bareSelections_eq_nil_iff]
      exact hne hsel
    · have ih := legible_bareFragments r h.2.2 hr.2.2 hk.2 xs hx
      rw [Bool.not_eq_true] at hsel
      rw [anyFragment, hsel, Bool.false_or]
      exact ih

end

/-! ### Response keys -/

/-- The signature of a builder can be read in front of every selection set. -/
theorem BuilderHead.Named.readAs {h : BuilderHead} (hn : h.Named Variable.ReadsBack)
    {s : Option Signature} (hs : h.signature = .ok s) (xs : List Selection) :
    (∀ g ∈ s, g.Named Literal.Separable) ∧ ∃ e, Document.ReadAs ⟨s, xs⟩ e := by
  cases ho : h.operation with
  | none =>
    rw [BuilderHead.signature_none ho] at hs
    cases hs
    exact ⟨by simp, _, .bare⟩
  | some o =>
    obtain ⟨ds, ps, hsignature, hps, -⟩ := hn.signature_reads ho
    rw [hsignature] at hs
    cases hs
    refine ⟨?_, _, .operation hps⟩
    rintro _ ⟨rfl⟩
    exact ⟨hn.operation o ho, named_of_readAs hps⟩

/-- The keys of a selection set are accepted as names where its fields have names. -/
theorem WrittenApart.accepts {xs : List Selection} (h : WrittenApart xs)
    (hn : ∀ f ∈ fieldHeads xs, isGraphQLName f.name = true) :
    ∀ k ∈ writtenKeys xs, acceptsName k = true := by
  intro k hk
  obtain ⟨f, hf, rfl⟩ := List.mem_map.mp hk
  rw [FieldHead.key]
  cases ha : f.aliasName with
  | none => exact acceptsName_of_isGraphQLName (hn f hf)
  | some a => exact h.accepted f hf a ha

/-- After calls of every kind the fields of each selection set are written with different keys. -/
theorem Used.writtenApart {registry : Registry} {s : Store} (hs : Used registry s) {id : Nat}
    {b : Builder} (hb : s.builder id = .ok b) {d : Document} (hd : b.document = .ok d) :
    ∀ xs ∈ d.selectionSets, WrittenApart xs := by
  obtain ⟨⟨signature, xs⟩, hcontent, rfl⟩ := map_eq_ok.mp hd
  exact (finish_keysApart hs.keysApart hb).sets hcontent

/-- After calls of every kind, on fields that have names, the keys that are written in a selection set
differ, and they are read as different names exactly where none of them is another one with a line
feed behind it. Where the builder without its aliases can be read, selects something and nests no
operation, its text is read in every layout, the response keys of its selection sets are the names
that the written ones stand for, and they differ under this condition. -/
theorem response_keys_distinct_iff {registry : Registry} {s : Store} (hs : Used registry s)
    {id : Nat} {b : Builder} (hb : s.builder id = .ok b) {d : Document} (hd : b.document = .ok d)
    (hn : ∀ xs ∈ d.selectionSets, ∀ f ∈ fieldHeads xs, isGraphQLName f.name = true) :
    (∀ xs ∈ d.selectionSets, (writtenKeys xs).Nodup ∧
      (((writtenKeys xs).map textTokens).Nodup ↔ LineFeedsApart (writtenKeys xs))) ∧
    (b.unaliased.Named Value.ReadsBack Variable.ReadsBack → b.Rooted → b.hasSelection = true →
      ∀ l, ∃ text e, b.build l = .ok text ∧ executable? text = some [e] ∧
        e.selectionSets.map responseKeys =
          d.selectionSets.map (fun xs => (writtenKeys xs).map bareName) ∧
        ((∀ ys ∈ e.selectionSets, (responseKeys ys).Nodup) ↔
          ∀ xs ∈ d.selectionSets, LineFeedsApart (writtenKeys xs))) := by
  have hwritten := hs.writtenApart hb hd
  have hnames : ∀ xs ∈ d.selectionSets, ∀ k ∈ writtenKeys xs, acceptsName k = true :=
    fun xs hx => (hwritten xs hx).accepts (hn xs hx)
  constructor
  · intro xs hx
    have hnodup := (hwritten xs hx).nodup
    exact ⟨hnodup, nodup_map_textTokens_iff hnodup (hnames xs hx)⟩
  · intro hnamed hr hsel l
    obtain ⟨⟨signature, xs⟩, hcontent, rfl⟩ := map_eq_ok.mp hd
    obtain ⟨hl, hne⟩ := Builder.legible_bare b hnamed hr (finish_keysApart hs.keysApart hb)
      signature xs hcontent
    have hhead : b.head.Named Variable.ReadsBack := by
      cases b with
      | node head fields fragments => exact hnamed.1
    have hsignature := (Builder.Rooted.unsigned b hr signature xs hcontent).1
    obtain ⟨hsigned, e, he⟩ := hhead.readAs hsignature (bareSelections xs)
    have he : Document.ReadAs (Document.bare ⟨signature, xs⟩) e := he
    have hkeys := responseKeys_readAs he hl
    refine ⟨_, e, by rw [Builder.build, hd]; rfl,
      executable?_print_bare l he hsigned (hne hsel) (fun ys hy => (hwritten ys hy).accepted) hl,
      hkeys, ?_⟩
    rw [← List.forall_mem_map (f := responseKeys) (P := List.Nodup), hkeys, List.forall_mem_map]
    refine forall₂_congr fun ys hy => ?_
    exact nodup_map_bareName_iff (hwritten ys hy).nodup (hnames ys hy)

/-- A user with a number and a name. -/
def keyedUser : BuilderClass :=
  ⟨"User", [⟨"id", false, none, false⟩, ⟨"name", false, none, false⟩], [], none, 2⟩

/-- The name of a user under the alias of the number with a line feed behind it, and the number. -/
def aliasedUser : Builder :=
  .node ⟨"User", none, .empty⟩ [(⟨"name", some "id\n", [], []⟩, none), (.plain "id", none)] []

/-- The keys are written apart, and both are read as that of the number. -/
theorem aliasedUser_response_keys : ∃ s d, Used (.ofList [("User", keyedUser)]) s ∧
    s.builder 0 = .ok aliasedUser ∧ aliasedUser.document = .ok d ∧
    (∀ xs ∈ d.selectionSets, ∀ f ∈ fieldHeads xs, isGraphQLName f.name = true) ∧
    aliasedUser.unaliased.Named Value.ReadsBack Variable.ReadsBack ∧ aliasedUser.Rooted ∧
    aliasedUser.hasSelection = true ∧ d.selectionSets.map writtenKeys = [["id\n", "id"]] ∧
    (∀ xs ∈ d.selectionSets, (writtenKeys xs).Nodup) ∧
    ∃ text e, aliasedUser.build ⟨false, 2⟩ = .ok text ∧ executable? text = some [e] ∧
      e.selectionSets.map responseKeys = [["id", "id"]] ∧
      ¬ ∀ ys ∈ e.selectionSets, (responseKeys ys).Nodup := by
  have hreg : (Keyed.ofList [("User", keyedUser)]).get? keyedUser.typeName = some keyedUser := rfl
  have hmade := Used.empty.make none hreg (rfl : keyedUser.draft none = _)
  have hname := hmade.call (rfl : Store.draft _ 0 = _) (.field "name" (some "id\n") [] [] rfl)
  have hused := hname.call (rfl : Store.draft _ 0 = _) (.field "id" none [] [] rfl)
  have hd : aliasedUser.document =
      .ok ⟨none, [.leaf ⟨some "id\n", "name", [], []⟩, .leaf (.plain "id")]⟩ := rfl
  have hnames : ∀ xs ∈ [[Selection.leaf ⟨some "id\n", "name", [], []⟩, .leaf (.plain "id")]],
      ∀ f ∈ fieldHeads xs, isGraphQLName f.name = true := by
    decide
  have hhead : BuilderHead.Named Variable.ReadsBack ⟨"User", none, .empty⟩ := ⟨nofun, nofun⟩
  have hnamed : aliasedUser.unaliased.Named Value.ReadsBack Variable.ReadsBack :=
    ⟨hhead, ⟨FieldSelection.named_plain rfl, FieldSelection.named_plain rfl, trivial⟩, trivial⟩
  obtain ⟨hwritten, hread⟩ := response_keys_distinct_iff hused
    (show Store.builder _ 0 = .ok aliasedUser from rfl) hd hnames
  obtain ⟨text, e, htext, he, hkeys, hiff⟩ := hread hnamed ⟨trivial, trivial⟩ rfl ⟨false, 2⟩
  refine ⟨_, _, hused, rfl, hd, hnames, hnamed, ⟨trivial, trivial⟩, rfl, rfl,
    fun xs hx => (hwritten xs hx).1, text, e, htext, he, hkeys, ?_⟩
  rw [hiff]
  unfold LineFeedsApart
  decide

end Bindery.Query
