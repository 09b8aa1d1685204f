import Bindery.Proofs.Selection.Operations

/-!
# Fields under their keys

A draft holds its fields by their response keys, which are their aliases or else their names. A field
that is selected again takes the place of the one with its key, so no call makes two fields of one
key.

## What is proved

* `ManualCall.keysApart` and `Used.keysApart` — no call gives two fields of a draft one key, and the
  alias of each field is accepted.
* `finish_keysApart` — so it is in the builder of a draft and in each one inside it.
-/

namespace Bindery.Query

/-! ### Builders -/

/-- The fields have different keys, and their aliases are accepted. -/
structure FieldsApart (fields : List (FieldSelection × Option Builder)) : Prop where
  /-- No key comes twice. -/
  nodup : (fields.map fun f => f.1.key).Nodup
  /-- The aliases are accepted. -/
  accepted : ∀ f ∈ fields, ∀ a ∈ f.1.aliasName, acceptsName a = true

/-- In the builder and in each one inside it the fields have different keys. -/
def Builder.KeysApart (b : Builder) : Prop :=
  ∀ c, Within b c → FieldsApart c.fields

theorem keysApart_iff {b : Builder} :
    b.KeysApart ↔ FieldsApart b.fields ∧ ∀ c ∈ b.children, c.KeysApart :=
  forall_within_iff

/-! ### Plans -/

/-- In all builders of the plan the fields have different keys. -/
structure Plan.KeysApart (p : Plan) : Prop where
  /-- The builders of the fields. -/
  fields : ∀ e ∈ p.fields, ∀ b ∈ e.2, b.KeysApart
  /-- The builders of the fragments. -/
  fragments : ∀ e ∈ p.fragments, e.2.KeysApart

theorem fieldsApart_keyedFields (fields : List (String × Option Builder)) :
    FieldsApart (keyedFields fields).values := by
  have hentries : ∀ e ∈ (keyedFields fields).entries, e.2.1 = .plain e.1 := by
    intro e he
    obtain ⟨f, -, rfl⟩ := List.mem_map.mp (Keyed.mem_entries_ofList he)
    rfl
  constructor
  · have hkeys : (keyedFields fields).values.map (fun f => f.1.key) = (keyedFields fields).keys := by
      rw [Keyed.values, Keyed.keys, List.map_map]
      refine List.map_congr_left fun e he => ?_
      simp [hentries e he, FieldSelection.key, FieldSelection.plain]
    rw [hkeys]
    exact Keyed.nodup_keys_ofList _
  · intro f hf a ha
    obtain ⟨e, he, rfl⟩ := List.mem_map.mp hf
    rw [hentries e he] at ha
    cases ha

theorem Plan.KeysApart.builder {p : Plan} (hp : p.KeysApart) (h : BuilderHead) :
    (p.builder h).KeysApart := by
  refine keysApart_iff.mpr ⟨fieldsApart_keyedFields p.fields, ?_⟩
  intro c hc
  rcases mem_planChildren hc with ⟨e, he, hec⟩ | ⟨e, he, rfl⟩
  · exact hp.fields e he c hec
  · exact hp.fragments e he

section Plans

variable {expand : String → Depths → Except Error (Option Builder × Depths)}

/-- The builders of the planned fields are expanded ones. -/
theorem exists_expand_of_mem_planFields {h : BuilderHead} {infos : List FieldInfo} {ds : Depths}
    {e : String × Option Builder} (he : e ∈ (planFields expand h infos ds).1) {b : Builder}
    (hb : b ∈ e.2) : ∃ t es gs, expand t es = .ok (some b, gs) := by
  induction infos generalizing ds with
  | nil => cases he
  | cons f r ih =>
    rw [planFields] at he
    split at he
    · rcases List.mem_cons.mp he with rfl | he
      · cases hb
      · exact ih he
    · split_ifs at he
      · exact ih he
      · split at he
        · cases he
        · exact ih he
        · rename_i c es hc
          rcases List.mem_cons.mp he with rfl | he
          · cases hb
            exact ⟨_, _, _, hc⟩
          · exact ih he

/-- The builders of the planned fragments are expanded ones. -/
theorem exists_expand_of_mem_planFragments {ts : List String} {ds : Depths} {e : String × Builder}
    (he : e ∈ (planFragments expand ts ds).1) : ∃ t es gs, expand t es = .ok (some e.2, gs) := by
  induction ts generalizing ds with
  | nil => cases he
  | cons t r ih =>
    rw [planFragments] at he
    split at he
    · cases he
    · exact ih he
    · rename_i b es hb
      rcases List.mem_cons.mp he with rfl | he
      · exact ⟨_, _, _, hb⟩
      · exact ih he

/-- In all builders that types are expanded to the fields have different keys. -/
def ExpandsApart (expand : String → Depths → Except Error (Option Builder × Depths)) : Prop :=
  ∀ t ds b es, expand t ds = .ok (some b, es) → b.KeysApart

theorem ExpandsApart.planClass (hexpand : ExpandsApart expand) (c : BuilderClass)
    (h : BuilderHead) (ds : Depths) : (planClass expand c h ds).1.KeysApart := by
  have hfields : ∀ e ∈ (planFields expand h c.selectable ds).1, ∀ b ∈ e.2, b.KeysApart := by
    intro e he b hb
    obtain ⟨t, es, gs, hexp⟩ := exists_expand_of_mem_planFields he hb
    exact hexpand _ _ _ _ hexp
  rw [Query.planClass]
  dsimp only
  split
  · exact ⟨hfields, List.forall_mem_nil _⟩
  · refine ⟨hfields, ?_⟩
    intro e he
    obtain ⟨t, es, gs, hexp⟩ := exists_expand_of_mem_planFragments he
    exact hexpand _ _ _ _ hexp

end Plans

/-- Expanding types gives no two fields of a builder one key. -/
theorem expand_apart (registry : Registry) (fuel level : Nat) :
    ExpandsApart (expand registry fuel level) := by
  induction fuel generalizing level with
  | zero =>
    intro t ds b es h
    cases h
  | succ fuel ih =>
    intro t ds b es h
    rw [expand] at h
    split_ifs at h with hrecorded
    · cases h
    split at h
    · cases h
    · rename_i c hc
      have hplan := (ih (level + 1)).planClass c c.head (ds.put t (level + 1))
      dsimp only at h
      split at h
      · cases h
      · injection h with h
        injection h with hb hes
        split_ifs at hb
        cases hb
        exact hplan.builder c.head

/-- Selecting everything gives no two fields of a builder one key. -/
theorem planAll_keysApart (registry : Registry) (c : BuilderClass) (h : BuilderHead) :
    (planAll registry c h).KeysApart :=
  (expand_apart registry _ _).planClass c h _

/-! ### Drafts -/

/-- The fields of the draft stand under their own keys, no key comes twice, and the same holds inside
the finished builders. -/
structure Draft.KeysApart (d : Draft) : Prop where
  /-- No key comes twice. -/
  nodup : d.fields.keys.Nodup
  /-- Each field stands under its key. -/
  own : ∀ e ∈ d.fields.entries, e.2.1.key = e.1
  /-- The aliases are accepted. -/
  accepted : ∀ e ∈ d.fields.entries, ∀ a ∈ e.2.1.aliasName, acceptsName a = true
  /-- The finished builders. -/
  owned : ∀ b, .owned b ∈ d.handles → b.KeysApart

namespace Draft.KeysApart

variable {d : Draft}

theorem blank (cls : BuilderClass) (operation : Option Operation) :
    (Draft.blank cls operation).KeysApart :=
  ⟨.nil, nofun, nofun, nofun⟩

/-- A field under its key takes the place of the one that stood there, or comes at the end. -/
theorem putField (h : d.KeysApart) {f : FieldSelection}
    (hf : ∀ a ∈ f.aliasName, acceptsName a = true) {nested : Option Handle}
    (hn : ∀ b, nested = some (.owned b) → b.KeysApart) :
    ({ d with fields := d.fields.put f.key (f, nested) } : Draft).KeysApart where
  nodup := Keyed.nodup_keys_put h.nodup f.key (f, nested)
  own e he := by
    rcases Keyed.mem_putEntry he with rfl | he
    · rfl
    · exact h.own e he
  accepted e he := by
    rcases Keyed.mem_putEntry he with rfl | he
    · exact hf
    · exact h.accepted e he
  owned b hb := (mem_handles_putField hb).elim (hn b) (h.owned b)

theorem putFragment (h : d.KeysApart) (key : String) {x : Handle}
    (hx : ∀ b, x = .owned b → b.KeysApart) :
    ({ d with fragments := d.fragments.put key x } : Draft).KeysApart where
  nodup := h.nodup
  own := h.own
  accepted := h.accepted
  owned b hb := (mem_handles_putFragment hb).elim (fun hb => hx b hb.symm) (h.owned b)

/-- A draft with some of the fields and some of the fragments of another. -/
theorem sublist (h : d.KeysApart) {d' : Draft}
    (hf : d'.fields.entries.Sublist d.fields.entries)
    (hg : d'.fragments.entries.Sublist d.fragments.entries) : d'.KeysApart where
  nodup := h.nodup.sublist (hf.map Prod.fst)
  own e he := h.own e (hf.subset he)
  accepted e he := h.accepted e (hf.subset he)
  owned b hb := by
    refine h.owned b (mem_handles.mpr ((mem_handles.mp hb).imp ?_ ?_))
    · rintro ⟨f, hb⟩
      exact ⟨f, (hf.map Prod.snd).subset hb⟩
    · intro hb
      exact (hg.map Prod.snd).subset hb

theorem withFields (h : d.KeysApart) {fields : List (String × Option Builder)}
    (hf : ∀ e ∈ fields, ∀ b ∈ e.2, b.KeysApart) : (d.withFields fields).KeysApart := by
  induction fields generalizing d with
  | nil => exact h
  | cons f r ih =>
    rw [List.forall_mem_cons] at hf
    refine ih (h.putField (f := .plain f.1) (fun a ha => by cases ha) ?_) hf.2
    intro b hb
    obtain ⟨c, hc, hcb⟩ := Option.map_eq_some_iff.mp hb
    cases hcb
    exact hf.1 b hc

theorem withFragments (h : d.KeysApart) {fragments : List (String × Builder)}
    (hg : ∀ e ∈ fragments, e.2.KeysApart) : (d.withFragments fragments).KeysApart := by
  induction fragments generalizing d with
  | nil => exact h
  | cons f r ih =>
    rw [List.forall_mem_cons] at hg
    refine ih (h.putFragment f.1 ?_) hg.2
    rintro b ⟨⟩
    exact hg.1

/-- A draft with the fields and the fragments of a plan. -/
theorem withPlan (h : d.KeysApart) {p : Plan} (hp : p.KeysApart) : (d.withPlan p).KeysApart :=
  (h.withFields hp.fields).withFragments hp.fragments

end Draft.KeysApart

/-- No call by hand gives two fields one key. -/
theorem ManualCall.keysApart {s : Store} {d d' : Draft} (h : ManualCall s d d')
    (hd : d.KeysApart) : d'.KeysApart := by
  cases h with
  | field name aliasName directives arguments h =>
    obtain ⟨f, hf, rfl⟩ := select_eq_ok h
    exact hd.putField hf nofun
  | object name aliasName directives arguments inner h =>
    cases inner with
    | none => cases h
    | some id =>
      obtain ⟨_, -, h⟩ := bind_eq_ok.mp h
      obtain ⟨f, hf, rfl⟩ := select_eq_ok h
      exact hd.putField hf nofun
  | fragment inner h =>
    obtain ⟨e, -, h⟩ := bind_eq_ok.mp h
    cases h
    exact hd.putFragment _ nofun
  | scalars =>
    refine hd.withFields ?_
    intro e he b hb
    obtain ⟨f, -, rfl⟩ := List.mem_map.mp he
    cases hb
  | exceptField key h =>
    rw [exceptField_eq_ok h]
    exact hd.sublist (Keyed.removeEntry_sublist key _) (List.Sublist.refl _)
  | exceptFragment typeName =>
    exact hd.sublist (List.Sublist.refl _) (Keyed.removeEntry_sublist typeName _)
  | clear => exact hd.sublist (List.nil_sublist _) (List.nil_sublist _)
  | declare v h =>
    obtain ⟨declared, rfl⟩ := declare_eq_ok h
    exact hd.sublist (List.Sublist.refl _) (List.Sublist.refl _)

/-- No call of any kind gives two fields of a draft one key. -/
theorem Used.keysApart {registry : Registry} {s : Store} (h : Used registry s) :
    ∀ d ∈ s.drafts, d.KeysApart :=
  h.forall_drafts (fun cls operation _ => .blank cls operation) ManualCall.keysApart fun hd =>
    hd.withPlan (planAll_keysApart _ _ _)

/-! ### Finished builders -/

/-- What stands in a list of results is the result of something. -/
theorem exists_of_mem_forall₂ {α β : Type} {R : α → β → Prop} {xs : List α} {ys : List β}
    (h : List.Forall₂ R xs ys) {y : β} (hy : y ∈ ys) : ∃ x ∈ xs, R x y := by
  induction h with
  | nil => cases hy
  | cons hr _ ih =>
    rcases List.mem_cons.mp hy with rfl | hy
    · exact ⟨_, List.mem_cons_self, hr⟩
    · obtain ⟨x, hx, hxy⟩ := ih hy
      exact ⟨x, List.mem_cons_of_mem _ hx, hxy⟩

/-- The fields of a finished builder are those of its draft. -/
theorem Draft.KeysApart.finished {d : Draft} (h : d.KeysApart)
    {finish : Nat → Except Error Builder} {fields : List (FieldSelection × Option Builder)}
    (hf : List.Forall₂ (fun e g => e.1 = g.1 ∧ FinishesTo finish e.2 g.2) d.fields.values fields) :
    FieldsApart fields := by
  have hsame : d.fields.values.map Prod.fst = fields.map Prod.fst := by
    rw [← List.forall₂_eq_eq_eq, List.forall₂_map_left_iff, List.forall₂_map_right_iff]
    exact hf.imp fun _ _ he => he.1
  constructor
  · have hkeys : fields.map (fun f => f.1.key) = d.fields.keys := by
      rw [← Function.comp_def FieldSelection.key Prod.fst, ← List.map_map, ← hsame, Keyed.values,
        Keyed.keys, List.map_map, List.map_map]
      exact List.map_congr_left h.own
    rw [hkeys]
    exact h.nodup
  · intro g hg
    obtain ⟨e, he, heg, -⟩ := exists_of_mem_forall₂ hf hg
    obtain ⟨x, hx, rfl⟩ := List.mem_map.mp he
    rw [← heg]
    exact h.accepted x hx

/-- The builder of a draft has fields of different keys, and so has everything inside it. -/
theorem finish_keysApart {s : Store} (hs : ∀ d ∈ s.drafts, d.KeysApart) {fuel id : Nat}
    {b : Builder} (h : s.finish fuel id = .ok b) : b.KeysApart := by
  induction fuel generalizing id b with
  | zero => cases h
  | succ fuel ih =>
    obtain ⟨d, fields, fragments, hd, hfields, hfragments, rfl⟩ := finish_eq_ok h
    have hdraft := hs d (List.mem_of_getElem? hd)
    have hnested (x : Handle) (hx : x ∈ d.handles) (c : Builder)
        (hc : FinishesTo (s.finish fuel) (some x) (some c)) : c.KeysApart := by
      cases x with
      | shared k => exact ih hc
      | owned b =>
        obtain rfl : b = c := hc
        exact hdraft.owned b hx
    refine keysApart_iff.mpr ⟨hdraft.finished hfields, ?_⟩
    intro c hc
    rcases List.mem_append.mp hc with hc | hc
    · obtain ⟨⟨g, _⟩, hg, rfl⟩ := List.mem_filterMap.mp hc
      obtain ⟨⟨f, _ | x⟩, he, -, hfin⟩ := exists_of_mem_forall₂ hfields hg
      · cases hfin
      · exact hnested x (mem_handles.mpr (Or.inl ⟨f, he⟩)) c hfin
    · obtain ⟨g, hg, rfl⟩ := List.mem_map.mp hc
      obtain ⟨e, he, -, hfin⟩ := exists_of_mem_forall₂ hfragments hg
      exact hnested e.2 (mem_handles.mpr (Or.inr (List.mem_map_of_mem he))) g.2 hfin

end Bindery.Query
