import Bindery.Proofs.Catalog.References
import Bindery.Proofs.Schema.Filter

/-!
# Catalogs of closed schemas

Generation puts the schema at fault where a look-up finds nothing: the type of a field that needs a
selection set, a member of a union, a type with a class of its own, or the items of a list that has
none. Where all references are defined, each of these look-ups finds something.

## What is proved

* `Faultless.bind`, `faultless_mapM`, `faultless_foldlM`, `faultless_collected` — results that do not
  put the schema at fault, put together.
* `Grounded.effectiveFields`, `Grounded.fragmentTypes`, `faultless_memberType` — what a catalog looks
  up.
* `faultless_make` — to make a catalog does not put a closed schema at fault.
-/

namespace Bindery

/-- The result is no refusal that puts the schema at fault. -/
def Faultless {α : Type} (x : Except Refusal α) : Prop :=
  ∀ e, x = .error e → e.kind ≠ .inconsistency

section Faultless

variable {α β : Type} {x : Except Refusal α} {xs : List α}

theorem faultless_ok (a : α) : Faultless (.ok a) := by
  intro e h
  cases h

theorem faultless_error {e : Refusal} (kind : RefusalKind) (h : e.kind = kind)
    (hkind : kind ≠ .inconsistency) : Faultless (.error e : Except Refusal α) := by
  intro e' he'
  cases he'
  rwa [h]

theorem Faultless.bind {f : α → Except Refusal β} (h : Faultless x)
    (hf : ∀ a, x = .ok a → Faultless (f a)) : Faultless (x >>= f) := by
  cases x with
  | error e => exact faultless_error e.kind rfl (h e rfl)
  | ok a => exact hf a rfl

theorem Faultless.map {f : α → β} (h : Faultless x) : Faultless (x.map f) := by
  cases x with
  | error e => exact faultless_error e.kind rfl (h e rfl)
  | ok a => exact faultless_ok _

theorem faultless_mapM {f : α → Except Refusal β} (h : ∀ a ∈ xs, Faultless (f a)) :
    Faultless (xs.mapM f) := by
  induction xs with
  | nil => exact faultless_ok _
  | cons a xs ih =>
    rw [List.forall_mem_cons] at h
    rw [List.mapM_cons]
    exact h.1.bind fun b _ => (ih h.2).bind fun bs _ => faultless_ok _

theorem faultless_foldlM {f : β → α → Except Refusal β} (h : ∀ b, ∀ a ∈ xs, Faultless (f b a))
    (b : β) : Faultless (xs.foldlM f b) := by
  induction xs generalizing b with
  | nil => exact faultless_ok _
  | cons a xs ih =>
    rw [List.foldlM_cons]
    refine (h b a List.mem_cons_self).bind fun b' _ => ih ?_ b'
    exact fun b a ha => h b a (List.mem_cons_of_mem _ ha)

/-- Items that are gone through in order, with what is carried on from each to the next. -/
theorem faultless_collected {σ : Type} {P : α → Prop} {run : List α → σ → Except Refusal β}
    (hnil : ∀ s, Faultless (run [] s))
    (hcons : ∀ a as, P a → (∀ s, Faultless (run as s)) → ∀ s, Faultless (run (a :: as) s))
    (h : ∀ a ∈ xs, P a) (s : σ) : Faultless (run xs s) := by
  induction xs generalizing s with
  | nil => exact hnil s
  | cons a xs ih =>
    rw [List.forall_mem_cons] at h
    exact hcons a xs h.1 (ih h.2) s

end Faultless

namespace Schema

variable {s : Schema} {r : TypeRef} {t : TypeDefinition} {f : Field}

/-! ### Types that are found -/

theorem exists_typeOf? (ht : t ∈ s.types) :
    ∃ u ∈ s.types, s.typeOf? t.name = some u ∧ u.name = t.name := by
  cases hfound : s.typeOf? t.name with
  | none => exact absurd (beq_self_eq_true t.name) (List.find?_eq_none.mp hfound t ht)
  | some u => exact ⟨u, List.mem_of_find?_eq_some hfound, rfl, by simpa using List.find?_some hfound⟩

theorem isBuiltIn_of_name {u : TypeDefinition} (h : u.name = t.name) (ht : t.isBuiltIn = false) :
    u.isBuiltIn = false := by
  rwa [TypeDefinition.isBuiltIn, h]

/-- A reference without anything around it that is defined names a type. -/
theorem Defined.exists_typeOf? (h : s.Defined r) (hwraps : r.kind.wraps = false) :
    ∃ u ∈ s.types, u.isBuiltIn = false ∧ r.name?.bind s.typeOf? = some u := by
  obtain ⟨-, t, ht, hown, hname, -⟩ := h
  obtain ⟨u, hu, hfound, heq⟩ := Schema.exists_typeOf? ht
  rw [innermost_of_not_wraps hwraps] at hname
  rw [hname]
  exact ⟨u, hu, isBuiltIn_of_name heq hown, hfound⟩

theorem ClosedType.membersExist (h : s.ClosedType t) : s.MembersExist t := by
  intro r hr
  obtain ⟨hwraps, hdefined⟩ := h.possibleTypes r hr
  obtain ⟨u, -, -, hu⟩ := hdefined.exists_typeOf? hwraps
  exact ⟨u, hu⟩

/-- The fields of the values of a type are those of types whose references are defined. -/
theorem TypesClosed.effectiveFields (h : s.TypesClosed) (ht : t ∈ s.types)
    (hown : t.isBuiltIn = false) :
    ∃ fs, s.effectiveFields t = .ok fs ∧ ∀ f ∈ fs, s.Defined (Field.type f) := by
  have hclosed := h t ht hown
  by_cases hkind : t.kind = .union
  · obtain ⟨fs, hfs, hmem⟩ := mem_unionFields hkind hclosed.membersExist
    refine ⟨fs, hfs, fun f hf => ?_⟩
    obtain ⟨m, hm, hfield⟩ := List.mem_flatMap.mp (of_firstDefinition ((hmem f).mp hf)).1
    obtain ⟨r, hr, hname⟩ := List.mem_filterMap.mp hm
    obtain ⟨hwraps, hdefined⟩ := hclosed.possibleTypes r hr
    obtain ⟨u, hu, hbuiltIn, hfound⟩ := hdefined.exists_typeOf? hwraps
    cases hfound.symm.trans hname
    exact ((h _ hu hbuiltIn).fields f hfield).1
  · refine ⟨t.fields, ?_, fun f hf => (hclosed.fields f hf).1⟩
    rw [Schema.effectiveFields, if_neg (by simp [hkind])]

end Schema

namespace Catalog

open Bindery.Schema Bindery.Scalar

variable {c : Catalog} {t d : TypeDefinition} {f : Field} {fs : List Field} {r : TypeRef}
  {owner member : String}

/-- The catalog finds the types of a closed schema by their names. -/
structure Grounded (c : Catalog) : Prop where
  /-- All references of the types are defined. -/
  closed : c.schema.TypesClosed
  /-- Types are found by their names. -/
  types : c.types = byName c.schema.types
  /-- So are those whose values need a selection set. -/
  complex : c.complex = byName c.schema.complexTypes

theorem mem_types_of_mem_typesOf {s : Schema} {wanted : Kind → Bool} (h : t ∈ s.typesOf wanted) :
    t ∈ s.types ∧ t.isBuiltIn = false := by
  obtain ⟨ht, hwanted⟩ := List.mem_filter.mp h
  exact ⟨ht, by simpa using (Bool.and_eq_true_iff.mp hwanted).2⟩

/-! ### Types of members -/

/-- The type of a member can be looked up: it is no list without items, and if it has a class of its
own, it has the name of a type. -/
def Found (s : Schema) (r : TypeRef) : Prop :=
  (itemOf r).kind ≠ .list ∧
    (hasClass (itemOf r).kind = true → ∃ t ∈ s.types, t.name = (itemOf r).nameOrEmpty)

theorem found_of_defined {s : Schema} (h : s.Defined r) : Found s r := by
  obtain ⟨hwraps, t, ht, -, hname, -⟩ := h
  rcases itemOf_eq r with hitem | hkind
  · refine ⟨fun hlist => ?_, fun _ => ⟨t, ht, ?_⟩⟩
    · rw [← hitem, hlist] at hwraps
      cases hwraps
    · rw [hitem, TypeRef.nameOrEmpty, hname]
      rfl
  · refine ⟨fun hlist => ?_, fun hclass => ?_⟩
    · rw [hkind] at hlist
      cases hlist
    · rw [hkind] at hclass
      cases hclass

theorem faultless_checked (t : MemberType) : Faultless (checked owner member t) := by
  rw [checked]
  split_ifs
  · exact faultless_error .configuration rfl (by decide)
  · exact faultless_error .configuration rfl (by decide)
  · exact faultless_ok _

theorem faultless_defaultType (configuration : Configuration) (r : TypeRef)
    (enumName : String → String) :
    Faultless (defaultType configuration owner member r enumName) := by
  rw [defaultType]
  split
  · exact faultless_ok _
  · split
    · exact faultless_ok _
    · split
      · exact faultless_ok _
      · exact faultless_ok _
      · split <;> exact faultless_error .configuration rfl (by decide)

theorem faultless_resolve (configuration : Configuration) (r : TypeRef) (always : Bool)
    (enumName : String → String) :
    Faultless (resolve configuration owner member r always enumName) := by
  rw [resolve]
  split
  · exact (faultless_checked _).bind fun _ _ => faultless_ok _
  · exact (faultless_defaultType _ _ _).bind fun _ _ => faultless_ok _

/-- Types are looked up under names that they have. -/
theorem Grounded.typeOf (h : c.Grounded) {name : String}
    (hname : ∃ t ∈ c.schema.types, t.name = name) :
    Faultless (c.typeOf name) := by
  rw [← exists_get?_byName, ← h.types] at hname
  obtain ⟨t, ht⟩ := hname
  rw [typeOf_eq_ok.mpr ht]
  exact faultless_ok t

theorem faultless_memberType (h : c.Grounded) (always : Bool) (hfound : Found c.schema r) :
    Faultless (c.memberType owner member r always) := by
  induction r, always using memberType.induct with
  | case1 name kind item always ih =>
    rw [memberType]
    exact (ih hfound).bind fun _ _ => faultless_ok _
  | case2 name item always ih =>
    rw [memberType]
    exact (ih hfound).bind fun _ _ => faultless_ok _
  | case3 r always hnonNull hlist =>
    rw [Found, itemOf_eq_nullable hnonNull hlist] at hfound
    rw [memberType] <;> try assumption
    rw [leafType_eq, if_neg hfound.1]
    split_ifs with hclass
    · exact (h.typeOf (hfound.2 hclass)).map
    · exact faultless_resolve _ _ _ _

/-! ### Fields that are generated -/

/-- The type that a defined reference leads to is found if its values need a selection set. -/
theorem Grounded.get? (h : c.Grounded) (hdefined : c.schema.Defined r)
    (hkind : r.innermost.kind.isComplex = true) :
    ∃ d, c.complex.get? r.innermost.nameOrEmpty = some d := by
  obtain ⟨-, t, ht, hown, hname, hcomplex⟩ := hdefined
  rw [h.complex, TypeRef.nameOrEmpty, hname, exists_get?_byName]
  exact ⟨t, List.mem_filter.mpr ⟨ht, by simp [hcomplex hkind, hown]⟩, rfl⟩

theorem Grounded.mem_of_get? (h : c.Grounded) {name : String} (hd : c.complex.get? name = some d) :
    d ∈ c.schema.types ∧ d.isBuiltIn = false := by
  rw [h.complex] at hd
  exact mem_types_of_mem_typesOf (of_get?_byName hd).1

theorem Grounded.hasFields (h : c.Grounded) (hdefined : c.schema.Defined r) :
    Faultless (c.hasFields r) := by
  rw [Catalog.hasFields]
  by_cases hkind : r.innermost.kind.isComplex = true
  · obtain ⟨d, hd⟩ := h.get? hdefined hkind
    obtain ⟨hmem, hown⟩ := h.mem_of_get? hd
    obtain ⟨fs, hfs, -⟩ := h.closed.effectiveFields hmem hown
    simp only [hkind, hd, hfs, Bool.not_true, Bool.false_eq_true, if_false]
    exact faultless_ok _
  · simp only [hkind, Bool.not_false, if_true]
    exact faultless_ok _

theorem Grounded.generates (h : c.Grounded) (hdefined : c.schema.Defined (Field.type f)) :
    Faultless (c.generates f) := by
  rw [Catalog.generates]
  split_ifs
  · exact h.hasFields hdefined
  · exact faultless_ok _

theorem Grounded.generated (h : c.Grounded) (hfs : ∀ f ∈ fs, c.schema.Defined (Field.type f)) :
    Faultless (c.generated fs) := by
  induction fs with
  | nil => exact faultless_ok _
  | cons f fs ih =>
    rw [List.forall_mem_cons] at hfs
    exact (h.generates hfs.1).bind fun _ _ => (ih hfs.2).bind fun _ _ => faultless_ok _

theorem Grounded.ownFields (h : c.Grounded) (ht : t ∈ c.schema.types) (hown : t.isBuiltIn = false) :
    Faultless (c.ownFields t) :=
  h.generated fun f hf => ((h.closed t ht hown).fields f hf).1

theorem Grounded.effectiveFields (h : c.Grounded) (ht : t ∈ c.schema.types)
    (hown : t.isBuiltIn = false) : Faultless (c.effectiveFields t) := by
  rw [Catalog.effectiveFields]
  split_ifs
  · obtain ⟨fs, hfs, hdefined⟩ := h.closed.effectiveFields ht hown
    rw [hfs]
    exact h.generated hdefined
  · exact h.ownFields ht hown

/-- The fields of a data class have types that are defined. -/
theorem Grounded.defined_of_mem (h : c.Grounded) (ht : t ∈ c.schema.types)
    (hown : t.isBuiltIn = false)
    (hfs : c.effectiveFields t = .ok fs) (hf : f ∈ fs) : c.schema.Defined f.type := by
  rw [Catalog.effectiveFields] at hfs
  split_ifs at hfs
  · obtain ⟨all, hall, hdefined⟩ := h.closed.effectiveFields ht hown
    rw [hall] at hfs
    exact hdefined f ((mem_generated hfs).mp hf).1
  · exact ((h.closed t ht hown).fields f ((mem_generated hfs).mp hf).1).1

theorem Grounded.withFields (h : c.Grounded) (ts : List TypeDefinition) :
    Faultless (c.withFields ts) := by
  induction ts with
  | nil => exact faultless_ok _
  | cons t ts ih =>
    rw [Catalog.withFields]
    cases hd : c.complex.get? t.name with
    | none => exact ih
    | some d =>
      obtain ⟨hmem, hown⟩ := h.mem_of_get? hd
      exact (h.effectiveFields hmem hown).bind fun _ _ => ih.bind fun _ _ => faultless_ok _

theorem Grounded.fragmentTypes (h : c.Grounded) (t : TypeDefinition) :
    Faultless (c.fragmentTypes t) :=
  h.withFields _

/-! ### Making a catalog -/

theorem Grounded.memberNames (h : c.Grounded) (ht : t ∈ c.schema.types)
    (hown : t.isBuiltIn = false) : Faultless (c.memberNames t) := by
  rw [Catalog.memberNames]
  split_ifs
  · exact faultless_ok _
  · exact (h.ownFields ht hown).bind fun _ _ => faultless_ok _
  · exact faultless_ok _

theorem Grounded.assignName (h : c.Grounded) (natural : List String) (a : Assignment)
    (ht : t ∈ c.schema.types) : Faultless (c.assignName natural a t) := by
  rw [Catalog.assignName]
  split_ifs with hskip
  · exact faultless_ok _
  · have hown : t.isBuiltIn = false := by
      rw [Bool.or_eq_true, not_or, Bool.not_eq_true] at hskip
      exact hskip.1
    split
    · exact faultless_ok _
    · exact (h.memberNames ht hown).bind fun _ _ => faultless_ok _

theorem Grounded.renamedTypes (h : c.Grounded) : Faultless c.renamedTypes :=
  (faultless_foldlM (fun a _ ht => h.assignName _ a ht) _).bind fun _ _ => faultless_ok _

/-- The references that are followed from a type are defined. -/
theorem Grounded.fieldTypes (h : c.Grounded) (ht : t ∈ c.schema.types) (hown : t.isBuiltIn = false) :
    Faultless (c.fieldTypes t) ∧
      ∀ rs, c.fieldTypes t = .ok rs → ∀ r ∈ rs, c.schema.Defined r := by
  have hclosed := h.closed t ht hown
  rw [Catalog.fieldTypes]
  split_ifs
  · refine ⟨faultless_ok _, fun rs hrs r hr => ?_⟩
    cases hrs
    obtain ⟨a, ha, rfl⟩ := List.mem_map.mp hr
    exact hclosed.inputFields a ha
  · refine ⟨(h.ownFields ht hown).map, fun rs hrs r hr => ?_⟩
    obtain ⟨fs, hfs, rfl⟩ := map_eq_ok.mp hrs
    obtain ⟨f, hf, rfl⟩ := List.mem_map.mp hr
    exact (hclosed.fields f ((mem_generated hfs).mp hf).1).1

theorem Grounded.visitFrom (h : c.Grounded) (fuel : Nat) (v : Visit) (ht : t ∈ c.schema.types)
    (hown : t.isBuiltIn = false) : Faultless (c.visitFrom fuel v t) := by
  induction fuel generalizing v t with
  | zero => exact faultless_ok _
  | succ fuel ih =>
    rw [Catalog.visitFrom]
    split
    · exact faultless_ok _
    · obtain ⟨hfields, hdefined⟩ := h.fieldTypes ht hown
      refine hfields.bind fun rs hrs => faultless_foldlM (fun v r hr => ?_) _
      -- the reference is defined, so it does not lead to the description of schemas
      obtain ⟨-, u, -, hbuiltIn, hname, -⟩ := hdefined rs hrs r hr
      cases hnext : c.types.get? r.innermost.nameOrEmpty with
      | none => exact faultless_ok _
      | some next =>
        rw [h.types] at hnext
        obtain ⟨hmem, heq⟩ := of_get?_byName hnext
        rw [TypeRef.nameOrEmpty, hname] at heq
        dsimp only
        split_ifs
        · exact ih v hmem (isBuiltIn_of_name heq hbuiltIn)
        · exact faultless_ok _

theorem Grounded.reachedTypes (h : c.Grounded) : Faultless c.reachedTypes := by
  refine (faultless_foldlM (fun v t ht => ?_) _).bind fun _ _ => faultless_ok _
  obtain ⟨hmem, hown⟩ := mem_types_of_mem_typesOf ht
  exact h.visitFrom _ v hmem hown

theorem checkMapping_kind {known : String → Bool} {entries : List (String × String)} {e : Refusal}
    (h : (checkMapping known entries).2 = some e) : e.kind = .configuration := by
  induction entries with
  | nil => cases h
  | cons entry entries ih =>
    obtain ⟨typeName, className⟩ := entry
    rw [checkMapping] at h
    split_ifs at h
    · cases h
      rfl
    · exact ih h
    · exact ih h

/-- **To make a catalog does not put a closed schema at fault.** -/
theorem faultless_make (configuration : Configuration) {s : Schema} (h : s.TypesClosed) :
    Faultless (make configuration s).2 := by
  simp only [make]
  split
  · rename_i e he
    exact faultless_error .configuration (checkMapping_kind he) (by decide)
  · exact (Grounded.renamedTypes ⟨h, rfl, rfl⟩).bind fun _ _ =>
      (Grounded.reachedTypes ⟨h, rfl, rfl⟩).bind fun _ _ => faultless_ok _

/-- A catalog of a closed schema finds its types. -/
theorem grounded_of_make {configuration : Configuration} {s : Schema} (h : s.TypesClosed)
    (hmake : (make configuration s).2 = .ok c) : c.Grounded := by
  obtain ⟨rfl, hcomplex⟩ := schema_of_make hmake
  exact ⟨h, types_of_make hmake, hcomplex⟩

end Catalog

end Bindery
