import Bindery.Proofs.Catalog.ClassNames

/-!
# The fields of unions

The fields of a union are those of its members, and of several fields with one name the first one
counts. Only then are fields left out. So a union has a field exactly if the first of its definitions
is generated: a first definition that is left out hides the ones behind it.

## What is proved

* `mem_unionFields` — the fields of the members of a union are the first definitions of their names.
* `mem_generated`, `exists_generated_iff` — which fields are generated, and when that can be told.
* `union_generates_first_definitions` — which fields are generated for a union, and when they are
  those that are generated for its members.
* `search_hides_title` — a field that is generated for a member and not for the union.
-/

namespace Bindery.Schema

variable {s : Schema} {u : TypeDefinition} {f : Field}

/-- The types that a union names as its members. -/
def membersOf (s : Schema) (u : TypeDefinition) : List TypeDefinition :=
  u.possibleTypes.filterMap fun (r : TypeRef) => r.name?.bind s.typeOf?

/-- The fields of the members of a union, repeated names included. -/
def memberFields (s : Schema) (u : TypeDefinition) : List Field :=
  (s.membersOf u).flatMap TypeDefinition.fields

/-- The first of the fields of a name that the members of a union have. -/
def firstDefinition (s : Schema) (u : TypeDefinition) (name : String) : Option Field :=
  (s.memberFields u).find? fun (f : Field) => f.name == name

/-- All members of the union are types of the schema. -/
def MembersExist (s : Schema) (u : TypeDefinition) : Prop :=
  ∀ r ∈ u.possibleTypes, ∃ m, (TypeRef.name? r).bind s.typeOf? = some m

/-- The fields of members that are known are put one after the other. -/
theorem unionFields_eq {union : String} {known : Keyed Field} {refs : List TypeRef}
    (h : ∀ r ∈ refs, ∃ m, (TypeRef.name? r).bind s.typeOf? = some m) :
    unionFields s union known refs =
      .ok (((refs.filterMap fun (r : TypeRef) => r.name?.bind s.typeOf?).flatMap
        TypeDefinition.fields).foldl (fun m f => m.putNew f.name f) known) := by
  induction refs generalizing known with
  | nil => rfl
  | cons r refs ih =>
    rw [List.forall_mem_cons] at h
    obtain ⟨⟨m, hm⟩, hrest⟩ := h
    simp only [unionFields, hm, ih hrest, List.filterMap_cons, List.flatMap_cons, List.foldl_append]

/-- What is put first stays: a field is found at the end if it was there before, or if its name was
not and it is the first of its name. -/
theorem mem_values_putNew {fs : List Field} {m : Keyed Field} :
    f ∈ (fs.foldl (fun m (g : Field) => m.putNew g.name g) m).values ↔
      f ∈ m.values ∨ f.name ∉ m.keys ∧ fs.find? (fun (g : Field) => g.name == f.name) = some f := by
  induction fs generalizing m with
  | nil => simp
  | cons g fs ih =>
    rw [List.foldl_cons, ih, List.find?_cons]
    by_cases hg : g.name ∈ m.keys
    · rw [Keyed.putNew_of_mem hg]
      refine or_congr_right (and_congr_right fun hf => ?_)
      have hne : g.name ≠ f.name := fun h => hf (h ▸ hg)
      rw [beq_false_of_ne hne]
    · rw [Keyed.putNew_of_not_mem hg, Keyed.values_put_of_not_mem hg, Keyed.keys_put_of_not_mem hg,
        List.mem_append, List.mem_append, List.mem_singleton, List.mem_singleton, or_assoc]
      refine or_congr_right ?_
      by_cases hname : g.name = f.name
      · have hnew : f.name ∉ m.keys := hname ▸ hg
        simp only [hname, beq_self_eq_true, Option.some.injEq, or_true, not_true_eq_false,
          false_and, or_false, hnew, not_false_eq_true, true_and]
        exact eq_comm
      · have hne : f ≠ g := fun h => hname (h ▸ rfl)
        simp only [beq_false_of_ne hname, hne, Ne.symm hname, or_false, false_or]

/-- The fields of the members of a union are the first definitions of their names. -/
theorem mem_unionFields (hkind : u.kind = .union) (hmembers : s.MembersExist u) :
    ∃ fs, s.effectiveFields u = .ok fs ∧ ∀ f, f ∈ fs ↔ s.firstDefinition u f.name = some f := by
  refine ⟨_, by rw [effectiveFields, if_pos (by simp [hkind]), unionFields_eq hmembers]; rfl, ?_⟩
  intro f
  rw [mem_values_putNew]
  have hempty : f ∉ (Keyed.empty : Keyed Field).values := List.not_mem_nil
  have hnew : f.name ∉ (Keyed.empty : Keyed Field).keys := List.not_mem_nil
  rw [or_iff_right hempty, and_iff_right hnew]
  rfl

theorem of_firstDefinition {name : String} (h : s.firstDefinition u name = some f) :
    f ∈ s.memberFields u ∧ f.name = name :=
  ⟨List.mem_of_find?_eq_some h, by simpa using List.find?_some h⟩

end Bindery.Schema

namespace Bindery.Catalog

open Bindery.Schema

variable {c : Catalog} {u : TypeDefinition} {f : Field} {fs gs : List Field}

/-! ### Fields that are generated -/

theorem generated_cons_eq_ok : c.generated (f :: fs) = .ok gs ↔
    ∃ keep rest, c.generates f = .ok keep ∧ c.generated fs = .ok rest ∧
      gs = if keep then f :: rest else rest := by
  rw [generated]
  simp only [bind_eq_ok, pure_eq_ok]
  constructor
  · rintro ⟨keep, hkeep, rest, hrest, rfl⟩
    exact ⟨keep, rest, hkeep, hrest, rfl⟩
  · rintro ⟨keep, rest, hkeep, hrest, rfl⟩
    exact ⟨keep, hkeep, rest, hrest, rfl⟩

theorem mem_generated (h : c.generated fs = .ok gs) :
    f ∈ gs ↔ f ∈ fs ∧ c.generates f = .ok true := by
  induction fs generalizing gs with
  | nil => cases h; simp
  | cons g fs ih =>
    obtain ⟨keep, rest, hkeep, hrest, rfl⟩ := generated_cons_eq_ok.mp h
    rw [List.mem_cons, or_and_right]
    cases keep with
    | true =>
      rw [if_pos rfl, List.mem_cons, ih hrest]
      exact or_congr_left ⟨fun hf => ⟨hf, hf ▸ hkeep⟩, And.left⟩
    | false =>
      rw [if_neg Bool.false_ne_true, ih hrest, or_iff_right]
      rintro ⟨rfl, htrue⟩
      rw [hkeep] at htrue
      cases htrue

/-- Fields are generated where it can be told of each of them whether it is. -/
theorem exists_generated_iff :
    (∃ gs, c.generated fs = .ok gs) ↔ ∀ f ∈ fs, ∃ keep, c.generates f = .ok keep := by
  induction fs with
  | nil => exact ⟨fun _ => nofun, fun _ => ⟨[], rfl⟩⟩
  | cons f fs ih =>
    rw [List.forall_mem_cons, ← ih]
    constructor
    · rintro ⟨gs, h⟩
      obtain ⟨keep, rest, hkeep, hrest, -⟩ := generated_cons_eq_ok.mp h
      exact ⟨⟨keep, hkeep⟩, rest, hrest⟩
    · rintro ⟨⟨keep, hkeep⟩, rest, hrest⟩
      exact ⟨_, generated_cons_eq_ok.mpr ⟨keep, rest, hkeep, hrest, rfl⟩⟩

/-! ### Unions -/

/-- A field of the name is generated for a member of the union. -/
def GeneratedForMember (c : Catalog) (u : TypeDefinition) (name : String) : Prop :=
  ∃ m ∈ c.schema.membersOf u, ∃ gs, c.ownFields m = .ok gs ∧ name ∈ gs.map Field.name

/-- Where the fields of members can be looked up, a field of a member is generated for it or is left
out. -/
theorem generatedForMember_iff
    (hfields : ∀ m ∈ c.schema.membersOf u, ∃ gs, c.ownFields m = .ok gs) {name : String} :
    c.GeneratedForMember u name ↔
      ∃ f ∈ c.schema.memberFields u, f.name = name ∧ c.generates f = .ok true := by
  constructor
  · rintro ⟨m, hm, gs, hgs, hname⟩
    obtain ⟨f, hf, rfl⟩ := List.mem_map.mp hname
    obtain ⟨hown, hkeep⟩ := (mem_generated hgs).mp hf
    exact ⟨f, List.mem_flatMap.mpr ⟨m, hm, hown⟩, rfl, hkeep⟩
  · rintro ⟨f, hf, rfl, hkeep⟩
    obtain ⟨m, hm, hown⟩ := List.mem_flatMap.mp hf
    obtain ⟨gs, hgs⟩ := hfields m hm
    exact ⟨m, hm, gs, hgs, List.mem_map_of_mem ((mem_generated hgs).mpr ⟨hown, hkeep⟩)⟩

/-- Where the fields of the members of a union can be looked up, so can those of the union, which are
the first definitions that are generated. -/
theorem mem_effectiveFields_union (hkind : u.kind = .union) (hmembers : c.schema.MembersExist u)
    (hfields : ∀ m ∈ c.schema.membersOf u, ∃ gs, c.ownFields m = .ok gs) :
    ∃ fs, c.effectiveFields u = .ok fs ∧
      ∀ f, f ∈ fs ↔ c.schema.firstDefinition u f.name = some f ∧ c.generates f = .ok true := by
  obtain ⟨first, hfirst, hmem⟩ := mem_unionFields hkind hmembers
  have htold : ∀ f ∈ first, ∃ keep, c.generates f = .ok keep := by
    intro f hf
    obtain ⟨m, hm, hown⟩ :=
      List.mem_flatMap.mp (of_firstDefinition ((hmem f).mp hf)).1
    exact exists_generated_iff.mp (hfields m hm) f hown
  obtain ⟨fs, hfs⟩ := exists_generated_iff.mpr htold
  refine ⟨fs, ?_, fun f => by rw [mem_generated hfs, hmem]⟩
  rw [effectiveFields, if_pos (by simp [hkind]), hfirst]
  exact hfs

/-- **A union has the fields whose first definition is generated.** Where its members exist and their
fields can be looked up, the fields of a union can be looked up too. A name is that of a field of the
union exactly if the first of the fields of that name is generated. Each such name is that of a field
that is generated for a member, and the converse holds exactly if no first definition that is left
out stands before another one that is generated. -/
theorem union_generates_first_definitions {configuration : Configuration} {s : Schema}
    (hmake : (make configuration s).2 = .ok c) (hkind : u.kind = .union)
    (hmembers : s.MembersExist u)
    (hfields : ∀ m ∈ s.membersOf u, ∃ gs, c.ownFields m = .ok gs) :
    ∃ fs, c.effectiveFields u = .ok fs ∧
      (∀ name, name ∈ fs.map Field.name ↔
        ∃ f, s.firstDefinition u name = some f ∧ c.generates f = .ok true) ∧
      (∀ name ∈ fs.map Field.name, c.GeneratedForMember u name) ∧
      ((∀ name, name ∈ fs.map Field.name ↔ c.GeneratedForMember u name) ↔
        ∀ f ∈ s.memberFields u, c.generates f = .ok true →
          ∃ first, s.firstDefinition u f.name = some first ∧ c.generates first = .ok true) := by
  obtain ⟨rfl, -⟩ := schema_of_make hmake
  obtain ⟨fs, hfs, hmem⟩ := mem_effectiveFields_union hkind hmembers hfields
  have hname : ∀ name, name ∈ fs.map Field.name ↔
      ∃ f, c.schema.firstDefinition u name = some f ∧ c.generates f = .ok true := by
    intro name
    rw [List.mem_map]
    constructor
    · rintro ⟨f, hf, rfl⟩
      exact ⟨f, (hmem f).mp hf⟩
    · rintro ⟨f, hfirst, hkeep⟩
      obtain rfl := (of_firstDefinition hfirst).2
      exact ⟨f, (hmem f).mpr ⟨hfirst, hkeep⟩, rfl⟩
  have hcovered : ∀ name ∈ fs.map Field.name, c.GeneratedForMember u name := by
    intro name hn
    obtain ⟨f, hfirst, hkeep⟩ := (hname name).mp hn
    obtain ⟨hf, hfname⟩ := of_firstDefinition hfirst
    exact (generatedForMember_iff hfields).mpr ⟨f, hf, hfname, hkeep⟩
  refine ⟨fs, hfs, hname, hcovered, fun hall f hf hkeep => ?_, fun hhidden name => ?_⟩
  · exact (hname f.name).mp ((hall f.name).mpr
      ((generatedForMember_iff hfields).mpr ⟨f, hf, rfl, hkeep⟩))
  · refine ⟨hcovered name, fun hn => ?_⟩
    obtain ⟨f, hf, rfl, hkeep⟩ := (generatedForMember_iff hfields).mp hn
    exact (hname f.name).mpr (hhidden f hf hkeep)

/-! ### A hidden field -/

/-- A post, whose title should be avoided. -/
def searchPost : TypeDefinition :=
  ⟨.object, "Post", none,
    [⟨"id", none, .leaf .scalar (some "ID"), [], false, none⟩,
      ⟨"title", none, .leaf .scalar (some "String"), [], true, none⟩], [], [], [], []⟩

/-- A page, whose title is generated. -/
def searchPage : TypeDefinition :=
  ⟨.object, "Page", none, [⟨"title", none, .leaf .scalar (some "String"), [], false, none⟩], [], [],
    [], []⟩

/-- The union of both. -/
def searchResult : TypeDefinition :=
  ⟨.union, "SearchResult", none, [], [], [], [],
    [.leaf .object (some "Post"), .leaf .object (some "Page")]⟩

/-- A schema of what can be found. -/
def searchSchema : Schema where
  queryType := none
  mutationType := none
  subscriptionType := none
  types := [searchPost, searchPage, searchResult]
  directives := []

/-- The catalog of the schema. -/
def searchCatalog : Catalog where
  configuration := {}
  schema := searchSchema
  types := byName searchSchema.types
  complex := byName searchSchema.complexTypes
  directives := .empty
  memberships := ⟨[("Post", ["SearchResult"]), ("Page", ["SearchResult"])]⟩
  renamed := .empty
  referenced := []

theorem make_search : (make {} searchSchema).2 = .ok searchCatalog := by
  cbv

theorem search_membersExist : searchSchema.MembersExist searchResult := by
  simp only [MembersExist, searchResult, List.forall_mem_cons]
  exact ⟨⟨searchPost, by cbv⟩, ⟨searchPage, by cbv⟩, nofun⟩

theorem search_members : searchSchema.membersOf searchResult = [searchPost, searchPage] := by
  cbv

theorem search_ownFields :
    ∀ m ∈ searchSchema.membersOf searchResult, ∃ gs, searchCatalog.ownFields m = .ok gs := by
  rw [search_members, List.forall_mem_cons, List.forall_mem_singleton]
  exact ⟨⟨_, rfl⟩, ⟨_, rfl⟩⟩

theorem search_firstDefinitions :
    (make {} searchSchema).2 = .ok searchCatalog ∧ searchResult.kind = .union ∧
      searchSchema.MembersExist searchResult ∧
      (∀ m ∈ searchSchema.membersOf searchResult, ∃ gs, searchCatalog.ownFields m = .ok gs) ∧
      ∃ fs, searchCatalog.effectiveFields searchResult = .ok fs ∧
        (∀ name, name ∈ fs.map Field.name ↔
          ∃ f, searchSchema.firstDefinition searchResult name = some f ∧
            searchCatalog.generates f = .ok true) ∧
        (∀ name ∈ fs.map Field.name, searchCatalog.GeneratedForMember searchResult name) ∧
        ((∀ name, name ∈ fs.map Field.name ↔
            searchCatalog.GeneratedForMember searchResult name) ↔
          ∀ f ∈ searchSchema.memberFields searchResult, searchCatalog.generates f = .ok true →
            ∃ first, searchSchema.firstDefinition searchResult f.name = some first ∧
              searchCatalog.generates first = .ok true) :=
  ⟨make_search, rfl, search_membersExist, search_ownFields,
    union_generates_first_definitions make_search rfl search_membersExist search_ownFields⟩

/-- The title of a page is generated and that of a search result is not: the title of a post, which
is left out, is the first one. -/
theorem search_hides_title :
    (searchSchema.types.map TypeDefinition.name).Nodup ∧
      (make {} searchSchema).2 = .ok searchCatalog ∧ searchResult ∈ searchSchema.types ∧
      searchResult.kind = .union ∧ searchSchema.MembersExist searchResult ∧
      (∀ m ∈ searchSchema.membersOf searchResult, ∃ gs, searchCatalog.ownFields m = .ok gs) ∧
      ∃ fs, searchCatalog.effectiveFields searchResult = .ok fs ∧
        ¬ ∀ name, name ∈ fs.map Field.name ↔
          searchCatalog.GeneratedForMember searchResult name := by
  refine ⟨by decide, make_search, by simp [searchSchema], rfl, search_membersExist,
    search_ownFields, _, rfl, fun hcovered => ?_⟩
  have htitle : searchCatalog.GeneratedForMember searchResult "title" :=
    ⟨searchPage, search_members ▸ by simp, _, rfl, by decide⟩
  exact absurd ((hcovered "title").mpr htitle) (by decide)

end Bindery.Catalog
