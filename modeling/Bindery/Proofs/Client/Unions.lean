import Bindery.Proofs.Client.Views

/-!
# The unions of types

A type is a member of the first union that names it, whatever other unions name it as well. The data
class of a type derives from the classes of the unions of which it is a member, so that it stands
below the first union that names it.

## What is proved

* `UnionState.Notes.unions` — what is noted of a name while the members of unions are collected.
* `unionsOf_eq_take` — a type is a member of the first union that names it, and of no other.
* `member_of_first_union` — when these are all unions that name it, and from which classes its data
  class derives.
* `author_derives` — a type that is named by two unions and a member of one.
-/

namespace Bindery.Schema

/-- The unions that do not belong to the description of schemas. -/
def unionTypes (s : Schema) : List TypeDefinition :=
  s.complexTypes.filter fun (t : TypeDefinition) => t.kind == .union

/-- Does the reference name the type? -/
def TypeRef.names (r : TypeRef) (name : String) : Bool :=
  r.name? == some name

/-- The unions that name a type among their members. -/
def unionsNaming (s : Schema) (name : String) : List String :=
  (s.unionTypes.filter fun (u : TypeDefinition) =>
    u.possibleTypes.any fun (r : TypeRef) => r.names name).map TypeDefinition.name

/-- The name can be told from a missing one: it is not empty, or all members of unions are named. -/
def Tells (s : Schema) (name : String) : Prop :=
  name ≠ "" ∨ ∀ u ∈ s.unionTypes, ∀ r ∈ u.possibleTypes, TypeRef.name? r ≠ none

end Bindery.Schema

namespace Bindery.Catalog

open Bindery.Schema

variable {c : Catalog} {s : Schema} {name union : String} {us : List String} {st : UnionState}
  {r : TypeRef} {refs : List TypeRef}

/-! ### What is noted of a name -/

/-- What is noted of a name that unions named, each as often as it did: that it was seen, and the
first of the unions. -/
structure UnionState.Notes (st : UnionState) (name : String) (us : List String) : Prop where
  /-- The name was seen if a union named it. -/
  seen : name ∈ st.seen ↔ us ≠ []
  /-- The first union is kept. -/
  kept : (st.memberships.get? name).getD [] = us.take 1

theorem addMember_seen (union : String) {n : String} (hr : r.name?.filter st.seen.contains = some n) :
    (addMember union st r).seen = st.seen ∧
      (addMember union st r).memberships = st.memberships := by
  rw [addMember, hr]
  exact ⟨rfl, rfl⟩

theorem addMember_new (union : String) (hr : r.name?.filter st.seen.contains = none) :
    (addMember union st r).seen = r.nameOrEmpty :: st.seen ∧
      (addMember union st r).memberships = st.memberships.put r.nameOrEmpty
        ((st.memberships.get? r.nameOrEmpty).getD [] ++ [union]) := by
  rw [addMember, hr]
  exact ⟨rfl, rfl⟩

/-- A member of another name changes nothing of what is noted of a name. -/
theorem UnionState.Notes.other (h : st.Notes name us) (hr : r.nameOrEmpty ≠ name) :
    (addMember union st r).Notes name us := by
  cases hseen : r.name?.filter st.seen.contains with
  | some n =>
    obtain ⟨hsame, hkept⟩ := addMember_seen union hseen
    exact ⟨hsame ▸ h.seen, hkept ▸ h.kept⟩
  | none =>
    obtain ⟨hnew, hput⟩ := addMember_new union hseen
    refine ⟨?_, ?_⟩
    · rw [hnew, List.mem_cons, or_iff_right hr.symm]
      exact h.seen
    · rw [hput, Keyed.get?_put, if_neg hr.symm]
      exact h.kept

/-- A member of the name is noted if it is the first one. -/
theorem UnionState.Notes.named (h : st.Notes name us) (hr : r.name? = some name) :
    (addMember union st r).Notes name (us ++ [union]) := by
  have hname : r.nameOrEmpty = name := by rw [TypeRef.nameOrEmpty, hr, Option.getD_some]
  by_cases hmem : name ∈ st.seen
  · have hseen : r.name?.filter st.seen.contains = some name := by
      rw [hr, Option.filter_some, if_pos (List.contains_iff_mem.mpr hmem)]
    obtain ⟨hsame, hkept⟩ := addMember_seen union hseen
    obtain ⟨u, us, rfl⟩ := List.exists_cons_of_ne_nil (h.seen.mp hmem)
    exact ⟨by simp [hsame, hmem], hkept ▸ h.kept⟩
  · have hunseen : r.name?.filter st.seen.contains = none := by
      rw [hr, Option.filter_some, if_neg (mt List.contains_iff_mem.mp hmem)]
    obtain ⟨hnew, hput⟩ := addMember_new union hunseen
    obtain rfl : us = [] := not_not.mp (mt h.seen.mpr hmem)
    refine ⟨by simp [hnew, hname], ?_⟩
    rw [hput, hname, Keyed.get?_put, if_pos rfl, Option.getD_some, h.kept]
    rfl

/-- Each reference that counts for the name names it. -/
theorem nameOrEmpty_eq (h : s.Tells name) {u : TypeDefinition} (hu : u ∈ s.unionTypes)
    (hr : r ∈ u.possibleTypes) : r.nameOrEmpty = name → r.name? = some name := by
  rw [TypeRef.nameOrEmpty]
  intro heq
  cases hname : r.name? with
  | some n => rw [← heq, hname, Option.getD_some]
  | none =>
    rw [hname] at heq
    exact (h.resolve_left (not_not.mpr heq.symm) u hu r hr hname).elim

/-- What is noted after the members of a union. -/
theorem UnionState.Notes.members (h : st.Notes name us)
    (hrefs : ∀ r ∈ refs, TypeRef.nameOrEmpty r = name → r.name? = some name) :
    (refs.foldl (addMember union) st).Notes name
      (us ++ (refs.filter fun (r : TypeRef) => r.names name).map fun _ => union) := by
  induction refs generalizing st us with
  | nil => simpa using h
  | cons r refs ih =>
    rw [List.forall_mem_cons] at hrefs
    rw [List.foldl_cons, List.filter_cons]
    by_cases hr : r.name? = some name
    · rw [if_pos (by simp [TypeRef.names, hr]), List.map_cons, List.append_cons]
      exact ih (h.named hr) hrefs.2
    · rw [if_neg (by simp [TypeRef.names, hr])]
      exact ih (h.other (mt hrefs.1 hr)) hrefs.2

/-- What is noted after the members of several unions. -/
theorem UnionState.Notes.unions {ts : List TypeDefinition} (h : st.Notes name us)
    (hts : ∀ u ∈ ts, ∀ r ∈ u.possibleTypes, TypeRef.nameOrEmpty r = name → r.name? = some name) :
    (ts.foldl (fun st (u : TypeDefinition) => u.possibleTypes.foldl (addMember u.name) st) st).Notes
      name (us ++ ts.flatMap fun u =>
        (u.possibleTypes.filter fun (r : TypeRef) => r.names name).map fun _ => u.name) := by
  induction ts generalizing st us with
  | nil => simpa using h
  | cons u ts ih =>
    rw [List.forall_mem_cons] at hts
    rw [List.foldl_cons, List.flatMap_cons, ← List.append_assoc]
    exact ih (h.members hts.1) hts.2

/-- The first of the unions that name a type does not depend on how often each of them does. -/
theorem take_naming (ts : List TypeDefinition) (name : String) :
    (ts.flatMap fun u =>
      (u.possibleTypes.filter fun (r : TypeRef) => r.names name).map fun _ => u.name).take 1 =
    ((ts.filter fun (u : TypeDefinition) =>
      u.possibleTypes.any fun (r : TypeRef) => r.names name).map TypeDefinition.name).take 1 := by
  induction ts with
  | nil => rfl
  | cons u ts ih =>
    rw [List.flatMap_cons, List.filter_cons]
    cases hrefs : u.possibleTypes.filter fun (r : TypeRef) => r.names name with
    | nil =>
      have hany : ¬ (u.possibleTypes.any fun (r : TypeRef) => r.names name) = true := by
        simpa [List.filter_eq_nil_iff] using hrefs
      rw [if_neg hany, List.map_nil, List.nil_append, ih]
    | cons r refs =>
      have hany : (u.possibleTypes.any fun (r : TypeRef) => r.names name) = true := by
        rw [List.any_eq_true]
        exact ⟨r, List.mem_filter.mp (hrefs ▸ List.mem_cons_self)⟩
      rw [if_pos hany]
      rfl

/-! ### The unions of a catalog -/

theorem memberships_of_make {configuration : Configuration} (h : (make configuration s).2 = .ok c) :
    c.memberships = (collectUnions (byName s.complexTypes).values).1 := by
  obtain ⟨-, renamed, referenced, -, -, rfl⟩ := make_eq_ok_iff.mp h
  rfl

/-- A type is a member of the first union that names it, and of no other. -/
theorem unionsOf_eq_take {configuration : Configuration}
    (hnames : (s.types.map TypeDefinition.name).Nodup) (h : (make configuration s).2 = .ok c)
    (hname : s.Tells name) : c.unionsOf name = (s.unionsNaming name).take 1 := by
  have hdistinct : (s.complexTypes.map TypeDefinition.name).Nodup :=
    hnames.sublist (List.filter_sublist.map _)
  have hstart : UnionState.Notes ⟨[], .empty, []⟩ name [] := ⟨by simp, rfl⟩
  have hrefs : ∀ u ∈ s.unionTypes, ∀ r ∈ u.possibleTypes,
      TypeRef.nameOrEmpty r = name → r.name? = some name :=
    fun u hu r hr => nameOrEmpty_eq hname hu hr
  have hend := hstart.unions hrefs
  rw [unionsOf, memberships_of_make h, values_byName hdistinct, unionsNaming, ← take_naming]
  exact hend.kept

end Bindery.Catalog

namespace Bindery.Client

open Bindery.Schema Bindery.Catalog

variable {c : Catalog} {s : Schema} {t : TypeDefinition} {ds : List DataView}

/-! ### The classes of members -/

/-- A union of which a type is a member is one of its parents. -/
theorem isAncestor_of_mem_unionsOf {configuration : Configuration}
    (hnames : (s.types.map TypeDefinition.name).Nodup)
    (h : (Catalog.make configuration s).2 = .ok c) (ht : t ∈ s.complexTypes)
    (hname : s.Tells t.name) {u : String} (hu : u ∈ c.unionsOf t.name) : IsAncestor c t.name u := by
  obtain ⟨hindexed, hvalues⟩ := indexed_of_make hnames h
  have hnaming : u ∈ s.unionsNaming t.name := by
    rw [unionsOf_eq_take hnames h hname] at hu
    exact List.mem_of_mem_take hu
  obtain ⟨d, hd, rfl⟩ := List.mem_map.mp hnaming
  have hcomplex : d ∈ c.complex.values :=
    hvalues ▸ List.mem_of_mem_filter (List.mem_of_mem_filter hd)
  refine .single ?_
  rw [parentsOf_of_get? (hindexed.listed (hvalues ▸ ht)), mem_parentTypes]
  exact ⟨.inr hu, hindexed.mem_keys hcomplex⟩

/-- **A type is a member of the first union that names it.** It is a member of all unions that name
it exactly if not more than one does. Its data class derives from that of the first union; and
without given class names it derives from that of another union only if that one is an ancestor in
another way. -/
theorem member_of_first_union {configuration : Configuration}
    (hnames : (s.types.map TypeDefinition.name).Nodup)
    (h : (Catalog.make configuration s).2 = .ok c) :
    (∀ name, s.Tells name → c.unionsOf name = (s.unionsNaming name).take 1 ∧
      (c.unionsOf name = s.unionsNaming name ↔ (s.unionsNaming name).length ≤ 1)) ∧
    (Acyclic c → ∀ ds, dataViews c = .ok ds → ∀ t ∈ s.complexTypes, s.Tells t.name →
      (∀ u ∈ c.unionsOf t.name, Derives ds (c.className t.name) (c.className u)) ∧
      (configuration.classNames = .empty → ∀ u ∈ s.unionTypes,
        (Derives ds (c.className t.name) (c.className u.name) ↔ IsAncestor c t.name u.name))) := by
  obtain ⟨hindexed, hvalues⟩ := indexed_of_make hnames h
  constructor
  · intro name hname
    have hfirst := unionsOf_eq_take hnames h hname
    exact ⟨hfirst, by rw [hfirst, List.take_eq_self_iff]⟩
  · intro hacyclic ds hds t ht hname
    have hcomplex : t ∈ c.complex.values := hvalues ▸ ht
    refine ⟨fun u hu => ?_, fun hgiven u hu => ?_⟩
    · exact derives_of_isAncestor hindexed hacyclic hds hcomplex
        (isAncestor_of_mem_unionsOf hnames h ht hname hu)
    · exact derives_iff hindexed (classesDiffer_of_make hgiven hnames h) hacyclic hds hcomplex
        (hvalues ▸ List.mem_of_mem_filter hu)

/-! ### A member of two unions -/

/-- A user. -/
def authorUser : TypeDefinition :=
  ⟨.object, "User", none, [⟨"id", none, .leaf .scalar (some "ID"), [], false, none⟩], [], [], [], []⟩

/-- A union that names the type of users. -/
def authorUnion (name : String) : TypeDefinition :=
  ⟨.union, name, none, [], [], [], [], [.leaf .object (some "User")]⟩

/-- A schema in which users are authors and can be found. -/
def authorSchema : Schema where
  queryType := none
  mutationType := none
  subscriptionType := none
  types := [authorUser, authorUnion "Author", authorUnion "SearchResult"]
  directives := []

/-- The catalog of the schema. -/
def authorCatalog : Catalog where
  configuration := {}
  schema := authorSchema
  types := byName authorSchema.types
  complex := byName authorSchema.complexTypes
  directives := .empty
  memberships := ⟨[("User", ["Author"])]⟩
  renamed := .empty
  referenced := []

theorem make_author : (Catalog.make {} authorSchema).2 = .ok authorCatalog := by
  cbv

theorem author_distinct : (authorSchema.types.map TypeDefinition.name).Nodup := by
  decide

/-- Unions come before users. -/
def authorRank (n : String) : Nat :=
  if n = "User" then 1 else 0

theorem author_evaluated :
    (∀ t ∈ authorCatalog.complex.values, ∀ p ∈ parentTypes authorCatalog t,
      authorRank p < authorRank t.name) ∧
    (parentsOf authorCatalog "User" = ["Author"] ∧ parentsOf authorCatalog "Author" = []) ∧
    authorSchema.unionsNaming "User" = ["Author", "SearchResult"] ∧
    (dataViews authorCatalog).map (fun ds => ds.map DataView.className) =
      .ok ["Author", "User", "SearchResult"] := by
  decide +kernel

theorem author_acyclic : Acyclic authorCatalog :=
  acyclic_of_rank (indexed_of_make author_distinct make_author).1 authorRank author_evaluated.1

theorem author_complexTypes : authorSchema.complexTypes =
    [authorUser, authorUnion "Author", authorUnion "SearchResult"] := by
  cbv

theorem author_unionTypes :
    authorSchema.unionTypes = [authorUnion "Author", authorUnion "SearchResult"] := by
  cbv

theorem author_views : ∃ ds, dataViews authorCatalog = .ok ds := by
  obtain ⟨-, -, -, hnames⟩ := author_evaluated
  obtain ⟨ds, hds, -⟩ := map_eq_ok.mp hnames
  exact ⟨ds, hds⟩

theorem author_ancestors {a : String} (h : IsAncestor authorCatalog "User" a) : a = "Author" := by
  obtain ⟨-, ⟨huser, hauthor⟩, -⟩ := author_evaluated
  obtain ⟨p, hp, ha⟩ := isAncestor_iff.mp h
  rw [huser, List.mem_singleton] at hp
  subst hp
  refine ha.resolve_right fun ha => ?_
  obtain ⟨p, hp, -⟩ := isAncestor_iff.mp ha
  rw [hauthor] at hp
  cases hp

/-- Two unions name the type of users, which is a member of the first one. The class of users derives
from the class of that one and not from that of the other. -/
theorem author_derives :
    (authorSchema.types.map TypeDefinition.name).Nodup ∧
      (Catalog.make {} authorSchema).2 = .ok authorCatalog ∧ Acyclic authorCatalog ∧
      authorSchema.unionsNaming "User" = ["Author", "SearchResult"] ∧
      authorCatalog.unionsOf "User" = ["Author"] ∧
      ∃ ds, dataViews authorCatalog = .ok ds ∧
        Derives ds (authorCatalog.className "User") (authorCatalog.className "Author") ∧
        ¬ Derives ds (authorCatalog.className "User") (authorCatalog.className "SearchResult") := by
  obtain ⟨ds, hds⟩ := author_views
  obtain ⟨hunions, hclasses⟩ := member_of_first_union author_distinct make_author
  obtain ⟨-, -, hnaming, -⟩ := author_evaluated
  have hfirst : authorCatalog.unionsOf "User" = ["Author"] := by
    rw [(hunions "User" (.inl (by decide))).1, hnaming]
    rfl
  have huser : authorUser ∈ authorSchema.complexTypes :=
    author_complexTypes ▸ List.mem_cons_self
  have hresult : authorUnion "SearchResult" ∈ authorSchema.unionTypes :=
    author_unionTypes ▸ List.mem_cons_of_mem _ List.mem_cons_self
  obtain ⟨hderives, hothers⟩ := hclasses author_acyclic ds hds authorUser huser (.inl (by decide))
  refine ⟨author_distinct, make_author, author_acyclic, hnaming, hfirst, ds, hds,
    hderives "Author" (hfirst ▸ List.mem_singleton_self _), fun hsecond => ?_⟩
  exact absurd (author_ancestors ((hothers rfl _ hresult).mp hsecond)) (by decide)

end Bindery.Client
