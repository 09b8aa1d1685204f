import Bindery.Client.Loaded
import Bindery.Proofs.Catalog.References
import Bindery.Proofs.Client.Order
import Bindery.Proofs.Label.Safe
import Bindery.Proofs.Selection.Everything

/-!
# What builders say about each other

The class of a builder names types by constants: its own, those of the fields that need a selection
set, and those of its fragments. Constants of different types have different names, so each of them
is bound to one type. A field is generated and a fragment offered only where the type is found among
those that get builders, so each type that is named has a builder.

## What is proved

* `nodup_values_typeConstants` — the constants have different names.
* `boundTo_eq` — each constant is bound to its type.
* `refers_of_builderViews` — what a builder says about itself, its fields and its fragments.
* `consistent_registryOf` — the builders are registered under their types, and so are the types that
  they refer to.
-/

namespace Bindery.Client

open Bindery.Schema Bindery.Label Bindery.Catalog Bindery.Query

variable {c : Catalog} {s : Schema} {constants : Keyed String} {t : TypeDefinition}
  {b : BuilderView} {bs : List BuilderView} {n k : String}

/-! ### Constants -/

/-- The names that have constants: those of the standard scalars and of the types that do not belong
to the description of schemas. -/
def constantNames (s : Schema) : List String :=
  standardScalars ++ (s.types.filter fun (t : TypeDefinition) =>
    !t.isBuiltIn && !standardScalars.contains t.name).map TypeDefinition.name

/-- The constants of the names in order. -/
def constantsInOrder (s : Schema) : List String :=
  (uniqueNames [] ((constantNames s).map fun n => safeName [] (upperCase n))).1

theorem typeConstants_eq (s : Schema) :
    typeConstants s = .ofList ((constantNames s).zip (constantsInOrder s)) := rfl

theorem mem_constantNames : n ∈ constantNames s ↔
    n ∈ standardScalars ∨ ∃ t ∈ s.types, t.isBuiltIn = false ∧ t.name = n := by
  rw [constantNames, List.mem_append, List.mem_map]
  constructor
  · rintro (h | ⟨t, ht, rfl⟩)
    · exact .inl h
    · obtain ⟨ht, hown⟩ := List.mem_filter.mp ht
      exact .inr ⟨t, ht, by simpa using (Bool.and_eq_true_iff.mp hown).1, rfl⟩
  · rintro (h | ⟨t, ht, hown, rfl⟩)
    · exact .inl h
    · by_cases hstandard : t.name ∈ standardScalars
      · exact .inl hstandard
      · exact .inr ⟨t, List.mem_filter.mpr ⟨ht, by simp [hown, hstandard]⟩, rfl⟩

theorem standardScalars_areNames : ∀ n ∈ standardScalars, Text.isGraphQLName n = true := by
  decide

/-- No constant is empty. -/
theorem constantsInOrder_ne_empty (h : ∀ t ∈ s.types, Text.isGraphQLName t.name = true) :
    ∀ k ∈ constantsInOrder s, k ≠ "" := by
  refine uniqueNames_ne_empty fun label hlabel => ?_
  obtain ⟨n, hn, rfl⟩ := List.mem_map.mp hlabel
  refine safeName_ne_empty (upperCase_ne_empty ?_)
  rcases mem_constantNames.mp hn with hn | ⟨t, ht, -, rfl⟩
  · exact standardScalars_areNames n hn
  · exact h t ht

section Distinct

variable (hnames : (s.types.map TypeDefinition.name).Nodup)

include hnames

theorem nodup_constantNames : (constantNames s).Nodup := by
  refine List.nodup_append'.mpr ⟨by decide, hnames.sublist (List.filter_sublist.map _), ?_⟩
  intro n hstandard hown
  obtain ⟨t, ht, rfl⟩ := List.mem_map.mp hown
  have := (List.mem_filter.mp ht).2
  simp [hstandard] at this

/-- The constants are those of the names in order. -/
theorem entries_typeConstants :
    (typeConstants s).entries = (constantNames s).zip (constantsInOrder s) := by
  rw [typeConstants_eq]
  refine Keyed.entries_ofList ?_
  rw [List.map_fst_zip (by simp [constantsInOrder])]
  exact nodup_constantNames hnames

theorem keys_typeConstants : (typeConstants s).keys = constantNames s := by
  rw [Keyed.keys, entries_typeConstants hnames, List.map_fst_zip (by simp [constantsInOrder])]

theorem values_typeConstants : (typeConstants s).values = constantsInOrder s := by
  rw [Keyed.values, entries_typeConstants hnames, List.map_snd_zip (by simp [constantsInOrder])]

/-- The constants have different names. -/
theorem nodup_values_typeConstants : (typeConstants s).values.Nodup := by
  rw [values_typeConstants hnames]
  exact (uniqueNames_nodup _ _).1

end Distinct

/-- What an attribute of the class of type names is bound to; the last assignment counts. -/
def boundTo (constants : Keyed String) (attr : String) : Option String :=
  (Keyed.ofList (constants.entries.map Prod.swap)).get? attr

/-- Where constants have different names, each is bound to its type. -/
theorem boundTo_eq (hvalues : constants.values.Nodup) (h : constants.get? n = some k) :
    boundTo constants k = some n := by
  have hentries : (Keyed.ofList (constants.entries.map Prod.swap)).entries =
      constants.entries.map Prod.swap := by
    refine Keyed.entries_ofList ?_
    rwa [List.map_map]
  refine Keyed.get?_of_mem_entries ?_ ?_
  · rw [Keyed.keys, hentries, List.map_map]
    exact hvalues
  · rw [hentries]
    exact List.mem_map.mpr ⟨(n, k), Keyed.mem_entries_of_get? h, rfl⟩

/-! ### What a builder says -/

theorem mem_fragmentMethods {ts : List TypeDefinition} {used : List String} {f : FragmentMethods}
    (h : f ∈ fragmentMethods c constants ts used) :
    ∃ t ∈ ts, f.constant = (constants.get? t.name).getD "" ∧ f.typeName = t.name ∧
      f.builder = c.className t.name builderSuffix := by
  induction ts generalizing used with
  | nil => cases h
  | cons t ts ih =>
    rw [fragmentMethods] at h
    rcases List.mem_cons.mp h with rfl | h
    · exact ⟨t, List.mem_cons_self, rfl, rfl, rfl⟩
    · obtain ⟨u, hu, hf⟩ := ih h
      exact ⟨u, List.mem_cons_of_mem _ hu, hf⟩

/-- The parts of the class of a builder. -/
structure BuilderParts (c : Catalog) (constants : Keyed String) (t : TypeDefinition)
    (b : BuilderView) : Prop where
  /-- It is the builder of the type. -/
  typeName : b.typeName = t.name
  /-- It names the constant of the type. -/
  constant : b.constant = (constants.get? t.name).getD ""
  /-- It says something about each field that its methods select. -/
  metadata : ∃ fields, methodFields c t = .ok fields ∧ b.metadata = fields.map (fieldMetadata constants)
  /-- Its fragments are on types that have fields. -/
  fragments : ∃ ts used, c.fragmentTypes t = .ok ts ∧ b.fragments = fragmentMethods c constants ts used

theorem builderParts_of_builderView (h : builderView c constants t = .ok b) :
    BuilderParts c constants t b := by
  obtain ⟨name, -, h⟩ := bind_eq_ok.mp h
  obtain ⟨fields, hfields, h⟩ := bind_eq_ok.mp h
  obtain ⟨⟨methods, used⟩, -, h⟩ := bind_eq_ok.mp h
  obtain ⟨ts, hts, h⟩ := bind_eq_ok.mp h
  rw [← pure_eq_ok.mp h]
  exact ⟨rfl, rfl, ⟨fields, hfields, rfl⟩, ⟨ts, used, hts, rfl⟩⟩

/-- The fields that the methods of a builder select are fields of the type that are generated. -/
theorem of_mem_methodFields {fields : List Field} {f : Field} (h : methodFields c t = .ok fields)
    (hf : f ∈ fields) : f ∈ t.fields ∧ c.generates f = .ok true := by
  rw [methodFields] at h
  split_ifs at h
  · cases h
    cases hf
  · exact (mem_generated h).mp hf

/-! ### What is named has a builder -/

/-- The constant is bound to the name of a type that has a builder. -/
structure RefersTo (constants : Keyed String) (bs : List BuilderView) (constant typeName : String) :
    Prop where
  /-- The constant is written. -/
  written : constant ≠ ""
  /-- It is bound to the name. -/
  bound : boundTo constants constant = some typeName
  /-- The name is that of the type of a builder. -/
  registered : ∃ b ∈ bs, BuilderView.typeName b = typeName

/-- What a builder says about itself and about other builders. -/
structure Refers (constants : Keyed String) (bs : List BuilderView) (b : BuilderView) : Prop where
  /-- It is registered under the name of its type, and names itself like that. -/
  own : RefersTo constants bs b.constant b.typeName
  /-- A field is said to have a builder of a type that has one, or no builder. -/
  metadata : ∀ m ∈ b.metadata, (m.constant = none ∧ m.typeName = none) ∨
    ∃ k n, m.constant = some k ∧ m.typeName = some n ∧ RefersTo constants bs k n
  /-- A fragment is on a type that has a builder. -/
  fragments : ∀ f ∈ b.fragments, RefersTo constants bs f.constant f.typeName

section Made

variable {configuration : Configuration} (hnames : (s.types.map TypeDefinition.name).Nodup)
  (hgraphql : ∀ t ∈ s.types, Text.isGraphQLName t.name = true)
  (hmake : (make configuration s).2 = .ok c) (h : builderViews c (typeConstants s) = .ok bs)

include hmake h

/-- There is one builder for each type whose values need a selection set. -/
theorem builderViews_typeNames :
    (bs.map BuilderView.typeName).Perm (s.complexTypes.map TypeDefinition.name) := by
  obtain ⟨hschema, -⟩ := schema_of_make hmake
  obtain ⟨ts, hts, hbs⟩ := bind_eq_ok.mp h
  rw [map_of_mapM hbs fun _ _ hb => (builderParts_of_builderView hb).typeName, ← hschema]
  exact (ordered_perm hts).map _

include hnames hgraphql

/-- A type that is found among those whose values need a selection set has a constant and a
builder. -/
theorem refersTo_of_get? {d : TypeDefinition} (hd : c.complex.get? n = some d) :
    d.name = n ∧ ∃ k, (typeConstants s).get? n = some k ∧ RefersTo (typeConstants s) bs k n := by
  obtain ⟨hindexed, hvalues⟩ := indexed_of_make hnames hmake
  obtain ⟨hmem, rfl⟩ := hindexed.found hd
  rw [hvalues] at hmem
  obtain ⟨htypes, hclasses, -⟩ := of_mem_typesOf rfl hmem
  have hown : d.isBuiltIn = false := by
    simpa using (Bool.and_eq_true_iff.mp (List.mem_filter.mp hmem).2).2
  have hkey : d.name ∈ (typeConstants s).keys := by
    rw [keys_typeConstants hnames]
    exact mem_constantNames.mpr (.inr ⟨d, htypes, hown, rfl⟩)
  obtain ⟨k, hk⟩ := Keyed.exists_get?_of_mem_keys hkey
  refine ⟨rfl, k, hk, ?_, boundTo_eq (nodup_values_typeConstants hnames) hk, ?_⟩
  · refine constantsInOrder_ne_empty hgraphql k ?_
    rw [← values_typeConstants hnames]
    exact List.mem_map_of_mem (Keyed.mem_entries_of_get? hk)
  · have hname := (builderViews_typeNames hmake h).mem_iff.mpr (List.mem_map_of_mem hmem)
    exact List.mem_map.mp hname

/-- **What a builder says about itself, its fields and its fragments**: each type that it names by a
constant has a builder. -/
theorem refers_of_builderViews : ∀ b ∈ bs, Refers (typeConstants s) bs b := by
  obtain ⟨hschema, -⟩ := schema_of_make hmake
  obtain ⟨hindexed, hvalues⟩ := indexed_of_make hnames hmake
  obtain ⟨ts, hts, hbs⟩ := bind_eq_ok.mp h
  intro b hb
  obtain ⟨t, ht, hview⟩ := exists_of_mapM hbs hb
  have hparts := builderParts_of_builderView hview
  have hlisted : t ∈ c.complex.values := by
    rw [hvalues, ← hschema]
    exact (ordered_perm hts).subset ht
  constructor
  case own =>
    obtain ⟨-, k, hk, hrefers⟩ := refersTo_of_get? hnames hgraphql hmake h (hindexed.listed hlisted)
    rw [hparts.constant, hparts.typeName, hk]
    exact hrefers
  case metadata =>
    obtain ⟨fields, hfields, hmetadata⟩ := hparts.metadata
    rw [hmetadata]
    intro m hm
    obtain ⟨f, hf, rfl⟩ := List.mem_map.mp hm
    have hkeep := (of_mem_methodFields hfields hf).2
    by_cases hkind : f.type.innermost.kind.isComplex = true
    · obtain ⟨d, hd⟩ := exists_get?_of_generates hkeep hkind
      obtain ⟨-, k, hk, hrefers⟩ := refersTo_of_get? hnames hgraphql hmake h hd
      refine .inr ⟨k, f.type.innermost.nameOrEmpty, ?_, ?_, hrefers⟩ <;>
        simp [fieldMetadata, hkind, hk]
    · exact .inl (by simp [fieldMetadata, hkind])
  case fragments =>
    obtain ⟨types, used, htypes, hfragments⟩ := hparts.fragments
    rw [hfragments]
    intro f hf
    obtain ⟨u, hu, hconstant, hname, -⟩ := mem_fragmentMethods hf
    obtain ⟨name, hget⟩ := exists_get?_of_mem_fragmentTypes htypes hu
    obtain ⟨rfl, k, hk, hrefers⟩ := refersTo_of_get? hnames hgraphql hmake h hget
    rw [hconstant, hname, hk]
    exact hrefers

end Made

/-! ### The registry -/

/-- The classes are those of the types and directives of the catalog. -/
structure ClassesOf (c : Catalog) (cls : Classes) : Prop where
  /-- Those of the enumerations. -/
  enums : enumClasses c = .ok cls.enums
  /-- Those of the directives. -/
  directives : directiveClasses c = .ok cls.directives
  /-- Those of the builders. -/
  builders : builderViews c (typeConstants c.schema) = .ok cls.builders
  /-- Those of the input objects. -/
  inputs : inputViews c = .ok cls.inputs
  /-- The data classes. -/
  data : dataViews c = .ok cls.data

theorem ofCatalog_eq_ok {cls : Classes} : Classes.ofCatalog c = .ok cls ↔ ClassesOf c cls := by
  constructor
  · intro h
    obtain ⟨enums, henums, h⟩ := bind_eq_ok.mp h
    obtain ⟨directives, hdirectives, h⟩ := bind_eq_ok.mp h
    obtain ⟨builders, hbuilders, h⟩ := bind_eq_ok.mp h
    obtain ⟨inputs, hinputs, h⟩ := bind_eq_ok.mp h
    obtain ⟨data, hdata, h⟩ := bind_eq_ok.mp h
    cases pure_eq_ok.mp h
    exact ⟨henums, hdirectives, hbuilders, hinputs, hdata⟩
  · rintro ⟨henums, hdirectives, hbuilders, hinputs, hdata⟩
    rw [Classes.ofCatalog, henums, hdirectives, hbuilders, hinputs, hdata]
    rfl

/-- The builders that plans make, by their types. -/
def registryOf (bs : List BuilderView) : Registry :=
  .ofList (bs.map fun b => (b.typeName, b.shared))

theorem of_registryOf_get? {cls : BuilderClass} (h : (registryOf bs).get? n = some cls) :
    ∃ b ∈ bs, BuilderView.typeName b = n ∧ b.shared = cls := by
  obtain ⟨b, hb, heq⟩ := List.mem_map.mp (Keyed.mem_entries_ofList (Keyed.mem_entries_of_get? h))
  obtain ⟨hname, hshared⟩ := Prod.mk.inj heq
  exact ⟨b, hb, hname, hshared⟩

theorem exists_registryOf_get? (h : ∃ b ∈ bs, BuilderView.typeName b = n) :
    ∃ cls, (registryOf bs).get? n = some cls := by
  obtain ⟨b, hb, rfl⟩ := h
  refine Keyed.exists_get?_of_mem_keys (Keyed.mem_keys_ofList.mpr ?_)
  exact List.mem_map.mpr ⟨_, List.mem_map_of_mem hb, rfl⟩

/-- The types that a builder may nest are registered. -/
theorem registered_of_mem_references (h : Refers constants bs b) (hn : n ∈ b.shared.references) :
    ∃ cls, (registryOf bs).get? n = some cls := by
  refine exists_registryOf_get? ?_
  rcases List.mem_append.mp hn with hn | hn
  · obtain ⟨info, hinfo, htype⟩ := List.mem_filterMap.mp hn
    obtain ⟨m, hm, rfl⟩ := List.mem_map.mp (List.mem_of_mem_filter hinfo)
    rcases h.metadata m hm with ⟨-, hnone⟩ | ⟨k, typeName, -, hsome, hrefers⟩
    · cases hnone.symm.trans htype
    · cases hsome.symm.trans htype
      exact hrefers.registered
  · obtain ⟨f, hf, rfl⟩ := List.mem_map.mp hn
    exact (h.fragments f hf).registered

/-- **The registry of the builders is closed**: they are registered under their types, and so are
the types that they refer to. -/
theorem consistent_registryOf (h : ∀ b ∈ bs, Refers constants bs b) : Consistent (registryOf bs) where
  typeName hget := by
    obtain ⟨b, -, rfl, rfl⟩ := of_registryOf_get? hget
    rfl
  references hget := by
    obtain ⟨b, hb, -, rfl⟩ := of_registryOf_get? hget
    exact fun u hu => registered_of_mem_references (h b hb) hu

/-- Selecting everything with a builder is not refused. -/
theorem withAll_of_refers (h : ∀ b ∈ bs, Refers constants bs b) (hb : b ∈ bs) {d : Draft}
    (hd : d.cls = b.shared) : (d.withAll (registryOf bs)).2 = none := by
  have hreferences : ∀ u ∈ d.cls.references, ∃ cls, (registryOf bs).get? u = some cls := by
    rw [hd]
    exact fun u hu => registered_of_mem_references (h b hb) hu
  obtain ⟨fields, fragments, es, gs, hplan, -⟩ :=
    planAll_includes (consistent_registryOf h) hreferences (h := d.head) rfl
  rw [Draft.withAll, hplan]

end Bindery.Client
