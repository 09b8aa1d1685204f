import Bindery.Catalog.Make
import Bindery.Proofs.Catalog.ClassNames
import Bindery.Proofs.Keyed
import Bindery.Proofs.Result

/-!
# The directives and the types of a catalog

Of several directives with one name a catalog knows the first one. Where the types of a schema have
different names, a catalog finds each type whose values need a selection set under its name, and lists
these types as the schema does. Without given class names their classes differ.

## What is proved

* `nodup_names_fieldDirectives` — no two directives of a catalog have one name.
* `mem_directives_of_make`, `mem_fieldDirectives_of_make` — which directives of a schema they are.
* `exists_get?_byName` — under which names definitions are found.
* `values_byName` — definitions with different names stand in order.
* `indexed_of_make` — a catalog lists the types whose values need a selection set, and finds them.
* `classesDiffer_of_make` — the classes of these types differ.
-/

namespace Bindery.Catalog

open Bindery.Schema

variable {c : Catalog} {s : Schema}

theorem mem_collectDirectives {ds : List DirectiveDefinition} {known : Keyed DirectiveDefinition}
    {log : Log} {d : DirectiveDefinition} (h : d ∈ (collectDirectives ds known log).1.values) :
    d ∈ known.values ∨ d ∈ ds := by
  induction ds generalizing known log with
  | nil => exact .inl h
  | cons x ds ih =>
    rw [collectDirectives] at h
    split_ifs at h
    · exact (ih h).imp_right (List.mem_cons_of_mem _)
    · rcases ih h with h | h
      · rcases Keyed.mem_values_put h with rfl | h
        · exact .inr List.mem_cons_self
        · exact .inl h
      · exact .inr (List.mem_cons_of_mem _ h)

/-- Directives of different names are all known. -/
theorem values_collectDirectives {ds : List DirectiveDefinition} {known : Keyed DirectiveDefinition}
    {log : Log} (h : (known.keys ++ ds.map DirectiveDefinition.name).Nodup) :
    (collectDirectives ds known log).1.values = known.values ++ ds := by
  induction ds generalizing known log with
  | nil => exact (List.append_nil _).symm
  | cons x ds ih =>
    have hnew : x.name ∉ known.keys := fun hmem =>
      (List.nodup_append'.mp h).2.2 hmem List.mem_cons_self
    rw [List.map_cons, List.append_cons, ← Keyed.keys_put_of_not_mem hnew x] at h
    rw [collectDirectives, if_neg fun hc => hnew (Keyed.contains_iff.mp hc), ih h,
      Keyed.values_put_of_not_mem hnew, ← List.append_cons]

/-- Directives stand under their names, each name once. -/
structure NamedOnce (known : Keyed DirectiveDefinition) : Prop where
  /-- Each directive stands under its name. -/
  named : ∀ e ∈ known.entries, e.2.name = e.1
  /-- No name stands twice. -/
  once : known.keys.Nodup

theorem NamedOnce.put {known : Keyed DirectiveDefinition} (h : NamedOnce known)
    (d : DirectiveDefinition) : NamedOnce (known.put d.name d) where
  named e he := by
    rcases Keyed.mem_putEntry he with rfl | he
    · rfl
    · exact h.named e he
  once := Keyed.nodup_keys_put h.once _ _

theorem NamedOnce.collect {ds : List DirectiveDefinition} {known : Keyed DirectiveDefinition}
    {log : Log} (h : NamedOnce known) : NamedOnce (collectDirectives ds known log).1 := by
  induction ds generalizing known log with
  | nil => exact h
  | cons d ds ih =>
    rw [collectDirectives]
    split_ifs
    · exact ih h
    · exact ih (h.put d)

theorem NamedOnce.names {known : Keyed DirectiveDefinition} (h : NamedOnce known) :
    known.values.map DirectiveDefinition.name = known.keys := by
  rw [Keyed.values, Keyed.keys, List.map_map]
  exact List.map_congr_left fun e he => h.named e he

/-- A catalog knows the directives that are collected from its schema. -/
theorem directives_of_make {configuration : Configuration} (h : (make configuration s).2 = .ok c) :
    c.directives = (collectDirectives s.directives .empty []).1 := by
  obtain ⟨-, renamed, referenced, -, -, rfl⟩ := make_eq_ok_iff.mp h
  rfl

/-- No two directives of a catalog have one name. -/
theorem nodup_names_fieldDirectives {configuration : Configuration}
    (h : (make configuration s).2 = .ok c) :
    (c.fieldDirectives.map DirectiveDefinition.name).Nodup := by
  have hnamed : NamedOnce c.directives := by
    rw [directives_of_make h]
    exact NamedOnce.collect ⟨nofun, .nil⟩
  refine List.Nodup.sublist (List.filter_sublist.map _) ?_
  rw [hnamed.names]
  exact hnamed.once

/-- The directives of a catalog are those of its schema. -/
theorem mem_directives_of_make {configuration : Configuration} {d : DirectiveDefinition}
    (h : (make configuration s).2 = .ok c) (hd : d ∈ c.fieldDirectives) :
    d ∈ s.directives ∧ d.isOnFields = true := by
  obtain ⟨hd, hfields⟩ := List.mem_filter.mp hd
  rw [directives_of_make h] at hd
  exact ⟨(mem_collectDirectives hd).resolve_left List.not_mem_nil, hfields⟩

/-- Where the directives have different names, all of them are. -/
theorem mem_fieldDirectives_of_make {configuration : Configuration} {d : DirectiveDefinition}
    (h : (make configuration s).2 = .ok c)
    (hnames : (s.directives.map DirectiveDefinition.name).Nodup) (hd : d ∈ s.directives)
    (hfields : d.isOnFields = true) : d ∈ c.fieldDirectives := by
  have hvalues : (collectDirectives s.directives .empty []).1.values =
      Keyed.empty.values ++ s.directives := values_collectDirectives hnames
  refine List.mem_filter.mpr ⟨?_, hfields⟩
  rw [directives_of_make h, hvalues]
  exact hd

end Bindery.Catalog

namespace Bindery

open Bindery.Schema

variable {ts : List TypeDefinition} {t : TypeDefinition} {name : String}

theorem of_get?_byName (h : (byName ts).get? name = some t) : t ∈ ts ∧ t.name = name := by
  obtain ⟨u, hu, heq⟩ := List.mem_map.mp (Keyed.mem_entries_ofList (Keyed.mem_entries_of_get? h))
  obtain ⟨rfl, rfl⟩ := Prod.mk.inj heq
  exact ⟨hu, rfl⟩

/-- A definition is found under each of the names. -/
theorem exists_get?_byName :
    (∃ t, (byName ts).get? name = some t) ↔ ∃ t ∈ ts, t.name = name := by
  refine ⟨fun ⟨t, ht⟩ => ⟨t, of_get?_byName ht⟩, ?_⟩
  rintro ⟨t, ht, rfl⟩
  refine Keyed.exists_get?_of_mem_keys (Keyed.mem_keys_ofList.mpr ?_)
  rw [List.map_map]
  exact List.mem_map_of_mem ht

/-- Definitions stand under their names. -/
theorem name_of_mem_entries {e : String × TypeDefinition} (h : e ∈ (byName ts).entries) :
    e.2.name = e.1 := by
  obtain ⟨t, -, rfl⟩ := List.mem_map.mp (Keyed.mem_entries_ofList h)
  rfl

theorem names_byName (ts : List TypeDefinition) :
    (byName ts).values.map TypeDefinition.name = (byName ts).keys := by
  rw [Keyed.values, Keyed.keys, List.map_map]
  exact List.map_congr_left fun e he => name_of_mem_entries he

section Distinct

variable (hnames : (ts.map TypeDefinition.name).Nodup)

include hnames

theorem entries_byName : (byName ts).entries = ts.map fun (t : TypeDefinition) => (t.name, t) := by
  refine Keyed.entries_ofList ?_
  rwa [List.map_map]

/-- Definitions with different names are listed as they are. -/
theorem values_byName : (byName ts).values = ts := by
  rw [Keyed.values, entries_byName hnames, List.map_map]
  exact List.map_id ts

/-- What is found under a name is the definition of that name. -/
theorem get?_byName_iff : (byName ts).get? name = some t ↔ t ∈ ts ∧ t.name = name := by
  refine ⟨of_get?_byName, ?_⟩
  rintro ⟨ht, rfl⟩
  refine Keyed.get?_of_mem_entries (Keyed.nodup_keys_ofList _) ?_
  rw [← byName, entries_byName hnames]
  exact List.mem_map_of_mem (f := fun (t : TypeDefinition) => (t.name, t)) ht

end Distinct

namespace Catalog

variable {c : Catalog}

/-- The types whose values need a selection set have different names, and the catalog finds each of
them under its name. -/
structure Indexed (c : Catalog) : Prop where
  /-- No two of the types have one name. -/
  distinct : (c.complex.values.map TypeDefinition.name).Nodup
  /-- What is found under a name is a type of that name. -/
  found : ∀ {name t}, c.complex.get? name = some t → t ∈ c.complex.values ∧ t.name = name
  /-- Each type is found. -/
  listed : ∀ {t}, t ∈ c.complex.values → c.complex.get? t.name = some t

theorem Indexed.mem_keys (h : c.Indexed) (ht : t ∈ c.complex.values) : t.name ∈ c.complex.keys :=
  Keyed.mem_keys_of_get? (h.listed ht)

/-- The types that are found are those of the schema whose values need a selection set. -/
theorem mem_complexTypes (h : c.complex = byName c.schema.complexTypes) (ht : t ∈ c.complex.values) :
    t ∈ c.schema.complexTypes := by
  rw [h, byName] at ht
  simpa using Keyed.mem_values_ofList ht

/-- Types by their names are indexed by them, whether the names differ or not. -/
theorem indexed_of_byName (h : c.complex = byName ts) : c.Indexed := by
  constructor
  case distinct =>
    rw [h, names_byName]
    exact Keyed.nodup_keys_ofList _
  case found =>
    intro name t ht
    have he := Keyed.mem_entries_of_get? ht
    exact ⟨List.mem_map_of_mem he, name_of_mem_entries (h ▸ he)⟩
  case listed =>
    rw [h]
    intro t ht
    obtain ⟨e, he, rfl⟩ := List.mem_map.mp ht
    rw [name_of_mem_entries he]
    exact Keyed.get?_of_mem_entries (Keyed.nodup_keys_ofList _) he

/-- A catalog lists the types whose values need a selection set as its schema does, and finds
them. -/
theorem indexed_of_make {configuration : Configuration} {s : Schema}
    (hnames : (s.types.map TypeDefinition.name).Nodup) (h : (make configuration s).2 = .ok c) :
    c.Indexed ∧ c.complex.values = s.complexTypes := by
  obtain ⟨-, hcomplex⟩ := schema_of_make h
  refine ⟨indexed_of_byName hcomplex, ?_⟩
  rw [hcomplex]
  exact values_byName (hnames.sublist (List.filter_sublist.map _))

/-! ### Classes -/

theorem className_mem_classesOf (h : hasClasses t = true) : c.className t.name ∈ c.classesOf t := by
  rw [classesOf, if_pos h]
  exact List.mem_cons_self

theorem builder_mem_classesOf (h : hasClasses t = true) (hkind : t.kind.isComplex = true) :
    c.className t.name builderSuffix ∈ c.classesOf t := by
  rw [classesOf, if_pos h, if_pos hkind]
  exact List.mem_cons_of_mem _ (List.mem_singleton_self _)

/-- The types of a kind that are not built in and no scalars have classes. -/
theorem of_mem_typesOf {s : Schema} {wanted : Kind → Bool} (hscalar : wanted .scalar = false)
    (h : t ∈ s.typesOf wanted) : t ∈ s.types ∧ hasClasses t = true ∧ wanted t.kind = true := by
  obtain ⟨ht, hwanted⟩ := List.mem_filter.mp h
  rw [Bool.and_eq_true, Bool.not_eq_true'] at hwanted
  have hkind : t.kind ≠ .scalar := by
    intro hkind
    rw [hkind, hscalar] at hwanted
    cases hwanted.1
  exact ⟨ht, by simp [hasClasses, hwanted.2, hkind], hwanted.1⟩

/-- One name is not that of classes of two types. -/
theorem eq_of_mem_classesOf {t' : TypeDefinition} {n : String} (hfree : c.CollisionFree c.schema.types)
    (ht : t ∈ c.schema.types) (ht' : t' ∈ c.schema.types) (hn : n ∈ c.classesOf t)
    (hn' : n ∈ c.classesOf t') : t = t' := by
  by_contra hne
  have : Std.Symm (Function.onFun List.Disjoint c.classesOf) := ⟨fun _ _ h => h.symm⟩
  exact (List.nodup_flatMap.mp hfree.distinct).2.forall ht ht' hne hn hn'

/-- The classes of the types whose values need a selection set differ from each other and from all
names that every client binds. -/
structure ClassesDiffer (c : Catalog) : Prop where
  /-- No two types have one class name. -/
  injective : ∀ {t t'}, t ∈ c.complex.values → t' ∈ c.complex.values →
    c.className t.name = c.className t'.name → t = t'
  /-- No class name is bound by every client. -/
  unbound : ∀ {t}, t ∈ c.complex.values → c.className t.name ∉ boundNames

/-- Without given class names the classes of the types differ. -/
theorem classesDiffer_of_make {configuration : Configuration} {s : Schema}
    (hgiven : configuration.classNames = .empty) (hnames : (s.types.map TypeDefinition.name).Nodup)
    (h : (make configuration s).2 = .ok c) : c.ClassesDiffer := by
  obtain ⟨hschema, -⟩ := schema_of_make h
  have hfree : c.CollisionFree c.schema.types := hschema ▸ collisionFree_of_make hgiven hnames h
  obtain ⟨-, hvalues⟩ := indexed_of_make hnames h
  have hown : ∀ {t}, t ∈ c.complex.values →
      t ∈ c.schema.types ∧ c.className t.name ∈ c.classesOf t := by
    intro t ht
    rw [hvalues] at ht
    obtain ⟨ht, hclasses, -⟩ := of_mem_typesOf rfl ht
    exact ⟨hschema ▸ ht, className_mem_classesOf hclasses⟩
  refine ⟨fun ht ht' heq => ?_, fun ht => ?_⟩
  · exact eq_of_mem_classesOf hfree (hown ht).1 (hown ht').1 (hown ht).2 (heq ▸ (hown ht').2)
  · exact hfree.unbound _ (List.mem_flatMap.mpr ⟨_, (hown ht).1, (hown ht).2⟩)

end Catalog

end Bindery
