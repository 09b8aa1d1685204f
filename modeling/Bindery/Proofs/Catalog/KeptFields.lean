import Bindery.Proofs.Catalog.References

/-!
# The types to which generated fields lead

A field whose values need a selection set is generated only if its type offers a field: one that is
not left out because it should be avoided. The look at the type goes one step: it is not asked where
the fields lead that the type offers. So a type to which a generated field leads can still be without
generated fields, and it is so exactly if each field that it offers leads to a type that offers none.

## What is proved

* `hasFields_eq_true_iff`, `hasFields_eq_false_iff` — when values of a type have fields.
* `effectiveFields_eq_nil_iff` — which types are without generated fields.
* `kept_field_leads_to_offers` — to which types generated fields lead.
* `archive_kept_empty` — a generated field that leads to a type without generated fields.
-/

namespace Bindery.Catalog

open Bindery.Schema

variable {c : Catalog} {t u w : TypeDefinition} {f g : Field} {r : TypeRef} {gs : List Field}

/-! ### What types offer -/

/-- The reference leads to the type, whose values need a selection set. -/
structure Selects (c : Catalog) (r : TypeRef) (u : TypeDefinition) : Prop where
  /-- A selection set is needed. -/
  kind : r.innermost.kind.isComplex = true
  /-- The type is known. -/
  known : u ∈ c.complex.values
  /-- The reference has its name. -/
  name : r.innermost.nameOrEmpty = u.name

/-- Values of the type have the field, and it is not left out because it should be avoided. -/
structure Offers (c : Catalog) (u : TypeDefinition) (f : Field) : Prop where
  /-- The field is one of the values of the type. -/
  field : ∃ fs, c.schema.effectiveFields u = .ok fs ∧ f ∈ fs
  /-- The field need not be avoided, or is generated all the same. -/
  included : c.configuration.includesDeprecated = true ∨ f.isDeprecated = false

/-- The fields of values of the type can be told, and all of them are left out because they should be
avoided. -/
structure OffersNothing (c : Catalog) (u : TypeDefinition) : Prop where
  /-- The fields can be told. -/
  fields : ∃ fs, c.schema.effectiveFields u = .ok fs
  /-- None of them is offered. -/
  none : ∀ f, ¬ c.Offers u f

theorem includes_eq_true_iff {isDeprecated : Bool} : c.includes isDeprecated = true ↔
    c.configuration.includesDeprecated = true ∨ isDeprecated = false := by
  rw [includes, Bool.or_eq_true, Bool.not_eq_true']

theorem offers_iff {fs : List Field} (h : c.schema.effectiveFields u = .ok fs) :
    c.Offers u f ↔ f ∈ fs ∧ c.includes f.isDeprecated = true := by
  rw [includes_eq_true_iff]
  constructor
  · rintro ⟨⟨fs', hfs', hf⟩, hincluded⟩
    cases h.symm.trans hfs'
    exact ⟨hf, hincluded⟩
  · rintro ⟨hf, hincluded⟩
    exact ⟨⟨fs, h, hf⟩, hincluded⟩

/-- Where it can be told which fields a type offers, it offers some or nothing. -/
theorem offersNothing_iff {fs : List Field} (h : c.schema.effectiveFields u = .ok fs) :
    c.OffersNothing u ↔ fs.any (fun f => c.includes f.isDeprecated) = false := by
  rw [List.any_eq_false]
  constructor
  · rintro ⟨-, hnone⟩ f hf hincluded
    exact hnone f ((offers_iff h).mpr ⟨hf, hincluded⟩)
  · intro hnone
    exact ⟨⟨fs, h⟩, fun f hf => hnone f ((offers_iff h).mp hf).1 ((offers_iff h).mp hf).2⟩

/-! ### Fields that are generated -/

section

variable (h : c.Indexed)

include h

theorem selects_iff (hkind : r.innermost.kind.isComplex = true) :
    c.Selects r u ↔ c.complex.get? r.innermost.nameOrEmpty = some u := by
  refine ⟨fun hu => ?_, fun hu => ?_⟩
  · rw [hu.name]
    exact h.listed hu.known
  · obtain ⟨hknown, hname⟩ := h.found hu
    exact ⟨hkind, hknown, hname.symm⟩

theorem Selects.eq (hu : c.Selects r u) (hw : c.Selects r w) : u = w :=
  List.inj_on_of_nodup_map h.distinct hu.known hw.known (hu.name.symm.trans hw.name)

theorem hasFields_of_selects (hu : c.Selects r u) :
    c.hasFields r = (c.schema.effectiveFields u).map fun fs =>
      fs.any fun f => c.includes f.isDeprecated := by
  rw [hasFields]
  simp only [hu.kind, (selects_iff h hu.kind).mp hu, Bool.not_true, Bool.false_eq_true, if_false]
  cases c.schema.effectiveFields u <;> rfl

/-- Values of a type have fields if no selection set is needed or if the type offers a field. -/
theorem hasFields_eq_true_iff : c.hasFields r = .ok true ↔
    r.innermost.kind.isComplex = false ∨ ∃ u, c.Selects r u ∧ ∃ f, c.Offers u f := by
  cases hkind : r.innermost.kind.isComplex with
  | false =>
    rw [hasFields]
    simp only [hkind, Bool.not_false, if_true, true_or, iff_true]
    rfl
  | true =>
    rw [or_iff_right (by decide)]
    constructor
    · intro htrue
      obtain ⟨u, hu⟩ := exists_get?_of_hasFields htrue hkind
      have hselects := (selects_iff h hkind).mpr hu
      rw [hasFields_of_selects h hselects] at htrue
      obtain ⟨fs, hfs, hany⟩ := map_eq_ok.mp htrue
      obtain ⟨f, hf, hincluded⟩ := List.any_eq_true.mp hany
      exact ⟨u, hselects, f, (offers_iff hfs).mpr ⟨hf, hincluded⟩⟩
    · rintro ⟨u, hu, f, hf⟩
      obtain ⟨fs, hfs, -⟩ := hf.field
      rw [hasFields_of_selects h hu, hfs]
      exact congrArg Except.ok (List.any_eq_true.mpr ⟨f, (offers_iff hfs).mp hf⟩)

/-- Values of a type have no fields if a selection set is needed and the type offers nothing. -/
theorem hasFields_eq_false_iff :
    c.hasFields r = .ok false ↔ ∃ u, c.Selects r u ∧ c.OffersNothing u := by
  constructor
  · intro hfalse
    have hkind : r.innermost.kind.isComplex = true := by
      by_contra hkind
      have htrue := (hasFields_eq_true_iff h).mpr (.inl (by simpa using hkind))
      cases hfalse.symm.trans htrue
    obtain ⟨u, hu⟩ := exists_get?_of_hasFields hfalse hkind
    have hselects := (selects_iff h hkind).mpr hu
    rw [hasFields_of_selects h hselects] at hfalse
    obtain ⟨fs, hfs, hany⟩ := map_eq_ok.mp hfalse
    exact ⟨u, hselects, (offersNothing_iff hfs).mpr hany⟩
  · rintro ⟨u, hu, hnothing⟩
    obtain ⟨fs, hfs⟩ := hnothing.fields
    rw [hasFields_of_selects h hu, hfs]
    exact congrArg Except.ok ((offersNothing_iff hfs).mp hnothing)

/-- It can be told whether values of a type have fields if no selection set is needed, or if the
fields of the type can be told. -/
theorem exists_hasFields_iff : (∃ has, c.hasFields r = .ok has) ↔
    r.innermost.kind.isComplex = true →
      ∃ u, c.Selects r u ∧ ∃ fs, c.schema.effectiveFields u = .ok fs := by
  constructor
  · rintro ⟨has, hhas⟩ hkind
    obtain ⟨u, hu⟩ := exists_get?_of_hasFields hhas hkind
    have hselects := (selects_iff h hkind).mpr hu
    rw [hasFields_of_selects h hselects] at hhas
    obtain ⟨fs, hfs, -⟩ := map_eq_ok.mp hhas
    exact ⟨u, hselects, fs, hfs⟩
  · intro htold
    by_cases hkind : r.innermost.kind.isComplex = true
    · obtain ⟨u, hu, fs, hfs⟩ := htold hkind
      refine ⟨fs.any fun f => c.includes f.isDeprecated, ?_⟩
      rw [hasFields_of_selects h hu, hfs]
      rfl
    · exact ⟨true, (hasFields_eq_true_iff h).mpr (.inl (by simpa using hkind))⟩

end

/-! ### Types without generated fields -/

/-- The generated fields of a type are those of its fields that are generated. -/
theorem effectiveFields_eq_ok {fs : List Field} (h : c.schema.effectiveFields u = .ok fs) :
    c.effectiveFields u = c.generated fs := by
  rw [effectiveFields]
  split_ifs with hkind
  · rw [h]
    rfl
  · rw [Schema.effectiveFields, if_neg hkind] at h
    cases h
    rfl

theorem generates_of_offers (hf : c.Offers u f) : c.generates f = c.hasFields f.type := by
  rw [generates, if_pos (includes_eq_true_iff.mpr hf.included)]

/-- The fields that a type generates are offered. -/
theorem mem_effectiveFields_iff (hgs : c.effectiveFields u = .ok gs)
    {fs : List Field} (hfs : c.schema.effectiveFields u = .ok fs) :
    g ∈ gs ↔ c.Offers u g ∧ c.hasFields g.type = .ok true := by
  rw [effectiveFields_eq_ok hfs] at hgs
  rw [mem_generated hgs, offers_iff hfs, and_assoc]
  refine and_congr_right fun _ => ?_
  rw [generates]
  split_ifs with hincluded <;> simp [hincluded]

/-- The generated fields of a type can be told if it can be told of each field that the type offers
whether its values have fields. -/
theorem exists_effectiveFields_iff {fs : List Field} (hfs : c.schema.effectiveFields u = .ok fs) :
    (∃ gs, c.effectiveFields u = .ok gs) ↔
      ∀ g, c.Offers u g → ∃ has, c.hasFields g.type = .ok has := by
  rw [effectiveFields_eq_ok hfs, exists_generated_iff]
  constructor
  · intro htold g hg
    rw [← generates_of_offers hg]
    exact htold g ((offers_iff hfs).mp hg).1
  · intro htold g hg
    by_cases hincluded : c.includes g.isDeprecated = true
    · have hoffers := (offers_iff hfs).mpr ⟨hg, hincluded⟩
      rw [generates_of_offers hoffers]
      exact htold g hoffers
    · exact ⟨false, by rw [generates, if_neg hincluded]⟩

/-- **A type is without generated fields exactly if each field that it offers leads to a type that
offers nothing.** -/
theorem effectiveFields_eq_nil_iff (h : c.Indexed) (hgs : c.effectiveFields u = .ok gs)
    {fs : List Field} (hfs : c.schema.effectiveFields u = .ok fs) :
    gs = [] ↔ ∀ g, c.Offers u g → ∃ w, c.Selects g.type w ∧ c.OffersNothing w := by
  simp only [List.eq_nil_iff_forall_not_mem, mem_effectiveFields_iff hgs hfs, not_and]
  refine forall₂_congr fun g hg => ?_
  obtain ⟨has, hhas⟩ := (exists_effectiveFields_iff hfs).mp ⟨gs, hgs⟩ g hg
  rw [← hasFields_eq_false_iff h, hhas]
  cases has <;> simp

/-- **A generated field leads to a type that offers a field.** Where types have different names, the
type of a generated field whose values need a selection set is known, and offers a field. The fields
that are generated for this type can be told exactly if those types are known, with the members that
they name, to which the fields that it offers lead. There are none exactly if each field that the type
offers leads to a type that offers nothing. So there is one if also what should be avoided is
generated and no type is without fields. -/
theorem kept_field_leads_to_offers {configuration : Configuration} {s : Schema} {own : List Field}
    (hnames : (s.types.map TypeDefinition.name).Nodup) (hmake : (make configuration s).2 = .ok c)
    (hown : c.ownFields t = .ok own) (hf : f ∈ own)
    (hkind : f.type.innermost.kind.isComplex = true) :
    (∃ u ∈ s.complexTypes, c.Selects f.type u) ∧
    ∀ u, c.Selects f.type u →
      (∃ g, c.Offers u g) ∧
      ((∃ gs, c.effectiveFields u = .ok gs) ↔
        ∀ g, c.Offers u g → g.type.innermost.kind.isComplex = true →
          ∃ w, c.Selects g.type w ∧ ∃ fs, c.schema.effectiveFields w = .ok fs) ∧
      (∀ gs, c.effectiveFields u = .ok gs →
        (gs = [] ↔ ∀ g, c.Offers u g → ∃ w, c.Selects g.type w ∧ c.OffersNothing w)) ∧
      (configuration.includesDeprecated = true →
        (∀ w ∈ s.complexTypes, s.effectiveFields w ≠ .ok []) → c.effectiveFields u ≠ .ok []) := by
  obtain ⟨hindexed, hvalues⟩ := indexed_of_make hnames hmake
  obtain ⟨hschema, -⟩ := schema_of_make hmake
  have hconfiguration := configuration_of_make hmake
  -- the field is generated, so the type was looked at
  have hgenerates : c.generates f = .ok true := ((mem_generated hown).mp hf).2
  have hhas : c.hasFields f.type = .ok true := by
    rw [generates] at hgenerates
    split_ifs at hgenerates
    · exact hgenerates
    · cases hgenerates
  obtain ⟨u, hu, g, hg⟩ :=
    ((hasFields_eq_true_iff hindexed).mp hhas).resolve_left (by simp [hkind])
  refine ⟨⟨u, hvalues ▸ hu.known, hu⟩, fun u' hu' => ?_⟩
  obtain rfl : u = u' := Selects.eq hindexed hu hu'
  obtain ⟨fs, hfs, -⟩ := hg.field
  refine ⟨⟨g, hg⟩, ?_, fun gs hgs => effectiveFields_eq_nil_iff hindexed hgs hfs,
    fun hall hfields hnil => ?_⟩
  · rw [exists_effectiveFields_iff hfs]
    exact forall₂_congr fun g _ => exists_hasFields_iff hindexed
  · obtain ⟨w, hw, hnothing⟩ := (effectiveFields_eq_nil_iff hindexed hnil hfs).mp rfl g hg
    obtain ⟨ws, hws⟩ := hnothing.fields
    -- what should be avoided is offered as well, so there is no field at all
    have hempty : ws = [] := by
      refine List.eq_nil_iff_forall_not_mem.mpr fun f hf => hnothing.none f ?_
      exact ⟨⟨ws, hws, hf⟩, .inl (hconfiguration ▸ hall)⟩
    refine hfields w (hvalues ▸ hw.known) ?_
    rw [← hschema, hws, hempty]

/-! ### An archive -/

/-- What is to be found in an archive should be avoided. -/
def archiveLegacy : TypeDefinition :=
  ⟨.object, "Legacy", none, [⟨"old", none, .leaf .scalar (some "String"), [], true, none⟩], [], [],
    [], []⟩

/-- The archive. -/
def archiveType : TypeDefinition :=
  ⟨.object, "Archive", none, [⟨"legacy", none, .leaf .object (some "Legacy"), [], false, none⟩], [],
    [], [], []⟩

/-- The field that leads to the archive. -/
def archiveField : Field :=
  ⟨"archive", none, .leaf .object (some "Archive"), [], false, none⟩

/-- A root type that leads to the archive. -/
def archiveQuery : TypeDefinition :=
  ⟨.object, "Query", none,
    [archiveField, ⟨"current", none, .leaf .scalar (some "String"), [], false, none⟩], [], [], [], []⟩

/-- A schema with an archive. -/
def archiveSchema : Schema where
  queryType := some "Query"
  mutationType := none
  subscriptionType := none
  types := [archiveQuery, archiveType, archiveLegacy]
  directives := []

/-- The catalog of the schema. -/
def archiveCatalog : Catalog where
  configuration := {}
  schema := archiveSchema
  types := byName archiveSchema.types
  complex := byName archiveSchema.complexTypes
  directives := .empty
  memberships := .empty
  renamed := .empty
  referenced := []

theorem make_archive : (make {} archiveSchema).2 = .ok archiveCatalog := by
  cbv

theorem archive_distinct : (archiveSchema.types.map TypeDefinition.name).Nodup := by
  decide

theorem archive_complexTypes :
    archiveSchema.complexTypes = [archiveQuery, archiveType, archiveLegacy] := by
  cbv

theorem archive_selects : archiveCatalog.Selects archiveField.type archiveType :=
  ⟨rfl, (indexed_of_make archive_distinct make_archive).2 ▸ archive_complexTypes ▸ by simp, rfl⟩

theorem archive_ownFields : archiveCatalog.ownFields archiveQuery = .ok archiveQuery.fields := by
  cbv

theorem archive_effectiveFields : archiveCatalog.effectiveFields archiveType = .ok [] := by
  cbv

/-- The field that leads to the archive is generated, and no field is generated for the archive. -/
theorem archive_kept_empty :
    (archiveSchema.types.map TypeDefinition.name).Nodup ∧
      (make {} archiveSchema).2 = .ok archiveCatalog ∧
      ¬ ∀ t ∈ archiveSchema.complexTypes, ∀ own, archiveCatalog.ownFields t = .ok own →
        ∀ f ∈ own, ∀ u ∈ archiveSchema.complexTypes, f.type.innermost.kind.isComplex = true →
          f.type.innermost.nameOrEmpty = u.name →
            ∃ gs, archiveCatalog.effectiveFields u = .ok gs ∧ gs ≠ [] := by
  refine ⟨archive_distinct, make_archive, fun hkept => ?_⟩
  obtain ⟨gs, hgs, hne⟩ := hkept archiveQuery (archive_complexTypes ▸ by simp) _ archive_ownFields
    archiveField (List.mem_cons_self ..) archiveType (archive_complexTypes ▸ by simp) rfl rfl
  cases archive_effectiveFields.symm.trans hgs
  exact hne rfl

/-- The archive offers a field, which leads to a type that offers nothing. -/
theorem archive_offers :
    (archiveSchema.types.map TypeDefinition.name).Nodup ∧
      (make {} archiveSchema).2 = .ok archiveCatalog ∧
      archiveCatalog.ownFields archiveQuery = .ok archiveQuery.fields ∧
      archiveField ∈ archiveQuery.fields ∧ archiveField.type.innermost.kind.isComplex = true ∧
      (∃ g, archiveCatalog.Offers archiveType g) ∧
      ∀ g, archiveCatalog.Offers archiveType g →
        ∃ w, archiveCatalog.Selects g.type w ∧ archiveCatalog.OffersNothing w := by
  have hf : archiveField ∈ archiveQuery.fields := List.mem_cons_self ..
  obtain ⟨-, htype⟩ :=
    kept_field_leads_to_offers archive_distinct make_archive archive_ownFields hf rfl
  obtain ⟨hoffers, -, hnil, -⟩ := htype archiveType archive_selects
  exact ⟨archive_distinct, make_archive, archive_ownFields, hf, rfl, hoffers,
    (hnil [] archive_effectiveFields).mp rfl⟩

end Bindery.Catalog
