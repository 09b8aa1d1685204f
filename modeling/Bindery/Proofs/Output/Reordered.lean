import Bindery.Client.Builder
import Bindery.Client.Enumeration
import Bindery.Client.Input
import Bindery.Output.Generate
import Bindery.Proofs.Catalog.Configured
import Bindery.Proofs.Client.Views

/-!
# Members in another order

The configured order is no part of what stands in a class: the class of an enumeration, a directive,
a builder, an input object type or the data of a type is the same in a catalog with another order, and
classes in another order are the same classes. So what a phase writes in another order are the same
members. The data classes are written once for each type, whatever types belong to each other; where
no type is its own ancestor they stand behind their bases in every order.

## What is proved

* `enumClass_withOrder`, `directiveClass_withOrder`, `builderView_withOrder`, `inputView_withOrder`,
  `freshView_withOrder` — the classes in a catalog with another order.
* `classes_reordered` — the classes of items in another order.
* `dataViews_reordered` — the data classes in another order, where no type is its own ancestor.
* `Describable.exists_dataView` — a type whose class name can stand in a client and whose fields have
  types has a data class, whatever is known of ancestors.
* `members_reordered` — what a phase writes in another order.
* `dataClasses_emitted` — the data classes: each type once, bases first, and in every order the same.
-/

namespace Bindery.Client

open Bindery.Schema

variable (c : Catalog) (o : GenerationOrder)

/-! ### Enumerations -/

theorem enumMembers_withOrder (vs : List EnumValue) (used : List String) :
    enumMembers (c.withOrder o) vs used = enumMembers c vs used := by
  induction vs generalizing used with
  | nil => rfl
  | cons v vs ih =>
    simp only [enumMembers, ih]
    rfl

theorem enumClass_withOrder (t : TypeDefinition) : enumClass (c.withOrder o) t = enumClass c t := by
  rw [enumClass, enumClass, enumMembers_withOrder]
  rfl

/-! ### Directives and input object types -/

theorem parametersInOrder_withOrder (owner : String) (as : List Argument) (used : List String) :
    parametersInOrder (c.withOrder o) owner as used = parametersInOrder c owner as used := by
  induction as generalizing used with
  | nil => rfl
  | cons a as ih => simp only [parametersInOrder, Catalog.memberType_withOrder, ih]

theorem parameters_withOrder (owner : String) (as : List Argument) (used : List String) :
    parameters (c.withOrder o) owner as used = parameters c owner as used := by
  rw [parameters, parameters, parametersInOrder_withOrder]

theorem directiveClass_withOrder (d : DirectiveDefinition) :
    directiveClass (c.withOrder o) d = directiveClass c d := by
  rw [directiveClass, directiveClass, parameters_withOrder]
  rfl

theorem inputProperties_withOrder (owner : String) (fs : List Argument) (used : List String) :
    inputProperties (c.withOrder o) owner fs used = inputProperties c owner fs used := by
  induction fs generalizing used with
  | nil => rfl
  | cons f fs ih =>
    simp only [inputProperties, Catalog.memberType_withOrder, ih]
    rfl

theorem inputView_withOrder (t : TypeDefinition) : inputView (c.withOrder o) t = inputView c t := by
  rw [inputView, inputView, inputProperties_withOrder]
  rfl

/-! ### Builders -/

theorem directiveParameters_withOrder (ds : List DirectiveDefinition) (used : List String) :
    directiveParameters (c.withOrder o) ds used = directiveParameters c ds used := by
  induction ds generalizing used with
  | nil => rfl
  | cons d ds ih =>
    simp only [directiveParameters, ih]
    rfl

theorem fieldMethods_withOrder (owner : String) (f : Field) (used : List String) :
    fieldMethods (c.withOrder o) owner f used = fieldMethods c owner f used := by
  simp only [fieldMethods, parameters_withOrder, directiveParameters_withOrder]
  rfl

theorem allFieldMethods_withOrder (owner : String) (fs : List Field) (used : List String) :
    allFieldMethods (c.withOrder o) owner fs used = allFieldMethods c owner fs used := by
  induction fs generalizing used with
  | nil => rfl
  | cons f fs ih => simp only [allFieldMethods, fieldMethods_withOrder, ih]

theorem fragmentMethods_withOrder (constants : Keyed String) (ts : List TypeDefinition)
    (used : List String) :
    fragmentMethods (c.withOrder o) constants ts used = fragmentMethods c constants ts used := by
  induction ts generalizing used with
  | nil => rfl
  | cons t ts ih =>
    simp only [fragmentMethods, ih]
    rfl

theorem builderView_withOrder (constants : Keyed String) (t : TypeDefinition) :
    builderView (c.withOrder o) constants t = builderView c constants t := by
  have hfields : methodFields (c.withOrder o) t = methodFields c t := by
    rw [methodFields, methodFields, Catalog.ownFields_withOrder]
  simp only [builderView, hfields, allFieldMethods_withOrder, Catalog.fragmentTypes_withOrder,
    fragmentMethods_withOrder]
  rfl

/-! ### Data classes -/

theorem dataProperties_withOrder (owner : String) (fs : List Field) (used : List String) :
    dataProperties (c.withOrder o) owner fs used = dataProperties c owner fs used := by
  induction fs generalizing used with
  | nil => rfl
  | cons f fs ih =>
    have htype : (c.withOrder o).propertyType owner f = c.propertyType owner f :=
      Catalog.memberType_withOrder c o owner f.name f.type _
    simp only [dataProperties, htype, ih]
    rfl

theorem ancestorsOf_withOrder (fuel : Nat) (name : String) :
    ancestorsOf (c.withOrder o) fuel name = ancestorsOf c fuel name := by
  induction fuel generalizing name with
  | zero => rfl
  | succ fuel ih =>
    have hask : ancestorsOf (c.withOrder o) fuel = ancestorsOf c fuel := funext ih
    rw [ancestorsOf, ancestorsOf, hask]
    rfl

theorem isInherited_withOrder (name : String) (others : List String) :
    isInherited (c.withOrder o) name others = isInherited c name others := by
  induction others with
  | nil => rfl
  | cons other others ih =>
    rw [isInherited, isInherited, ih, ancestorsOf_withOrder]
    rfl

theorem dataView_withOrder (m : Ancestors) (t : TypeDefinition) :
    dataView (c.withOrder o) m t = dataView c m t := by
  have hinherited : isInherited (c.withOrder o) = isInherited c :=
    funext fun name => funext (isInherited_withOrder c o name)
  have hancestors : ancestorsOf (c.withOrder o) = ancestorsOf c :=
    funext fun fuel => funext (ancestorsOf_withOrder c o fuel)
  have hproperties : dataProperties (c.withOrder o) = dataProperties c :=
    funext fun owner => funext fun fs => funext (dataProperties_withOrder c o owner fs)
  simp only [dataView, directParents, inheritedTypes, hinherited, hancestors, hproperties,
    Catalog.effectiveFields_withOrder]
  rfl

theorem freshView_withOrder (t : TypeDefinition) :
    freshView (c.withOrder o) t = freshView c t := by
  rw [freshView, freshView, dataView_withOrder]

/-! ### Classes in another order -/

/-- The classes of items in another order are the same classes. -/
theorem classes_reordered {α β : Type} (configuration' : Configuration)
    {configuration : Configuration} {key : α → Except Refusal String} {view : α → Except Refusal β}
    {items : List α} {vs : List β} (hkey : ∀ x v, view x = .ok v → ∃ k, key x = .ok k)
    (h : (do (← ordered configuration key items).mapM view) = .ok vs) :
    ∃ vs', (do (← ordered configuration' key items).mapM view) = .ok vs' ∧ vs'.Perm vs := by
  obtain ⟨xs, hxs, hvs⟩ := bind_eq_ok.mp h
  have hkeys : ∀ x ∈ items, ∃ k, key x = .ok k := by
    intro x hx
    obtain ⟨v, -, hv⟩ := exists_of_mem_mapM hvs ((ordered_perm hxs).mem_iff.mpr hx)
    exact hkey x v hv
  obtain ⟨xs', hxs'⟩ := exists_ordered configuration' key items hkeys
  obtain ⟨vs', hvs', hperm⟩ := mapM_perm ((ordered_perm hxs).trans (ordered_perm hxs').symm) hvs
  exact ⟨vs', bind_eq_ok.mpr ⟨xs', hxs', hvs'⟩, hperm⟩

variable {c}

/-- Where no type is its own ancestor, the data classes in another order are the same classes. -/
theorem dataViews_reordered (hindexed : c.Indexed) (hc : Acyclic c) {ds : List DataView}
    (h : dataViews c = .ok ds) : ∃ ds', dataViews (c.withOrder o) = .ok ds' ∧ ds'.Perm ds := by
  have hindexed' : (c.withOrder o).Indexed := ⟨hindexed.distinct, hindexed.found, hindexed.listed⟩
  have hc' : Acyclic (c.withOrder o) := hc
  obtain ⟨ts, hts, -, hds⟩ := dataViews_eq hindexed hc h
  obtain ⟨ts', hts'⟩ := exists_ordered (c.withOrder o).configuration
    (fun (t : TypeDefinition) => .ok ((c.withOrder o).className t.name))
    (c.withOrder o).complex.values fun t _ => ⟨_, rfl⟩
  have hperm := emissionOrder_perm hindexed' (ordered_perm hts')
  obtain ⟨ds', hds', hreordered⟩ := mapM_perm (hts.trans hperm.symm) hds
  refine ⟨ds', bind_eq_ok.mpr ⟨ts', hts', ?_⟩, hreordered⟩
  have hviews : freshView (c.withOrder o) = freshView c := funext (freshView_withOrder c o)
  rw [dataViewsInOrder_eq hc' (complete_empty _), hviews]
  exact hds'

end Bindery.Client

namespace Bindery.Output

open Bindery.Schema Bindery.Client Bindery.Catalog

variable {c : Catalog} {t : TypeDefinition} {ts : List TypeDefinition}

/-! ### What a data class needs -/

/-- No look-up for the data class of the type is refused. -/
structure Describable (c : Catalog) (t : TypeDefinition) : Prop where
  /-- The class name can stand in a client. -/
  name : ∃ n, usableClassName (c.className t.name) = .ok n
  /-- The fields can be looked up, and so can their types. -/
  properties : ∃ fs ps, c.effectiveFields t = .ok fs ∧ dataProperties c t.name fs [] = .ok ps

/-- A type of which no look-up is refused has a data class, whatever is known of ancestors. -/
theorem Describable.exists_dataView (h : Describable c t) (m : Ancestors) :
    ∃ d m', dataView c m t = .ok (d, m') := by
  obtain ⟨n, hn⟩ := h.name
  obtain ⟨fs, ps, hfs, hps⟩ := h.properties
  rw [dataView_eq]
  exact ⟨_, _, map_eq_ok.mpr ⟨_, bind_eq_ok.mpr ⟨n, hn, bind_eq_ok.mpr ⟨fs, hfs,
    bind_eq_ok.mpr ⟨ps, hps, rfl⟩⟩⟩, rfl⟩⟩

/-- A data class shows that no look-up for it is refused. -/
theorem describable_of_freshView {d : DataView} (h : freshView c t = .ok d) : Describable c t := by
  obtain ⟨⟨d, m⟩, h, -⟩ := map_eq_ok.mp h
  obtain ⟨n, hn, h⟩ := bind_eq_ok.mp h
  obtain ⟨fs, hfs, h⟩ := bind_eq_ok.mp h
  obtain ⟨ps, hps, -⟩ := bind_eq_ok.mp h
  exact ⟨⟨n, hn⟩, ⟨fs, ps, hfs, hps⟩⟩

/-- The class is what the type gives where something is known of ancestors. -/
def IsDataViewOf (c : Catalog) (t : TypeDefinition) (d : DataView) : Prop :=
  ∃ m m', dataView c m t = .ok (d, m')

/-- Types of which no look-up is refused have data classes in their order. -/
theorem exists_dataViewsInOrder (h : ∀ t ∈ ts, Describable c t) (m : Ancestors) :
    ∃ ds, dataViewsInOrder c ts m = .ok ds ∧ List.Forall₂ (IsDataViewOf c) ts ds := by
  induction ts generalizing m with
  | nil => exact ⟨[], rfl, .nil⟩
  | cons t ts ih =>
    rw [List.forall_mem_cons] at h
    obtain ⟨d, m', hd⟩ := h.1.exists_dataView m
    obtain ⟨ds, hds, hviews⟩ := ih h.2 m'
    exact ⟨d :: ds, bind_eq_ok.mpr ⟨(d, m'), hd, bind_eq_ok.mpr ⟨ds, hds, rfl⟩⟩,
      .cons ⟨m, m', hd⟩ hviews⟩

/-! ### Members in another order -/

variable (o : GenerationOrder)

theorem enumClasses_reordered {es : List EnumClass} (h : enumClasses c = .ok es) :
    ∃ es', enumClasses (c.withOrder o) = .ok es' ∧ es'.Perm es := by
  have hview : enumClass (c.withOrder o) = enumClass c := funext (enumClass_withOrder c o)
  rw [enumClasses, hview]
  exact classes_reordered (c.withOrder o).configuration (fun _ _ _ => ⟨_, rfl⟩) h

theorem directiveClasses_reordered {ds : List DirectiveClass} (h : directiveClasses c = .ok ds) :
    ∃ ds', directiveClasses (c.withOrder o) = .ok ds' ∧ ds'.Perm ds := by
  have hview : directiveClass (c.withOrder o) = directiveClass c :=
    funext (directiveClass_withOrder c o)
  rw [directiveClasses, hview]
  refine classes_reordered (c.withOrder o).configuration (fun d v hv => ?_) h
  obtain ⟨n, hn, -⟩ := bind_eq_ok.mp hv
  exact ⟨n, hn⟩

theorem builderViews_reordered {constants : Keyed String} {bs : List BuilderView}
    (h : builderViews c constants = .ok bs) :
    ∃ bs', builderViews (c.withOrder o) constants = .ok bs' ∧ bs'.Perm bs := by
  have hview : builderView (c.withOrder o) constants = builderView c constants :=
    funext (builderView_withOrder c o constants)
  rw [builderViews, hview]
  exact classes_reordered (c.withOrder o).configuration (fun _ _ _ => ⟨_, rfl⟩) h

theorem inputViews_reordered {is : List InputView} (h : inputViews c = .ok is) :
    ∃ is', inputViews (c.withOrder o) = .ok is' ∧ is'.Perm is := by
  have hview : inputView (c.withOrder o) = inputView c := funext (inputView_withOrder c o)
  rw [inputViews, hview]
  exact classes_reordered (c.withOrder o).configuration (fun _ _ _ => ⟨_, rfl⟩) h

/-- Classes in another order lead to members in another order. -/
theorem map_reordered {α : Type} {member : α → Member} {x y : Except Refusal (List α)}
    {ms : List Member} (hxy : ∀ vs, x = .ok vs → ∃ vs', y = .ok vs' ∧ vs'.Perm vs)
    (h : x.map (List.map member) = .ok ms) :
    ∃ ms', y.map (List.map member) = .ok ms' ∧ ms'.Perm ms := by
  obtain ⟨vs, hvs, rfl⟩ := map_eq_ok.mp h
  obtain ⟨vs', hvs', hperm⟩ := hxy vs hvs
  exact ⟨vs'.map member, map_eq_ok.mpr ⟨vs', hvs', rfl⟩, hperm.map member⟩

/-- What a phase writes in another order are the same members, the data classes where no type is its
own ancestor. -/
theorem members_reordered (hindexed : c.Indexed) {g : Generator} {constants : Keyed String}
    {phase : Phase} (hc : phase = .dataClasses → Acyclic c) {ms : List Member}
    (h : g.members c constants phase = .ok ms) :
    ∃ ms', g.members (c.withOrder o) constants phase = .ok ms' ∧ ms'.Perm ms := by
  cases phase with
  | baseClasses => exact ⟨ms, h, .refl ms⟩
  | typeNames => exact ⟨ms, h, .refl ms⟩
  | enums => exact map_reordered (fun _ => enumClasses_reordered o) h
  | directives => exact map_reordered (fun _ => directiveClasses_reordered o) h
  | builders => exact map_reordered (fun _ => builderViews_reordered o) h
  | inputs => exact map_reordered (fun _ => inputViews_reordered o) h
  | dataClasses => exact map_reordered (fun _ => dataViews_reordered o hindexed (hc rfl)) h

/-! ### The data classes -/

theorem Describable.withOrder (h : Describable c t) : Describable (c.withOrder o) t := by
  obtain ⟨hname, fs, ps, hfs, hps⟩ := h
  refine ⟨hname, fs, ps, ?_, ?_⟩
  · rw [effectiveFields_withOrder, hfs]
  · rw [dataProperties_withOrder, hps]

/-- How the data classes come about: the visits of types come to their end with each type once, and
so do the searches for ancestors, whatever types belong to each other. -/
theorem dataViews_emitted (hindexed : c.Indexed)
    (hlookups : ∀ t ∈ c.complex.values, Describable c t) :
    (∀ name m, Asks c name m ((ancestorsOf c (ancestorFuel c) name).run m).1
      ((ancestorsOf c (ancestorFuel c) name).run m).2) ∧
    ∃ roots ts ds, roots.Perm c.complex.values ∧ Emits c ⟨[], []⟩ roots ⟨[], ts⟩ ∧
      ts.Perm c.complex.values ∧ dataViews c = .ok ds ∧ List.Forall₂ (IsDataViewOf c) ts ds := by
  refine ⟨asks_ancestorsOf c, ?_⟩
  obtain ⟨roots, hroots⟩ := exists_ordered c.configuration
    (fun (t : TypeDefinition) => .ok (c.className t.name)) c.complex.values fun t _ => ⟨_, rfl⟩
  have hperm := ordered_perm hroots
  have hemitted := emissionOrder_perm hindexed hperm
  obtain ⟨⟨visiting, ts⟩, he, hts⟩ := emits_emissionOrder hindexed fun t ht => hperm.subset ht
  obtain rfl : visiting = [] := he.grows.1
  subst hts
  obtain ⟨ds, hds, hviews⟩ := exists_dataViewsInOrder (c := c)
    (fun t ht => hlookups t (hemitted.subset ht)) .empty
  exact ⟨roots, _, ds, hperm, he, hemitted, bind_eq_ok.mpr ⟨roots, hroots, hds⟩, hviews⟩

/-- **Data classes are written once each, bases first, and the same in every order.** Where types have
different names and no look-up for a data class is refused, the visits of types and the searches for
ancestors come to their end, whatever types belong to each other, and there is one data class for
each type whose values need a selection set. Where no type is its own ancestor, each class stands
behind its bases. What a phase writes in another order are the same members, the data classes where
no type is its own ancestor. -/
theorem dataClasses_emitted {configuration : Configuration} {s : Schema} (g : Generator)
    (constants : Keyed String) (hnames : (s.types.map TypeDefinition.name).Nodup)
    (hmake : (Catalog.make configuration s).2 = .ok c)
    (hlookups : ∀ t ∈ s.complexTypes, Describable c t) (o : GenerationOrder) :
    (Catalog.make { configuration with order := o } s).2 = .ok (c.withOrder o) ∧
    (∀ name m, Asks (c.withOrder o) name m
      ((ancestorsOf (c.withOrder o) (ancestorFuel c) name).run m).1
      ((ancestorsOf (c.withOrder o) (ancestorFuel c) name).run m).2) ∧
    (∃ roots ts ds, roots.Perm s.complexTypes ∧
      Emits (c.withOrder o) ⟨[], []⟩ roots ⟨[], ts⟩ ∧ ts.Perm s.complexTypes ∧
      dataViews (c.withOrder o) = .ok ds ∧ List.Forall₂ (IsDataViewOf (c.withOrder o)) ts ds ∧
      g.members (c.withOrder o) constants .dataClasses =
        .ok (ds.map fun d => g.styled .dataClass d.member) ∧
      (Acyclic c → ∀ before d after, ds = before ++ d :: after → ∀ b ∈ d.bases,
        (b = sendableBase ∨ b = dataBase) ∨ b ∈ before.map DataView.className)) ∧
    ∀ o' phase ms, (phase = .dataClasses → Acyclic c) →
      g.members (c.withOrder o) constants phase = .ok ms →
        ∃ ms', g.members (c.withOrder o') constants phase = .ok ms' ∧ ms'.Perm ms := by
  have hmake' := make_withOrder o hmake
  obtain ⟨hindexed, hvalues⟩ := indexed_of_make hnames hmake'
  obtain ⟨hasks, roots, ts, ds, hroots, hemits, hts, hds, hviews⟩ := dataViews_emitted hindexed
    fun t ht => (hlookups t (hvalues ▸ ht)).withOrder o
  refine ⟨hmake', hasks, ⟨roots, ts, ds, hvalues ▸ hroots, hemits, hvalues ▸ hts, hds, hviews,
    map_eq_ok.mpr ⟨ds, hds, rfl⟩, fun hc before d after hsplit b hb => ?_⟩, ?_⟩
  · exact bases_first hindexed hc hds hsplit hb
  · exact fun o' phase ms hc hms => members_reordered o' hindexed hc hms

/-! ### Two orders -/

/-- A type with an identifier that belongs to interfaces. -/
def zoneType (kind : Kind) (name : String) (interfaces : List String) : TypeDefinition :=
  ⟨kind, name, none, [⟨"id", none, .leaf .scalar (some "ID"), [], false, none⟩], [],
    interfaces.map fun n => .leaf .interface (some n), [], []⟩

/-- The types of the schema. -/
def zoneTypes : List TypeDefinition :=
  [zoneType .object "Building" ["Zone"], zoneType .interface "Zone" [],
    zoneType .object "Area" ["Zone"]]

/-- A schema in which buildings and areas are zones. -/
def zoneSchema : Schema where
  queryType := none
  mutationType := none
  subscriptionType := none
  types := zoneTypes
  directives := []

/-- The catalog of the schema. -/
def zoneCatalog : Catalog where
  configuration := {}
  schema := zoneSchema
  types := byName zoneSchema.types
  complex := byName zoneSchema.complexTypes
  directives := .empty
  memberships := .empty
  renamed := .empty
  referenced := []

theorem make_zone : (Catalog.make {} zoneSchema).2 = .ok zoneCatalog := by
  cbv

theorem zone_distinct : (zoneSchema.types.map TypeDefinition.name).Nodup := by
  decide

/-- Zones come before what is one. -/
def zoneRank (n : String) : Nat :=
  if n = "Zone" then 0 else 1

theorem zone_evaluated :
    (∀ t ∈ zoneCatalog.complex.values, ∀ p ∈ parentTypes zoneCatalog t,
      zoneRank p < zoneRank t.name) ∧
    (zoneTypes.mapM (freshView zoneCatalog)).toOption.isSome = true := by
  decide +kernel

theorem zone_acyclic : Acyclic zoneCatalog :=
  acyclic_of_rank (indexed_of_make zone_distinct make_zone).1 zoneRank zone_evaluated.1

theorem zone_describable : ∀ t ∈ zoneSchema.complexTypes, Describable zoneCatalog t := by
  have htypes : zoneSchema.complexTypes = zoneTypes := by cbv
  obtain ⟨-, hviews⟩ := zone_evaluated
  intro t ht
  cases hds : zoneTypes.mapM (freshView zoneCatalog) with
  | error e =>
    rw [hds] at hviews
    cases hviews
  | ok ds =>
    obtain ⟨d, -, hd⟩ := exists_of_mem_mapM hds (htypes ▸ ht)
    exact describable_of_freshView hd

/-- The data classes of zones, buildings and areas are written in both orders, each behind its bases,
and they are the same classes. -/
theorem zone_emitted :
    (zoneSchema.types.map TypeDefinition.name).Nodup ∧
      (Catalog.make {} zoneSchema).2 = .ok zoneCatalog ∧
      (∀ t ∈ zoneSchema.complexTypes, Describable zoneCatalog t) ∧ Acyclic zoneCatalog ∧
      ∃ ds, dataViews (zoneCatalog.withOrder .bySchema) = .ok ds ∧
        (∀ before d after, ds = before ++ d :: after → ∀ b ∈ d.bases,
          (b = sendableBase ∨ b = dataBase) ∨ b ∈ before.map DataView.className) ∧
        ∃ ms', Generator.members ⟨{}, .none, .empty, Part.all, false, ""⟩
            (zoneCatalog.withOrder .alphabetical) .empty .dataClasses = .ok ms' ∧
          ms'.Perm (ds.map DataView.member) := by
  obtain ⟨-, -, ⟨roots, ts, ds, -, -, -, hds, -, hms, hbases⟩, hreordered⟩ :=
    dataClasses_emitted ⟨{}, .none, .empty, Part.all, false, ""⟩ .empty zone_distinct make_zone
      zone_describable .bySchema
  obtain ⟨ms', hms', hperm⟩ :=
    hreordered .alphabetical .dataClasses _ (fun _ => zone_acyclic) hms
  exact ⟨zone_distinct, make_zone, zone_describable, zone_acyclic, ds, hds, hbases zone_acyclic, ms',
    hms', hperm⟩

example : (dataViews zoneCatalog).toOption.map (List.map DataView.className) =
    some ["Zone", "Building", "Area"] := by decide +kernel

end Bindery.Output
