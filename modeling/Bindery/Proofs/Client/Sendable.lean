import Bindery.Proofs.Client.Views

/-!
# Data classes whose objects can be sent

The objects of a data class can be sent if the class derives from the base of such objects. A class
statement names this base only where an input type refers to the type and to none of its ancestors;
the classes below inherit it. So the objects of exactly those classes can be sent to whose types
input types refer, or to an ancestor of whose types.

## What is proved

* `namesSendable_iff` — which class statements name the base of objects that can be sent.
* `sendable_iff` — the objects of which classes can be sent.
* `derives_sendableBase_iff` — where class names differ, these classes derive from the base.
* `sendable_iff_referenced` — both, for the client of a schema.
* `delivery_sendable` — a class that names the base, one that inherits it and one without it.
-/

namespace Bindery.Client

open Bindery.Schema

variable {c : Catalog} {t : TypeDefinition} {d : DataView} {ds : List DataView} {name : String}

/-! ### What is to be told of a class -/

/-- An input type refers to the type of the name or to one of its ancestors. -/
def ReferredTo (c : Catalog) (name : String) : Prop :=
  ∃ a, (a = name ∨ IsAncestor c name a) ∧ a ∈ c.referenced

/-- The class statement names the base of objects that can be sent, besides the classes of
parents. -/
def DataView.NamesSendable (d : DataView) : Prop :=
  d.bases = d.imports ++ [sendableBase]

/-- The class is the one that is emitted for the type. -/
structure EmittedFor (c : Catalog) (ds : List DataView) (t : TypeDefinition) (d : DataView) :
    Prop where
  /-- Values of the type need a selection set. -/
  known : t ∈ c.complex.values
  /-- The class is one of the client. -/
  emitted : d ∈ ds
  /-- It is the class of the type. -/
  view : freshView c t = .ok d

/-- The objects of the class of a type can be sent: its class statement names the base of such
objects, or the class of a parent whose objects can be sent. -/
inductive Sendable (c : Catalog) (ds : List DataView) : String → Prop where
  /-- The base stands in the class statement. -/
  | own {t : TypeDefinition} {d : DataView} (hd : EmittedFor c ds t d) (hbase : d.NamesSendable) :
      Sendable c ds t.name
  /-- The class of a parent stands in the class statement. -/
  | inherited {t : TypeDefinition} {d : DataView} {p : String} (hd : EmittedFor c ds t d)
      (hparent : p ∈ parentTypes c t) (hbase : c.className p ∈ d.imports)
      (habove : Sendable c ds p) : Sendable c ds t.name

theorem ReferredTo.below {p : String} (hp : IsAncestor c name p) (h : ReferredTo c p) :
    ReferredTo c name := by
  obtain ⟨a, rfl | ha, hreferenced⟩ := h
  · exact ⟨a, .inr hp, hreferenced⟩
  · exact ⟨a, .inr (hp.trans ha), hreferenced⟩

/-! ### Class statements -/

section

variable (hindexed : c.Indexed) (hc : Acyclic c)

include hindexed hc

/-- The class statement of a type names the classes of the parents that stay, and behind them the base
that the type brings along. -/
theorem EmittedFor.statement (h : EmittedFor c ds t d) :
    d.imports = (directOf c (parentsOf c t.name)).map (fun p => c.className p) ∧
      ∃ inherited, (∀ a, a ∈ inherited ↔ IsAncestor c t.name a) ∧
        d.bases = d.imports ++ rootBase c t.name (directOf c (parentsOf c t.name)) inherited := by
  obtain ⟨inherited, hmem, hview⟩ := exists_viewWith hc h.view
  obtain ⟨-, hbases, himports⟩ := of_viewWith hview
  rw [← parentsOf_of_get? (hindexed.listed h.known)] at hmem hbases himports
  refine ⟨himports, inherited, fun a => ?_, ?_⟩
  · rw [hmem, ← isAncestor_iff_direct hc]
  · rw [hbases, basesOf_eq, himports]

/-- A class statement names the base of objects that can be sent exactly if an input type refers to
the type and to none of its ancestors. -/
theorem namesSendable_iff (h : EmittedFor c ds t d) :
    d.NamesSendable ↔
      t.name ∈ c.referenced ∧ ∀ a, IsAncestor c t.name a → a ∉ c.referenced := by
  obtain ⟨-, inherited, hinherited, hbases⟩ := h.statement hindexed hc
  have hcondition : (c.referenced.contains t.name && !inherited.any c.referenced.contains) = true ↔
      t.name ∈ c.referenced ∧ ∀ a, IsAncestor c t.name a → a ∉ c.referenced := by
    simp only [Bool.and_eq_true, List.contains_iff_mem, Bool.not_eq_true', List.any_eq_false,
      hinherited]
  rw [DataView.NamesSendable, hbases, List.append_cancel_left_eq, rootBase, ← hcondition]
  split_ifs with hsendable hnone
  · exact iff_of_true rfl hsendable
  · exact iff_of_false (by decide) hsendable
  · exact iff_of_false (by simp) hsendable

/-- A class that names the base brings it along: the objects of no class of an ancestor can be
sent. -/
theorem not_referredTo_of_namesSendable (h : EmittedFor c ds t d) (hbase : d.NamesSendable)
    {a : String} (ha : IsAncestor c t.name a) : ¬ ReferredTo c a := by
  obtain ⟨-, hnone⟩ := (namesSendable_iff hindexed hc h).mp hbase
  rintro ⟨x, rfl | hx, hreferenced⟩
  · exact hnone x ha hreferenced
  · exact hnone x (ha.trans hx) hreferenced

theorem Sendable.referredTo (h : Sendable c ds name) : ReferredTo c name := by
  induction h with
  | own hd hbase =>
    exact ⟨_, .inl rfl, ((namesSendable_iff hindexed hc hd).mp hbase).1⟩
  | inherited hd hparent _ _ ih =>
    refine ih.below (.single ?_)
    rwa [parentsOf_of_get? (hindexed.listed hd.known)]

/-- Each type has a class. -/
theorem exists_emittedFor (hds : dataViews c = .ok ds) (ht : t ∈ c.complex.values) :
    ∃ d, EmittedFor c ds t d := by
  obtain ⟨ts, hperm, -, hviews⟩ := dataViews_eq hindexed hc hds
  obtain ⟨d, hd, hview⟩ := exists_of_mem_mapM hviews (hperm.mem_iff.mpr ht)
  exact ⟨d, ht, hd, hview⟩

theorem ReferredTo.sendable (hds : dataViews c = .ok ds) (ht : t ∈ c.complex.values)
    (h : ReferredTo c t.name) : Sendable c ds t.name := by
  -- upwards from type to parents: an ancestor to which an input type refers is reached through a
  -- parent that stays
  refine (hc.wellFoundedOn_swap c.complex.keys).induction
    (P := fun n => ReferredTo c n → Sendable c ds n) (hindexed.mem_keys ht) (fun n hn ih h => ?_) h
  obtain ⟨u, hu⟩ := Keyed.exists_get?_of_mem_keys hn
  obtain ⟨hmem, rfl⟩ := hindexed.found hu
  obtain ⟨d, hd⟩ := exists_emittedFor hindexed hc hds hmem
  by_cases habove : ∃ a, IsAncestor c u.name a ∧ a ∈ c.referenced
  · obtain ⟨a, ha, hreferenced⟩ := habove
    obtain ⟨p, hp, hpa⟩ := (isAncestor_iff_direct hc).mp ha
    have hparent := (mem_directOf.mp hp).1
    have hstep : Sendable c ds p :=
      ih p (mem_keys_of_mem_parentsOf hparent) (.single hparent) ⟨a, hpa, hreferenced⟩
    refine .inherited hd (parentsOf_of_get? hu ▸ hparent) ?_ hstep
    rw [(hd.statement hindexed hc).1]
    exact List.mem_map_of_mem hp
  · push Not at habove
    obtain ⟨a, rfl | ha, hreferenced⟩ := h
    · exact .own hd ((namesSendable_iff hindexed hc hd).mpr ⟨hreferenced, habove⟩)
    · exact absurd hreferenced (habove a ha)

/-- The objects of the class of a type can be sent exactly if an input type refers to the type or to
one of its ancestors. -/
theorem sendable_iff (hds : dataViews c = .ok ds) (ht : t ∈ c.complex.values) :
    Sendable c ds t.name ↔ ReferredTo c t.name :=
  ⟨Sendable.referredTo hindexed hc, ReferredTo.sendable hindexed hc hds ht⟩

/-! ### Deriving from the base -/

/-- A class whose objects can be sent derives from their base. -/
theorem Sendable.derives (h : Sendable c ds name) : Derives ds (c.className name) sendableBase := by
  induction h with
  | own hd hbase =>
    refine .single ⟨_, hd.emitted, (of_freshView hc hd.view).1, ?_⟩
    rw [hbase]
    exact List.mem_append_right _ (List.mem_singleton_self _)
  | inherited hd _ hbase _ ih =>
    obtain ⟨-, _, -, hbases⟩ := hd.statement hindexed hc
    refine .head ⟨_, hd.emitted, (of_freshView hc hd.view).1, ?_⟩ ih
    rw [hbases]
    exact List.mem_append_left _ hbase

variable (hdiffer : c.ClassesDiffer)

include hdiffer

/-- Where class names differ, no class of a parent is called like the base. -/
theorem namesSendable_iff_mem (h : EmittedFor c ds t d) :
    d.NamesSendable ↔ sendableBase ∈ d.bases := by
  obtain ⟨himports, inherited, -, hbases⟩ := h.statement hindexed hc
  have hnone : sendableBase ∉ d.imports := by
    rw [himports, parentsOf_of_get? (hindexed.listed h.known)]
    intro hmem
    obtain ⟨p, hp, heq⟩ := List.mem_map.mp hmem
    obtain ⟨u, hu⟩ := Keyed.exists_get?_of_mem_keys (mem_parentTypes.mp (mem_directOf.mp hp).1).2
    obtain ⟨hu', rfl⟩ := hindexed.found hu
    exact hdiffer.unbound hu' (heq ▸ by decide)
  rw [DataView.NamesSendable, hbases, List.append_cancel_left_eq, List.mem_append,
    or_iff_right hnone, rootBase]
  split_ifs <;> simp [sendableBase, dataBase]

/-- Where class names differ, the class of a type derives from the base of objects that can be sent
exactly if an input type refers to the type or to one of its ancestors. -/
theorem derives_sendableBase_iff (hds : dataViews c = .ok ds) (ht : t ∈ c.complex.values) :
    Derives ds (c.className t.name) sendableBase ↔ ReferredTo c t.name := by
  refine ⟨fun hderives => ?_, fun h => (h.sendable hindexed hc hds ht).derives hindexed hc⟩
  obtain ⟨u, hu, habove, d, hd, hname, hb⟩ :=
    exists_base_of_derives hindexed hdiffer hc hds ht hderives
  have hemitted : EmittedFor c ds u d :=
    ⟨hu, hd, view_of_className hindexed hdiffer hc hds hu hd hname⟩
  have hnames := (namesSendable_iff_mem hindexed hc hdiffer hemitted).mpr hb
  refine ⟨u.name, habove.imp_left (congrArg TypeDefinition.name), ?_⟩
  exact ((namesSendable_iff hindexed hc hemitted).mp hnames).1

end

/-! ### The classes of a schema -/

/-- **The objects of exactly the right classes can be sent.** Where types have different names and
none is its own ancestor, each type has a class. Its objects can be sent, through a base that its own
class statement names or one that it inherits, exactly if an input type refers to the type or to one
of its ancestors; and a class statement names the base of such objects only if those of no class of
an ancestor can be sent. Where class names differ, and so they do where none is given, these are the
classes that derive from the base by their names. -/
theorem sendable_iff_referenced {configuration : Configuration} {s : Schema}
    (hnames : (s.types.map TypeDefinition.name).Nodup)
    (hmake : (Catalog.make configuration s).2 = .ok c) (hc : Acyclic c)
    (hds : dataViews c = .ok ds) :
    (∀ t ∈ s.complexTypes, (∃ d, EmittedFor c ds t d) ∧
      (Sendable c ds t.name ↔ ReferredTo c t.name) ∧
      ∀ d, EmittedFor c ds t d → d.NamesSendable →
        ∀ a, IsAncestor c t.name a → ¬ Sendable c ds a) ∧
    (c.ClassesDiffer → ∀ t ∈ s.complexTypes,
      (Derives ds (c.className t.name) sendableBase ↔ ReferredTo c t.name) ∧
      ∀ d ∈ ds, DataView.className d = c.className t.name → sendableBase ∈ d.bases →
        ∀ u ∈ s.complexTypes, IsAncestor c t.name u.name →
          ¬ Derives ds (c.className u.name) sendableBase) ∧
    (configuration.classNames = .empty → c.ClassesDiffer) := by
  obtain ⟨hindexed, hvalues⟩ := Catalog.indexed_of_make hnames hmake
  rw [← hvalues]
  refine ⟨fun t ht => ⟨exists_emittedFor hindexed hc hds ht, sendable_iff hindexed hc hds ht, ?_⟩,
    fun hdiffer t ht => ⟨derives_sendableBase_iff hindexed hc hdiffer hds ht, ?_⟩,
    fun hgiven => Catalog.classesDiffer_of_make hgiven hnames hmake⟩
  · intro d hd hbase a ha h
    exact not_referredTo_of_namesSendable hindexed hc hd hbase ha (h.referredTo hindexed hc)
  · intro d hd hname hb u hu ha h
    have hemitted : EmittedFor c ds t d :=
      ⟨ht, hd, view_of_className hindexed hdiffer hc hds ht hd hname⟩
    have hbase := (namesSendable_iff_mem hindexed hc hdiffer hemitted).mpr hb
    exact not_referredTo_of_namesSendable hindexed hc hemitted hbase ha
      ((derives_sendableBase_iff hindexed hc hdiffer hds hu).mp h)

/-! ### Parcels to an address -/

/-- A type of places, with the interfaces that it implements. -/
def placeLike (kind : Kind) (name : String) (interfaces : List String) : TypeDefinition :=
  ⟨kind, name, none, [⟨"label", none, .leaf .scalar (some "String"), [], false, none⟩], [],
    interfaces.map fun i => .leaf .interface (some i), [], []⟩

/-- A schema in which parcels are sent to an address, which is a place. A home is an address and says
again that it is a place. -/
def deliverySchema : Schema where
  queryType := none
  mutationType := none
  subscriptionType := none
  types :=
    [placeLike .interface "Place" [], placeLike .interface "Address" ["Place"],
      placeLike .object "Home" ["Place", "Address"],
      ⟨.inputObject, "Parcel", none, [], [⟨"to", none, .leaf .interface (some "Address"), .null⟩],
        [], [], []⟩]
  directives := []

/-- The catalog of the schema. -/
def deliveryCatalog : Catalog where
  configuration := {}
  schema := deliverySchema
  types := byName deliverySchema.types
  complex := byName deliverySchema.complexTypes
  directives := .empty
  memberships := .empty
  renamed := .empty
  referenced := ["Address"]

theorem make_delivery : (Catalog.make {} deliverySchema).2 = .ok deliveryCatalog := by
  cbv

theorem delivery_distinct : (deliverySchema.types.map TypeDefinition.name).Nodup := by
  decide

/-- Places come before addresses, and these before homes. -/
def deliveryRank (n : String) : Nat :=
  if n = "Home" then 2 else if n = "Address" then 1 else 0

theorem delivery_evaluated :
    (∀ t ∈ deliveryCatalog.complex.values, ∀ p ∈ parentTypes deliveryCatalog t,
      deliveryRank p < deliveryRank t.name) ∧
    (parentsOf deliveryCatalog "Place" = [] ∧ "Address" ∈ parentsOf deliveryCatalog "Home") ∧
    (deliveryCatalog.className "Place" = "Place" ∧ deliveryCatalog.className "Home" = "Home") ∧
    (dataViews deliveryCatalog).map (fun ds => ds.map DataView.className) =
      .ok ["Place", "Address", "Home"] := by
  decide +kernel

theorem delivery_acyclic : Acyclic deliveryCatalog :=
  acyclic_of_rank (Catalog.indexed_of_make delivery_distinct make_delivery).1 deliveryRank
    delivery_evaluated.1

theorem delivery_complexTypes : deliverySchema.complexTypes =
    [placeLike .interface "Place" [], placeLike .interface "Address" ["Place"],
      placeLike .object "Home" ["Place", "Address"]] := by
  cbv

theorem delivery_views : ∃ ds, dataViews deliveryCatalog = .ok ds := by
  obtain ⟨-, -, -, hnames⟩ := delivery_evaluated
  obtain ⟨ds, hds, -⟩ := map_eq_ok.mp hnames
  exact ⟨ds, hds⟩

theorem delivery_place {a : String} : ¬ IsAncestor deliveryCatalog "Place" a := by
  obtain ⟨-, ⟨hplace, -⟩, -⟩ := delivery_evaluated
  intro h
  obtain ⟨p, hp, -⟩ := isAncestor_iff.mp h
  rw [hplace] at hp
  cases hp

theorem delivery_home : IsAncestor deliveryCatalog "Home" "Address" :=
  .single delivery_evaluated.2.1.2

/-- Parcels are sent to addresses and so to homes, whose class derives from that of addresses, and not
to places. -/
theorem delivery_sendable :
    (deliverySchema.types.map TypeDefinition.name).Nodup ∧
      (Catalog.make {} deliverySchema).2 = .ok deliveryCatalog ∧ Acyclic deliveryCatalog ∧
      ∃ ds, dataViews deliveryCatalog = .ok ds ∧
        Sendable deliveryCatalog ds "Address" ∧ Sendable deliveryCatalog ds "Home" ∧
        ¬ Sendable deliveryCatalog ds "Place" ∧
        Derives ds "Home" sendableBase ∧ ¬ Derives ds "Place" sendableBase ∧
        ∀ d ∈ ds, DataView.className d = "Home" → sendableBase ∉ d.bases := by
  obtain ⟨ds, hds⟩ := delivery_views
  obtain ⟨hsendable, hderives, hdiffer⟩ :=
    sendable_iff_referenced delivery_distinct make_delivery delivery_acyclic hds
  obtain ⟨hplace, haddress, hhome⟩ :
      placeLike .interface "Place" [] ∈ deliverySchema.complexTypes ∧
        placeLike .interface "Address" ["Place"] ∈ deliverySchema.complexTypes ∧
        placeLike .object "Home" ["Place", "Address"] ∈ deliverySchema.complexTypes := by
    simp only [delivery_complexTypes, List.mem_cons, true_or, or_true, and_self]
  obtain ⟨-, -, ⟨hplaceClass, hhomeClass⟩, -⟩ := delivery_evaluated
  have hreferred : ReferredTo deliveryCatalog "Address" :=
    ⟨"Address", .inl rfl, List.mem_singleton_self _⟩
  have hnone : ¬ ReferredTo deliveryCatalog "Place" := by
    rintro ⟨a, rfl | ha, hreferenced⟩
    · exact absurd hreferenced (by decide)
    · exact delivery_place ha
  have hinherited := hreferred.below delivery_home
  obtain ⟨hbelow, hbases⟩ := hderives (hdiffer rfl) _ hhome
  have haddressSent := (hderives (hdiffer rfl) _ haddress).1.mpr hreferred
  refine ⟨delivery_distinct, make_delivery, delivery_acyclic, ds, hds,
    (hsendable _ haddress).2.1.mpr hreferred, (hsendable _ hhome).2.1.mpr hinherited,
    fun h => hnone ((hsendable _ hplace).2.1.mp h), ?_, fun h => ?_, fun d hd hname hb => ?_⟩
  · exact hhomeClass ▸ hbelow.mpr hinherited
  · exact hnone ((hderives (hdiffer rfl) _ hplace).1.mp (hplaceClass.symm ▸ h))
  · exact hbases d hd (hname.trans hhomeClass.symm) hb _ haddress delivery_home haddressSent

end Bindery.Client
