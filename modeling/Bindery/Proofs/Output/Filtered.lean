import Bindery.Client.Loaded
import Bindery.Proofs.Catalog.Types
import Bindery.Proofs.Catalog.Faultless
import Bindery.Proofs.Client.Emission
import Bindery.Proofs.Client.Metadata
import Bindery.Proofs.Output.Mentions

/-!
# Generation from what a filter leaves

The classes of a client look up the types of their members and of the fields that their builders
select. In a closed schema they are found; the arguments of a directive are looked up in the same way,
though whether their types are there is a matter of the directives.

A filter leaves no reference to a type that it leaves out, apart from the arguments of directives.
So generation from a closed schema puts the schema that the filter leaves at fault only where such an
argument of a directive on fields leads to a type with a class of its own that is left out; and there
generation with builders is refused.

## What is proved

* `faultless_parameters` — parameters for arguments whose types can be looked up.
* `faultless_directiveClasses` — the classes of directives whose arguments can be looked up.
* `faultless_builderViews`, `faultless_inputViews`, `faultless_dataViews` — the classes of types.
* `faultless_members`, `kind_of_refusal` — generation does not put the schema at fault where its types
  and directives are closed.
* `refusal_ne_none` — generation is refused where a directive leads to a type that is missing.
* `filter_leaves_closed` — what a filter leaves, and what becomes of generation.
-/

namespace Bindery.Client

open Bindery.Schema Bindery.Catalog

variable {c : Catalog} {t : TypeDefinition} {owner : String} {f : Field} {fs : List Field}
  {as : List Argument} {used : List String}

/-! ### Names and order -/

theorem faultless_usableName (name description : String) :
    Faultless (usableName name description) := by
  rw [usableName]
  split_ifs
  · exact faultless_ok _
  · exact faultless_error .identifier rfl (by decide)

theorem faultless_ordered {α : Type} {configuration : Configuration}
    {key : α → Except Refusal String} (hkey : ∀ a, Faultless (key a)) (items : List α) :
    Faultless (ordered configuration key items) := by
  rw [ordered]
  split
  · exact faultless_ok _
  · exact (faultless_mapM fun a _ => (hkey a).map).map

/-- The classes of items in the configured order. -/
theorem faultless_classes {α β : Type} {configuration : Configuration}
    {key : α → Except Refusal String} {view : α → Except Refusal β} {xs : List α}
    (hkey : ∀ x, Faultless (key x)) (hview : ∀ x ∈ xs, Faultless (view x)) :
    Faultless (do (← ordered configuration key xs).mapM view) :=
  (faultless_ordered hkey xs).bind fun _ hts =>
    faultless_mapM fun x hx => hview x ((ordered_perm hts).subset hx)

theorem faultless_enumClasses : Faultless (enumClasses c) :=
  faultless_classes (fun _ => faultless_ok _) fun _ _ =>
    (faultless_usableName _ _).bind fun _ _ => faultless_ok _

/-! ### Members -/

theorem faultless_directiveParameters (ds : List DirectiveDefinition) :
    Faultless (directiveParameters c ds used) :=
  faultless_collected (P := fun _ => True) (fun _ => faultless_ok _)
    (fun _ _ _ ih _ => (faultless_usableName _ _).bind fun _ _ =>
      (ih _).bind fun _ _ => faultless_ok _)
    (fun _ _ => trivial) used

section Members

variable (h : c.Grounded)

include h

theorem faultless_parametersInOrder (has : ∀ a ∈ as, Found c.schema (Argument.type a)) :
    Faultless (parametersInOrder c owner as used) :=
  faultless_collected (fun _ => faultless_ok _)
    (fun _ _ ha ih _ => (faultless_memberType h _ ha).bind fun _ _ =>
      (ih _).bind fun _ _ => faultless_ok _)
    has used

/-- Parameters for arguments whose types can be looked up. -/
theorem faultless_parameters (has : ∀ a ∈ as, Found c.schema (Argument.type a)) :
    Faultless (parameters c owner as used) :=
  (faultless_parametersInOrder h has).bind fun _ _ => faultless_ok _

theorem faultless_dataProperties (hfs : ∀ f ∈ fs, c.schema.Defined (Field.type f)) :
    Faultless (dataProperties c owner fs used) :=
  faultless_collected (fun _ => faultless_ok _)
    (fun _ _ hf ih _ => (faultless_memberType h _ (found_of_defined hf)).bind fun _ _ =>
      (ih _).bind fun _ _ => faultless_ok _)
    hfs used

theorem faultless_inputProperties (has : ∀ a ∈ as, c.schema.Defined (Argument.type a)) :
    Faultless (inputProperties c owner as used) :=
  faultless_collected (fun _ => faultless_ok _)
    (fun _ _ ha ih _ => (faultless_memberType h _ (found_of_defined ha)).bind fun _ _ =>
      (ih _).bind fun _ _ => faultless_ok _)
    has used

theorem faultless_fieldBuilder (hf : c.schema.Defined f.type) : Faultless (fieldBuilder c f) := by
  rw [fieldBuilder]
  split_ifs
  · exact faultless_ok _
  · obtain ⟨-, t, ht, -, hname, -⟩ := hf
    refine (Faultless.map (h.typeOf ⟨t, ht, ?_⟩)).bind fun _ _ => faultless_ok _
    rw [TypeRef.nameOrEmpty, hname]
    rfl

theorem faultless_fieldMethods (htype : c.schema.Defined f.type)
    (hargs : ∀ a ∈ f.arguments, c.schema.Defined (Argument.type a)) :
    Faultless (fieldMethods c owner f used) :=
  (faultless_fieldBuilder h htype).bind fun _ _ =>
    (faultless_parameters h fun a ha => found_of_defined (hargs a ha)).bind fun _ _ =>
      (faultless_directiveParameters _).bind fun _ _ => faultless_ok _

theorem faultless_allFieldMethods (hfs : ∀ f ∈ fs, c.schema.Defined (Field.type f) ∧
    ∀ a ∈ f.arguments, c.schema.Defined (Argument.type a)) :
    Faultless (allFieldMethods c owner fs used) :=
  faultless_collected (fun _ => faultless_ok _)
    (fun _ _ hf ih _ => (faultless_fieldMethods h hf.1 hf.2).bind fun _ _ =>
      (ih _).bind fun _ _ => faultless_ok _)
    hfs used

/-! ### Classes -/

/-- The classes of directives whose arguments can be looked up. -/
theorem faultless_directiveClasses
    (hds : ∀ d ∈ c.fieldDirectives, ∀ a ∈ d.arguments, Found c.schema (Argument.type a)) :
    Faultless (directiveClasses c) :=
  faultless_classes (fun _ => faultless_usableName _ _) fun d hd =>
    (faultless_usableName _ _).bind fun _ _ =>
      (faultless_parameters h (hds d hd)).bind fun _ _ => faultless_ok _

theorem faultless_methodFields (ht : t ∈ c.schema.types) (hown : t.isBuiltIn = false) :
    Faultless (methodFields c t) := by
  rw [methodFields]
  split_ifs
  · exact faultless_ok _
  · exact h.ownFields ht hown

theorem faultless_builderViews (constants : Keyed String) :
    Faultless (builderViews c constants) := by
  refine faultless_classes (fun _ => faultless_ok _) fun t ht => ?_
  obtain ⟨hmem, hown⟩ := mem_types_of_mem_typesOf ht
  refine (faultless_usableName _ _).bind fun _ _ =>
    (faultless_methodFields h hmem hown).bind fun fs hfs => ?_
  have hdefined : ∀ f ∈ fs, c.schema.Defined (Field.type f) ∧
      ∀ a ∈ f.arguments, c.schema.Defined (Argument.type a) := fun f hf =>
    (h.closed t hmem hown).fields f (of_mem_methodFields hfs hf).1
  exact (faultless_allFieldMethods h hdefined).bind fun _ _ =>
    (h.fragmentTypes t).bind fun _ _ => faultless_ok _

theorem faultless_inputViews : Faultless (inputViews c) := by
  refine faultless_classes (fun _ => faultless_ok _) fun t ht => ?_
  obtain ⟨hmem, hown⟩ := mem_types_of_mem_typesOf ht
  exact (faultless_usableName _ _).bind fun _ _ =>
    (faultless_inputProperties h (h.closed t hmem hown).inputFields).bind fun _ _ => faultless_ok _

theorem faultless_dataView (known : Ancestors) (ht : t ∈ c.schema.types) (hown : t.isBuiltIn = false) :
    Faultless (dataView c known t) :=
  (faultless_usableName _ _).bind fun _ _ => (h.effectiveFields ht hown).bind fun _ hfs =>
    (faultless_dataProperties h fun _ hf => h.defined_of_mem ht hown hfs hf).bind
      fun _ _ => faultless_ok _

theorem faultless_dataViewsInOrder {ts : List TypeDefinition} (known : Ancestors)
    (hts : ∀ t ∈ ts, t ∈ c.schema.types ∧ t.isBuiltIn = false) :
    Faultless (dataViewsInOrder c ts known) :=
  faultless_collected (fun _ => faultless_ok _)
    (fun _ _ ht ih known => (faultless_dataView h known ht.1 ht.2).bind fun _ _ =>
      (ih _).bind fun _ _ => faultless_ok _)
    hts known

theorem faultless_dataViews : Faultless (dataViews c) := by
  refine (faultless_ordered (fun _ => faultless_ok _) _).bind fun ts hts => ?_
  refine faultless_dataViewsInOrder h _ fun t ht => ?_
  have hindexed : c.Indexed := indexed_of_byName h.complex
  have hlisted : t ∈ c.complex.values :=
    (emissionOrder_perm hindexed (ordered_perm hts)).subset ht
  exact mem_types_of_mem_typesOf (mem_complexTypes h.complex hlisted)

end Members

end Bindery.Client

namespace Bindery.Schema

open Bindery.Catalog

variable {s : Schema} {f : TypeFilter}

/-- The types that arguments of directives on fields lead to can be looked up. -/
def DirectivesFound (s : Schema) : Prop :=
  ∀ d ∈ s.directives, d.isOnFields = true → ∀ a ∈ d.arguments, Found s (Argument.type a)

/-- The filter keeps the types with classes of their own that arguments of directives on fields lead
to. -/
def TypeFilter.KeepsDirectives (f : TypeFilter) (s : Schema) : Prop :=
  ∀ d ∈ s.directives, d.isOnFields = true → ∀ a ∈ d.arguments,
    hasClass (itemOf (Argument.type a)).kind = true → ∀ t ∈ s.types,
      t.name = (itemOf (Argument.type a)).nameOrEmpty → f.keeps s t = true

/-- Then the types that arguments of directives lead to can be looked up in what it leaves. -/
theorem DirectivesClosed.found_apply (h : s.DirectivesClosed) (hkept : f.KeepsDirectives s) :
    (f.apply s).DirectivesFound := by
  intro d hd hfields a ha
  obtain ⟨hlist, hfound⟩ := found_of_defined (h d hd a ha)
  refine ⟨hlist, fun hclass => ?_⟩
  obtain ⟨t, ht, hname⟩ := hfound hclass
  exact ⟨_, mem_apply_types.mpr ⟨t, ht, hkept d hd hfields a ha hclass t ht hname, rfl⟩, hname⟩

end Bindery.Schema

namespace Bindery.Output

open Bindery.Schema Bindery.Client Bindery.Catalog

variable {g : Generator} {c : Catalog} {s : Schema} {f : TypeFilter} {e : Refusal}

/-! ### Where the schema is not at fault -/

/-- The classes of a phase do not put a closed schema at fault. -/
theorem faultless_members (h : c.Grounded)
    (hdirectives : ∀ d ∈ c.fieldDirectives, ∀ a ∈ d.arguments, Found c.schema (Argument.type a))
    (g : Generator) (constants : Keyed String) (phase : Phase) :
    Faultless (g.members c constants phase) := by
  cases phase with
  | baseClasses => exact faultless_ok _
  | typeNames => exact faultless_ok _
  | enums => exact faultless_enumClasses.map
  | directives => exact (faultless_directiveClasses h hdirectives).map
  | builders => exact (faultless_builderViews h constants).map
  | inputs => exact (faultless_inputViews h).map
  | dataClasses => exact (faultless_dataViews h).map

/-- **Generation does not put a closed schema at fault.** -/
theorem kind_of_refusal (htypes : (g.hooks.prepare s).TypesClosed)
    (hdirectives : (g.hooks.prepare s).DirectivesFound) (h : (g.course s).refusal = some e) :
    e.kind ≠ .inconsistency := by
  rcases Generator.refusal_of_course h with herror | ⟨c, hmake, phase, -, hstops⟩
  · exact faultless_make _ htypes e herror
  · have hgrounded := grounded_of_make htypes hmake
    obtain ⟨hschema, -⟩ := schema_of_make hmake
    have hfound : ∀ d ∈ c.fieldDirectives, ∀ a ∈ d.arguments, Found c.schema (Argument.type a) := by
      intro d hd
      obtain ⟨hd, hfields⟩ := mem_directives_of_make hmake hd
      rw [hschema]
      exact hdirectives d hd hfields
    rcases hstops with herror | ⟨ms, -, m, -, -, rfl⟩
    · exact faultless_members hgrounded hfound g _ phase e herror
    · intro hkind
      cases hkind

/-! ### Where a type is missing -/

/-- Where there are parameters for arguments, the arguments have types. -/
theorem exists_memberType {as : List Argument} {ps : List Parameter} {owner : String}
    {used used' : List String} {a : Argument}
    (h : parametersInOrder c owner as used = .ok (ps, used')) (ha : a ∈ as) :
    ∃ m, c.memberType owner a.name a.type (!a.isRequired) = .ok m := by
  induction as generalizing ps used used' with
  | nil => cases ha
  | cons x as ih =>
    obtain ⟨m, hm, h⟩ := bind_eq_ok.mp h
    obtain ⟨⟨rest, used⟩, hrest, -⟩ := bind_eq_ok.mp h
    rcases List.mem_cons.mp ha with rfl | ha
    · exact ⟨m, hm⟩
    · exact ih hrest ha

/-- **Generation is refused where a directive on fields leads to a type that is missing**, if builders
are selected and the type is to have a class of its own. -/
theorem refusal_ne_none (hparts : Part.queryBuilders ∈ g.parts)
    (hnames : ((g.hooks.prepare s).directives.map DirectiveDefinition.name).Nodup)
    {d : DirectiveDefinition} (hd : d ∈ (g.hooks.prepare s).directives) (hfields : d.isOnFields = true)
    {a : Argument} (ha : a ∈ d.arguments) (hclass : hasClass (itemOf a.type).kind = true)
    (hmissing : ∀ t ∈ (g.hooks.prepare s).types, t.name ≠ (itemOf a.type).nameOrEmpty) :
    (g.course s).refusal ≠ none := by
  intro hdone
  obtain ⟨c, hmake, hwritten⟩ := Generator.written_of_course hdone
  have hlisted := mem_fieldDirectives_of_make hmake hnames hd hfields
  obtain ⟨ms, hms, -⟩ := hwritten .directives (Generator.mem_selectedPhases.mpr hparts)
  obtain ⟨classes, hclasses, -⟩ := map_eq_ok.mp hms
  obtain ⟨ds, hds, hclasses⟩ := bind_eq_ok.mp hclasses
  obtain ⟨cls, -, hcls⟩ := exists_of_mem_mapM hclasses ((ordered_perm hds).mem_iff.mpr hlisted)
  obtain ⟨name, -, hcls⟩ := bind_eq_ok.mp hcls
  obtain ⟨⟨ps, used⟩, hps, -⟩ := bind_eq_ok.mp hcls
  obtain ⟨⟨inOrder, used⟩, hinOrder, -⟩ := bind_eq_ok.mp hps
  have hmentioned : c.mentioned d.name a.name a.type = some (itemOf a.type) :=
    mentioned_of_hasClass hclass
  rcases (memberType_mentioned hmentioned _).1.mp (exists_memberType hinOrder ha) with hkind | hfound
  · rw [hkind] at hclass
    cases hclass
  · rw [types_of_make hmake, exists_get?_byName] at hfound
    obtain ⟨t, ht, hname⟩ := hfound
    exact hmissing t ht hname

/-- **What a filter leaves, and what becomes of generation.** The types that are left refer to types
that are left. The arguments of directives stay as they are, and lead to types that are left exactly
if the filter keeps all types that they lead to. From a closed schema a filter leaves one whose types
are closed. If it keeps the types with classes of their own that directives on fields lead to, then
generation does not put the schema at fault; if it does not, then generation with builders is
refused. -/
theorem filter_leaves_closed (f : TypeFilter) (s : Schema)
    (hnames : ∀ d ∈ s.directives, ∀ a ∈ d.arguments,
      LeadsInto (s.types.map TypeDefinition.name) (Argument.type a)) :
    (∀ t ∈ (f.apply s).types, RefersInto ((f.apply s).types.map TypeDefinition.name) t) ∧
    ((∀ d ∈ (f.apply s).directives, ∀ a ∈ d.arguments,
        LeadsInto ((f.apply s).types.map TypeDefinition.name) (Argument.type a)) ↔
      ∀ d ∈ s.directives, ∀ a ∈ d.arguments, ∀ t ∈ s.types,
        (Argument.type a).innermost.name? = some t.name → f.keeps s t = true) ∧
    (s.TypesClosed → (f.apply s).TypesClosed) ∧
    ∀ g : Generator, g.hooks.filters = [f] →
      (s.TypesClosed → s.DirectivesClosed → f.KeepsDirectives s →
        ∀ e, (g.course s).refusal = some e → e.kind ≠ .inconsistency) ∧
      (Part.queryBuilders ∈ g.parts → (s.directives.map DirectiveDefinition.name).Nodup →
        ¬ f.KeepsDirectives s → (g.course s).refusal ≠ none) := by
  refine ⟨fun t ht => refersInto_apply f s ht, directives_apply_iff hnames,
    fun htypes => htypes.apply f, fun g hfilters => ?_⟩
  have hprepare : g.hooks.prepare s = f.apply s := by
    rw [Hooks.prepare, hfilters]
    rfl
  constructor
  · intro htypes hdirectives hkept e he
    refine kind_of_refusal ?_ ?_ he <;> rw [hprepare]
    · exact htypes.apply f
    · exact hdirectives.found_apply hkept
  · intro hparts hdistinct hkept
    simp only [TypeFilter.KeepsDirectives, not_forall] at hkept
    obtain ⟨d, hd, hfields, a, ha, hclass, t, ht, hname, hgone⟩ := hkept
    have hsame : (g.hooks.prepare s).directives = s.directives := by rw [hprepare]; rfl
    refine refusal_ne_none hparts (hsame ▸ hdistinct) (hsame ▸ hd) hfields ha hclass fun u hu heq => ?_
    rw [hprepare] at hu
    obtain ⟨v, -, hkeeps, rfl⟩ := mem_apply_types.mp hu
    exact hgone (keeps_congr (hname.trans heq.symm) ▸ hkeeps)

/-! ### A directive that leads to a type that is left out -/

/-- A directive on fields, which takes an input object. -/
def limitSchema : Schema where
  queryType := none
  mutationType := none
  subscriptionType := none
  types :=
    [⟨.inputObject, "InternalFilter", none, [],
        [⟨"max", none, .leaf .scalar (some "Int"), .null⟩], [], [], []⟩,
      ⟨.scalar, "Int", none, [], [], [], [], []⟩]
  directives :=
    [⟨"limit", none, [fieldLocation],
      [⟨"by", none, .leaf .inputObject (some "InternalFilter"), .null⟩]⟩]

/-- The filter of internal types. -/
def internalFilter : TypeFilter where
  excludedStart := some "Internal"
  excludedEnd := none
  includedStart := none
  includedEnd := none

/-- The class of the directive. -/
def limitDirective : DirectiveClass where
  className := "LimitDirective"
  directiveName := "limit"
  description := ""
  parameters :=
    [⟨"by", "by", "Optional[InternalFilter | QueryBuilderParameter[InternalFilter]]", false, none⟩]
  typeImports := ["InternalFilter"]

/-- A filter that keeps all types. -/
def openFilter : TypeFilter where
  excludedStart := none
  excludedEnd := none
  includedStart := none
  includedEnd := none

/-- The catalog of the schema. -/
def limitCatalog : Catalog where
  configuration := {}
  schema := limitSchema
  types := byName limitSchema.types
  complex := .empty
  directives := .ofList [("limit", ⟨"limit", none, [fieldLocation],
    [⟨"by", none, .leaf .inputObject (some "InternalFilter"), .null⟩]⟩)]
  memberships := .empty
  renamed := .empty
  referenced := []

theorem make_limit : (make {} limitSchema).2 = .ok limitCatalog := by
  cbv

theorem limit_evaluated :
    (directiveClasses limitCatalog).toOption = some [limitDirective] ∧
    (∀ t ∈ limitSchema.types, t.isBuiltIn = false) ∧
    (∀ t ∈ limitSchema.types, openFilter.keeps limitSchema t = true) ∧
    (∀ t ∈ limitSchema.types, t.name = "InternalFilter" →
      internalFilter.keeps limitSchema t = false) ∧
    (({ builderGenerator with hooks := ⟨[internalFilter], []⟩ } : Generator).course
      limitSchema).refusal = some (.unknownType (some "InternalFilter")) := by
  decide +kernel

theorem limit_directiveClasses : directiveClasses limitCatalog = .ok [limitDirective] :=
  eq_ok_of_toOption limit_evaluated.1

theorem limitDirective_text : limitDirective.text = linesText
    ["class LimitDirective(GraphQlDirective):",
      "    def __init__(self, by: Optional[InternalFilter | QueryBuilderParameter[InternalFilter]] = None):",
      "        super().__init__('limit')",
      "        self._add_argument('by', by)"] := by
  rfl

theorem limitDirective_isProgram : Source.isProgram limitDirective.text = true := by
  rw [limitDirective_text]
  apply isProgram_of_toList
  case hcs =>
    repeat apply toList_linesText_cons
    exact toList_linesText_nil
  case h => decide +kernel

/-- Without the filter generation comes to its end. -/
theorem limit_done : (builderGenerator.course limitSchema).refusal = none := by
  refine Generator.refusal_eq_none (c := limitCatalog) make_limit fun phase hphase => ?_
  have hphases : selectedPhases builderGenerator.parts = [.directives, .builders] := by decide
  rw [hphases, List.mem_cons, List.mem_singleton] at hphase
  rcases hphase with rfl | rfl
  · refine ⟨[limitDirective.member], congrArg (Except.map _) limit_directiveClasses, ?_⟩
    exact List.forall_mem_singleton.mpr limitDirective_isProgram
  · exact ⟨[], rfl, List.forall_mem_nil _⟩

theorem limit_typesClosed : limitSchema.TypesClosed := by
  intro t ht _
  obtain ⟨-, hown, -⟩ := limit_evaluated
  have hint : limitSchema.Defined (.leaf .scalar (some "Int")) :=
    ⟨rfl, _, List.mem_cons_of_mem _ List.mem_cons_self,
      hown _ (List.mem_cons_of_mem _ List.mem_cons_self), rfl, by decide⟩
  simp only [limitSchema, List.mem_cons, List.not_mem_nil, or_false] at ht
  rcases ht with rfl | rfl
  · exact ⟨List.forall_mem_nil _, List.forall_mem_singleton.mpr hint, List.forall_mem_nil _,
      List.forall_mem_nil _⟩
  · exact ⟨List.forall_mem_nil _, List.forall_mem_nil _, List.forall_mem_nil _, List.forall_mem_nil _⟩

theorem limit_directivesClosed : limitSchema.DirectivesClosed :=
  List.forall_mem_singleton.mpr (List.forall_mem_singleton.mpr
    ⟨rfl, _, List.mem_cons_self, limit_evaluated.2.1 _ List.mem_cons_self, rfl, by decide⟩)

/-- The filter leaves the directive with an argument of a type that is left out, and generation is
refused; a filter that keeps the type leaves nothing that puts the schema at fault. -/
theorem limit_filtered :
    limitSchema.TypesClosed ∧ limitSchema.DirectivesClosed ∧
      (builderGenerator.course limitSchema).refusal = none ∧
      (∀ t ∈ (internalFilter.apply limitSchema).types,
        RefersInto ((internalFilter.apply limitSchema).types.map TypeDefinition.name) t) ∧
      (internalFilter.apply limitSchema).TypesClosed ∧
      (¬ ∀ d ∈ (internalFilter.apply limitSchema).directives, ∀ a ∈ d.arguments,
        LeadsInto ((internalFilter.apply limitSchema).types.map TypeDefinition.name)
          (Argument.type a)) ∧
      (({ builderGenerator with hooks := ⟨[internalFilter], []⟩ } : Generator).course
        limitSchema).refusal = some (.unknownType (some "InternalFilter")) ∧
      ∀ e, (({ builderGenerator with hooks := ⟨[openFilter], []⟩ } : Generator).course
        limitSchema).refusal = some e → e.kind ≠ .inconsistency := by
  have hnames : ∀ d ∈ limitSchema.directives, ∀ a ∈ d.arguments,
      LeadsInto (limitSchema.types.map TypeDefinition.name) (Argument.type a) :=
    List.forall_mem_singleton.mpr (List.forall_mem_singleton.mpr ⟨_, List.mem_cons_self, rfl⟩)
  obtain ⟨hrefers, hiff, hclosed, -⟩ := filter_leaves_closed internalFilter limitSchema hnames
  obtain ⟨-, -, -, hopen⟩ := filter_leaves_closed openFilter limitSchema hnames
  obtain ⟨-, -, hkept, hdropped, hrefused⟩ := limit_evaluated
  refine ⟨limit_typesClosed, limit_directivesClosed, limit_done, hrefers, hclosed limit_typesClosed,
    fun hall => ?_, hrefused, ?_⟩
  · have hkeeps := hiff.mp hall _ List.mem_cons_self _ List.mem_cons_self _ List.mem_cons_self rfl
    exact Bool.false_ne_true ((hdropped _ List.mem_cons_self rfl).symm.trans hkeeps)
  · exact (hopen _ rfl).1 limit_typesClosed limit_directivesClosed
      fun _ _ _ _ _ _ t ht _ => hkept t ht

end Bindery.Output
