import Bindery.Proofs.Client.Annotations
import Bindery.Proofs.Output.Classes
import Bindery.Proofs.Output.Registry

/-!
# The classes that a client mentions

Where generation comes to its end with builders and data classes, every type of a kind with classes
has written its class. So a class that is mentioned stands in the client if such a type has the name
that the reference gives. That the name is one of a type is checked where a field, an argument or
an input field leads to a type with a class of its own, and not where it leads to an enumeration.

## What is proved

* `begins_of_hasOwnClass`, `begins_of_get?`, `begins_directive` — which classes are written.
* `annotates_of_typedAs` — an annotation names a class that is written, or nothing notices that it
  does not.
* `mentions_resolve` — which classes a client mentions, and which of them are written.
-/

namespace Bindery.Output

open Bindery.Schema Bindery.Client Bindery.Catalog

variable {g : Generator} {c : Catalog} {s : Schema} {es : List Event} {t d : TypeDefinition}
  {r : TypeRef} {owner member e : String}

/-! ### Classes that are written -/

/-- A class of the name begins among the events. -/
def Begins (es : List Event) (name : String) : Prop :=
  ∃ phase header, Event.beginClass phase name header ∈ es

/-- Does the type get a class of its own? -/
def hasOwnClass (t : TypeDefinition) : Bool :=
  !t.isBuiltIn && (t.kind.isComplex || t.kind == .inputObject || t.kind == .enumeration)

/-- The classes of all kinds of types are written, and those of builders and directives. -/
def Written (g : Generator) (c : Catalog) (es : List Event) : Prop :=
  ∀ phase, phase.part = .queryBuilders ∨ phase.part = .dataClasses →
    ∃ ms, g.members c (typeConstants c.schema) phase = .ok ms ∧
      ∀ m ∈ ms, g.classEvents phase m <:+: es

section Written

variable (h : Written g c es) (hcomplex : c.complex = byName c.schema.complexTypes)

include h hcomplex

/-- Each class of a phase begins among the events. -/
theorem begins_of_mem (phase : Phase) {name : String}
    (hpart : phase.part = .queryBuilders ∨ phase.part = .dataClasses)
    (hname : name ∈ writtenNames c phase) : Begins es name := by
  obtain ⟨ms, hms, hevents⟩ := h phase hpart
  obtain ⟨m, hm, rfl⟩ := List.mem_map.mp
    ((members_perm (indexed_of_byName hcomplex) hms).mem_iff.mpr hname)
  exact ⟨phase, g.headerOf phase m, (hevents m hm).subset List.mem_cons_self⟩

/-- The class of a type whose values need a selection set is written, and so is its builder. -/
theorem begins_of_get? {name : String} (hget : c.complex.get? name = some d) :
    Begins es (c.className name) ∧ Begins es (c.className name builderSuffix) := by
  obtain ⟨hmem, rfl⟩ := (indexed_of_byName hcomplex).found hget
  exact ⟨begins_of_mem h hcomplex .dataClasses (.inr rfl) (List.mem_map.mpr ⟨d, hmem, rfl⟩),
    begins_of_mem h hcomplex .builders (.inl rfl)
      (List.mem_map.mpr ⟨d, mem_complexTypes hcomplex hmem, rfl⟩)⟩

/-- A type that gets a class of its own has written it. -/
theorem begins_of_hasOwnClass (ht : t ∈ c.schema.types) (hown : hasOwnClass t = true) :
    Begins es (c.className t.name) := by
  rw [hasOwnClass, Bool.and_eq_true, Bool.or_eq_true, Bool.or_eq_true, beq_iff_eq, beq_iff_eq] at hown
  obtain ⟨hbuiltIn, (hkind | hkind) | hkind⟩ := hown
  · have hlisted : t ∈ c.schema.complexTypes := List.mem_filter.mpr ⟨ht, by simp [hkind, hbuiltIn]⟩
    have hkey : t.name ∈ c.complex.keys := by
      rw [hcomplex, byName, Keyed.mem_keys_ofList, List.map_map]
      exact List.mem_map_of_mem hlisted
    obtain ⟨d, hd⟩ := Keyed.exists_get?_of_mem_keys hkey
    exact (begins_of_get? h hcomplex hd).1
  · have hlisted : t ∈ c.schema.inputTypes := List.mem_filter.mpr ⟨ht, by simp [hkind, hbuiltIn]⟩
    exact begins_of_mem h hcomplex .inputs (.inr rfl) (List.mem_map.mpr ⟨t, hlisted, rfl⟩)
  · have hlisted : t ∈ c.schema.enumTypes := List.mem_filter.mpr ⟨ht, by simp [hkind, hbuiltIn]⟩
    exact begins_of_mem h hcomplex .enums (.inr rfl) (List.mem_map.mpr ⟨t, hlisted, rfl⟩)

/-- A directive that can be applied to fields has written its class. -/
theorem begins_directive {d : DirectiveDefinition} (hd : d ∈ c.fieldDirectives) :
    Begins es (c.directiveClassName d) :=
  begins_of_mem h hcomplex .directives (.inl rfl) (List.mem_map_of_mem hd)

end Written

/-! ### Classes that are mentioned -/

/-- Nothing notices that the reference leads to no type with a class: it is one to an enumeration,
which is not looked up, or a type of the name is found that has no class. -/
structure Unnoticed (s : Schema) (r : TypeRef) : Prop where
  /-- No type of the name has a class. -/
  classless : ∀ t ∈ s.types, t.name = r.nameOrEmpty → hasOwnClass t = false
  /-- The look-up is left out, or it finds a type. -/
  missed : r.kind = .enumeration ∨ ∃ t ∈ s.types, t.name = r.nameOrEmpty

/-- The expression at a member names the class that the member mentions, which is written unless
nothing notices that there is none. -/
structure Annotates (c : Catalog) (es : List Event) (owner member : String) (r : TypeRef)
    (e : String) : Prop where
  /-- The expression is one around the class. -/
  wraps : ∀ n, c.mentioned owner member r = some n → Wraps (c.className n.nameOrEmpty) e
  /-- The class is written. -/
  resolved : ∀ n, c.mentioned owner member r = some n →
    Begins es (c.className n.nameOrEmpty) ∨ Unnoticed c.schema n

/-- An annotation names a class that is written, or nothing notices that it does not. -/
theorem annotates_of_typedAs (h : Written g c es)
    (hcomplex : c.complex = byName c.schema.complexTypes) (htypes : c.types = byName c.schema.types) (htyped : TypedAs c owner member r e) :
    Annotates c es owner member r e := by
  refine ⟨fun n hn => htyped.wraps hn, fun n hn => ?_⟩
  by_cases hclass : ∃ t ∈ c.schema.types, t.name = n.nameOrEmpty ∧ hasOwnClass t = true
  · obtain ⟨t, ht, hname, hown⟩ := hclass
    rw [← hname]
    exact .inl (begins_of_hasOwnClass h hcomplex ht hown)
  · refine .inr ⟨fun t ht hname => ?_, (htyped.finds hn).imp_right fun ⟨d, hd⟩ => ?_⟩
    · exact Bool.eq_false_iff.mpr fun hown => hclass ⟨t, ht, hname, hown⟩
    · exact ⟨d, of_get?_byName (htypes ▸ hd)⟩

/-! ### What the classes of a client mention -/

/-- The members of the classes of a phase. -/
def membersOf (cls : Classes) : Phase → List Member
  | .baseClasses | .typeNames => []
  | .enums => cls.enums.map EnumClass.member
  | .directives => cls.directives.map DirectiveClass.member
  | .builders => cls.builders.map BuilderView.member
  | .inputs => cls.inputs.map InputView.member
  | .dataClasses => cls.data.map DataView.member

/-- The classes of the client are written. -/
theorem classes_of_written (htemplates : g.templates = .empty) (h : Written g c es) :
    ∃ cls, Classes.ofCatalog c = .ok cls ∧
      ∀ phase, ∀ m ∈ membersOf cls phase, g.classEvents phase m <:+: es := by
  obtain ⟨ms₁, hms₁, henums⟩ := h .enums (.inr rfl)
  obtain ⟨ms₂, hms₂, hdirectives⟩ := h .directives (.inl rfl)
  obtain ⟨ms₃, hms₃, hbuilders⟩ := h .builders (.inl rfl)
  obtain ⟨ms₄, hms₄, hinputs⟩ := h .inputs (.inr rfl)
  obtain ⟨ms₅, hms₅, hdata⟩ := h .dataClasses (.inr rfl)
  simp only [Generator.members, Generator.styled_eq htemplates] at hms₁ hms₂ hms₃ hms₄ hms₅
  obtain ⟨enums, hok₁, rfl⟩ := map_eq_ok.mp hms₁
  obtain ⟨directives, hok₂, rfl⟩ := map_eq_ok.mp hms₂
  obtain ⟨builders, hok₃, rfl⟩ := map_eq_ok.mp hms₃
  obtain ⟨inputs, hok₄, rfl⟩ := map_eq_ok.mp hms₄
  obtain ⟨data, hok₅, rfl⟩ := map_eq_ok.mp hms₅
  refine ⟨⟨enums, directives, builders, inputs, data⟩,
    ofCatalog_eq_ok.mpr ⟨hok₁, hok₂, hok₃, hok₄, hok₅⟩, fun phase => ?_⟩
  cases phase with
  | baseClasses => exact List.forall_mem_nil _
  | typeNames => exact List.forall_mem_nil _
  | enums => exact henums
  | directives => exact hdirectives
  | builders => exact hbuilders
  | inputs => exact hinputs
  | dataClasses => exact hdata

/-- What the classes of a client mention. -/
structure Mentions (c : Catalog) (es : List Event) (cls : Classes) : Prop where
  /-- A data class derives from classes that are written, or from what every client has. -/
  bases : ∀ d ∈ cls.data, ∀ b ∈ d.bases, b = sendableBase ∨ b = dataBase ∨ Begins es b
  /-- A property of a data class is annotated for a field; the class of a type whose values need a
  selection set is written. -/
  properties : ∀ d ∈ cls.data, ∃ t ∈ c.complex.values, ∃ fields, c.effectiveFields t = .ok fields ∧
    d.className = c.className t.name ∧ ∀ p ∈ d.properties, ∃ f ∈ fields, p.name = f.name ∧
      Annotates c es t.name f.name f.type p.annotation ∧
      ∀ n, c.mentioned t.name f.name f.type = some n → n.kind.isComplex = true →
        Begins es (c.className n.nameOrEmpty)
  /-- A property of the class of an input object is annotated for a field. -/
  inputs : ∀ i ∈ cls.inputs, ∃ t ∈ c.schema.inputTypes, i.className = c.className t.name ∧
    ∀ p ∈ i.properties, ∃ f ∈ t.inputFields, p.name = f.name ∧
      Annotates c es t.name f.name f.type p.annotation
  /-- A parameter of a directive is annotated for an argument. -/
  directives : ∀ d ∈ cls.directives, ∃ definition ∈ c.fieldDirectives,
    d.className = c.directiveClassName definition ∧ ∀ p ∈ d.parameters,
      ∃ a ∈ definition.arguments, p.name = a.name ∧
        Annotates c es definition.name a.name a.type p.annotation
  /-- The methods of a builder take builders and directives whose classes are written, and parameters
  that are annotated for arguments. -/
  methods : ∀ b ∈ cls.builders, ∃ t ∈ c.schema.complexTypes, ∃ fields, methodFields c t = .ok fields ∧
    b.className = c.className t.name builderSuffix ∧ ∀ m ∈ b.fields,
      (∀ n ∈ m.builder, Begins es n) ∧ (∀ d ∈ m.directives, Begins es d.2) ∧
      ∃ f ∈ fields, m.name = f.name ∧ ∀ p ∈ m.parameters, ∃ a ∈ f.arguments, p.name = a.name ∧
        Annotates c es t.name a.name a.type p.annotation
  /-- A fragment is selected with a builder whose class is written. -/
  fragments : ∀ b ∈ cls.builders, ∀ f ∈ b.fragments, Begins es f.builder

section Mentions

variable (h : Written g c es) (hcomplex : c.complex = byName c.schema.complexTypes)
  (htypes : c.types = byName c.schema.types)

include h hcomplex

/-- The classes that a type belongs to are written. -/
theorem begins_of_mem_parentTypes {p : String} (hp : p ∈ parentTypes c t) :
    Begins es (c.className p) := by
  have hkey : c.complex.contains p = true :=
    (List.mem_filter.mp (List.mem_eraseDups.mp hp)).2
  obtain ⟨d, hd⟩ := Keyed.exists_get?_of_mem_keys (Keyed.contains_iff.mp hkey)
  exact (begins_of_get? h hcomplex hd).1

/-- The classes that a generated field leads to are written. -/
theorem begins_of_generates {f : Field} (hf : c.generates f = .ok true)
    (hkind : f.type.innermost.kind.isComplex = true) :
    Begins es (c.className f.type.innermost.nameOrEmpty) ∧
      Begins es (c.className f.type.innermost.nameOrEmpty builderSuffix) := by
  obtain ⟨d, hd⟩ := exists_get?_of_generates hf hkind
  exact begins_of_get? h hcomplex hd

include htypes

theorem mentions_of_dataView {known known' : Ancestors} {d : DataView}
    (hview : dataView c known t = .ok (d, known')) :
    (∀ b ∈ d.bases, b = sendableBase ∨ b = dataBase ∨ Begins es b) ∧
      ∃ fields, c.effectiveFields t = .ok fields ∧ d.className = c.className t.name ∧
        ∀ p ∈ d.properties, ∃ f ∈ fields, p.name = f.name ∧
          Annotates c es t.name f.name f.type p.annotation ∧
          ∀ n, c.mentioned t.name f.name f.type = some n → n.kind.isComplex = true →
            Begins es (c.className n.nameOrEmpty) := by
  obtain ⟨hbases, fields, hfields, hproperties⟩ := of_dataView hview
  refine ⟨fun b hb => ?_, fields, hfields, dataView_className hview, fun p hp => ?_⟩
  · refine (hbases b hb).imp_right fun hb => hb.imp_right ?_
    rintro ⟨p, hp, rfl⟩
    exact begins_of_mem_parentTypes h hcomplex hp
  · obtain ⟨f, hf, hname, htyped⟩ := hproperties p hp
    refine ⟨f, hf, hname, annotates_of_typedAs h hcomplex htypes htyped, fun n hn hkind => ?_⟩
    obtain ⟨rfl, -⟩ := of_mentioned hn
    have hitem := innermost_eq_itemOf hkind
    rw [← hitem] at hkind ⊢
    exact (begins_of_generates h hcomplex (generates_of_mem_effectiveFields hfields hf) hkind).1

theorem mentions_of_builderView {constants : Keyed String} {b : BuilderView}
    (hview : builderView c constants t = .ok b) :
    (∃ fields, methodFields c t = .ok fields ∧ b.className = c.className t.name builderSuffix ∧
      ∀ m ∈ b.fields, (∀ n ∈ m.builder, Begins es n) ∧ (∀ d ∈ m.directives, Begins es d.2) ∧
        ∃ f ∈ fields, m.name = f.name ∧ ∀ p ∈ m.parameters, ∃ a ∈ f.arguments, p.name = a.name ∧
          Annotates c es t.name a.name a.type p.annotation) ∧
      ∀ f ∈ b.fragments, Begins es f.builder := by
  obtain ⟨fields, hfields, hmethods⟩ := of_builderView hview
  refine ⟨⟨fields, hfields, builderView_className hview, fun m hm => ?_⟩, fun f hf => ?_⟩
  · obtain ⟨f, hf, hmethod⟩ := hmethods m hm
    refine ⟨fun n hn => ?_, fun d hd => ?_, f, hf, hmethod.name, fun p hp => ?_⟩
    · obtain ⟨hkind, rfl⟩ := hmethod.builder n hn
      exact (begins_of_generates h hcomplex (of_mem_methodFields hfields hf).2 hkind).2
    · obtain ⟨definition, hdefinition, hname⟩ := hmethod.directives d hd
      rw [hname]
      exact begins_directive h hcomplex hdefinition
    · obtain ⟨a, ha, hname, htyped⟩ := hmethod.parameters p hp
      exact ⟨a, ha, hname, annotates_of_typedAs h hcomplex htypes htyped⟩
  · obtain ⟨types, used, hfragments, hmethods⟩ := (builderParts_of_builderView hview).fragments
    rw [hmethods] at hf
    obtain ⟨u, hu, -, -, hbuilder⟩ := mem_fragmentMethods hf
    obtain ⟨name, hget⟩ := exists_get?_of_mem_fragmentTypes hfragments hu
    obtain ⟨-, rfl⟩ := (indexed_of_byName hcomplex).found hget
    rw [hbuilder]
    exact (begins_of_get? h hcomplex hget).2

theorem mentions_of_classes {cls : Classes} (hcls : Classes.ofCatalog c = .ok cls) :
    Mentions c es cls := by
  obtain ⟨-, hdirectives, hbuilders, hinputs, hdata⟩ := ofCatalog_eq_ok.mp hcls
  obtain ⟨definitions, hdefinitions, hdirectives⟩ := bind_eq_ok.mp hdirectives
  obtain ⟨selected, hselected, hbuilders⟩ := bind_eq_ok.mp hbuilders
  obtain ⟨given, hgiven, hinputs⟩ := bind_eq_ok.mp hinputs
  obtain ⟨held, hheld, hdata⟩ := bind_eq_ok.mp hdata
  have hheld : ∀ {t}, t ∈ emissionOrder c held → t ∈ c.complex.values := fun ht =>
    (emissionOrder_perm (indexed_of_byName hcomplex) (ordered_perm hheld)).subset ht
  constructor
  case bases =>
    intro d hd
    obtain ⟨t, -, known, known', hview⟩ := of_mem_dataViewsInOrder hdata hd
    exact (mentions_of_dataView h hcomplex htypes hview).1
  case properties =>
    intro d hd
    obtain ⟨t, ht, known, known', hview⟩ := of_mem_dataViewsInOrder hdata hd
    exact ⟨t, hheld ht, (mentions_of_dataView h hcomplex htypes hview).2⟩
  case inputs =>
    intro i hi
    obtain ⟨t, ht, hview⟩ := exists_of_mapM hinputs hi
    refine ⟨t, (ordered_perm hgiven).subset ht, inputView_className hview, fun p hp => ?_⟩
    obtain ⟨f, hf, hname, htyped⟩ := of_inputView hview p hp
    exact ⟨f, hf, hname, annotates_of_typedAs h hcomplex htypes htyped⟩
  case directives =>
    intro d hd
    obtain ⟨definition, hdefinition, hview⟩ := exists_of_mapM hdirectives hd
    refine ⟨definition, (ordered_perm hdefinitions).subset hdefinition,
      directiveClass_className hview, fun p hp => ?_⟩
    obtain ⟨a, ha, hname, htyped⟩ := of_directiveClass hview p hp
    exact ⟨a, ha, hname, annotates_of_typedAs h hcomplex htypes htyped⟩
  case methods =>
    intro b hb
    obtain ⟨t, ht, hview⟩ := exists_of_mapM hbuilders hb
    exact ⟨t, (ordered_perm hselected).subset ht, (mentions_of_builderView h hcomplex htypes hview).1⟩
  case fragments =>
    intro b hb
    obtain ⟨t, -, hview⟩ := exists_of_mapM hbuilders hb
    exact (mentions_of_builderView h hcomplex htypes hview).2

end Mentions

/-- **What a client mentions.** Where generation comes to its end with builders and data classes, the
classes of the client are written, and what they mention is written, unless nothing notices that a
type is missing. To name a class that nothing defines is refused, but for an enumeration. -/
theorem mentions_resolve (g : Generator) (s : Schema) (htemplates : g.templates = .empty)
    (hhooks : g.hooks = .none) (hbuilders : Part.queryBuilders ∈ g.parts)
    (hdata : Part.dataClasses ∈ g.parts) (hdone : (g.course s).refusal = none) :
    ∃ c cls, (make g.configuration s).2 = .ok c ∧ Classes.ofCatalog c = .ok cls ∧
      (∀ phase, ∀ m ∈ membersOf cls phase, g.classEvents phase m <:+: (g.course s).events) ∧
      Mentions c (g.course s).events cls ∧
      ∀ owner member r n always, c.mentioned owner member r = some n →
        ((∃ m, c.memberType owner member r always = .ok m) ↔
          n.kind = .enumeration ∨ ∃ t ∈ s.types, t.name = n.nameOrEmpty) := by
  obtain ⟨c, hmake, hselected⟩ := Generator.written_of_course hdone
  rw [hhooks] at hmake
  change (make g.configuration s).2 = .ok c at hmake
  obtain ⟨rfl, hcomplex⟩ := schema_of_make hmake
  have htypes := types_of_make hmake
  have hwritten : Written g c (g.course c.schema).events := fun phase hpart =>
    hselected phase (Generator.mem_selectedPhases.mpr (hpart.elim (· ▸ hbuilders) (· ▸ hdata)))
  obtain ⟨cls, hcls, hmembers⟩ := classes_of_written htemplates hwritten
  refine ⟨c, cls, hmake, hcls, hmembers, mentions_of_classes hwritten hcomplex htypes hcls,
    fun owner member r n always hn => ?_⟩
  rw [(memberType_mentioned hn always).1, htypes]
  exact or_congr_right exists_get?_byName

/-! ### A filter by a status that nothing defines -/

/-- Filters by a status. -/
def filterSchema : Schema where
  queryType := none
  mutationType := none
  subscriptionType := none
  types :=
    [⟨.inputObject, "Filter", none, [],
      [⟨"status", none, .leaf .enumeration (some "Status"), .null⟩], [], [], []⟩]
  directives := []

/-- The catalog of the schema. -/
def filterCatalog : Catalog where
  configuration := {}
  schema := filterSchema
  types := byName filterSchema.types
  complex := .empty
  directives := .empty
  memberships := .empty
  renamed := .empty
  referenced := []

/-- The class of filters. -/
def filterInput : InputView where
  className := "Filter"
  description := ""
  properties := [⟨"status", "status", "Optional[Status]", none, ""⟩]
  typeImports := ["Status"]

/-- A generator of builders and data classes. -/
def classGenerator : Generator where
  configuration := {}
  parts := [.queryBuilders, .dataClasses]

theorem make_filter : (make {} filterSchema).2 = .ok filterCatalog := by
  cbv

theorem filter_inputViews : inputViews filterCatalog = .ok [filterInput] :=
  eq_ok_of_toOption (by decide +kernel)

theorem filterInput_text : filterInput.text = linesText
    ["class Filter(GraphQlInputObject):",
      "    status: InputProperty[Optional[Status]] = InputProperty('status')"] := by
  rfl

theorem filterInput_isProgram : Source.isProgram filterInput.text = true := by
  rw [filterInput_text]
  apply isProgram_of_toList
  case hcs =>
    repeat apply toList_linesText_cons
    exact toList_linesText_nil
  case h => decide +kernel

theorem filter_members (phase : Phase) (hphase : phase ∈ selectedPhases classGenerator.parts) :
    classGenerator.members filterCatalog (typeConstants filterSchema) phase =
      .ok (if phase = .inputs then [filterInput.member] else []) := by
  have hphases : selectedPhases classGenerator.parts =
      [.enums, .directives, .builders, .inputs, .dataClasses] := by decide
  rw [hphases] at hphase
  simp only [List.mem_cons, List.not_mem_nil, or_false] at hphase
  rcases hphase with rfl | rfl | rfl | rfl | rfl
  case inr.inr.inr.inl => exact congrArg (Except.map _) filter_inputViews
  all_goals rfl

theorem filter_done : (classGenerator.course filterSchema).refusal = none := by
  refine Generator.refusal_eq_none (c := filterCatalog) make_filter fun phase hphase => ?_
  refine ⟨_, filter_members phase hphase, fun m hm => ?_⟩
  split_ifs at hm
  · rw [List.mem_singleton.mp hm]
    exact filterInput_isProgram
  · cases hm

/-- The class of filters is written, and no class of the status is. -/
theorem filter_mentions :
    classGenerator.templates = .empty ∧ classGenerator.hooks = .none ∧
      Part.queryBuilders ∈ classGenerator.parts ∧ Part.dataClasses ∈ classGenerator.parts ∧
      (classGenerator.course filterSchema).refusal = none ∧
      ∃ c cls, (make classGenerator.configuration filterSchema).2 = .ok c ∧
        Classes.ofCatalog c = .ok cls ∧ Mentions c (classGenerator.course filterSchema).events cls ∧
        classGenerator.classEvents .inputs filterInput.member <:+:
          (classGenerator.course filterSchema).events ∧
        (∃ p ∈ filterInput.properties, Wraps "Status" p.annotation) ∧
        ¬ Begins (classGenerator.course filterSchema).events "Status" := by
  obtain ⟨c, cls, hmake, hcls, hwritten, hmentions, -⟩ := mentions_resolve classGenerator filterSchema
    rfl rfl (by decide) (by decide) filter_done
  cases make_filter.symm.trans hmake
  refine ⟨rfl, rfl, by decide, by decide, filter_done, filterCatalog, cls, hmake, hcls, hmentions,
    hwritten .inputs _ ?_, ?_, ?_⟩
  · have hinputs : cls.inputs = [filterInput] :=
      Except.ok.inj ((ofCatalog_eq_ok.mp hcls).inputs.symm.trans filter_inputViews)
    rw [membersOf, hinputs]
    exact List.mem_singleton_self _
  · exact ⟨_, List.mem_singleton_self _, Wraps.self.optional⟩
  · rintro ⟨phase, header, hbegins⟩
    obtain ⟨c, hc, hphase, ms, hms, m, hm, hname⟩ := Generator.of_beginClass_mem hbegins
    cases make_filter.symm.trans hc
    cases (filter_members phase hphase).symm.trans hms
    split_ifs at hm
    · rw [List.mem_singleton.mp hm] at hname
      exact absurd hname (by decide)
    · cases hm

end Bindery.Output
