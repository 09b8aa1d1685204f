import Bindery.Output.Generate
import Bindery.Proofs.Client.Views

/-!
# The classes of the phases

Each phase writes classes of its own. Where the classes of the types of a schema collide with
nothing, no class of a phase has the name of a class of another phase, and no phase but that of the
directives writes two classes of one name.

## What is proved

* `members_perm`, `members_subperm` — what a phase writes.
* `phase_eq_of_mem_classNames` — phases that share a class name are one phase.
* `nodup_classNames` — the class names of a phase other than that of the directives differ.
-/

namespace Bindery.Output

open Bindery.Schema Bindery.Client Bindery.Catalog

variable {c : Catalog} {n : String} {t : TypeDefinition}

/-- The names of the classes of a phase. -/
def classNames (c : Catalog) : Phase → List String
  | .baseClasses => [supportName]
  | .typeNames => [typeNamesClass]
  | .enums => c.schema.enumTypes.map fun (t : TypeDefinition) => c.className t.name
  | .directives => c.fieldDirectives.map c.directiveClassName
  | .builders => c.schema.complexTypes.map fun (t : TypeDefinition) => c.className t.name builderSuffix
  | .inputs => c.schema.inputTypes.map fun (t : TypeDefinition) => c.className t.name
  | .dataClasses => c.schema.complexTypes.map fun (t : TypeDefinition) => c.className t.name

/-! ### What a phase writes -/

theorem enumClass_className {e : EnumClass} (h : enumClass c t = .ok e) :
    e.className = c.className t.name := by
  obtain ⟨name, hname, h⟩ := bind_eq_ok.mp h
  rw [← pure_eq_ok.mp h]
  exact usableClassName_eq_ok hname

theorem directiveClass_className {d : DirectiveDefinition} {e : DirectiveClass}
    (h : directiveClass c d = .ok e) : e.className = c.directiveClassName d := by
  obtain ⟨name, hname, h⟩ := bind_eq_ok.mp h
  obtain ⟨ps, -, h⟩ := bind_eq_ok.mp h
  rw [← pure_eq_ok.mp h]
  exact usableClassName_eq_ok hname

theorem builderView_className {constants : Keyed String} {b : BuilderView}
    (h : builderView c constants t = .ok b) : b.className = c.className t.name builderSuffix := by
  obtain ⟨name, hname, h⟩ := bind_eq_ok.mp h
  obtain ⟨fields, -, h⟩ := bind_eq_ok.mp h
  obtain ⟨methods, -, h⟩ := bind_eq_ok.mp h
  obtain ⟨fragments, -, h⟩ := bind_eq_ok.mp h
  rw [← pure_eq_ok.mp h]
  exact usableClassName_eq_ok hname

theorem inputView_className {i : InputView} (h : inputView c t = .ok i) :
    i.className = c.className t.name := by
  obtain ⟨name, hname, h⟩ := bind_eq_ok.mp h
  obtain ⟨ps, -, h⟩ := bind_eq_ok.mp h
  rw [← pure_eq_ok.mp h]
  exact usableClassName_eq_ok hname

/-- The classes of items in the configured order are those of the items. -/
theorem classes_perm {α β : Type} {configuration : Configuration} {key : α → Except Refusal String}
    {view : α → Except Refusal β} {className : β → String} {own : α → String} {xs : List α}
    {vs : List β} (hview : ∀ x v, view x = .ok v → className v = own x)
    (h : (do (← ordered configuration key xs).mapM view) = .ok vs) :
    (vs.map className).Perm (xs.map own) := by
  obtain ⟨ts, hts, hvs⟩ := bind_eq_ok.mp h
  rw [map_of_mapM hvs hview]
  exact (ordered_perm hts).map own

/-- The data classes are those of the types that the catalog lists. -/
theorem dataViews_perm (hindexed : c.Indexed) {ds : List DataView} (h : dataViews c = .ok ds) :
    (ds.map DataView.className).Perm
      (c.complex.values.map fun (t : TypeDefinition) => c.className t.name) := by
  obtain ⟨ts, hts, hds⟩ := bind_eq_ok.mp h
  rw [dataViewsInOrder_classNames hds]
  exact (emissionOrder_perm hindexed (ordered_perm hts)).map _

/-- The names of the classes that a phase writes. Of several types with one name only the one that
the catalog lists has a data class. -/
def writtenNames (c : Catalog) : Phase → List String
  | .dataClasses => c.complex.values.map fun (t : TypeDefinition) => c.className t.name
  | phase => classNames c phase

/-- What a phase writes. -/
theorem members_perm (hindexed : c.Indexed) {g : Generator} {constants : Keyed String}
    {phase : Phase} {ms : List Member} (h : g.members c constants phase = .ok ms) :
    (ms.map Member.className).Perm (writtenNames c phase) := by
  cases phase with
  | baseClasses => cases h; exact .refl _
  | typeNames => cases h; exact .refl _
  | enums =>
    obtain ⟨es, hes, rfl⟩ := map_eq_ok.mp h
    rw [List.map_map]
    exact classes_perm (fun _ _ => enumClass_className) hes
  | directives =>
    obtain ⟨ds, hds, rfl⟩ := map_eq_ok.mp h
    rw [List.map_map]
    exact classes_perm (fun _ _ => directiveClass_className) hds
  | builders =>
    obtain ⟨bs, hbs, rfl⟩ := map_eq_ok.mp h
    rw [List.map_map]
    exact classes_perm (fun _ _ => builderView_className) hbs
  | inputs =>
    obtain ⟨is, his, rfl⟩ := map_eq_ok.mp h
    rw [List.map_map]
    exact classes_perm (fun _ _ => inputView_className) his
  | dataClasses =>
    obtain ⟨ds, hds, rfl⟩ := map_eq_ok.mp h
    rw [List.map_map]
    exact dataViews_perm hindexed hds

/-- What a phase writes is among the classes of the phase. -/
theorem members_subperm (hcomplex : c.complex = byName c.schema.complexTypes) {g : Generator}
    {constants : Keyed String} {phase : Phase} {ms : List Member}
    (h : g.members c constants phase = .ok ms) :
    (ms.map Member.className).Subperm (classNames c phase) := by
  have hindexed := indexed_of_byName hcomplex
  have hwritten : (writtenNames c phase).Subperm (classNames c phase) := by
    cases phase with
    | dataClasses =>
      obtain ⟨us, hperm, hsub⟩ := List.subperm_of_subset hindexed.distinct.of_map
        fun t ht => mem_complexTypes hcomplex ht
      exact ⟨_, hperm.map _, hsub.map _⟩
    | baseClasses | typeNames | enums | directives | builders | inputs => exact .refl _
  exact (members_perm hindexed h).subperm.trans hwritten

/-! ### The phase of a class name -/

/-- The phase of the class of a type that is no builder. -/
def typePhase : Kind → Phase
  | .enumeration => .enums
  | .inputObject => .inputs
  | _ => .dataClasses

/-- The class of a type or of its builder, and the phase that writes it. -/
inductive WritesClass (c : Catalog) (t : TypeDefinition) : String → Phase → Prop where
  /-- The class of the type itself. -/
  | own (hclasses : hasClasses t = true) : WritesClass c t (c.className t.name) (typePhase t.kind)
  /-- The class of the builder. -/
  | builder (hclasses : hasClasses t = true) (hkind : t.kind.isComplex = true) :
      WritesClass c t (c.className t.name builderSuffix) .builders

theorem WritesClass.mem_classesOf {phase : Phase} (h : WritesClass c t n phase) :
    n ∈ c.classesOf t := by
  cases h with
  | own hclasses => exact className_mem_classesOf hclasses
  | builder hclasses hkind => exact builder_mem_classesOf hclasses hkind

/-- A type does not have one class in two phases. -/
theorem WritesClass.phase_eq {phase phase' : Phase} (h : WritesClass c t n phase)
    (h' : WritesClass c t n phase') : phase = phase' := by
  cases h with
  | own =>
    generalize hn : c.className t.name = n at h'
    cases h' with
    | own => rfl
    | builder => exact absurd hn (className_ne_builder c t.name)
  | builder =>
    generalize hn : c.className t.name builderSuffix = n at h'
    cases h' with
    | own => exact absurd hn.symm (className_ne_builder c t.name)
    | builder => rfl

/-- The classes that every client has. -/
inductive WritesShared : String → Phase → Prop where
  /-- The support text. -/
  | support : WritesShared supportName .baseClasses
  /-- The names of the types. -/
  | typeNames : WritesShared typeNamesClass .typeNames

theorem WritesShared.mem_boundNames {phase : Phase} (h : WritesShared n phase) :
    n ∈ boundNames := by
  cases h <;> decide

theorem WritesShared.phase_eq {phase phase' : Phase} (h : WritesShared n phase)
    (h' : WritesShared n phase') : phase = phase' := by
  cases h with
  | support =>
    generalize hn : supportName = n at h'
    cases h' with
    | support => rfl
    | typeNames => exact absurd hn (by decide)
  | typeNames =>
    generalize hn : typeNamesClass = n at h'
    cases h' with
    | support => exact absurd hn (by decide)
    | typeNames => rfl

/-- The class of a directive is not one that every client has: its name holds a word that theirs do
not. -/
theorem WritesShared.not_directive {phase : Phase} (h : WritesShared n phase) :
    n ∉ c.fieldDirectives.map c.directiveClassName := by
  intro hn
  obtain ⟨d, -, rfl⟩ := List.mem_map.mp hn
  have hword : directiveSuffix.toList <:+: (c.directiveClassName d).toList := by
    refine ⟨(c.configuration.classPrefix ++ Label.pascalCase d.name).toList,
      c.configuration.classSuffix.toList, ?_⟩
    simp [Catalog.directiveClassName, Configuration.fullName]
  generalize c.directiveClassName d = name at h hword
  cases h <;> revert hword <;> decide

/-- The classes of the types of some kinds belong to the phase of these kinds. -/
theorem exists_writesClass {wanted : Kind → Bool} {phase : Phase} (hscalar : wanted .scalar = false)
    (hphase : ∀ k, wanted k = true → typePhase k = phase)
    (h : n ∈ (c.schema.typesOf wanted).map fun (t : TypeDefinition) => c.className t.name) :
    ∃ t ∈ c.schema.types, WritesClass c t n phase := by
  obtain ⟨t, ht, rfl⟩ := List.mem_map.mp h
  obtain ⟨ht, hclasses, hkind⟩ := of_mem_typesOf hscalar ht
  exact ⟨t, ht, hphase t.kind hkind ▸ .own hclasses⟩

/-- The classes of a phase are those that every client has, those of directives, or those of
types. -/
theorem mem_classNames {phase : Phase} (h : n ∈ classNames c phase) :
    WritesShared n phase ∨ (n ∈ c.fieldDirectives.map c.directiveClassName ∧ phase = .directives) ∨
      ∃ t ∈ c.schema.types, WritesClass c t n phase := by
  cases phase with
  | baseClasses =>
    rw [List.mem_singleton.mp h]
    exact .inl .support
  | typeNames =>
    rw [List.mem_singleton.mp h]
    exact .inl .typeNames
  | directives => exact .inr (.inl ⟨h, rfl⟩)
  | enums | inputs | dataClasses =>
    exact .inr (.inr (exists_writesClass rfl (by intro k; cases k <;> decide) h))
  | builders =>
    obtain ⟨t, ht, rfl⟩ := List.mem_map.mp h
    obtain ⟨ht, hclasses, hkind⟩ := of_mem_typesOf rfl ht
    exact .inr (.inr ⟨t, ht, .builder hclasses hkind⟩)

/-- **Phases that share a class name are one phase.** -/
theorem phase_eq_of_mem_classNames {phase phase' : Phase} (hfree : c.CollisionFree c.schema.types)
    (h : n ∈ classNames c phase) (h' : n ∈ classNames c phase') : phase = phase' := by
  have htype : ∀ {ph}, (∃ t ∈ c.schema.types, WritesClass c t n ph) →
      n ∈ c.schema.types.flatMap c.classesOf := fun ⟨t, ht, hw⟩ =>
    List.mem_flatMap.mpr ⟨t, ht, hw.mem_classesOf⟩
  rcases mem_classNames h with hs | ⟨hd, rfl⟩ | ht <;>
    rcases mem_classNames h' with hs' | ⟨hd', rfl⟩ | ht'
  · exact hs.phase_eq hs'
  · exact absurd hd' hs.not_directive
  · exact absurd hs.mem_boundNames (hfree.unbound n (htype ht'))
  · exact absurd hd hs'.not_directive
  · rfl
  · exact absurd hd (hfree.undirected n (htype ht'))
  · exact absurd hs'.mem_boundNames (hfree.unbound n (htype ht))
  · exact absurd hd' (hfree.undirected n (htype ht))
  · obtain ⟨t, ht, hw⟩ := ht
    obtain ⟨t', ht', hw'⟩ := ht'
    obtain rfl := eq_of_mem_classesOf hfree ht ht' hw.mem_classesOf hw'.mem_classesOf
    exact hw.phase_eq hw'

/-- One class each of some types have different names. -/
theorem nodup_typeClasses {wanted : Kind → Bool} {name : TypeDefinition → String}
    (hfree : c.CollisionFree c.schema.types)
    (hnames : (c.schema.types.map TypeDefinition.name).Nodup)
    (hname : ∀ t ∈ c.schema.typesOf wanted, name t ∈ c.classesOf t) :
    ((c.schema.typesOf wanted).map name).Nodup := by
  refine (hnames.of_map.filter _).map_on fun t ht t' ht' heq => ?_
  exact eq_of_mem_classesOf hfree (List.mem_of_mem_filter ht) (List.mem_of_mem_filter ht')
    (hname t ht) (heq ▸ hname t' ht')

/-- The class names of a phase other than that of the directives differ. -/
theorem nodup_classNames {phase : Phase} (hfree : c.CollisionFree c.schema.types)
    (hnames : (c.schema.types.map TypeDefinition.name).Nodup) (hphase : phase ≠ .directives) :
    (classNames c phase).Nodup := by
  cases phase with
  | baseClasses => exact List.nodup_singleton _
  | typeNames => exact List.nodup_singleton _
  | directives => exact absurd rfl hphase
  | enums | inputs | dataClasses =>
    exact nodup_typeClasses hfree hnames fun t ht =>
      className_mem_classesOf (of_mem_typesOf rfl ht).2.1
  | builders =>
    refine nodup_typeClasses hfree hnames fun t ht => ?_
    obtain ⟨-, hclasses, hkind⟩ := of_mem_typesOf rfl ht
    exact builder_mem_classesOf hclasses hkind

end Bindery.Output
