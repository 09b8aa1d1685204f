import Bindery.Client.Loaded
import Bindery.Proofs.Catalog.References
import Bindery.Proofs.Client.Views

/-!
# Where the classes of a client name other classes

The properties of data classes and input classes, and the parameters for arguments, are annotated
with the types that the catalog gives to members. A data class derives from the classes of types that
the catalog finds; the methods of a builder take builders of such types.

## What is proved

* `TypedAs.wraps`, `TypedAs.finds` — which class an annotation names.
* `of_dataView`, `of_inputView`, `of_directiveClass`, `of_builderView` — which members the
  annotations of a class stand for, and which other classes it names.
-/

namespace Bindery.Client

open Bindery.Schema Bindery.Catalog Bindery.Scalar

variable {c : Catalog} {t : TypeDefinition} {owner member e : String} {r : TypeRef}
  {used used' : List String}

/-! ### Annotations -/

/-- The expression is that of the type that the catalog gives to a member, as it stands at a property
or at a parameter. -/
def TypedAs (c : Catalog) (owner member : String) (r : TypeRef) (e : String) : Prop :=
  ∃ always m, c.memberType owner member r always = .ok m ∧
    (e = m.annotation ∨ ∃ isRequired, e = parameterType m isRequired)

theorem wraps_parameterType {base : String} {m : MemberType} (h : Wraps base m.name)
    (isRequired : Bool) : Wraps base (parameterType m isRequired) := by
  rw [parameterType]
  split_ifs
  · exact h.either
  · exact h.either.optional

/-- An annotation names the class that the member mentions. -/
theorem TypedAs.wraps (h : TypedAs c owner member r e) {n : TypeRef}
    (hn : c.mentioned owner member r = some n) : Wraps (c.className n.nameOrEmpty) e := by
  obtain ⟨always, m, hm, rfl | ⟨isRequired, rfl⟩⟩ := h
  · exact Wraps.annotation ((memberType_mentioned hn always).2 m hm)
  · exact wraps_parameterType ((memberType_mentioned hn always).2 m hm) isRequired

/-- The type that is mentioned was found, unless it is an enumeration. -/
theorem TypedAs.finds (h : TypedAs c owner member r e) {n : TypeRef}
    (hn : c.mentioned owner member r = some n) :
    n.kind = .enumeration ∨ ∃ d, c.types.get? n.nameOrEmpty = some d := by
  obtain ⟨always, m, hm, -⟩ := h
  exact (memberType_mentioned hn always).1.mp ⟨m, hm⟩

theorem of_mem_dataProperties {fs : List Field} {ps : List DataProperty} {p : DataProperty}
    (h : dataProperties c owner fs used = .ok ps) (hp : p ∈ ps) :
    ∃ f ∈ fs, p.name = f.name ∧ TypedAs c owner f.name f.type p.annotation := by
  refine exists_of_mem_collected
    (P := fun f p => p.name = f.name ∧ TypedAs c owner f.name f.type p.annotation) (fun _ => rfl)
    (fun f fs used ps h => ?_) h hp
  obtain ⟨m, hm, h⟩ := bind_eq_ok.mp h
  obtain ⟨rest, hrest, h⟩ := bind_eq_ok.mp h
  exact ⟨_, _, rest, ⟨rfl, _, m, hm, .inl rfl⟩, hrest, (pure_eq_ok.mp h).symm⟩

theorem of_mem_inputProperties {fs : List Argument} {ps : List InputProperty} {p : InputProperty}
    (h : inputProperties c owner fs used = .ok ps) (hp : p ∈ ps) :
    ∃ f ∈ fs, p.name = f.name ∧ TypedAs c owner f.name f.type p.annotation := by
  refine exists_of_mem_collected
    (P := fun f p => p.name = f.name ∧ TypedAs c owner f.name f.type p.annotation) (fun _ => rfl)
    (fun f fs used ps h => ?_) h hp
  obtain ⟨m, hm, h⟩ := bind_eq_ok.mp h
  obtain ⟨rest, hrest, h⟩ := bind_eq_ok.mp h
  exact ⟨_, _, rest, ⟨rfl, _, m, hm, .inl rfl⟩, hrest, (pure_eq_ok.mp h).symm⟩

theorem of_mem_parametersInOrder {as : List Argument} {ps : List Parameter} {p : Parameter}
    (h : parametersInOrder c owner as used = .ok (ps, used')) (hp : p ∈ ps) :
    ∃ a ∈ as, p.name = a.name ∧ TypedAs c owner a.name a.type p.annotation := by
  refine exists_of_mem_collected (g := fun as used => (parametersInOrder c owner as used).map Prod.fst)
    (P := fun a p => p.name = a.name ∧ TypedAs c owner a.name a.type p.annotation) (fun _ => rfl)
    (fun a as used ps h => ?_) (map_eq_ok.mpr ⟨_, h, rfl⟩) hp
  obtain ⟨⟨ps, used₁⟩, hall, rfl⟩ := map_eq_ok.mp h
  obtain ⟨m, hm, hall⟩ := bind_eq_ok.mp hall
  obtain ⟨⟨rest, used₂⟩, hrest, hall⟩ := bind_eq_ok.mp hall
  cases pure_eq_ok.mp hall
  exact ⟨_, _, rest, ⟨rfl, _, m, hm, .inr ⟨_, rfl⟩⟩, map_eq_ok.mpr ⟨_, hrest, rfl⟩, rfl⟩

/-- Each parameter stands for an argument. -/
theorem of_mem_parameters {as : List Argument} {ps : List Parameter} {p : Parameter}
    (h : parameters c owner as used = .ok (ps, used')) (hp : p ∈ ps) :
    ∃ a ∈ as, p.name = a.name ∧ TypedAs c owner a.name a.type p.annotation := by
  obtain ⟨⟨inOrder, used⟩, hinOrder, h⟩ := bind_eq_ok.mp h
  cases pure_eq_ok.mp h
  refine of_mem_parametersInOrder hinOrder ?_
  exact (List.mem_append.mp hp).elim List.mem_of_mem_filter List.mem_of_mem_filter

/-! ### Data classes and input classes -/

theorem filterM_subset {σ α : Type} {ask : α → StateM σ Bool} {xs : List α} {s : σ} :
    ∀ x ∈ ((xs.filterM ask).run s).1, x ∈ xs := by
  suffices key : ∀ (acc : List α) (s : σ), ∀ x ∈ ((List.filterAuxM ask xs acc).run s).1,
      x ∈ acc ∨ x ∈ xs by
    intro x hx
    exact (key [] s x (List.mem_reverse.mp hx)).resolve_left List.not_mem_nil
  induction xs with
  | nil => exact fun acc s x hx => .inl hx
  | cons y ys ih =>
    intro acc s x hx
    rcases ih (bif ((ask y).run s).1 then y :: acc else acc) _ x hx with hx | hx
    · cases hkeep : ((ask y).run s).1 with
      | false =>
        rw [hkeep] at hx
        exact .inl hx
      | true =>
        rw [hkeep] at hx
        exact (List.mem_cons.mp hx).elim (fun hx => .inr (hx ▸ List.mem_cons_self)) .inl
    · exact .inr (List.mem_cons_of_mem _ hx)

/-- A base is one that all data classes have, or the class of an interface or a union that the type
belongs to. -/
theorem mem_basesOf {name b : String} {parents inherited : List String}
    (h : b ∈ basesOf c name parents inherited) :
    b = sendableBase ∨ b = dataBase ∨ ∃ p ∈ parents, b = c.className p := by
  rw [basesOf_eq] at h
  rcases List.mem_append.mp h with h | h
  · obtain ⟨p, hp, rfl⟩ := List.mem_map.mp h
    exact .inr (.inr ⟨p, hp, rfl⟩)
  · exact (mem_rootBase h).imp_right .inl

/-- Which classes a data class names. -/
theorem of_dataView {known known' : Ancestors} {d : DataView}
    (h : dataView c known t = .ok (d, known')) :
    (∀ b ∈ d.bases, b = sendableBase ∨ b = dataBase ∨ ∃ p ∈ parentTypes c t, b = c.className p) ∧
      ∃ fields, c.effectiveFields t = .ok fields ∧ ∀ p ∈ d.properties,
        ∃ f ∈ fields, p.name = f.name ∧ TypedAs c t.name f.name f.type p.annotation := by
  obtain ⟨name, -, h⟩ := bind_eq_ok.mp h
  obtain ⟨fields, hfields, h⟩ := bind_eq_ok.mp h
  obtain ⟨ps, hps, h⟩ := bind_eq_ok.mp h
  cases pure_eq_ok.mp h
  refine ⟨fun b hb => ?_, fields, hfields, fun p hp => of_mem_dataProperties hps hp⟩
  refine (mem_basesOf hb).imp_right fun hb => hb.imp_right ?_
  rintro ⟨p, hp, rfl⟩
  exact ⟨p, filterM_subset p hp, rfl⟩

/-- Each data class is that of a type. -/
theorem of_mem_dataViewsInOrder {ts : List TypeDefinition} {known : Ancestors} {ds : List DataView}
    {d : DataView} (h : dataViewsInOrder c ts known = .ok ds) (hd : d ∈ ds) :
    ∃ t ∈ ts, ∃ known known', dataView c known t = .ok (d, known') := by
  refine exists_of_mem_collected
    (P := fun t d => ∃ known known', dataView c known t = .ok (d, known')) (fun _ => rfl)
    (fun t ts known ds h => ?_) h hd
  obtain ⟨⟨e, known'⟩, he, h⟩ := bind_eq_ok.mp h
  obtain ⟨rest, hrest, h⟩ := bind_eq_ok.mp h
  exact ⟨e, known', rest, ⟨known, known', he⟩, hrest, (pure_eq_ok.mp h).symm⟩

/-- Which classes an input class names. -/
theorem of_inputView {i : InputView} (h : inputView c t = .ok i) : ∀ p ∈ i.properties,
    ∃ f ∈ t.inputFields, p.name = f.name ∧ TypedAs c t.name f.name f.type p.annotation := by
  obtain ⟨name, -, h⟩ := bind_eq_ok.mp h
  obtain ⟨ps, hps, h⟩ := bind_eq_ok.mp h
  rw [← pure_eq_ok.mp h]
  exact fun p hp => of_mem_inputProperties hps hp

/-! ### Directives and builders -/

/-- Which classes the class of a directive names. -/
theorem of_directiveClass {d : DirectiveDefinition} {cls : DirectiveClass}
    (h : directiveClass c d = .ok cls) : ∀ p ∈ cls.parameters,
    ∃ a ∈ d.arguments, p.name = a.name ∧ TypedAs c d.name a.name a.type p.annotation := by
  obtain ⟨name, -, h⟩ := bind_eq_ok.mp h
  obtain ⟨⟨ps, used⟩, hps, h⟩ := bind_eq_ok.mp h
  rw [← pure_eq_ok.mp h]
  exact fun p hp => of_mem_parameters hps hp

theorem of_mem_directiveParameters {ds : List DirectiveDefinition} {ps : List (String × String)}
    {p : String × String} (h : directiveParameters c ds used = .ok ps) (hp : p ∈ ps) :
    ∃ d ∈ ds, p.2 = c.directiveClassName d := by
  refine exists_of_mem_collected (P := fun d p => p.2 = c.directiveClassName d) (fun _ => rfl)
    (fun d ds used ps h => ?_) h hp
  obtain ⟨cls, hcls, h⟩ := bind_eq_ok.mp h
  obtain ⟨rest, hrest, h⟩ := bind_eq_ok.mp h
  have hname : cls = c.directiveClassName d := usableClassName_eq_ok hcls
  exact ⟨_, _, rest, hname, hrest, (pure_eq_ok.mp h).symm⟩

/-- The methods of a field take the builder of its type, directives and arguments. -/
structure MethodsFor (c : Catalog) (owner : String) (f : Field) (m : FieldMethods) : Prop where
  /-- They are those of the field. -/
  name : m.name = f.name
  /-- The builder is that of the type of the field, which needs a selection set. -/
  builder : ∀ b ∈ m.builder, f.type.innermost.kind.isComplex = true ∧
    b = c.className f.type.innermost.nameOrEmpty builderSuffix
  /-- The directives can be applied to fields. -/
  directives : ∀ p ∈ m.directives, ∃ d ∈ c.fieldDirectives, p.2 = c.directiveClassName d
  /-- The parameters stand for the arguments of the field. -/
  parameters : ∀ p ∈ m.parameters, ∃ a ∈ f.arguments, p.name = a.name ∧
    TypedAs c owner a.name a.type p.annotation

theorem methodsFor_of_fieldMethods {f : Field} {m : FieldMethods}
    (h : fieldMethods c owner f used = .ok (m, used')) : MethodsFor c owner f m := by
  obtain ⟨builder, hbuilder, h⟩ := bind_eq_ok.mp h
  obtain ⟨⟨ps, names⟩, hps, h⟩ := bind_eq_ok.mp h
  obtain ⟨directives, hdirectives, h⟩ := bind_eq_ok.mp h
  cases pure_eq_ok.mp h
  refine ⟨rfl, fun b hb => ?_, fun p hp => of_mem_directiveParameters hdirectives hp,
    fun p hp => of_mem_parameters hps hp⟩
  rw [fieldBuilder] at hbuilder
  by_cases hkind : f.type.innermost.kind.isComplex = true
  · simp only [hkind, Bool.not_true, Bool.false_eq_true, if_false] at hbuilder
    obtain ⟨-, -, hbuilder⟩ := bind_eq_ok.mp hbuilder
    cases pure_eq_ok.mp hbuilder
    cases hb
    exact ⟨hkind, rfl⟩
  · simp only [hkind, Bool.not_false, if_true] at hbuilder
    cases pure_eq_ok.mp hbuilder
    cases hb

theorem of_mem_allFieldMethods {fs : List Field} {ms : List FieldMethods} {m : FieldMethods}
    (h : allFieldMethods c owner fs used = .ok (ms, used')) (hm : m ∈ ms) :
    ∃ f ∈ fs, MethodsFor c owner f m := by
  refine exists_of_mem_collected (g := fun fs used => (allFieldMethods c owner fs used).map Prod.fst)
    (P := MethodsFor c owner) (fun _ => rfl) (fun f fs used ms h => ?_)
    (map_eq_ok.mpr ⟨_, h, rfl⟩) hm
  obtain ⟨⟨ms, used₁⟩, hall, rfl⟩ := map_eq_ok.mp h
  obtain ⟨⟨n, used₂⟩, hn, hall⟩ := bind_eq_ok.mp hall
  obtain ⟨⟨rest, used₃⟩, hrest, hall⟩ := bind_eq_ok.mp hall
  cases pure_eq_ok.mp hall
  exact ⟨n, _, rest, methodsFor_of_fieldMethods hn, map_eq_ok.mpr ⟨_, hrest, rfl⟩, rfl⟩

/-- Which classes the methods of a builder name. -/
theorem of_builderView {constants : Keyed String} {b : BuilderView}
    (h : builderView c constants t = .ok b) : ∃ fields, methodFields c t = .ok fields ∧
    ∀ m ∈ b.fields, ∃ f ∈ fields, MethodsFor c t.name f m := by
  obtain ⟨name, -, h⟩ := bind_eq_ok.mp h
  obtain ⟨fields, hfields, h⟩ := bind_eq_ok.mp h
  obtain ⟨⟨methods, used⟩, hmethods, h⟩ := bind_eq_ok.mp h
  obtain ⟨ts, hts, h⟩ := bind_eq_ok.mp h
  rw [← pure_eq_ok.mp h]
  exact ⟨fields, hfields, fun m hm => of_mem_allFieldMethods hmethods hm⟩

end Bindery.Client
