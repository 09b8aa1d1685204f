import Bindery.Proofs.Keyed
import Bindery.Schema.Filter

/-!
# Filtering types

Whether a filter keeps a type depends on the name of the type and on the root types only, and neither
changes when types are left out. So the types that two filters keep one after the other are those
that both keep, and to leave out references twice is to leave out those to the types that are missing
from either list of names.

A filter leaves no reference to a type that it leaves out in a type that it keeps: the fields, input
fields, interfaces and members of unions that are left lead to types that are left. It does not look
at the directives, so an argument of a directive goes on to lead to a type that is left out.

## What is proved

* `keeps_iff` — which types are kept, in terms of their names.
* `prune_prune` — pruning for two lists of names is pruning for the names that are in both.
* `apply_apply` — what two filters leave.
* `filter_exact` — a filter keeps exactly the types that it is to keep and the references to them, a
  second time it changes nothing, and the order of two filters does not count.
* `refersInto_apply` — what the types that a filter leaves refer to.
* `TypesClosed.apply` — references of types that are defined stay so.
* `leadsInto_kept_iff`, `directives_apply_iff` — when the arguments of the directives lead to types
  that are left.
-/

namespace Bindery.Schema

variable {names names' both : List String} {f g : TypeFilter} {s : Schema} {t t' : TypeDefinition}

/-! ### References -/

/-- The type inside all lists and exclusions of null has one of the names. -/
def LeadsInto (names : List String) (r : TypeRef) : Prop :=
  ∃ n ∈ names, r.innermost.name? = some n

/-- The reference has one of the names. -/
def NamedIn (names : List String) (r : TypeRef) : Prop :=
  ∃ n ∈ names, r.name? = some n

theorem any_contains_iff {n : Option String} :
    n.any names.contains = true ↔ ∃ m ∈ names, n = some m := by
  cases n with
  | none => simp
  | some m => simp

theorem leadsTo_iff {r : TypeRef} : leadsTo names r = true ↔ LeadsInto names r :=
  any_contains_iff

theorem isNamed_iff {r : TypeRef} : isNamed names r = true ↔ NamedIn names r :=
  any_contains_iff

/-- A reference that stands around nothing is what it leads to. -/
theorem innermost_of_not_wraps {r : TypeRef} (h : r.kind.wraps = false) : r.innermost = r := by
  cases r with
  | leaf => rfl
  | around k n inner =>
    have hk : k.wraps = false := h
    rw [TypeRef.innermost, if_neg (by simp [hk])]

theorem namedIn_iff_leadsInto {r : TypeRef} (h : r.kind.wraps = false) :
    NamedIn names r ↔ LeadsInto names r := by
  rw [NamedIn, LeadsInto, innermost_of_not_wraps h]

/-- The names are those that are in both lists. -/
def InBoth (names names' both : List String) : Prop :=
  ∀ n, n ∈ both ↔ n ∈ names ∧ n ∈ names'

theorem InBoth.symm (h : InBoth names names' both) : InBoth names' names both :=
  fun n => (h n).trans and_comm

theorem InBoth.any (h : InBoth names names' both) (n : Option String) :
    n.any both.contains = (n.any names.contains && n.any names'.contains) := by
  cases n with
  | none => rfl
  | some n => simp [h n]

theorem InBoth.leadsTo (h : InBoth names names' both) (r : TypeRef) :
    leadsTo both r = (leadsTo names r && leadsTo names' r) :=
  h.any _

theorem InBoth.isNamed (h : InBoth names names' both) (r : TypeRef) :
    isNamed both r = (isNamed names r && isNamed names' r) :=
  h.any _

/-- Does the field lead to kept types only, and its arguments as well? -/
def Field.stays (names : List String) (f : Field) : Bool :=
  leadsTo names f.type && f.arguments.all fun (a : Argument) => leadsTo names a.type

theorem Field.stays_iff {f : Field} : f.stays names = true ↔
    LeadsInto names f.type ∧ ∀ a ∈ f.arguments, LeadsInto names (Argument.type a) := by
  simp only [stays, Bool.and_eq_true, List.all_eq_true, leadsTo_iff]

theorem InBoth.stays (h : InBoth names names' both) (f : Field) :
    f.stays both = (f.stays names && f.stays names') := by
  rw [Bool.eq_iff_iff]
  simp only [Field.stays, Bool.and_eq_true, List.all_eq_true, h.leadsTo]
  constructor
  · rintro ⟨⟨htype, htype'⟩, hargs⟩
    exact ⟨⟨htype, fun a ha => (hargs a ha).1⟩, htype', fun a ha => (hargs a ha).2⟩
  · rintro ⟨⟨htype, hargs⟩, htype', hargs'⟩
    exact ⟨⟨htype, htype'⟩, fun a ha => ⟨hargs a ha, hargs' a ha⟩⟩

/-! ### Pruning -/

/-- Items that pass two tests one after the other are those that pass a test for both. -/
theorem filter_filter_of_and {α : Type} {p q r : α → Bool} (h : ∀ x, r x = (p x && q x))
    (xs : List α) : (xs.filter p).filter q = xs.filter r := by
  rw [List.filter_filter]
  exact List.filter_congr fun x _ => (Bool.and_comm _ _).trans (h x).symm

/-- Pruning for two lists of names is pruning for the names that are in both. -/
theorem prune_prune (h : InBoth names names' both) (t : TypeDefinition) :
    (t.prune names).prune names' = t.prune both := by
  simp only [TypeDefinition.prune, TypeDefinition.mk.injEq, true_and]
  exact ⟨filter_filter_of_and h.stays _, filter_filter_of_and (fun _ => h.leadsTo _) _,
    filter_filter_of_and h.isNamed _, filter_filter_of_and h.isNamed _⟩

/-- The second type is the first one without what leads to other types than the kept ones. -/
structure Pruned (names : List String) (t t' : TypeDefinition) : Prop where
  /-- The type is one of the same name. -/
  name : t'.name = t.name
  /-- It is one of the same kind. -/
  kind : t'.kind = t.kind
  /-- It is described by the same text. -/
  description : t'.description = t.description
  /-- It has the same members as an enumeration. -/
  enumValues : t'.enumValues = t.enumValues
  /-- A field stays exactly if its type and those of its arguments are kept. -/
  fields : t'.fields.Sublist t.fields ∧ ∀ f, f ∈ t'.fields ↔ f ∈ t.fields ∧
    LeadsInto names f.type ∧ ∀ a ∈ f.arguments, LeadsInto names (Argument.type a)
  /-- A field of an input object type stays exactly if its type is kept. -/
  inputFields : t'.inputFields.Sublist t.inputFields ∧ ∀ a, a ∈ t'.inputFields ↔
    a ∈ t.inputFields ∧ LeadsInto names a.type
  /-- An interface stays exactly if it is kept. -/
  interfaces : t'.interfaces.Sublist t.interfaces ∧ ∀ r, r ∈ t'.interfaces ↔
    r ∈ t.interfaces ∧ NamedIn names r
  /-- A member of a union or an interface stays exactly if it is kept. -/
  possibleTypes : t'.possibleTypes.Sublist t.possibleTypes ∧ ∀ r, r ∈ t'.possibleTypes ↔
    r ∈ t.possibleTypes ∧ NamedIn names r

/-- What passes a test is a part of the items, and which part it is. -/
theorem filter_exactly {α : Type} {p : α → Bool} {P : α → Prop} (h : ∀ x, p x = true ↔ P x)
    (xs : List α) : (xs.filter p).Sublist xs ∧ ∀ x, x ∈ xs.filter p ↔ x ∈ xs ∧ P x :=
  ⟨List.filter_sublist, fun x => by rw [List.mem_filter, h x]⟩

theorem pruned_prune (names : List String) (t : TypeDefinition) : Pruned names t (t.prune names) where
  name := rfl
  kind := rfl
  description := rfl
  enumValues := rfl
  fields := filter_exactly (fun _ => Field.stays_iff) t.fields
  inputFields := filter_exactly (fun _ => leadsTo_iff) t.inputFields
  interfaces := filter_exactly (fun _ => isNamed_iff) t.interfaces
  possibleTypes := filter_exactly (fun _ => isNamed_iff) t.possibleTypes

/-! ### Which types are kept -/

/-- The name meets the demands, of which an empty one is none. -/
structure TypeFilter.Meets (f : TypeFilter) (name : String) : Prop where
  /-- It does not begin like that of a type that is left out. -/
  excludedStart : ∀ d, f.excludedStart = some d → d ≠ "" → ¬ name.startsWith d
  /-- It does not end like that of a type that is left out. -/
  excludedEnd : ∀ d, f.excludedEnd = some d → d ≠ "" → ¬ name.endsWith d
  /-- It begins like that of a type that is kept. -/
  includedStart : ∀ d, f.includedStart = some d → d ≠ "" → name.startsWith d
  /-- It ends like that of a type that is kept. -/
  includedEnd : ∀ d, f.includedEnd = some d → d ≠ "" → name.endsWith d

theorem demand_getD_false {met : String → Bool} {d : Option String} :
    (!(demand met d).getD false) = true ↔ ∀ w, d = some w → w ≠ "" → ¬ met w = true := by
  rcases d with _ | w
  · simp [demand]
  · by_cases hw : w = "" <;> simp [demand, Option.filter_some, hw]

theorem demand_getD_true {met : String → Bool} {d : Option String} :
    (demand met d).getD true = true ↔ ∀ w, d = some w → w ≠ "" → met w = true := by
  rcases d with _ | w
  · simp [demand]
  · by_cases hw : w = "" <;> simp [demand, Option.filter_some, hw]

theorem accepts_iff {name : String} : f.accepts name = true ↔ f.Meets name := by
  simp only [TypeFilter.accepts, Bool.and_eq_true, and_assoc, demand_getD_false, demand_getD_true]
  exact ⟨fun ⟨h₁, h₂, h₃, h₄⟩ => ⟨h₁, h₂, h₃, h₄⟩, fun ⟨h₁, h₂, h₃, h₄⟩ => ⟨h₁, h₂, h₃, h₄⟩⟩

/-- The name is that of a root type. -/
def IsRoot (s : Schema) (name : String) : Prop :=
  s.queryType = some name ∨ s.mutationType = some name ∨ s.subscriptionType = some name

theorem contains_operations_iff {name : String} :
    s.operations.contains name = true ↔ s.IsRoot name := by
  rw [Keyed.contains_iff, operations, Keyed.mem_keys_ofList, IsRoot]
  cases s.queryType <;> cases s.mutationType <;> cases s.subscriptionType <;> simp [eq_comm]

/-- A type is kept exactly if it is built in, a standard scalar or a root type, or if its name meets
the demands. -/
theorem keeps_iff : f.keeps s t = true ↔
    t.isBuiltIn = true ∨ t.name ∈ standardScalars ∨ s.IsRoot t.name ∨ f.Meets t.name := by
  simp only [TypeFilter.keeps, Bool.or_eq_true, List.contains_iff_mem, contains_operations_iff,
    accepts_iff, or_assoc]

/-- Whether a type is kept depends on its name. -/
theorem keeps_congr (h : t.name = t'.name) : f.keeps s t = f.keeps s t' := by
  simp only [TypeFilter.keeps, TypeDefinition.isBuiltIn, h]

/-- The names of the types that the filter keeps. -/
def TypeFilter.kept (f : TypeFilter) (s : Schema) : List String :=
  (s.types.filter (f.keeps s)).map TypeDefinition.name

theorem contains_kept (ht : t ∈ s.types) : (f.kept s).contains t.name = f.keeps s t := by
  rw [Bool.eq_iff_iff, List.contains_iff_mem, TypeFilter.kept, List.mem_map]
  constructor
  · rintro ⟨u, hu, hname⟩
    rw [← keeps_congr hname]
    exact (List.mem_filter.mp hu).2
  · exact fun hkeeps => ⟨t, List.mem_filter.mpr ⟨ht, hkeeps⟩, rfl⟩

/-- A filter leaves the types that it keeps, without what leads to other types. -/
theorem apply_types (f : TypeFilter) (s : Schema) :
    (f.apply s).types = (s.types.filter (f.keeps s)).map (TypeDefinition.prune (f.kept s)) :=
  congrArg (List.map _) (List.filter_congr fun _ ht => contains_kept ht)

/-- The types that a filter leaves have the kept names. -/
theorem apply_names (f : TypeFilter) (s : Schema) :
    (f.apply s).types.map TypeDefinition.name = f.kept s := by
  rw [apply_types, List.map_map]
  rfl

/-! ### Two filters -/

/-- The names that are kept after a filter are those that both filters keep. -/
theorem inBoth_kept : InBoth (f.kept s) (g.kept s) (g.kept (f.apply s)) := by
  intro n
  constructor
  · intro hn
    obtain ⟨u, hu, rfl⟩ := List.mem_map.mp hn
    obtain ⟨hu, hkeeps⟩ := List.mem_filter.mp hu
    rw [apply_types] at hu
    obtain ⟨t, ht, rfl⟩ := List.mem_map.mp hu
    refine ⟨List.mem_map.mpr ⟨t, ht, rfl⟩, List.mem_map.mpr ⟨t, List.mem_filter.mpr ?_, rfl⟩⟩
    exact ⟨List.mem_of_mem_filter ht, hkeeps⟩
  · rintro ⟨hf, hg⟩
    obtain ⟨t, ht, rfl⟩ := List.mem_map.mp hf
    have hkept : g.keeps s t = true := by
      rw [← contains_kept (List.mem_of_mem_filter ht), List.contains_iff_mem]
      exact hg
    refine List.mem_map.mpr ⟨t.prune (f.kept s), List.mem_filter.mpr ⟨?_, hkept⟩, rfl⟩
    rw [apply_types]
    exact List.mem_map_of_mem ht

/-- What two filters leave: the types that both keep, without what leads to other types. -/
theorem apply_apply (h : InBoth (f.kept s) (g.kept s) both) :
    g.apply (f.apply s) =
      { s with
        types := (s.types.filter fun t => f.keeps s t && g.keeps s t).map
          (TypeDefinition.prune both) } := by
  have htypes : (g.apply (f.apply s)).types =
      (s.types.filter fun t => f.keeps s t && g.keeps s t).map (TypeDefinition.prune both) := by
    rw [apply_types, apply_types, List.filter_map, List.map_map, ← filter_filter_of_and fun _ => rfl]
    refine List.map_congr_left fun t _ => prune_prune (fun n => ?_) t
    rw [h n, inBoth_kept n, and_self_left]
  exact congrArg (fun types => { s with types }) htypes

/-- **A filter is exact, idempotent and commutes with every other one.** It leaves, in order, the
types that are built in, standard scalars or root types or whose names meet the demands, each without
what leads to other types, where an interface or a member of a union leads to the type that it names;
applied twice it does what it does once, and two filters leave the same in either order. -/
theorem filter_exact (f g : TypeFilter) (s : Schema) :
    (∀ t, f.keeps s t = true ↔
      t.isBuiltIn = true ∨ t.name ∈ standardScalars ∨ s.IsRoot t.name ∨ f.Meets t.name) ∧
    List.Forall₂ (Pruned ((f.apply s).types.map TypeDefinition.name)) (s.types.filter (f.keeps s))
      (f.apply s).types ∧
    (∀ names (r : TypeRef), r.kind.wraps = false → (NamedIn names r ↔ LeadsInto names r)) ∧
    f.apply (f.apply s) = f.apply s ∧
    g.apply (f.apply s) = f.apply (g.apply s) := by
  refine ⟨fun t => keeps_iff, ?_, fun _ _ => namedIn_iff_leadsInto, ?_, ?_⟩
  · rw [apply_names, apply_types, List.forall₂_map_right_iff, List.forall₂_same]
    exact fun t _ => pruned_prune _ t
  · have hself : InBoth (f.kept s) (f.kept s) (f.kept s) := fun n => (and_self_iff).symm
    rw [apply_apply hself]
    simp only [Bool.and_self]
    exact congrArg (fun types => { s with types }) (apply_types f s).symm
  · rw [apply_apply (inBoth_kept (f := f) (g := g)), apply_apply inBoth_kept.symm]
    simp only [Bool.and_comm]

end Bindery.Schema

namespace Bindery.Schema

variable {s : Schema} {f : TypeFilter} {r : TypeRef} {t : TypeDefinition}

/-! ### Defined references -/

/-- The reference leads to a type of the name that it gives, which does not belong to the description
of schemas. If it says that values need a selection set, then those of the type do. -/
def Defined (s : Schema) (r : TypeRef) : Prop :=
  r.innermost.kind.wraps = false ∧ ∃ t ∈ s.types, TypeDefinition.isBuiltIn t = false ∧
    r.innermost.name? = some t.name ∧ (r.innermost.kind.isComplex = true → t.kind.isComplex = true)

/-- All references of the type are defined. -/
structure ClosedType (s : Schema) (t : TypeDefinition) : Prop where
  /-- The types of the fields and of their arguments are. -/
  fields : ∀ f ∈ t.fields, s.Defined f.type ∧ ∀ a ∈ f.arguments, s.Defined (Argument.type a)
  /-- The types of the fields of an input object are. -/
  inputFields : ∀ a ∈ t.inputFields, s.Defined (Argument.type a)
  /-- The interfaces are, without anything around them. -/
  interfaces : ∀ r ∈ t.interfaces, r.kind.wraps = false ∧ s.Defined r
  /-- The members of a union or an interface are, without anything around them. -/
  possibleTypes : ∀ r ∈ t.possibleTypes, r.kind.wraps = false ∧ s.Defined r

/-- All references of the types are defined, apart from the description of schemas. -/
def TypesClosed (s : Schema) : Prop :=
  ∀ t ∈ s.types, t.isBuiltIn = false → s.ClosedType t

/-- The types of all arguments of directives are defined. -/
def DirectivesClosed (s : Schema) : Prop :=
  ∀ d ∈ s.directives, ∀ a ∈ d.arguments, s.Defined (Argument.type a)

/-! ### What a filter leaves -/

theorem mem_apply_types : t ∈ (f.apply s).types ↔
    ∃ u ∈ s.types, f.keeps s u = true ∧ u.prune (f.kept s) = t := by
  simp only [apply_types, List.mem_map, List.mem_filter, and_assoc]

/-- All references of the type lead to types of the names. -/
structure RefersInto (names : List String) (t : TypeDefinition) : Prop where
  /-- Those of the fields and of their arguments do. -/
  fields : ∀ f ∈ t.fields, LeadsInto names (Field.type f) ∧
    ∀ a ∈ f.arguments, LeadsInto names (Argument.type a)
  /-- Those of the fields of an input object do. -/
  inputFields : ∀ a ∈ t.inputFields, LeadsInto names (Argument.type a)
  /-- Those to interfaces do. -/
  interfaces : ∀ r ∈ t.interfaces, NamedIn names r
  /-- Those to the members of a union or an interface do. -/
  possibleTypes : ∀ r ∈ t.possibleTypes, NamedIn names r

/-- The types that a filter leaves refer to types that are left. -/
theorem refersInto_apply (f : TypeFilter) (s : Schema) (ht : t ∈ (f.apply s).types) :
    RefersInto ((f.apply s).types.map TypeDefinition.name) t := by
  obtain ⟨u, -, -, rfl⟩ := mem_apply_types.mp ht
  rw [apply_names]
  have hpruned := pruned_prune (f.kept s) u
  exact ⟨fun g hg => ((hpruned.fields.2 g).mp hg).2, fun a ha => ((hpruned.inputFields.2 a).mp ha).2,
    fun r hr => ((hpruned.interfaces.2 r).mp hr).2, fun r hr => ((hpruned.possibleTypes.2 r).mp hr).2⟩

/-- A reference that is defined and leads to a name that is kept is defined in what is left. -/
theorem Defined.apply (h : s.Defined r) (hkept : LeadsInto (f.kept s) r) :
    (f.apply s).Defined r := by
  obtain ⟨hwraps, t, ht, hown, hname, hkind⟩ := h
  obtain ⟨n, hn, heq⟩ := hkept
  rw [hname, Option.some.injEq] at heq
  subst heq
  have hkeeps : f.keeps s t = true := by
    rw [← contains_kept ht, List.contains_iff_mem]
    exact hn
  exact ⟨hwraps, _, mem_apply_types.mpr ⟨t, ht, hkeeps, rfl⟩, hown, hname, hkind⟩

/-- References of types that are defined stay so. -/
theorem TypesClosed.apply (h : s.TypesClosed) (f : TypeFilter) : (f.apply s).TypesClosed := by
  intro t ht hown
  obtain ⟨u, hu, -, rfl⟩ := mem_apply_types.mp ht
  have hclosed := h u hu hown
  have hpruned := pruned_prune (f.kept s) u
  constructor
  case fields =>
    intro g hg
    obtain ⟨hg, htype, hargs⟩ := (hpruned.fields.2 g).mp hg
    exact ⟨(hclosed.fields g hg).1.apply htype, fun a ha => ((hclosed.fields g hg).2 a ha).apply
      (hargs a ha)⟩
  case inputFields =>
    intro a ha
    obtain ⟨ha, htype⟩ := (hpruned.inputFields.2 a).mp ha
    exact (hclosed.inputFields a ha).apply htype
  case interfaces =>
    intro r hr
    obtain ⟨hr, hname⟩ := (hpruned.interfaces.2 r).mp hr
    obtain ⟨hwraps, hdefined⟩ := hclosed.interfaces r hr
    exact ⟨hwraps, hdefined.apply ((namedIn_iff_leadsInto hwraps).mp hname)⟩
  case possibleTypes =>
    intro r hr
    obtain ⟨hr, hname⟩ := (hpruned.possibleTypes.2 r).mp hr
    obtain ⟨hwraps, hdefined⟩ := hclosed.possibleTypes r hr
    exact ⟨hwraps, hdefined.apply ((namedIn_iff_leadsInto hwraps).mp hname)⟩

/-- A reference to the name of a type leads to a type that is left exactly if the filter keeps the
type. -/
theorem leadsInto_kept_iff (h : LeadsInto (s.types.map TypeDefinition.name) r) :
    LeadsInto (f.kept s) r ↔
      ∀ t ∈ s.types, r.innermost.name? = some t.name → f.keeps s t = true := by
  constructor
  · rintro ⟨n, hn, hname⟩ t ht heq
    rw [hname, Option.some.injEq] at heq
    rw [← contains_kept ht, List.contains_iff_mem, ← heq]
    exact hn
  · intro hkeeps
    obtain ⟨n, hn, hname⟩ := h
    obtain ⟨t, ht, rfl⟩ := List.mem_map.mp hn
    exact ⟨t.name, List.mem_map_of_mem (List.mem_filter.mpr ⟨ht, hkeeps t ht hname⟩), hname⟩

/-- The arguments of the directives lead to types that are left exactly if the filter keeps all types
that they lead to. -/
theorem directives_apply_iff (h : ∀ d ∈ s.directives, ∀ a ∈ d.arguments,
      LeadsInto (s.types.map TypeDefinition.name) (Argument.type a)) :
    (∀ d ∈ (f.apply s).directives, ∀ a ∈ d.arguments,
      LeadsInto ((f.apply s).types.map TypeDefinition.name) (Argument.type a)) ↔
    ∀ d ∈ s.directives, ∀ a ∈ d.arguments, ∀ t ∈ s.types,
      (Argument.type a).innermost.name? = some t.name → f.keeps s t = true := by
  rw [apply_names]
  exact forall₂_congr fun d hd => forall₂_congr fun a ha => leadsInto_kept_iff (h d hd a ha)

end Bindery.Schema
