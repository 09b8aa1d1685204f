import Bindery.Proofs.Catalog.ClassNames

/-!
# Class names that are given

A class name that is given for a type is taken as it is, whatever is assigned already. A name of its
own yields to all names before it, given or not. So where given names do not collide with each
other, the only way in which two classes can have one name is that a type with a given name stands
behind one that took the name before.

## What is proved

* `Yielding.step`, `Yielding.run` — types without given names keep apart from the types before them.
* `apartUnlessGiven_of_make` — so they do in every catalog.
* `classes_nodup_iff` — when the classes of types with and without given names differ.
* `roles_share_class` — a type that takes a name which is given to a type behind it.
-/

namespace Bindery.Catalog

open Bindery.Schema Bindery.Label

variable {c : Catalog} {t : TypeDefinition} {a a' : Assignment} {ts ps : List TypeDefinition}
  {configuration : Configuration} {given : String}

/-- Is a class name given for the type? -/
def hasGivenName (configuration : Configuration) (t : TypeDefinition) : Bool :=
  (configuration.classNames.get? t.name).isSome

theorem get?_eq_none_iff :
    configuration.classNames.get? t.name = none ↔ hasGivenName configuration t = false := by
  rw [hasGivenName, Option.isSome_eq_false_iff, Option.isNone_iff_eq_none]

/-- The classes that a type has by a given name. -/
def givenClassesOf (configuration : Configuration) (t : TypeDefinition) : List String :=
  match configuration.classNames.get? t.name with
  | some given => if hasClasses t then takenBy configuration t.kind.isComplex given else []
  | none => []

/-! ### Classes by given names -/

theorem className_given (h : c.configuration.classNames.get? t.name = some given)
    (suffix : String) : c.className t.name suffix = c.configuration.fullName given suffix := by
  simp only [className, h]

/-- A type has the classes of the name that is given for it. -/
theorem classesOf_given (h : c.configuration.classNames.get? t.name = some given) :
    c.classesOf t = givenClassesOf c.configuration t := by
  simp only [classesOf, givenClassesOf, takenBy, h, className_given h]

theorem classesOf_eq_nil (h : hasClasses t = false) : c.classesOf t = [] :=
  if_neg (Bool.eq_false_iff.mp h)

/-- A type without classes changes nothing. -/
theorem assignName_skip {natural : List String} (h : hasClasses t = false) :
    c.assignName natural a t = .ok a := by
  rw [hasClasses, Bool.not_eq_false'] at h
  rw [assignName, if_pos h]
  rfl

/-- A given name is assigned as it is, and no name is changed. -/
theorem assignName_given {natural : List String} (hclasses : hasClasses t = true)
    (h : c.configuration.classNames.get? t.name = some given) :
    c.assignName natural a t =
      .ok { a with
        assigned := takenBy c.configuration t.kind.isComplex given ++ a.assigned } := by
  rw [hasClasses, Bool.not_eq_true'] at hclasses
  rw [assignName, if_neg (Bool.eq_false_iff.mp hclasses), h]
  rfl

/-! ### One type after the other -/

/-- No type without a given name has a class of a type before it. -/
def ApartUnlessGiven (c : Catalog) (ts : List TypeDefinition) : Prop :=
  ts.Pairwise fun p t =>
    hasGivenName c.configuration t = false → (c.classesOf p).Disjoint (c.classesOf t)

/-- What holds after class names were assigned to some types, whether they are given or not. -/
structure Yielding (c : Catalog) (ps : List TypeDefinition) (a : Assignment) : Prop where
  /-- The classes of the types are assigned. -/
  classes : ∀ p ∈ ps, ∀ n ∈ (c.withNames a.renamed).classesOf p, n ∈ a.assigned
  /-- No other type has a changed name. -/
  keys : ∀ k ∈ a.renamed.keys, k ∈ ps.map TypeDefinition.name
  /-- A name of its own yields to the names before it. -/
  apart : (c.withNames a.renamed).ApartUnlessGiven ps

theorem yielding_nil (c : Catalog) (assigned : List String) : c.Yielding [] ⟨assigned, .empty⟩ where
  classes _ hp := absurd hp List.not_mem_nil
  keys _ hk := absurd hk List.not_mem_nil
  apart := .nil

/-- One more type is kept apart where its classes are added to the assigned names, and where they
are new unless they are given. -/
theorem Yielding.push (h : c.Yielding ps a)
    (hbefore : ∀ p ∈ ps, (c.withNames a'.renamed).classesOf p = (c.withNames a.renamed).classesOf p)
    (hassigned : a'.assigned = (c.withNames a'.renamed).classesOf t ++ a.assigned)
    (hkeys : ∀ k ∈ a'.renamed.keys, k = t.name ∨ k ∈ a.renamed.keys)
    (hnew : hasGivenName c.configuration t = false →
      ∀ n ∈ (c.withNames a'.renamed).classesOf t, n ∉ a.assigned) :
    c.Yielding (ps ++ [t]) a' := by
  constructor
  case classes =>
    rw [hassigned, List.forall_mem_append]
    refine ⟨fun p hp n hn => List.mem_append_right _ ?_, ?_⟩
    · exact h.classes p hp n (hbefore p hp ▸ hn)
    · rw [List.forall_mem_singleton]
      exact fun n hn => List.mem_append_left _ hn
  case keys =>
    intro k hk
    rw [List.map_append, List.mem_append, List.map_singleton, List.mem_singleton]
    exact (hkeys k hk).symm.imp_left (h.keys k)
  case apart =>
    refine List.pairwise_append.mpr ⟨?_, List.pairwise_singleton _ _, ?_⟩
    · refine List.Pairwise.imp_of_mem (fun hp hp' hapart => ?_) h.apart
      rw [hbefore _ hp, hbefore _ hp']
      exact hapart
    · intro p hp u hu hgiven n hn hn'
      obtain rfl := List.mem_singleton.mp hu
      exact hnew hgiven n hn' (h.classes p hp n (hbefore p hp ▸ hn))

/-- What holds of the assignments to some types holds after one more. -/
theorem Yielding.step {natural : List String} (h : c.Yielding ps a)
    (hnew : t.name ∉ ps.map TypeDefinition.name) (hstep : c.assignName natural a t = .ok a') :
    c.Yielding (ps ++ [t]) a' := by
  cases hclasses : hasClasses t with
  | false =>
    rw [assignName_skip hclasses] at hstep
    cases hstep
    have hnone := classesOf_eq_nil (c := c.withNames a.renamed) hclasses
    refine h.push (fun _ _ => rfl) ?_ (fun _ => .inr) (fun _ n hn => ?_)
    · rw [hnone, List.nil_append]
    · rw [hnone] at hn
      cases hn
  | true =>
    cases hgiven : c.configuration.classNames.get? t.name with
    | some given =>
      rw [assignName_given hclasses hgiven] at hstep
      cases hstep
      refine h.push (fun _ _ => rfl) ?_ (fun _ => .inr) (fun hnot => ?_)
      · rw [classesOf_given (c := c.withNames a.renamed) hgiven, givenClassesOf]
        simp only [withNames, hgiven, hclasses, if_true]
      · rw [← get?_eq_none_iff, hgiven] at hnot
        cases hnot
    | none =>
      obtain ⟨hnot, -⟩ | ⟨-, members, name, -, hfree, hname, rfl⟩ := assignName_eq_ok hgiven hstep
      · rw [hclasses] at hnot
        cases hnot
      have hr : t.name ∉ a.renamed.keys := fun hk => hnew (h.keys _ hk)
      have hown := classesOf_noted hgiven hclasses hr hname
      refine h.push (fun p hp => ?_) ?_ (fun k => mem_keys_noted) (fun _ n hn => ?_)
      · exact classesOf_noted_of_ne _ _ _ fun heq => hnew (heq ▸ List.mem_map_of_mem hp)
      · rw [hown]
      · rw [hown] at hn
        exact ((Obstacles.of_not_collides hfree).2 n hn).1

/-- What holds of the assignments to some types holds after all that follow. -/
theorem Yielding.run {natural : List String} (h : c.Yielding ps a)
    (hnames : ((ps ++ ts).map TypeDefinition.name).Nodup)
    (hrun : ts.foldlM (c.assignName natural) a = .ok a') : c.Yielding (ps ++ ts) a' :=
  foldlM_assignName_induction (fun h hnew hstep => h.step hnew hstep) h hnames hrun

/-- In a catalog no type without a given name has the class of one before it. -/
theorem apartUnlessGiven_of_make {s : Schema} (hnames : (s.types.map TypeDefinition.name).Nodup)
    (h : (make configuration s).2 = .ok c) :
    c.configuration = configuration ∧ c.ApartUnlessGiven s.types := by
  obtain ⟨-, renamed, referenced, hrenamed, -, rfl⟩ := make_eq_ok_iff.mp h
  obtain ⟨a, hrun, ha⟩ := bind_eq_ok.mp hrenamed
  cases pure_eq_ok.mp ha
  exact ⟨rfl, ((yielding_nil (prepared configuration s) _).run hnames hrun).apart⟩

/-! ### When classes differ -/

/-- **When the classes of types with given names differ from all others.** Where types have different
names and the classes by given names differ from each other, all classes of the types and of their
builders differ exactly if no type with a given name has the class of a type without one before it.
So they do where the types with given names come first, but a given name does not make a type before
it yield. -/
theorem classes_nodup_iff {s : Schema} (hnames : (s.types.map TypeDefinition.name).Nodup)
    (hgiven : (s.types.flatMap (givenClassesOf configuration)).Nodup)
    (h : (make configuration s).2 = .ok c) :
    ((s.types.flatMap c.classesOf).Nodup ↔ s.types.Pairwise fun p t =>
        hasGivenName configuration p = false → hasGivenName configuration t = true →
          (c.classesOf p).Disjoint (c.classesOf t)) ∧
      ((s.types.Pairwise fun p t => hasClasses p = true → hasGivenName configuration t = true →
        hasGivenName configuration p = true) → (s.types.flatMap c.classesOf).Nodup) := by
  obtain ⟨rfl, hapart⟩ := apartUnlessGiven_of_make hnames h
  have hiff : (s.types.flatMap c.classesOf).Nodup ↔ s.types.Pairwise fun p t =>
      hasGivenName c.configuration p = false → hasGivenName c.configuration t = true →
        (c.classesOf p).Disjoint (c.classesOf t) := by
    rw [List.nodup_flatMap]
    refine ⟨fun ⟨_, hdisjoint⟩ => hdisjoint.imp fun hpair _ _ => hpair, fun hbefore => ?_⟩
    refine ⟨fun t _ => nodup_classesOf c t, ?_⟩
    have hboth := (List.nodup_flatMap.mp hgiven).2
    refine ((hapart.and hbefore).and hboth).imp fun {p t} ⟨⟨hown, hbefore⟩, hboth⟩ => ?_
    cases ht : c.configuration.classNames.get? t.name with
    | none => exact hown (get?_eq_none_iff.mp ht)
    | some given =>
      cases hp : c.configuration.classNames.get? p.name with
      | none =>
        exact hbefore (get?_eq_none_iff.mp hp) (by rw [hasGivenName, ht]; rfl)
      | some given' =>
        rw [Function.onFun, classesOf_given ht, classesOf_given hp]
        exact hboth
  refine ⟨hiff, fun hfirst => hiff.mpr (hfirst.imp fun {p t} hfirst hp ht => ?_)⟩
  cases hclasses : hasClasses p with
  | false =>
    rw [classesOf_eq_nil hclasses]
    exact List.disjoint_nil_left _
  | true =>
    rw [hfirst hclasses ht] at hp
    cases hp

/-- Two enumerations, of which the second one is given the class name that the first one has. -/
def rolesSchema : Schema where
  queryType := none
  mutationType := none
  subscriptionType := none
  types :=
    [⟨.enumeration, "User", none, [], [], [], [⟨"X", none, false, none⟩], []⟩,
      ⟨.enumeration, "Role", none, [], [], [], [⟨"Y", none, false, none⟩], []⟩]
  directives := []

/-- The given class name. -/
def rolesConfiguration : Configuration where
  classNames := .ofList [("Role", "User")]

/-- The catalog of the schema. -/
def rolesCatalog : Catalog where
  configuration := rolesConfiguration
  schema := rolesSchema
  types := byName rolesSchema.types
  complex := .empty
  directives := .empty
  memberships := .empty
  renamed := .empty
  referenced := []

theorem make_roles : (make rolesConfiguration rolesSchema).2 = .ok rolesCatalog := by
  cbv

theorem roles_share_class :
    (rolesSchema.types.map TypeDefinition.name).Nodup ∧
      (rolesSchema.types.flatMap (givenClassesOf rolesConfiguration)).Nodup ∧
      (make rolesConfiguration rolesSchema).2 = .ok rolesCatalog ∧
      ((rolesSchema.types.flatMap rolesCatalog.classesOf).Nodup ↔
        rolesSchema.types.Pairwise fun p t =>
          hasGivenName rolesConfiguration p = false → hasGivenName rolesConfiguration t = true →
            (rolesCatalog.classesOf p).Disjoint (rolesCatalog.classesOf t)) ∧
      ((rolesSchema.types.Pairwise fun p t =>
          hasClasses p = true → hasGivenName rolesConfiguration t = true →
            hasGivenName rolesConfiguration p = true) →
        (rolesSchema.types.flatMap rolesCatalog.classesOf).Nodup) ∧
      ¬ (rolesSchema.types.flatMap rolesCatalog.classesOf).Nodup := by
  have hnames : (rolesSchema.types.map TypeDefinition.name).Nodup := by decide
  have hgiven : (rolesSchema.types.flatMap (givenClassesOf rolesConfiguration)).Nodup := by
    decide +kernel
  obtain ⟨hiff, hfirst⟩ := classes_nodup_iff hnames hgiven make_roles
  refine ⟨hnames, hgiven, make_roles, hiff, hfirst, ?_⟩
  decide +kernel

end Bindery.Catalog
