import Bindery.Catalog.Make
import Bindery.Proofs.Catalog.FreeName
import Bindery.Proofs.Keyed
import Bindery.Proofs.Result

/-!
# The classes of a schema collide with nothing

Class names are assigned type by type. A name that is assigned stays as it is, since the types after
it have other names, and each new one is free of all that were assigned before.

## What is proved

* `assignName_eq_ok` — what the assignment of a class name to one type does.
* `CollisionFree.push` — a class name that collides with nothing leaves the classes free of
  collisions.
* `Assigned.step`, `Assigned.run` — what holds of the assignments to some types holds after one more
  and after all.
* `foldlM_assignName_induction` — what each assignment of a class name keeps, all keep.
* `exists_foldlM_assignName` — where the fields can be looked up, every type gets its class name.
* `make_eq_ok_iff` — how a catalog is made.
* `collisionFree_of_make` — in a catalog without given class names the classes of the types collide
  with nothing.
* `renamedTypes_collisionFree` — where the fields can be looked up, there are such class names.
-/

namespace Bindery.Catalog

open Bindery.Schema Bindery.Label

variable {c : Catalog} {t : TypeDefinition} {a a' : Assignment} {ts ps : List TypeDefinition}

/-! ### What must not collide -/

/-- Does the type get classes of its own? -/
def hasClasses (t : TypeDefinition) : Bool :=
  !(t.isBuiltIn || t.kind == .scalar)

/-- The names of the classes of a type: its own and, where values need a selection set, that of its
builder. -/
def classesOf (c : Catalog) (t : TypeDefinition) : List String :=
  if hasClasses t then
    c.className t.name :: if t.kind.isComplex then [c.className t.name builderSuffix] else []
  else []

/-- The member of that name is generated for the type: a field of an input object type, or a field
of a type whose values need a selection set. -/
inductive KeepsMember (c : Catalog) (t : TypeDefinition) : String → Prop where
  /-- All fields of input object types are generated. -/
  | input {f : Argument} (hkind : t.kind = .inputObject) (hf : f ∈ t.inputFields) :
      KeepsMember c t f.name
  /-- Of the fields of other types some are left out. -/
  | field {fs : List Field} {f : Field} (hkind : t.kind.isComplex = true)
      (hfs : c.ownFields t = .ok fs) (hf : f ∈ fs) : KeepsMember c t f.name

/-- The classes of the types collide with nothing. -/
structure CollisionFree (c : Catalog) (ts : List TypeDefinition) : Prop where
  /-- No two classes have one name. -/
  distinct : (ts.flatMap c.classesOf).Nodup
  /-- No class has a name that every client binds. -/
  unbound : ∀ n ∈ ts.flatMap c.classesOf, n ∉ boundNames
  /-- No class has the name of the class of a directive. -/
  undirected : ∀ n ∈ ts.flatMap c.classesOf, n ∉ c.fieldDirectives.map c.directiveClassName
  /-- No class has the name that one of its own members would have as a class. -/
  unlikeMembers : ∀ t ∈ ts, hasClasses t → ∀ m, c.KeepsMember t m →
    c.className t.name ≠ pascalCase m

/-! ### Class names and changed names -/

/-- The catalog with other class names for some types. -/
def withNames (c : Catalog) (renamed : Keyed String) : Catalog :=
  { c with renamed }

/-- The changed names with that of one more type, if it had to change. -/
def noted (renamed : Keyed String) (type candidate name : String) : Keyed String :=
  if name == candidate then renamed else renamed.put type name

theorem get?_noted (r : Keyed String) (type candidate name k : String) :
    (noted r type candidate name).get? k =
      if k = type ∧ name ≠ candidate then some name else r.get? k := by
  rw [noted]
  by_cases hname : name = candidate
  · simp [hname]
  · simp [hname, Keyed.get?_put]

/-- The changed name of a type is not that of another. -/
theorem className_noted_of_ne (r : Keyed String) {type k : String} (candidate name suffix : String)
    (h : k ≠ type) :
    (c.withNames (noted r type candidate name)).className k suffix =
      (c.withNames r).className k suffix := by
  simp only [className, withNames, get?_noted, h, false_and, if_false]

theorem classesOf_noted_of_ne (r : Keyed String) {type : String} (candidate name : String)
    (h : t.name ≠ type) :
    (c.withNames (noted r type candidate name)).classesOf t = (c.withNames r).classesOf t := by
  simp only [classesOf, className_noted_of_ne r candidate name _ h]

/-- A type whose name was not changed before has the class name that is noted for it. -/
theorem className_noted {r : Keyed String} {type : String} {name : String}
    (hgiven : c.configuration.classNames.get? type = none) (hr : type ∉ r.keys)
    (hname : name ≠ pascalCase type → name ≠ "") (suffix : String) :
    (c.withNames (noted r type (pascalCase type) name)).className type suffix =
      c.configuration.fullName name suffix := by
  have hnone : r.get? type = none := by
    cases h : r.get? type with
    | none => rfl
    | some n => exact absurd (Keyed.mem_keys_of_get? h) hr
  simp only [className, withNames, hgiven, get?_noted, hnone, true_and]
  by_cases h : name = pascalCase type
  · simp [h]
  · have hfull : name.isEmpty = false := by simpa using hname h
    simp [h, Option.filter_some, hfull]

theorem classesOf_noted {r : Keyed String} {name : String}
    (hgiven : c.configuration.classNames.get? t.name = none) (hclasses : hasClasses t = true)
    (hr : t.name ∉ r.keys) (hname : name ≠ pascalCase t.name → name ≠ "") :
    (c.withNames (noted r t.name (pascalCase t.name) name)).classesOf t =
      takenBy c.configuration t.kind.isComplex name := by
  simp only [classesOf, takenBy, hclasses, if_true, className_noted hgiven hr hname]

/-! ### Members -/

section

variable {c' : Catalog} (hconfiguration : c'.configuration = c.configuration)
  (hschema : c'.schema = c.schema) (hcomplex : c'.complex = c.complex)

include hconfiguration hschema hcomplex

theorem generates_congr (f : Field) : c'.generates f = c.generates f := by
  obtain ⟨⟩ := c
  obtain ⟨⟩ := c'
  cases hconfiguration
  cases hschema
  cases hcomplex
  rfl

/-- Which fields are generated depends on the options, the schema and its types only. -/
theorem generated_congr (fs : List Field) : c'.generated fs = c.generated fs := by
  induction fs with
  | nil => rfl
  | cons f fs ih =>
    rw [generated, generated, generates_congr hconfiguration hschema hcomplex, ih]

theorem keepsMember_congr {m : String} : c'.KeepsMember t m ↔ c.KeepsMember t m := by
  have hown : c'.ownFields t = c.ownFields t :=
    generated_congr hconfiguration hschema hcomplex t.fields
  constructor
  · rintro (⟨hkind, hf⟩ | ⟨hkind, hfs, hf⟩)
    · exact .input hkind hf
    · exact .field hkind (hown.symm.trans hfs) hf
  · rintro (⟨hkind, hf⟩ | ⟨hkind, hfs, hf⟩)
    · exact .input hkind hf
    · exact .field hkind (hown.trans hfs) hf

end

theorem keepsMember_withNames {r : Keyed String} {m : String} :
    (c.withNames r).KeepsMember t m ↔ c.KeepsMember t m :=
  keepsMember_congr (by rfl) (by rfl) (by rfl)

theorem mem_memberNames {names : List String} {m : String} (h : c.memberNames t = .ok names)
    (hm : c.KeepsMember t m) : pascalCase m ∈ names := by
  cases hm with
  | input hkind hf =>
    rw [memberNames, if_pos (by simp [hkind])] at h
    cases h
    exact List.mem_map_of_mem hf
  | field hkind hfs hf =>
    have hinput : t.kind ≠ .inputObject := by
      intro hinput
      rw [hinput] at hkind
      cases hkind
    rw [memberNames, if_neg (by simpa using hinput), if_pos hkind, hfs] at h
    cases h
    exact List.mem_map_of_mem hf

/-- Where the fields of a type can be looked up, so can the names of its members. -/
theorem exists_memberNames (h : t.kind.isComplex = true → ∃ fs, c.ownFields t = .ok fs) :
    ∃ names, c.memberNames t = .ok names := by
  rw [memberNames]
  split_ifs with hinput hcomplex
  · exact ⟨_, rfl⟩
  · obtain ⟨fs, hfs⟩ := h hcomplex
    rw [hfs]
    exact ⟨_, rfl⟩
  · exact ⟨_, rfl⟩

/-! ### One type -/

/-- What the assignment of a class name to a type does: nothing, where the type has no class, and
else it takes a name that collides with nothing. -/
theorem assignName_eq_ok {natural : List String}
    (hgiven : c.configuration.classNames.get? t.name = none)
    (h : c.assignName natural a t = .ok a') :
    (hasClasses t = false ∧ a' = a) ∨
      hasClasses t = true ∧ ∃ members name, c.memberNames t = .ok members ∧
        Obstacles.collides ⟨members, a.assigned, natural⟩ c.configuration t.kind.isComplex
          (pascalCase t.name) name = false ∧
        (name ≠ pascalCase t.name → name ≠ "") ∧
        a' = ⟨takenBy c.configuration t.kind.isComplex name ++ a.assigned,
          noted a.renamed t.name (pascalCase t.name) name⟩ := by
  rw [assignName] at h
  split_ifs at h with hclasses
  · exact .inl ⟨by simp [hasClasses, hclasses], (pure_eq_ok.mp h).symm⟩
  · refine .inr ⟨by simp [hasClasses, hclasses], ?_⟩
    rw [hgiven] at h
    obtain ⟨members, hmembers, h⟩ := bind_eq_ok.mp h
    exact ⟨members, _, hmembers, Obstacles.collides_freeName _ _ _ _ _,
      Obstacles.freeName_ne_empty, (pure_eq_ok.mp h).symm⟩

theorem exists_assignName {natural : List String} (hgiven : c.configuration.classNames = .empty)
    (hfields : hasClasses t = true → t.kind.isComplex = true → ∃ fs, c.ownFields t = .ok fs) :
    ∃ a', c.assignName natural a t = .ok a' := by
  rw [assignName]
  split_ifs with hclasses
  · exact ⟨_, rfl⟩
  · obtain ⟨members, hmembers⟩ := exists_memberNames (hfields (by simp [hasClasses, hclasses]))
    rw [hgiven]
    exact ⟨_, bind_eq_ok.mpr ⟨members, hmembers, rfl⟩⟩

/-- What holds after class names were assigned to some types. -/
structure Assigned (c : Catalog) (ps : List TypeDefinition) (a : Assignment) : Prop where
  /-- The classes of directives are assigned. -/
  directives : ∀ n ∈ c.fieldDirectives.map c.directiveClassName, n ∈ a.assigned
  /-- The classes of the types are assigned. -/
  classes : ∀ n ∈ ps.flatMap (c.withNames a.renamed).classesOf, n ∈ a.assigned
  /-- No other type has a changed name. -/
  keys : ∀ k ∈ a.renamed.keys, k ∈ ps.map TypeDefinition.name
  /-- The classes of the types collide with nothing. -/
  free : (c.withNames a.renamed).CollisionFree ps

theorem assigned_nil (c : Catalog) :
    c.Assigned [] ⟨c.fieldDirectives.map c.directiveClassName, .empty⟩ where
  directives _ hn := hn
  classes _ hn := absurd hn List.not_mem_nil
  keys _ hk := absurd hk List.not_mem_nil
  free := ⟨.nil, nofun, nofun, nofun⟩

theorem nodup_takenBy (c : Configuration) (hasBuilder : Bool) (name : String) :
    (takenBy c hasBuilder name).Nodup := by
  cases hasBuilder with
  | false => exact List.nodup_singleton _
  | true => simpa [takenBy] using fullName_ne_builder c name

theorem className_ne_builder (c : Catalog) (type : String) :
    c.className type ≠ c.className type builderSuffix :=
  fullName_ne_builder c.configuration _

/-- The classes of one type differ. -/
theorem nodup_classesOf (c : Catalog) (t : TypeDefinition) : (c.classesOf t).Nodup := by
  rw [classesOf]
  split_ifs
  · simpa using className_ne_builder c t.name
  · exact List.nodup_singleton _
  · exact .nil

/-- What a new name leaves of the types before it. -/
theorem flatMap_classesOf_noted (r : Keyed String) {type : String} (candidate name : String)
    (hnew : type ∉ ps.map TypeDefinition.name) :
    ps.flatMap (c.withNames (noted r type candidate name)).classesOf =
      ps.flatMap (c.withNames r).classesOf := by
  refine List.flatMap_congr fun p hp => classesOf_noted_of_ne r candidate name ?_
  rintro rfl
  exact hnew (List.mem_map_of_mem hp)

theorem mem_keys_noted {r : Keyed String} {type candidate name k : String}
    (h : k ∈ (noted r type candidate name).keys) : k = type ∨ k ∈ r.keys := by
  rw [noted] at h
  split_ifs at h
  · exact .inr h
  · exact Keyed.mem_keys_put.mp h

/-- A type without classes changes nothing. -/
theorem Assigned.skip (h : c.Assigned ps a) (hclasses : hasClasses t = false) :
    c.Assigned (ps ++ [t]) a := by
  have hflat : (ps ++ [t]).flatMap (c.withNames a.renamed).classesOf =
      ps.flatMap (c.withNames a.renamed).classesOf := by
    simp [classesOf, hclasses]
  refine ⟨h.directives, hflat ▸ h.classes, fun k hk => ?_, hflat ▸ h.free.distinct,
    hflat ▸ h.free.unbound, hflat ▸ h.free.undirected, fun p hp hp' => ?_⟩
  · rw [List.map_append]
    exact List.mem_append_left _ (h.keys k hk)
  · rcases List.mem_append.mp hp with hp | hp
    · exact h.free.unlikeMembers p hp hp'
    · rw [List.mem_singleton.mp hp, hclasses] at hp'
      cases hp'

section Push

variable {r : Keyed String} {name : String}
  (hgiven : c.configuration.classNames.get? t.name = none) (hclasses : hasClasses t = true)
  (hnew : t.name ∉ ps.map TypeDefinition.name) (hr : t.name ∉ r.keys)
  (hname : name ≠ pascalCase t.name → name ≠ "")

include hgiven hclasses hnew hr hname

/-- The classes of the types before stay, and those of a new type are what its name takes. -/
theorem flatMap_classesOf_push :
    (ps ++ [t]).flatMap (c.withNames (noted r t.name (pascalCase t.name) name)).classesOf =
      ps.flatMap (c.withNames r).classesOf ++ takenBy c.configuration t.kind.isComplex name := by
  rw [List.flatMap_append, flatMap_classesOf_noted _ _ _ hnew, List.flatMap_singleton,
    classesOf_noted hgiven hclasses hr hname]

/-- The classes of one more type collide with nothing where what its name takes does not. -/
theorem CollisionFree.push (h : (c.withNames r).CollisionFree ps)
    (htaken : ∀ n ∈ takenBy c.configuration t.kind.isComplex name,
      n ∉ ps.flatMap (c.withNames r).classesOf ∧ n ∉ boundNames ∧
        n ∉ c.fieldDirectives.map c.directiveClassName)
    (hmember : ∀ m, c.KeepsMember t m → c.configuration.fullName name "" ≠ pascalCase m) :
    (c.withNames (noted r t.name (pascalCase t.name) name)).CollisionFree (ps ++ [t]) := by
  have hflat := flatMap_classesOf_push hgiven hclasses hnew hr hname
  constructor
  case distinct =>
    rw [hflat]
    refine List.nodup_append'.mpr ⟨h.distinct, nodup_takenBy _ _ _, ?_⟩
    exact fun n hold hadded => (htaken n hadded).1 hold
  case unbound =>
    rw [hflat]
    exact List.forall_mem_append.mpr ⟨h.unbound, fun n hn => (htaken n hn).2.1⟩
  case undirected =>
    rw [hflat]
    exact List.forall_mem_append.mpr ⟨h.undirected, fun n hn => (htaken n hn).2.2⟩
  case unlikeMembers =>
    intro p hp hp' m hm
    rw [keepsMember_withNames] at hm
    rcases List.mem_append.mp hp with hp | hp
    · have hne : p.name ≠ t.name := fun he => hnew (he ▸ List.mem_map_of_mem hp)
      rw [className_noted_of_ne _ _ _ _ hne]
      exact h.unlikeMembers p hp hp' m (keepsMember_withNames.mpr hm)
    · obtain rfl := List.mem_singleton.mp hp
      rw [className_noted hgiven hr hname]
      exact hmember m hm

end Push

/-- What holds of the assignments to some types holds after one more. -/
theorem Assigned.step {natural : List String} (hgiven : c.configuration.classNames = .empty)
    (h : c.Assigned ps a) (hnew : t.name ∉ ps.map TypeDefinition.name)
    (hstep : c.assignName natural a t = .ok a') : c.Assigned (ps ++ [t]) a' := by
  have hgiven : c.configuration.classNames.get? t.name = none := by rw [hgiven, Keyed.get?_empty]
  obtain ⟨hclasses, rfl⟩ | ⟨hclasses, members, name, hmembers, hfree, hname, rfl⟩ :=
    assignName_eq_ok hgiven hstep
  · exact h.skip hclasses
  obtain ⟨hmember, htaken⟩ := Obstacles.of_not_collides hfree
  have hr : t.name ∉ a.renamed.keys := fun hk => hnew (h.keys _ hk)
  constructor
  case directives => exact fun n hn => List.mem_append_right _ (h.directives n hn)
  case classes =>
    rw [flatMap_classesOf_push hgiven hclasses hnew hr hname]
    exact List.forall_mem_append.mpr ⟨fun n hn => List.mem_append_right _ (h.classes n hn),
      fun n hn => List.mem_append_left _ hn⟩
  case keys =>
    intro k hk
    rw [List.map_append, List.mem_append]
    rcases mem_keys_noted hk with rfl | hk
    · exact .inr (List.mem_singleton_self _)
    · exact .inl (h.keys k hk)
  case free =>
    refine h.free.push hgiven hclasses hnew hr hname (fun n hn => ?_) fun m hm he => ?_
    · obtain ⟨hassigned, hbound⟩ := htaken n hn
      exact ⟨fun hold => hassigned (h.classes n hold), hbound,
        fun hd => hassigned (h.directives n hd)⟩
    · exact hmember (he ▸ mem_memberNames hmembers hm)

/-! ### All types -/

/-- What each assignment keeps, given that the types before have other names, all assignments
keep. -/
theorem foldlM_assignName_induction {natural : List String}
    {P : List TypeDefinition → Assignment → Prop}
    (hkeeps : ∀ {ps t a a'}, P ps a → t.name ∉ ps.map TypeDefinition.name →
      c.assignName natural a t = .ok a' → P (ps ++ [t]) a')
    (h : P ps a) (hnames : ((ps ++ ts).map TypeDefinition.name).Nodup)
    (hrun : ts.foldlM (c.assignName natural) a = .ok a') : P (ps ++ ts) a' := by
  induction ts generalizing ps a with
  | nil =>
    rw [List.append_nil, ← pure_eq_ok.mp hrun]
    exact h
  | cons t ts ih =>
    rw [List.foldlM_cons] at hrun
    obtain ⟨a₁, hstep, hrest⟩ := bind_eq_ok.mp hrun
    have hnew : t.name ∉ ps.map TypeDefinition.name := by
      rw [List.map_append, List.map_cons] at hnames
      exact fun hp => (List.nodup_append'.mp hnames).2.2 hp List.mem_cons_self
    rw [List.append_cons] at hnames ⊢
    exact ih (hkeeps h hnew hstep) hnames hrest

/-- What holds of the assignments to some types holds after all that follow. -/
theorem Assigned.run {natural : List String} (hgiven : c.configuration.classNames = .empty)
    (h : c.Assigned ps a) (hnames : ((ps ++ ts).map TypeDefinition.name).Nodup)
    (hrun : ts.foldlM (c.assignName natural) a = .ok a') : c.Assigned (ps ++ ts) a' :=
  foldlM_assignName_induction (fun h hnew hstep => h.step hgiven hnew hstep) h hnames hrun

/-- Where the fields can be looked up, every type gets its class name. -/
theorem exists_foldlM_assignName {natural : List String}
    (hgiven : c.configuration.classNames = .empty)
    (hfields : ∀ t ∈ ts, hasClasses t = true → t.kind.isComplex = true →
      ∃ fs, c.ownFields t = .ok fs) :
    ∃ a', ts.foldlM (c.assignName natural) a = .ok a' :=
  exists_foldlM (fun _ t ht => exists_assignName hgiven (hfields t ht)) a

/-! ### Making a catalog -/

/-- The catalog of a schema before class names are assigned. -/
def prepared (configuration : Configuration) (s : Schema) : Catalog where
  configuration := configuration
  schema := s
  types := byName s.types
  complex := byName s.complexTypes
  directives := (collectDirectives s.directives .empty []).1
  memberships := (collectUnions (byName s.complexTypes).values).1
  renamed := .empty
  referenced := []

/-- A catalog is made where the given class names are usable, class names are assigned and the search
from input types succeeds. -/
theorem make_eq_ok_iff {configuration : Configuration} {s : Schema} :
    (make configuration s).2 = .ok c ↔
      (checkMapping (prepared configuration s).types.contains
        configuration.classNames.entries).2 = none ∧
      ∃ renamed referenced, (prepared configuration s).renamedTypes = .ok renamed ∧
        ((prepared configuration s).withNames renamed).reachedTypes = .ok referenced ∧
        c = { (prepared configuration s).withNames renamed with referenced } := by
  cases hcheck : (checkMapping (prepared configuration s).types.contains
      configuration.classNames.entries).2 with
  | some e =>
    have hmake : (make configuration s).2 = .error e := by
      change (checkMapping (byName s.types).contains _).2 = _ at hcheck
      simp only [make, hcheck]
    rw [hmake]
    constructor
    · intro h
      cases h
    · rintro ⟨hnone, -⟩
      cases hnone
  | none =>
    have hmake : (make configuration s).2 = do
        let c := (prepared configuration s).withNames (← (prepared configuration s).renamedTypes)
        return { c with referenced := ← c.reachedTypes } := by
      change (checkMapping (byName s.types).contains _).2 = _ at hcheck
      simp only [make, hcheck]
      rfl
    simp only [hmake, true_and, bind_eq_ok, pure_eq_ok]
    constructor
    · rintro ⟨renamed, hrenamed, referenced, hreferenced, rfl⟩
      exact ⟨renamed, referenced, hrenamed, hreferenced, rfl⟩
    · rintro ⟨renamed, referenced, hrenamed, hreferenced, rfl⟩
      exact ⟨renamed, hrenamed, referenced, hreferenced, rfl⟩

/-- A catalog holds the schema that it is made from. -/
theorem schema_of_make {configuration : Configuration} {s : Schema}
    (h : (make configuration s).2 = .ok c) :
    c.schema = s ∧ c.complex = byName s.complexTypes := by
  obtain ⟨-, renamed, referenced, -, -, rfl⟩ := make_eq_ok_iff.mp h
  exact ⟨rfl, rfl⟩

theorem configuration_of_make {configuration : Configuration} {s : Schema}
    (h : (make configuration s).2 = .ok c) : c.configuration = configuration := by
  obtain ⟨-, renamed, referenced, -, -, rfl⟩ := make_eq_ok_iff.mp h
  rfl

/-- Where class names are assigned to all types, their classes collide with nothing. -/
theorem collisionFree_of_renamedTypes {renamed : Keyed String}
    (hgiven : c.configuration.classNames = .empty)
    (hnames : (c.schema.types.map TypeDefinition.name).Nodup)
    (h : c.renamedTypes = .ok renamed) : (c.withNames renamed).CollisionFree c.schema.types := by
  obtain ⟨a, hrun, ha⟩ := bind_eq_ok.mp h
  rw [← pure_eq_ok.mp ha]
  exact ((assigned_nil c).run hgiven hnames hrun).free

/-- The types that a catalog is made from have different names: then their classes collide with
nothing. -/
theorem collisionFree_of_make {configuration : Configuration} {s : Schema}
    (hgiven : configuration.classNames = .empty)
    (hnames : (s.types.map TypeDefinition.name).Nodup) (h : (make configuration s).2 = .ok c) :
    c.CollisionFree s.types := by
  obtain ⟨-, r, referenced, hrenamed, -, rfl⟩ := make_eq_ok_iff.mp h
  obtain ⟨hdistinct, hunbound, hundirected, hunlike⟩ :=
    collisionFree_of_renamedTypes (c := prepared configuration s) hgiven hnames hrenamed
  refine ⟨hdistinct, hunbound, hundirected, fun t ht hclasses m hm => ?_⟩
  have hcongr : { (prepared configuration s).withNames r with referenced }.KeepsMember t m ↔
      ((prepared configuration s).withNames r).KeepsMember t m :=
    keepsMember_congr (by rfl) (by rfl) (by rfl)
  exact hunlike t ht hclasses m (hcongr.mp hm)

/-- **Class names are collision-free.** Where types have different names, no class name is given and
the fields of the types can be looked up, the search for class names ends for every type, and the
names of all classes of types and of their builders differ from each other, from the names that
every client binds and from the classes of directives, and the class of a type from what its own
members would be called as classes. -/
theorem renamedTypes_collisionFree (c : Catalog) (hgiven : c.configuration.classNames = .empty)
    (hnames : (c.schema.types.map TypeDefinition.name).Nodup)
    (hfields : ∀ t ∈ c.schema.types, hasClasses t = true → t.kind.isComplex = true →
      ∃ fs, c.ownFields t = .ok fs) :
    ∃ renamed, c.renamedTypes = .ok renamed ∧
      (c.withNames renamed).CollisionFree c.schema.types := by
  obtain ⟨a, hrun⟩ := exists_foldlM_assignName hgiven hfields
  have h : c.renamedTypes = .ok a.renamed := bind_eq_ok.mpr ⟨a, hrun, rfl⟩
  exact ⟨a.renamed, h, collisionFree_of_renamedTypes hgiven hnames h⟩

/-- A schema of users: an object type with a member of its own name, one with the same class name,
and an enumeration with the class name that the former takes in its place. -/
def usersSchema : Schema where
  queryType := none
  mutationType := none
  subscriptionType := none
  types :=
    [⟨.object, "user", none, [⟨"user", none, .leaf .scalar (some "String"), [], false, none⟩], [],
        [], [], []⟩,
      ⟨.object, "User", none, [⟨"id", none, .leaf .scalar (some "ID"), [], false, none⟩], [], [],
        [], []⟩,
      ⟨.enumeration, "UserData", none, [], [], [], [⟨"LOCAL", none, false, none⟩], []⟩]
  directives := []

/-- The catalog of the schema before class names are assigned. -/
def usersCatalog : Catalog where
  configuration := {}
  schema := usersSchema
  types := byName usersSchema.types
  complex := byName usersSchema.complexTypes
  directives := .empty
  memberships := .empty
  renamed := .empty
  referenced := []

theorem users_collisionFree :
    usersCatalog.configuration.classNames = .empty ∧
      (usersCatalog.schema.types.map TypeDefinition.name).Nodup ∧
      (∀ t ∈ usersCatalog.schema.types, hasClasses t = true → t.kind.isComplex = true →
        ∃ fs, usersCatalog.ownFields t = .ok fs) ∧
      ∃ renamed, usersCatalog.renamedTypes = .ok renamed ∧
        (usersCatalog.withNames renamed).CollisionFree usersCatalog.schema.types := by
  have hnames : (usersCatalog.schema.types.map TypeDefinition.name).Nodup := by decide
  have hfields : ∀ t ∈ usersCatalog.schema.types, hasClasses t = true →
      t.kind.isComplex = true → ∃ fs, usersCatalog.ownFields t = .ok fs := by
    simp only [usersCatalog, usersSchema, List.forall_mem_cons]
    exact ⟨fun _ _ => ⟨_, rfl⟩, fun _ _ => ⟨_, rfl⟩, nofun, nofun⟩
  exact ⟨rfl, hnames, hfields, renamedTypes_collisionFree usersCatalog rfl hnames hfields⟩

example : (usersCatalog.renamedTypes.toOption.map Keyed.entries) =
    some [("user", "UserData"), ("UserData", "UserDataRecord")] := by decide +kernel

end Bindery.Catalog
