import Bindery.Proofs.Catalog.GivenNames
import Bindery.Proofs.Catalog.References
import Bindery.Proofs.Catalog.Search

/-!
# The object types that input types refer to

A catalog notes which object types and interfaces can be reached from an input type. What it looks
up does not depend on the order in which the schema lists its types, and neither does what is
reached.

## What is proved

* `Alike.ownFields`, `Alike.visitFrom` and their like — catalogs that look up the same.
* `exists_renamedTypes_iff` — for which schemas class names are assigned.
* `search_of_make` — the search behind a catalog.
* `make_reordered` — the catalog of the same types in another order.
* `referenced_reachable` — a catalog notes exactly the types that can be reached.
-/

namespace Bindery

open Bindery.Schema

variable {s s' : Schema} {ts : List TypeDefinition} {t u : TypeDefinition}

/-! ### The order of types -/

namespace Schema

/-- Where the names of types differ, the first type of a name is the only one. -/
theorem typeOf?_eq (hnames : (s.types.map TypeDefinition.name).Nodup) (name : String) :
    s.typeOf? name = (byName s.types).get? name := by
  refine Option.ext fun t => ?_
  rw [get?_byName_iff hnames]
  constructor
  · exact fun h => ⟨List.mem_of_find?_eq_some h, by simpa using List.find?_some h⟩
  · rintro ⟨ht, rfl⟩
    cases hfound : s.typeOf? t.name with
    | none => exact absurd (beq_self_eq_true t.name) (List.find?_eq_none.mp hfound t ht)
    | some u =>
      have hname : u.name = t.name := by simpa using List.find?_some hfound
      rw [List.inj_on_of_nodup_map hnames (List.mem_of_find?_eq_some hfound) ht hname]

theorem unionFields_congr (h : ∀ name, s'.typeOf? name = s.typeOf? name) (union : String)
    (known : Keyed Field) (refs : List TypeRef) :
    s'.unionFields union known refs = s.unionFields union known refs := by
  have hfound : s'.typeOf? = s.typeOf? := funext h
  induction refs generalizing known with
  | nil => rfl
  | cons r refs ih =>
    rw [unionFields, unionFields, hfound]
    simp only [ih]

theorem mem_inputTypes :
    t ∈ s.inputTypes ↔ t ∈ s.types ∧ t.kind = .inputObject ∧ t.isBuiltIn = false := by
  simp [inputTypes, typesOf]

end Schema

/-- Definitions with different names are found in whatever order they are listed. -/
theorem get?_byName_of_perm (hnames : (s.types.map TypeDefinition.name).Nodup)
    {ts' : List TypeDefinition} (hsub : ts.Sublist s.types) (hperm : ts'.Perm ts) (name : String) :
    (byName ts').get? name = (byName ts).get? name := by
  have hdistinct : (ts.map TypeDefinition.name).Nodup := hnames.sublist (hsub.map _)
  refine Option.ext fun t => ?_
  rw [get?_byName_iff hdistinct, get?_byName_iff ((hperm.map _).nodup_iff.mpr hdistinct),
    hperm.mem_iff]

namespace Catalog

variable {c c' : Catalog} {configuration : Configuration}

/-- Two catalogs with the same options look up the same. -/
structure Alike (c c' : Catalog) : Prop where
  /-- The options are the same. -/
  configuration : c'.configuration = c.configuration
  /-- So are the types under each name. -/
  types : ∀ name, c'.types.get? name = c.types.get? name
  /-- So are those whose values need a selection set. -/
  complex : ∀ name, c'.complex.get? name = c.complex.get? name
  /-- So are those that the schema finds. -/
  defined : ∀ name, c'.schema.typeOf? name = c.schema.typeOf? name

theorem Alike.effectiveFields (h : c.Alike c') (t : TypeDefinition) :
    c'.schema.effectiveFields t = c.schema.effectiveFields t := by
  rw [Schema.effectiveFields, Schema.effectiveFields, unionFields_congr h.defined]

theorem Alike.generates (h : c.Alike c') (f : Field) : c'.generates f = c.generates f := by
  simp only [Catalog.generates, hasFields, includes, h.configuration, h.complex, h.effectiveFields]
  rfl

theorem Alike.ownFields (h : c.Alike c') (t : TypeDefinition) : c'.ownFields t = c.ownFields t := by
  rw [Catalog.ownFields, Catalog.ownFields]
  induction t.fields with
  | nil => rfl
  | cons f fs ih => rw [generated, generated, h.generates, ih]

theorem Alike.memberNames (h : c.Alike c') (t : TypeDefinition) :
    c'.memberNames t = c.memberNames t := by
  rw [Catalog.memberNames, Catalog.memberNames, h.ownFields]

theorem Alike.nextTypes (h : c.Alike c') (t : TypeDefinition) : c'.nextTypes t = c.nextTypes t := by
  have htarget : c'.target? = c.target? := by
    funext r
    rw [target?, target?, h.types]
  rw [Catalog.nextTypes, Catalog.nextTypes, htarget, fieldTypes, fieldTypes, h.ownFields]

theorem Alike.visitFrom (h : c.Alike c') (bound : Nat) : c'.visitFrom bound = c.visitFrom bound := by
  induction bound with
  | zero => rfl
  | succ bound ih =>
    funext v t
    rw [visitFrom_succ, visitFrom_succ, h.nextTypes, ih]

/-! ### Class names that are assigned -/

theorem exists_assignName_iff {natural : List String} {a : Assignment} :
    (∃ a', c.assignName natural a t = .ok a') ↔
      (hasClasses t = true → c.configuration.classNames.get? t.name = none →
        ∃ names, c.memberNames t = .ok names) := by
  cases hclasses : hasClasses t with
  | false => exact ⟨fun _ => nofun, fun _ => ⟨a, assignName_skip hclasses⟩⟩
  | true =>
    cases hgiven : c.configuration.classNames.get? t.name with
    | some given => exact ⟨fun _ _ => nofun, fun _ => ⟨_, assignName_given hclasses hgiven⟩⟩
    | none =>
      rw [hasClasses, Bool.not_eq_true'] at hclasses
      rw [assignName, if_neg (Bool.eq_false_iff.mp hclasses), hgiven]
      constructor
      · rintro ⟨a', h⟩ - -
        obtain ⟨names, hnames, -⟩ := bind_eq_ok.mp h
        exact ⟨names, hnames⟩
      · intro h
        obtain ⟨names, hnames⟩ := h rfl rfl
        exact ⟨_, bind_eq_ok.mpr ⟨names, hnames, rfl⟩⟩

/-- Class names are assigned where the members of all types can be looked up that have classes, but
no given name. -/
theorem exists_renamedTypes_iff :
    (∃ renamed, c.renamedTypes = .ok renamed) ↔
      ∀ t ∈ c.schema.types, hasClasses t = true → c.configuration.classNames.get? t.name = none →
        ∃ names, c.memberNames t = .ok names := by
  have hrun : (∃ renamed, c.renamedTypes = .ok renamed) ↔ ∃ a', c.schema.types.foldlM
      (c.assignName c.naturalNames) ⟨c.fieldDirectives.map c.directiveClassName, .empty⟩ = .ok a' := by
    rw [renamedTypes]
    constructor
    · rintro ⟨_, h⟩
      obtain ⟨a', ha', -⟩ := bind_eq_ok.mp h
      exact ⟨a', ha'⟩
    · rintro ⟨a', ha'⟩
      exact ⟨_, bind_eq_ok.mpr ⟨a', ha', rfl⟩⟩
  rw [hrun]
  exact exists_foldlM_iff fun _ _ => exists_assignName_iff

/-! ### Making a catalog -/

theorem reachedTypes_eq_ok {found : List String} :
    c.reachedTypes = .ok found ↔ ∃ v : Visit,
      c.schema.inputTypes.foldlM (c.visitFrom (c.schema.types.length + 1)) ⟨[], []⟩ = .ok v ∧
        v.found.reverse = found := by
  rw [reachedTypes, bind_eq_ok]
  simp only [pure_eq_ok]

/-- Which names are known makes no difference to whether the given class names are usable. -/
theorem checkMapping_snd (known known' : String → Bool) (entries : List (String × String)) :
    (checkMapping known entries).2 = (checkMapping known' entries).2 := by
  induction entries with
  | nil => rfl
  | cons e entries ih =>
    obtain ⟨typeName, className⟩ := e
    rw [checkMapping, checkMapping]
    split_ifs
    all_goals first | rfl | exact ih

/-- The search behind a catalog. -/
theorem search_of_make (h : (make configuration s).2 = .ok c) :
    ∃ v : Visit, s.inputTypes.foldlM (c.visitFrom (s.types.length + 1)) ⟨[], []⟩ = .ok v ∧
      c.referenced = v.found.reverse := by
  obtain ⟨-, renamed, referenced, -, hreached, rfl⟩ := make_eq_ok_iff.mp h
  obtain ⟨v, hv, rfl⟩ := reachedTypes_eq_ok.mp hreached
  have halike : ((prepared configuration s).withNames renamed).Alike
      { (prepared configuration s).withNames renamed with referenced := v.found.reverse } :=
    ⟨rfl, fun _ => rfl, fun _ => rfl, fun _ => rfl⟩
  rw [halike.visitFrom]
  exact ⟨v, hv, rfl⟩

theorem named_of_make (hnames : (s.types.map TypeDefinition.name).Nodup)
    (h : (make configuration s).2 = .ok c) : c.Named := by
  obtain ⟨rfl, -⟩ := schema_of_make h
  exact ⟨types_of_make h, hnames⟩

/-- The search starts from types at which it can go on. -/
theorem isPassage_of_mem_inputTypes (h : t ∈ s.inputTypes) :
    t ∈ s.types ∧ isPassage t.kind = true := by
  obtain ⟨ht, hkind, -⟩ := mem_inputTypes.mp h
  exact ⟨ht, isPassage_iff.mpr (.inl hkind)⟩

/-- Object types and interfaces are reached from input object types along some members. -/
theorem reachableFrom_inputTypes_iff (hkind : u.kind = .object ∨ u.kind = .interface) :
    c.ReachableFrom s.inputTypes u ↔
      ∃ t ∈ s.types, t.kind = .inputObject ∧ t.isBuiltIn = false ∧
        Relation.TransGen c.LeadsTo t u := by
  constructor
  · rintro ⟨t, ht, hpath⟩
    obtain ⟨hmem, hinput, hown⟩ := mem_inputTypes.mp ht
    refine ⟨t, hmem, hinput, hown, ?_⟩
    rcases Relation.reflTransGen_iff_eq_or_transGen.mp hpath with rfl | hpath
    · rcases hkind with hk | hk <;> cases hinput.symm.trans hk
    · exact hpath
  · rintro ⟨t, hmem, hinput, hown, hpath⟩
    exact ⟨t, mem_inputTypes.mpr ⟨hmem, hinput, hown⟩, hpath.to_reflTransGen⟩

/-- The catalog of the same types in another order looks up the same. -/
theorem alike_prepared (hnames : (s.types.map TypeDefinition.name).Nodup)
    (hperm : ts.Perm s.types) :
    (prepared configuration s).Alike (prepared configuration { s with types := ts }) where
  configuration := rfl
  types := get?_byName_of_perm hnames (List.Sublist.refl _) hperm
  complex := get?_byName_of_perm hnames List.filter_sublist (hperm.filter _)
  defined name := by
    have hnames' : (ts.map TypeDefinition.name).Nodup := (hperm.map _).nodup_iff.mpr hnames
    calc Schema.typeOf? { s with types := ts } name
        = (byName ts).get? name := Schema.typeOf?_eq hnames' name
      _ = (byName s.types).get? name :=
          get?_byName_of_perm hnames (List.Sublist.refl _) hperm name
      _ = s.typeOf? name := (Schema.typeOf?_eq hnames name).symm

/-- **The catalog of the same types in another order refers to the same types.** -/
theorem make_reordered (hnames : (s.types.map TypeDefinition.name).Nodup)
    (h : (make configuration s).2 = .ok c) (hperm : ts.Perm s.types) :
    ∃ c', (make configuration { s with types := ts }).2 = .ok c' ∧
      c'.referenced.Perm c.referenced := by
  obtain ⟨v, hv, hreferenced⟩ := search_of_make h
  have hnamed := named_of_make hnames h
  obtain ⟨hmapping, renamed, referenced, hrenamed, -, rfl⟩ := make_eq_ok_iff.mp h
  have halike : (prepared configuration s).Alike (prepared configuration { s with types := ts }) :=
    alike_prepared hnames hperm
  -- class names are assigned to the same types
  obtain ⟨renamed', hrenamed'⟩ :
      ∃ r, (prepared configuration { s with types := ts }).renamedTypes = .ok r := by
    rw [exists_renamedTypes_iff]
    intro t ht
    rw [halike.memberNames]
    exact exists_renamedTypes_iff.mp ⟨renamed, hrenamed⟩ t (hperm.mem_iff.mp ht)
  -- the search starts from the same types
  obtain ⟨v', hv', hfound⟩ := exists_foldlM_of_perm hnamed
    (fun t ht => isPassage_of_mem_inputTypes ht) (Nat.lt_succ_self _) hv
    (hperm.filter fun t => t.kind == .inputObject && !t.isBuiltIn)
  have hsearch : Alike { (prepared configuration s).withNames renamed with referenced }
      ((prepared configuration { s with types := ts }).withNames renamed') :=
    ⟨rfl, halike.types, halike.complex, halike.defined⟩
  refine ⟨_, make_eq_ok_iff.mpr ⟨?_, renamed', v'.found.reverse, hrenamed',
    reachedTypes_eq_ok.mpr ⟨v', ?_, rfl⟩, rfl⟩, ?_⟩
  · rw [← hmapping]
    exact checkMapping_snd _ _ _
  · rw [hsearch.visitFrom]
    change List.foldlM (Catalog.visitFrom _ (ts.length + 1)) _ _ = _
    rw [hperm.length_eq]
    exact hv'
  · rw [hreferenced]
    exact (List.reverse_perm _).trans (hfound.trans (List.reverse_perm _).symm)

/-- **A catalog refers to exactly the types that can be reached.** Where the types of a schema have
different names and its catalog can be made, the catalog notes an object type or an interface, once,
exactly if a path leads to it from an input object type of the schema's own, along the fields of
input object types and the generated fields of object types and interfaces, through such types only.
The search for them ends by itself: beyond the number of types, no bound changes what it finds. The
same types in another order have a catalog, too, which refers to the same types. -/
theorem referenced_reachable (hnames : (s.types.map TypeDefinition.name).Nodup)
    (h : (make configuration s).2 = .ok c) :
    (∀ n, n ∈ c.referenced ↔
      ∃ t ∈ s.types, t.kind = .inputObject ∧ t.isBuiltIn = false ∧
        ∃ u, Relation.TransGen c.LeadsTo t u ∧ (u.kind = .object ∨ u.kind = .interface) ∧
          u.name = n) ∧
      c.referenced.Nodup ∧
      (∃ v : Visit, c.referenced = v.found.reverse ∧ ∀ bound, s.types.length < bound →
        s.inputTypes.foldlM (c.visitFrom bound) ⟨[], []⟩ = .ok v) ∧
      ∀ ts : List TypeDefinition, ts.Perm s.types →
        ∃ c', (make configuration { s with types := ts }).2 = .ok c' ∧
          c'.referenced.Perm c.referenced := by
  obtain ⟨v, hv, hreferenced⟩ := search_of_make h
  have hnamed := named_of_make hnames h
  obtain ⟨hschema, -⟩ := schema_of_make h
  have hroots : ∀ t ∈ s.inputTypes, t ∈ c.schema.types ∧ isPassage t.kind = true :=
    fun t ht => hschema ▸ isPassage_of_mem_inputTypes ht
  have hbound : c.schema.types.length < s.types.length + 1 := by rw [hschema]; omega
  refine ⟨fun n => ?_, ?_, ⟨v, hreferenced, fun bound hlt => ?_⟩,
    fun ts => make_reordered hnames h⟩
  · rw [hreferenced, List.mem_reverse, mem_found_iff hnamed hroots hbound hv]
    constructor
    · rintro ⟨u, hreached, hkind, hname⟩
      obtain ⟨t, ht, hinput, hown, hpath⟩ := (reachableFrom_inputTypes_iff hkind).mp hreached
      exact ⟨t, ht, hinput, hown, u, hpath, hkind, hname⟩
    · rintro ⟨t, ht, hinput, hown, u, hpath, hkind, hname⟩
      exact ⟨u, (reachableFrom_inputTypes_iff hkind).mpr ⟨t, ht, hinput, hown, hpath⟩, hkind, hname⟩
  · rw [hreferenced]
    exact List.nodup_reverse.mpr (charted_of_foldlM hnamed hroots hbound hv).nodup
  · rw [← hv]
    exact foldlM_visitFrom_bound hnamed (fun t ht => (hroots t ht).1) _ (hschema ▸ hlt) hbound

/-! ### Types in a circle -/

/-- A field without arguments. -/
def plainField (name : String) (type : TypeRef) : Field :=
  ⟨name, none, type, [], false, none⟩

/-- A schema in which a filter leads to itself and to users, and users and their posts lead to each
other. Nothing leads to tags but a field that should be avoided. -/
def circleSchema : Schema where
  queryType := none
  mutationType := none
  subscriptionType := none
  types :=
    [⟨.object, "Tag", none, [plainField "label" (.leaf .scalar (some "String"))], [], [], [], []⟩,
      ⟨.object, "Post", none, [plainField "author" (.leaf .object (some "User")),
        ⟨"tag", none, .leaf .object (some "Tag"), [], true, none⟩], [], [], [], []⟩,
      ⟨.inputObject, "Filter", none, [],
        [⟨"nested", none, .leaf .inputObject (some "Filter"), .null⟩,
          ⟨"node", none, .leaf .interface (some "Node"), .null⟩], [], [], []⟩,
      ⟨.interface, "Node", none, [plainField "owner" (.leaf .object (some "User"))], [], [], [], []⟩,
      ⟨.object, "User", none, [plainField "posts" (.around .list none (.leaf .object (some "Post")))],
        [], [], [], []⟩]
  directives := []

/-- The catalog of the schema. -/
def circleCatalog : Catalog :=
  { prepared {} circleSchema with referenced := ["Node", "User", "Post"] }

theorem make_circle : (make {} circleSchema).2 = .ok circleCatalog := by
  cbv

theorem circle_reaches :
    (circleSchema.types.map TypeDefinition.name).Nodup ∧
      (make {} circleSchema).2 = .ok circleCatalog ∧
      (∀ n, n ∈ ["Node", "User", "Post"] ↔
        ∃ t ∈ circleSchema.types, t.kind = .inputObject ∧ t.isBuiltIn = false ∧
          ∃ u, Relation.TransGen circleCatalog.LeadsTo t u ∧
            (u.kind = .object ∨ u.kind = .interface) ∧ u.name = n) ∧
      ∀ ts : List TypeDefinition, ts.Perm circleSchema.types →
        ∃ c', (make {} { circleSchema with types := ts }).2 = .ok c' ∧
          c'.referenced.Perm ["Node", "User", "Post"] := by
  have hnames : (circleSchema.types.map TypeDefinition.name).Nodup := by decide
  obtain ⟨hreached, -, -, hreordered⟩ := referenced_reachable hnames make_circle
  exact ⟨hnames, make_circle, hreached, hreordered⟩

end Catalog

end Bindery
