import Bindery.Proofs.Client.Emission
import Mathlib.Order.WellFoundedSet

/-!
# What a data class derives from

Where no type is its own ancestor, the data class of a type does not depend on what was asked before
it. Its bases are the classes of the parents that no other parent inherits, and since every other
parent is inherited by one of them, it derives from the classes of all ancestors of its type.

## What is proved

* `exists_direct` — each parent stays or is inherited by one that stays.
* `dataViewsInOrder_eq` — each data class is what its type alone gives.
* `of_freshView` — the name and the bases of a data class.
* `derives_of_isAncestor` — a data class derives from the classes of the ancestors of its type.
* `exists_base_of_derives` — where class names differ, what it derives from is a base of its own
  class statement or of that of an ancestor.
* `derives_iff` — then it derives from no other class of a type.
-/

namespace Bindery.Client

open Bindery.Schema

variable {c : Catalog} {m : Ancestors} {t : TypeDefinition} {ts : List TypeDefinition}
  {d : DataView} {ds : List DataView} {b name p : String} {parents inherited : List String}

/-! ### The names of data classes -/

theorem usableClassName_eq_ok {n : String} (h : usableClassName name = .ok n) : n = name := by
  rw [usableClassName, usableName] at h
  split_ifs at h
  exact (Except.ok.inj h).symm

theorem dataView_className {known known' : Ancestors} (h : dataView c known t = .ok (d, known')) :
    d.className = c.className t.name := by
  obtain ⟨name, hname, h⟩ := bind_eq_ok.mp h
  obtain ⟨fields, -, h⟩ := bind_eq_ok.mp h
  obtain ⟨ps, -, h⟩ := bind_eq_ok.mp h
  cases pure_eq_ok.mp h
  exact usableClassName_eq_ok hname

theorem dataViewsInOrder_classNames {known : Ancestors}
    (h : dataViewsInOrder c ts known = .ok ds) :
    ds.map DataView.className = ts.map fun (t : TypeDefinition) => c.className t.name := by
  induction ts generalizing known ds with
  | nil => cases h; rfl
  | cons t ts ih =>
    obtain ⟨⟨d, known'⟩, hd, h⟩ := bind_eq_ok.mp h
    obtain ⟨rest, hrest, h⟩ := bind_eq_ok.mp h
    rw [← pure_eq_ok.mp h, List.map_cons, List.map_cons, dataView_className hd, ih hrest]

/-! ### Parents that stay -/

/-- Among finitely many names there is no endless way down to types that inherit. -/
theorem Acyclic.wellFoundedOn (hc : Acyclic c) (names : List String) :
    {n | n ∈ names}.WellFoundedOn (IsAncestor c) := by
  have : IsStrictOrder String (IsAncestor c) :=
    { irrefl := hc, trans := fun _ _ _ => Relation.TransGen.trans }
  exact names.finite_toSet.wellFoundedOn

/-- Nor is there an endless way up to ancestors. -/
theorem Acyclic.wellFoundedOn_swap (hc : Acyclic c) (names : List String) :
    {n | n ∈ names}.WellFoundedOn (Function.swap (IsAncestor c)) := by
  have : IsStrictOrder String (Function.swap (IsAncestor c)) :=
    { irrefl := hc, trans := fun _ _ _ h h' => Relation.TransGen.trans h' h }
  exact names.finite_toSet.wellFoundedOn

theorem mem_directOf : p ∈ directOf c parents ↔
    p ∈ parents ∧ ∀ o ∈ parents, o ≠ p → ¬ IsAncestor c o p := by
  simp [directOf]

/-- Each parent stays or is inherited by one that stays. -/
theorem exists_direct (hc : Acyclic c) (hp : p ∈ parents) :
    ∃ o ∈ directOf c parents, o = p ∨ IsAncestor c o p := by
  refine (hc.wellFoundedOn parents).induction
    (P := fun p => ∃ o ∈ directOf c parents, o = p ∨ IsAncestor c o p) hp fun p hp ih => ?_
  by_cases hdirect : p ∈ directOf c parents
  · exact ⟨p, hdirect, .inl rfl⟩
  · rw [mem_directOf] at hdirect
    push Not at hdirect
    obtain ⟨o, ho, -, habove⟩ := hdirect hp
    obtain ⟨lowest, hlowest, heq | hbelow⟩ := ih o ho habove
    · exact ⟨lowest, hlowest, .inr (heq ▸ habove)⟩
    · exact ⟨lowest, hlowest, .inr (hbelow.trans habove)⟩

/-- The ancestors of a type are the parents that stay and their ancestors. -/
theorem isAncestor_iff_direct (hc : Acyclic c) {a : String} :
    IsAncestor c name a ↔ ∃ p ∈ directOf c (parentsOf c name), a = p ∨ IsAncestor c p a := by
  rw [isAncestor_iff]
  constructor
  · rintro ⟨p, hp, ha⟩
    obtain ⟨o, ho, rfl | hop⟩ := exists_direct hc hp
    · exact ⟨o, ho, ha⟩
    · refine ⟨o, ho, .inr ?_⟩
      rcases ha with rfl | ha
      · exact hop
      · exact hop.trans ha
  · rintro ⟨p, hp, ha⟩
    exact ⟨p, (mem_directOf.mp hp).1, ha⟩

/-- Where types have numbers that fall towards their parents, no type is its own ancestor. -/
theorem acyclic_of_rank (hindexed : c.Indexed) (rank : String → Nat)
    (h : ∀ t ∈ c.complex.values, ∀ p ∈ parentTypes c t, rank p < rank t.name) : Acyclic c := by
  suffices key : ∀ {n a}, IsAncestor c n a → rank a < rank n from fun n hn => lt_irrefl _ (key hn)
  have hparent : ∀ {n p}, p ∈ parentsOf c n → rank p < rank n := by
    intro n p hp
    cases hn : c.complex.get? n with
    | none =>
      rw [parentsOf, hn] at hp
      cases hp
    | some t =>
      obtain ⟨ht, rfl⟩ := hindexed.found hn
      rw [parentsOf_of_get? hn] at hp
      exact h t ht p hp
  intro n a hna
  induction hna with
  | single hp => exact hparent hp
  | tail _ hp ih => exact (hparent hp).trans ih

/-! ### The data class of a type alone -/

/-- The data class of a type where nothing is known of ancestors. -/
def freshView (c : Catalog) (t : TypeDefinition) : Except Refusal DataView :=
  (dataView c .empty t).map Prod.fst

/-- The data class of a type with the given parents and inherited types. -/
def viewWith (c : Catalog) (t : TypeDefinition) (parents inherited : List String) :
    Except Refusal DataView := do
  let name ← usableClassName (c.className t.name)
  let fields ← c.effectiveFields t
  let ps ← dataProperties c t.name fields []
  return ⟨name, basesOf c t.name parents inherited, documentation c.configuration t.description, ps,
    parents.map fun p => c.className p,
    fields.flatMap fun (f : Field) => referredClasses c f.type⟩

/-- The data class of a type depends on what is known through its parents and inherited types
only. -/
theorem dataView_eq (m : Ancestors) : dataView c m t =
    (viewWith c t ((directParents c (parentTypes c t)).run m).1
      ((inheritedTypes c ((directParents c (parentTypes c t)).run m).1).run
        ((directParents c (parentTypes c t)).run m).2).1).map fun d =>
      (d, ((inheritedTypes c ((directParents c (parentTypes c t)).run m).1).run
        ((directParents c (parentTypes c t)).run m).2).2) := by
  rw [dataView, viewWith]
  cases usableClassName (c.className t.name) with
  | error e => rfl
  | ok name =>
    cases c.effectiveFields t with
    | error e => rfl
    | ok fields =>
      simp only [bind, Except.bind]
      cases dataProperties c t.name fields [] <;> rfl

/-- Only which types are inherited counts for the bases, not in which order. -/
theorem viewWith_congr {inherited' : List String} (h : ∀ a, a ∈ inherited ↔ a ∈ inherited') :
    viewWith c t parents inherited = viewWith c t parents inherited' := by
  have hany : inherited.any c.referenced.contains = inherited'.any c.referenced.contains := by
    rw [Bool.eq_iff_iff, List.any_eq_true, List.any_eq_true]
    simp only [h]
  have hbases : basesOf c t.name parents inherited = basesOf c t.name parents inherited' := by
    simp only [basesOf, hany]
  rw [viewWith, viewWith, hbases]

/-- Where no type is its own ancestor, the data class of a type is that of its parents that stay and
of its ancestors, whatever is known. -/
theorem dataView_complete (hc : Acyclic c) (hm : Complete c [] m) :
    ∃ m', Complete c [] m' ∧ ∃ inherited,
      (∀ a, a ∈ inherited ↔ ∃ p ∈ directOf c (parentTypes c t), a = p ∨ IsAncestor c p a) ∧
      dataView c m t =
        (viewWith c t (directOf c (parentTypes c t)) inherited).map fun d => (d, m') := by
  obtain ⟨hdirect, hparents⟩ := run_directParents hc hm (parentTypes c t)
  obtain ⟨hend, hmem⟩ := mem_inheritedTypes hc hdirect (directOf c (parentTypes c t))
  rw [dataView_eq, hparents]
  exact ⟨_, hend, _, hmem, rfl⟩

theorem freshView_eq (hc : Acyclic c)
    (h : ∀ a, a ∈ inherited ↔ ∃ p ∈ directOf c (parentTypes c t), a = p ∨ IsAncestor c p a) :
    freshView c t = viewWith c t (directOf c (parentTypes c t)) inherited := by
  obtain ⟨m', -, inherited', hmem, hview⟩ := dataView_complete hc (complete_empty c) (t := t)
  have heq : ∀ a, a ∈ inherited ↔ a ∈ inherited' := fun a => (h a).trans (hmem a).symm
  rw [freshView, hview, viewWith_congr heq]
  cases viewWith c t (directOf c (parentTypes c t)) inherited' <;> rfl

/-- Each data class is what its type alone gives. -/
theorem dataViewsInOrder_eq (hc : Acyclic c) (hm : Complete c [] m) :
    dataViewsInOrder c ts m = ts.mapM (freshView c) := by
  induction ts generalizing m with
  | nil => rfl
  | cons t ts ih =>
    obtain ⟨m', hm', inherited, hmem, hview⟩ := dataView_complete hc hm (t := t)
    rw [dataViewsInOrder, List.mapM_cons, freshView_eq hc hmem, hview, ← ih hm']
    cases viewWith c t (directOf c (parentTypes c t)) inherited <;> rfl

/-! ### Bases -/

/-- The data class of a type is that of its parents that stay and of the types that these inherit. -/
theorem exists_viewWith (hc : Acyclic c) (h : freshView c t = .ok d) : ∃ inherited,
    (∀ a, a ∈ inherited ↔ ∃ p ∈ directOf c (parentTypes c t), a = p ∨ IsAncestor c p a) ∧
      viewWith c t (directOf c (parentTypes c t)) inherited = .ok d := by
  obtain ⟨m', -, inherited, hmem, -⟩ := dataView_complete hc (complete_empty c) (t := t)
  exact ⟨inherited, hmem, (freshView_eq hc hmem).symm.trans h⟩

theorem of_viewWith (h : viewWith c t parents inherited = .ok d) :
    d.className = c.className t.name ∧ d.bases = basesOf c t.name parents inherited ∧
      d.imports = parents.map fun p => c.className p := by
  obtain ⟨name, hname, h⟩ := bind_eq_ok.mp h
  obtain ⟨fields, -, h⟩ := bind_eq_ok.mp h
  obtain ⟨ps, -, h⟩ := bind_eq_ok.mp h
  rw [← pure_eq_ok.mp h]
  exact ⟨usableClassName_eq_ok hname, rfl, rfl⟩

theorem of_freshView (hc : Acyclic c) (h : freshView c t = .ok d) :
    d.className = c.className t.name ∧ ∃ inherited,
      (∀ a, a ∈ inherited ↔ ∃ p ∈ directOf c (parentTypes c t), a = p ∨ IsAncestor c p a) ∧
        d.bases = basesOf c t.name (directOf c (parentTypes c t)) inherited := by
  obtain ⟨inherited, hmem, hview⟩ := exists_viewWith hc h
  obtain ⟨hname, hbases, -⟩ := of_viewWith hview
  exact ⟨hname, inherited, hmem, hbases⟩

/-- The base that does not come from a parent: that of objects that can be sent, where an input type
refers to the type and to none that it inherits, and else the general one where there is no parent. -/
def rootBase (c : Catalog) (name : String) (parents inherited : List String) : List String :=
  if c.referenced.contains name && !inherited.any c.referenced.contains then [sendableBase]
  else if parents.isEmpty then [dataBase] else []

theorem basesOf_eq : basesOf c name parents inherited =
    parents.map (fun p => c.className p) ++ rootBase c name parents inherited := by
  simp only [basesOf, rootBase]
  cases parents <;> split_ifs <;> simp_all

theorem mem_rootBase (h : b ∈ rootBase c name parents inherited) :
    b = sendableBase ∨ b = dataBase := by
  rw [rootBase] at h
  split_ifs at h
  · exact .inl (List.mem_singleton.mp h)
  · exact .inr (List.mem_singleton.mp h)
  · cases h

/-! ### Deriving -/

/-- The data classes in the order of their class statements, where no type is its own ancestor. -/
theorem dataViews_eq (hindexed : c.Indexed) (hc : Acyclic c) (h : dataViews c = .ok ds) :
    ∃ ts : List TypeDefinition, ts.Perm c.complex.values ∧ ParentsFirst c ts ∧
      ts.mapM (freshView c) = .ok ds := by
  obtain ⟨ts, hts, hds⟩ := bind_eq_ok.mp h
  have hperm := ordered_perm hts
  rw [dataViewsInOrder_eq hc (complete_empty c)] at hds
  exact ⟨_, emissionOrder_perm hindexed hperm,
    parentsFirst_emissionOrder hindexed hc fun t ht => hperm.subset ht, hds⟩

/-- The class of the first name derives from that of the second, directly or through others. -/
def Derives (ds : List DataView) : String → String → Prop :=
  Relation.TransGen fun n b => ∃ d ∈ ds, DataView.className d = n ∧ b ∈ d.bases

/-- **A data class derives from the classes of the ancestors of its type.** -/
theorem derives_of_isAncestor (hindexed : c.Indexed) (hc : Acyclic c) (h : dataViews c = .ok ds)
    (ht : t ∈ c.complex.values) {a : String} (ha : IsAncestor c t.name a) :
    Derives ds (c.className t.name) (c.className a) := by
  obtain ⟨ts, hperm, -, hviews⟩ := dataViews_eq hindexed hc h
  -- upwards from type to parents, of which the one that leads to `a` stays or is inherited by one
  -- that stays
  refine (hc.wellFoundedOn_swap c.complex.keys).induction
    (P := fun n => IsAncestor c n a → Derives ds (c.className n) (c.className a))
    (hindexed.mem_keys ht) (fun n hn ih ha => ?_) ha
  obtain ⟨u, hu⟩ := Keyed.exists_get?_of_mem_keys hn
  obtain ⟨hmem, rfl⟩ := hindexed.found hu
  obtain ⟨d, hd, hview⟩ := exists_of_mem_mapM hviews (hperm.mem_iff.mpr hmem)
  obtain ⟨hname, inherited, -, hbases⟩ := of_freshView hc hview
  obtain ⟨p, hp, habove⟩ := (isAncestor_iff_direct hc).mp ha
  rw [parentsOf_of_get? hu] at hp
  have hbase : c.className p ∈ d.bases := by
    rw [hbases, basesOf_eq]
    exact List.mem_append_left _ (List.mem_map_of_mem hp)
  have hstep : Derives ds (c.className u.name) (c.className p) :=
    .single ⟨d, hd, hname, hbase⟩
  rcases habove with rfl | habove
  · exact hstep
  · have hparent : p ∈ parentsOf c u.name := by
      rw [parentsOf_of_get? hu]
      exact (mem_directOf.mp hp).1
    exact hstep.trans (ih p (mem_keys_of_mem_parentsOf hparent) (.single hparent) habove)

/-- A base is one that all data classes have, or the class of a parent that stays. -/
theorem mem_bases (hc : Acyclic c) (h : freshView c t = .ok d) (hb : b ∈ d.bases) :
    (b = sendableBase ∨ b = dataBase) ∨
      ∃ p ∈ directOf c (parentTypes c t), b = c.className p := by
  obtain ⟨-, inherited, -, hbases⟩ := of_freshView hc h
  rw [hbases, basesOf_eq] at hb
  rcases List.mem_append.mp hb with hb | hb
  · obtain ⟨p, hp, rfl⟩ := List.mem_map.mp hb
    exact .inr ⟨p, hp, rfl⟩
  · exact .inl (mem_rootBase hb)

/-- **Every base of a data class stands before it**, where no type is its own ancestor. -/
theorem bases_first (hindexed : c.Indexed) (hc : Acyclic c) (h : dataViews c = .ok ds)
    {before after : List DataView} (hds : ds = before ++ d :: after) (hb : b ∈ d.bases) :
    (b = sendableBase ∨ b = dataBase) ∨ b ∈ before.map DataView.className := by
  obtain ⟨ts, -, hfirst, hviews⟩ := dataViews_eq hindexed hc h
  obtain ⟨tsBefore, t, tsAfter, hts, hbefore, hview⟩ := exists_of_mapM_append (hds ▸ hviews)
  refine (mem_bases hc hview hb).imp_right ?_
  rintro ⟨p, hp, rfl⟩
  obtain ⟨u, hu, rfl⟩ := List.mem_map.mp (hfirst _ t _ hts p (mem_directOf.mp hp).1)
  obtain ⟨d', hd', hview'⟩ := exists_of_mem_mapM hbefore hu
  exact List.mem_map.mpr ⟨d', hd', (of_freshView hc hview').1⟩

/-- Each data class is that of a type. -/
theorem exists_type_of_mem (hindexed : c.Indexed) (hc : Acyclic c) (h : dataViews c = .ok ds)
    (hd : d ∈ ds) :
    ∃ t ∈ c.complex.values, freshView c t = .ok d ∧ d.className = c.className t.name := by
  obtain ⟨ts, hperm, -, hviews⟩ := dataViews_eq hindexed hc h
  obtain ⟨t, ht, hview⟩ := exists_of_mapM hviews hd
  exact ⟨t, hperm.subset ht, hview, (of_freshView hc hview).1⟩

section Differ

variable (hindexed : c.Indexed) (hdiffer : c.ClassesDiffer) (hc : Acyclic c)
  (h : dataViews c = .ok ds)

include hindexed hdiffer hc h

/-- Where the classes of the types differ, a data class of the name of a type's class is that of the
type. -/
theorem view_of_className (ht : t ∈ c.complex.values) (hd : d ∈ ds)
    (hname : d.className = c.className t.name) : freshView c t = .ok d := by
  obtain ⟨u, hu, hview, hname'⟩ := exists_type_of_mem hindexed hc h hd
  obtain rfl := hdiffer.injective ht hu (hname.symm.trans hname')
  exact hview

/-- Then a base of the class of a type is one that all data classes have, or the class of a
parent. -/
theorem base_cases (ht : t ∈ c.complex.values) (hd : d ∈ ds)
    (hname : d.className = c.className t.name) (hb : b ∈ d.bases) :
    b ∈ Catalog.boundNames ∨
      ∃ p ∈ c.complex.values, p.name ∈ parentsOf c t.name ∧ b = c.className p.name := by
  have hview := view_of_className hindexed hdiffer hc h ht hd hname
  refine (mem_bases hc hview hb).imp (by rintro (rfl | rfl) <;> decide) ?_
  rintro ⟨p, hp, rfl⟩
  have hparent := (mem_directOf.mp hp).1
  obtain ⟨u, hu⟩ := Keyed.exists_get?_of_mem_keys (mem_parentTypes.mp hparent).2
  obtain ⟨hmem, rfl⟩ := hindexed.found hu
  refine ⟨u, hmem, ?_, rfl⟩
  rwa [parentsOf_of_get? (hindexed.listed ht)]

/-- Then what the class of a type derives from is a base of its own or of the class of an ancestor. -/
theorem exists_base_of_derives (ht : t ∈ c.complex.values)
    (hderives : Derives ds (c.className t.name) b) : ∃ u ∈ c.complex.values,
      (u = t ∨ IsAncestor c t.name u.name) ∧
        ∃ d ∈ ds, DataView.className d = c.className u.name ∧ b ∈ d.bases := by
  induction hderives with
  | single hstep => exact ⟨t, ht, .inl rfl, hstep⟩
  | tail _ hstep ih =>
    -- the class in between has a class statement, so that it is no base that all classes have
    obtain ⟨d, hd, rfl, hb⟩ := hstep
    obtain ⟨u, hu, habove, d', hd', hname', hbase⟩ := ih
    rcases base_cases hindexed hdiffer hc h hu hd' hname' hbase with hbound | ⟨p, hp, hparent, heq⟩
    · obtain ⟨v, hv, -, hname⟩ := exists_type_of_mem hindexed hc h hd
      exact absurd (hname ▸ hbound) (hdiffer.unbound hv)
    · refine ⟨p, hp, .inr ?_, d, hd, heq, hb⟩
      rcases habove with rfl | habove
      · exact .single hparent
      · exact habove.tail hparent

/-- Then a data class derives from the classes of the ancestors of its type, and from no other class
of a type. -/
theorem derives_iff {u : TypeDefinition} (ht : t ∈ c.complex.values) (hu : u ∈ c.complex.values) :
    Derives ds (c.className t.name) (c.className u.name) ↔ IsAncestor c t.name u.name := by
  refine ⟨fun hderives => ?_, derives_of_isAncestor hindexed hc h ht⟩
  obtain ⟨v, hv, habove, d, hd, hname, hb⟩ :=
    exists_base_of_derives hindexed hdiffer hc h ht hderives
  rcases base_cases hindexed hdiffer hc h hv hd hname hb with hbound | ⟨p, hp, hparent, heq⟩
  · exact absurd hbound (hdiffer.unbound hu)
  · obtain rfl := hdiffer.injective hu hp heq
    rcases habove with rfl | habove
    · exact .single hparent
    · exact habove.tail hparent

end Differ

end Bindery.Client
