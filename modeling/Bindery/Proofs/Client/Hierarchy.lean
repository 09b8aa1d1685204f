import Bindery.Client.Loaded
import Bindery.Proofs.Client.Views
import Bindery.Proofs.Inheritance

/-!
# When the data classes of a client can be loaded

A class statement needs its bases and an order of all that it inherits. Where no type is its own
ancestor the bases always stand before, so that only the order can be missing. It is not where each
interface or union to which types belong has at most one parent that stays: then the order of its
class is a line upwards, and lines agree with the order in which the classes stand, read backwards.

## What is proved

* `loadData_isOk_iff` — one more data class can be loaded exactly if an order keeps those of its
  bases and the list of its bases.
* `bases_known` — all bases of data classes are known.
* `keeps_of_lines`, `OrdersOf.step`, `exists_load` — where the orders of the parents' classes are
  lines, one more class and all classes can be loaded.
* `hierarchy_loads_iff` — when all data classes can be loaded.
* `account_without_order` — data classes that cannot.
-/

namespace Bindery.Client

open Bindery.Schema Bindery.Inheritance
open Bindery.Query (Error)

variable {c : Catalog} {d : DataView} {ds : List DataView} {orders orders' : Keyed (List String)}
  {bases : List String}

/-! ### One class statement -/

/-- The orders of known bases. -/
theorem mapM_get? (h : ∀ b ∈ bases, b ∈ orders.keys) :
    bases.mapM orders.get? = some (bases.filterMap orders.get?) := by
  induction bases with
  | nil => rfl
  | cons b bases ih =>
    rw [List.forall_mem_cons] at h
    obtain ⟨order, horder⟩ := Keyed.exists_get?_of_mem_keys h.1
    rw [List.mapM_cons, horder, ih h.2, List.filterMap_cons_some horder]
    rfl

/-- A class statement with known bases that have no order. -/
theorem loadData_none (h : ∀ b ∈ d.bases, b ∈ orders.keys)
    (hlinear : linearize d.className d.bases (d.bases.filterMap orders.get?) = none) :
    loadData orders d = .error .badCall := by
  simp only [loadData, mapM_get? h, hlinear]

/-- A class statement with known bases that have an order. -/
theorem loadData_some (h : ∀ b ∈ d.bases, b ∈ orders.keys) {order : List String}
    (hlinear : linearize d.className d.bases (d.bases.filterMap orders.get?) = some order) :
    loadData orders d = .ok (orders.put d.className order) := by
  simp only [loadData, mapM_get? h, hlinear]

/-- One more data class can be loaded exactly if an order keeps those of its bases and the list of
its bases. -/
theorem loadData_isOk_iff (h : ∀ b ∈ d.bases, b ∈ orders.keys) :
    (∃ orders', loadData orders d = .ok orders') ↔
      ∃ order, Keeps order (d.bases.filterMap orders.get? ++ [d.bases]) := by
  refine Iff.trans ?_ (exists_linearize_iff d.className)
  cases hlinear : linearize d.className d.bases (d.bases.filterMap orders.get?) with
  | none => simp [loadData_none h hlinear]
  | some order => simp [loadData_some h hlinear]

/-! ### All class statements -/

/-- A class statement makes its class known. -/
theorem mem_keys_loadData (h : loadData orders d = .ok orders') {k : String} :
    k ∈ orders'.keys ↔ k = d.className ∨ k ∈ orders.keys := by
  rw [loadData] at h
  split at h
  · cases h
  · split at h
    · cases h
    · cases h
      exact Keyed.mem_keys_put

/-- Class statements make their classes known. -/
theorem mem_keys_of_load (h : ds.foldlM loadData orders = .ok orders') {k : String} :
    k ∈ orders'.keys ↔ k ∈ orders.keys ∨ k ∈ ds.map DataView.className := by
  induction ds generalizing orders with
  | nil =>
    rw [← pure_eq_ok.mp h]
    simp
  | cons d ds ih =>
    rw [List.foldlM_cons] at h
    obtain ⟨orders₁, hd, hrest⟩ := bind_eq_ok.mp h
    rw [ih hrest, mem_keys_loadData hd, List.map_cons, List.mem_cons]
    tauto

/-- The bases of a data class are known when its class statement is reached. -/
theorem bases_known (hindexed : c.Indexed) (hc : Acyclic c) (h : dataViews c = .ok ds)
    {before after : List DataView} (hds : ds = before ++ d :: after)
    (hbefore : before.foldlM loadData baseOrders = .ok orders) : ∀ b ∈ d.bases, b ∈ orders.keys := by
  intro b hb
  rw [mem_keys_of_load hbefore]
  refine (bases_first hindexed hc h hds hb).imp_left ?_
  rintro (rfl | rfl) <;> decide

/-! ### Lines of classes -/

/-- The classes of types, the last one first. -/
def classesAbove (c : Catalog) (ts : List TypeDefinition) : List String :=
  (ts.map fun (t : TypeDefinition) => c.className t.name).reverse

/-- The classes behind that of a type are those of ancestors, as they stand in the list, and then the
bases that all data classes have, that of objects that can be sent only where an input type refers to
the type or an ancestor. -/
structure Line (c : Catalog) (above : List String) (name : String) (line roots : List String) :
    Prop where
  /-- The classes stand as in the list. -/
  sublist : (c.className name :: line).Sublist above
  /-- The classes are those of ancestors. -/
  ancestors : ∀ x ∈ line, ∃ a, IsAncestor c name a ∧ x = c.className a
  /-- The bases that all data classes have. -/
  roots : roots = [dataBase] ∨ roots = [sendableBase, dataBase] ∧
    ∃ a, (a = name ∨ IsAncestor c name a) ∧ c.referenced.contains a = true

theorem Line.roots_sublist {above line roots : List String} {name : String}
    (h : Line c above name line roots) : roots.Sublist [sendableBase, dataBase] := by
  rcases h.roots with rfl | ⟨rfl, -⟩ <;> decide

theorem rootBase_sublist {name : String} {parents inherited : List String} :
    (rootBase c name parents inherited).Sublist [sendableBase, dataBase] := by
  rw [rootBase]
  split_ifs <;> decide

/-- The line of a class goes on below. -/
theorem Line.below {above line roots : List String} {name p : String}
    (h : Line c above p line roots) (hp : IsAncestor c name p) :
    Line c (c.className name :: above) name (c.className p :: line) roots := by
  refine ⟨h.sublist.cons_cons _, ?_, h.roots.imp_right fun ⟨hroots, a, ha, hreferenced⟩ => ?_⟩
  · refine List.forall_mem_cons.mpr ⟨⟨p, hp, rfl⟩, fun x hx => ?_⟩
    obtain ⟨a, ha, rfl⟩ := h.ancestors x hx
    exact ⟨a, hp.trans ha, rfl⟩
  · refine ⟨hroots, a, .inr ?_, hreferenced⟩
    rcases ha with rfl | ha
    · exact hp
    · exact hp.trans ha

/-- Other types belong to the type of the name. -/
def Belonged (c : Catalog) (name : String) : Prop :=
  ∃ t ∈ c.complex.values, name ∈ parentTypes c t

/-- The orders of the classes of the types to which others belong are lines. -/
structure OrdersOf (c : Catalog) (ts : List TypeDefinition) (orders : Keyed (List String)) :
    Prop where
  /-- The order of the general base. -/
  base : orders.get? dataBase = some [dataBase]
  /-- The order of the base of objects that can be sent. -/
  sendable : orders.get? sendableBase = some [sendableBase, dataBase]
  /-- The orders of the classes of types. -/
  lines : ∀ t ∈ ts, Belonged c (TypeDefinition.name t) → ∃ line roots,
    orders.get? (c.className t.name) = some (c.className t.name :: line ++ roots) ∧
      Line c (classesAbove c ts) t.name line roots

theorem ordersOf_nil (c : Catalog) : OrdersOf c [] baseOrders :=
  ⟨by decide, by decide, nofun⟩

theorem order_of_root {ts : List TypeDefinition} (h : OrdersOf c ts orders) {b : String}
    {order : List String} (hb : b = sendableBase ∨ b = dataBase) (hget : orders.get? b = some order) :
    order.Sublist [sendableBase, dataBase] := by
  rcases hb with rfl | rfl
  · cases hget.symm.trans h.sendable
    exact List.Sublist.refl _
  · cases hget.symm.trans h.base
    decide

theorem nodup_unite {xs ys : List String} (hx : xs.Nodup) (hy : ys.Nodup) : (unite xs ys).Nodup := by
  refine List.nodup_append'.mpr ⟨hx, hy.filter _, fun z hz hz' => ?_⟩
  have hnot := (List.mem_filter.mp hz').2
  rw [List.contains_iff_mem.mpr hz] at hnot
  cases hnot

theorem sublist_unite {xs ys first rest : List String} (hfirst : first.Sublist xs)
    (hrest : rest.Sublist ys) (hnew : ∀ z ∈ rest, z ∉ xs) : (first ++ rest).Sublist (unite xs ys) := by
  refine hfirst.append ?_
  have hkept : rest.filter (fun z => !xs.contains z) = rest := by
    refine List.filter_eq_self.mpr fun z hz => ?_
    simpa using hnew z hz
  rw [← hkept]
  exact hrest.filter _

/-- The order of a class without parents is a line. -/
theorem line_of_none {ts : List TypeDefinition} {above : List String} {name : String}
    (h : OrdersOf c ts orders) (inherited : List String) : ∃ line roots,
    linearize (c.className name) ([].map (fun p => c.className p) ++ rootBase c name [] inherited)
        (([].map (fun p => c.className p) ++ rootBase c name [] inherited).filterMap orders.get?) =
        some (c.className name :: line ++ roots) ∧
      Line c (c.className name :: above) name line roots := by
  rw [List.map_nil, List.nil_append, rootBase]
  split_ifs with hsendable hempty
  · rw [List.filterMap_cons_some h.sendable, List.filterMap_nil]
    refine ⟨[], _, linearize_single (by decide), by simp, List.forall_mem_nil _, ?_⟩
    exact .inr ⟨rfl, name, .inl rfl, (Bool.and_eq_true_iff.mp hsendable).1⟩
  · rw [List.filterMap_cons_some h.base, List.filterMap_nil]
    exact ⟨[], _, linearize_single (by decide), by simp, List.forall_mem_nil _, .inl rfl⟩
  · exact absurd rfl hempty

/-- The order of a class with one parent whose class has a line is a line. Where the class is the
first one on it whose objects can be sent, the base of these stands right before the general one. -/
theorem line_of_one {ts : List TypeDefinition} {above line roots inherited : List String}
    {name p : String} (h : OrdersOf c ts orders) (hall : (above ++ [sendableBase, dataBase]).Nodup)
    (hparent : IsAncestor c name p)
    (horder : orders.get? (c.className p) = some (c.className p :: line ++ roots))
    (hline : Line c above p line roots) (hinherited : ∀ a, a = p ∨ IsAncestor c p a → a ∈ inherited) :
    ∃ line' roots',
      linearize (c.className name) ([p].map (fun p => c.className p) ++ rootBase c name [p] inherited)
          (([p].map (fun p => c.className p) ++ rootBase c name [p] inherited).filterMap orders.get?) =
          some (c.className name :: line' ++ roots') ∧
        Line c (c.className name :: above) name line' roots' := by
  have hnodup := (hline.sublist.append hline.roots_sublist).nodup hall
  have hbelow := hline.below hparent
  rw [List.map_singleton, List.singleton_append, List.filterMap_cons_some horder, rootBase]
  split_ifs with hsendable hempty
  · obtain ⟨hreferenced, hnone⟩ := Bool.and_eq_true_iff.mp hsendable
    obtain rfl : roots = [dataBase] := by
      refine hline.roots.resolve_right ?_
      rintro ⟨-, a, ha, hreferenced⟩
      have hany : inherited.any c.referenced.contains = true :=
        List.any_eq_true.mpr ⟨a, hinherited a ha, hreferenced⟩
      rw [hany] at hnone
      cases hnone
    have happart : ∀ z ∈ [sendableBase, dataBase], z ∉ c.className p :: line := fun z hz hmem =>
      (List.nodup_append'.mp hall).2.2 (hline.sublist.subset hmem) hz
    rw [List.filterMap_cons_some h.sendable, List.filterMap_nil]
    refine ⟨c.className p :: line, _, linearize_before_last (List.nodup_append'.mp hnodup).1
      (happart _ (by simp)) (happart _ (by simp)) (by decide), hbelow.sublist, hbelow.ancestors, ?_⟩
    exact .inr ⟨rfl, name, .inl rfl, hreferenced⟩
  · cases hempty
  · rw [List.filterMap_nil]
    exact ⟨c.className p :: line, roots, linearize_single hnodup, hbelow⟩

theorem mem_classesAbove {ts : List TypeDefinition} {x : String} :
    x ∈ classesAbove c ts ↔ ∃ t ∈ ts, c.className (TypeDefinition.name t) = x := by
  rw [classesAbove, List.mem_reverse, List.mem_map]

theorem mem_keys_of_isAncestor {name a : String} (h : IsAncestor c name a) : a ∈ c.complex.keys := by
  obtain ⟨b, -, hb⟩ := Relation.TransGen.tail'_iff.mp h
  exact mem_keys_of_mem_parentsOf hb

/-- Classes of one name are those of types of one name. -/
theorem eq_of_className_eq (hindexed : c.Indexed) (hdiffer : c.ClassesDiffer) {a b : String}
    (ha : a ∈ c.complex.keys) (hb : b ∈ c.complex.keys) (h : c.className a = c.className b) :
    a = b := by
  obtain ⟨t, ht⟩ := Keyed.exists_get?_of_mem_keys ha
  obtain ⟨u, hu⟩ := Keyed.exists_get?_of_mem_keys hb
  obtain ⟨ht', rfl⟩ := hindexed.found ht
  obtain ⟨hu', rfl⟩ := hindexed.found hu
  rw [hdiffer.injective ht' hu' h]

/-- The classes of known types differ from each other and from the bases that all data classes
have. -/
theorem nodup_classesAbove (hdiffer : c.ClassesDiffer) {ts : List TypeDefinition}
    (hts : ∀ t ∈ ts, t ∈ c.complex.values) (hdistinct : (ts.map TypeDefinition.name).Nodup) :
    (classesAbove c ts ++ [sendableBase, dataBase]).Nodup := by
  refine List.nodup_append'.mpr ⟨?_, by decide, fun x hx hroot => ?_⟩
  · rw [classesAbove, List.nodup_reverse]
    exact hdistinct.of_map.map_on fun t ht u hu => hdiffer.injective (hts t ht) (hts u hu)
  · obtain ⟨t, ht, rfl⟩ := mem_classesAbove.mp hx
    refine hdiffer.unbound (hts t ht) ?_
    simp only [List.mem_cons, List.not_mem_nil, or_false] at hroot
    rcases hroot with h | h <;> rw [h] <;> decide

section Lines

variable {t : TypeDefinition} {ts : List TypeDefinition} (hindexed : c.Indexed)
  (hdiffer : c.ClassesDiffer) (hc : Acyclic c) (ht : t ∈ c.complex.values)
  (hparents : ∀ p ∈ parentTypes c t, p ∈ ts.map TypeDefinition.name)
  (horders : OrdersOf c ts orders) (hview : freshView c t = .ok d)

include ht hparents horders in
/-- The classes of the parents that stay are lines. -/
theorem direct_line {p : String} (hp : p ∈ directOf c (parentTypes c t)) : ∃ line roots,
    orders.get? (c.className p) = some (c.className p :: line ++ roots) ∧
      Line c (classesAbove c ts) p line roots := by
  have hparent := (mem_directOf.mp hp).1
  obtain ⟨u, hu, rfl⟩ := List.mem_map.mp (hparents p hparent)
  exact horders.lines u hu ⟨t, ht, hparent⟩

include hindexed hdiffer hc in
/-- No class of an ancestor of a parent that stays is that of another parent that stays. -/
theorem ancestor_not_direct {p a : String} (hp : p ∈ directOf c (parentTypes c t))
    (ha : IsAncestor c p a) :
    c.className a ∉ (directOf c (parentTypes c t)).map fun p => c.className p := by
  intro hmem
  obtain ⟨q, hq, heq⟩ := List.mem_map.mp hmem
  obtain ⟨hparent, hstays⟩ := mem_directOf.mp hq
  obtain rfl := eq_of_className_eq hindexed hdiffer (mem_parentTypes.mp hparent).2
    (mem_keys_of_isAncestor ha) heq
  have hne : p ≠ q := fun h => hc q (h ▸ ha)
  exact hstays p (mem_directOf.mp hp).1 hne ha

include hindexed hdiffer in
/-- The classes of the parents that stay differ from each other. -/
theorem nodup_directClasses :
    ((directOf c (parentTypes c t)).map fun p => c.className p).Nodup := by
  have hdistinct : (directOf c (parentTypes c t)).Nodup := (nodup_eraseDups _).filter _
  refine hdistinct.map_on fun p hp q hq heq => ?_
  exact eq_of_className_eq hindexed hdiffer (mem_parentTypes.mp (mem_directOf.mp hp).1).2
    (mem_parentTypes.mp (mem_directOf.mp hq).1).2 heq

include hindexed hdiffer in
/-- The bases that all data classes have are no classes of parents. -/
theorem root_not_direct {b : String} (hb : b ∈ [sendableBase, dataBase]) :
    b ∉ (directOf c (parentTypes c t)).map fun p => c.className p := by
  intro hmem
  obtain ⟨p, hp, rfl⟩ := List.mem_map.mp hmem
  obtain ⟨u, hu⟩ := Keyed.exists_get?_of_mem_keys (mem_parentTypes.mp (mem_directOf.mp hp).1).2
  obtain ⟨hu', rfl⟩ := hindexed.found hu
  refine hdiffer.unbound hu' ?_
  simp only [List.mem_cons, List.not_mem_nil, or_false] at hb
  rcases hb with h | h <;> rw [h] <;> decide

include hindexed hdiffer hc ht hparents horders hview in
/-- Where the orders of the parents' classes are lines, an order keeps them and the list of the
bases: first the bases, and then all classes from the last one to the first one. -/
theorem keeps_of_lines (hts : ∀ t ∈ ts, t ∈ c.complex.values)
    (hdistinct : (ts.map TypeDefinition.name).Nodup) :
    Keeps (unite ((directOf c (parentTypes c t)).map fun p => c.className p)
      (classesAbove c ts ++ [sendableBase, dataBase]))
      (d.bases.filterMap orders.get? ++ [d.bases]) := by
  obtain ⟨-, inherited, -, hbases⟩ := of_freshView hc hview
  refine ⟨nodup_unite (nodup_directClasses hindexed hdiffer)
    (nodup_classesAbove hdiffer hts hdistinct), ?_⟩
  rw [hbases, basesOf_eq, List.forall_mem_append, List.forall_mem_singleton]
  have hroots : ∀ {roots : List String}, roots.Sublist [sendableBase, dataBase] →
      ∀ z ∈ roots, z ∉ (directOf c (parentTypes c t)).map fun p => c.className p :=
    fun h z hz => root_not_direct hindexed hdiffer (h.subset hz)
  constructor
  · intro order horder
    obtain ⟨b, hb, hget⟩ := List.mem_filterMap.mp horder
    rcases List.mem_append.mp hb with hb | hb
    · obtain ⟨p, hp, rfl⟩ := List.mem_map.mp hb
      obtain ⟨line, roots, horder, hline⟩ := direct_line ht hparents horders hp
      cases hget.symm.trans horder
      have hfirst : [c.className p].Sublist
          ((directOf c (parentTypes c t)).map fun p => c.className p) :=
        List.singleton_sublist.mpr (List.mem_map_of_mem hp)
      have hrest := (List.sublist_of_cons_sublist hline.sublist).append hline.roots_sublist
      show ([c.className p] ++ (line ++ roots)).Sublist _
      refine sublist_unite hfirst hrest
        (List.forall_mem_append.mpr ⟨fun z hz => ?_, hroots hline.roots_sublist⟩)
      obtain ⟨a, ha, rfl⟩ := hline.ancestors z hz
      exact ancestor_not_direct hindexed hdiffer hc hp ha
    · have hsub := order_of_root horders (mem_rootBase hb) hget
      exact sublist_unite (List.nil_sublist _) (hsub.trans (List.sublist_append_right _ _))
        (hroots hsub)
  · have hsub : (rootBase c t.name (directOf c (parentTypes c t)) inherited).Sublist
        [sendableBase, dataBase] := rootBase_sublist
    exact sublist_unite (List.Sublist.refl _) (hsub.trans (List.sublist_append_right _ _))
      (hroots hsub)

include hindexed hdiffer hc ht hparents horders hview in
/-- The order of a class with at most one parent that stays is a line. -/
theorem line_of_straight (hts : ∀ t ∈ ts, t ∈ c.complex.values)
    (hdistinct : (ts.map TypeDefinition.name).Nodup)
    (hstraight : (directOf c (parentTypes c t)).length ≤ 1) : ∃ line roots,
    linearize d.className d.bases (d.bases.filterMap orders.get?) =
        some (c.className t.name :: line ++ roots) ∧
      Line c (c.className t.name :: classesAbove c ts) t.name line roots := by
  obtain ⟨hname, inherited, hinherited, hbases⟩ := of_freshView hc hview
  rw [hname, hbases, basesOf_eq]
  rcases hdirect : directOf c (parentTypes c t) with - | ⟨p, - | ⟨q, rest⟩⟩
  · exact line_of_none horders inherited
  · have hp : p ∈ directOf c (parentTypes c t) := hdirect ▸ List.mem_cons_self
    have hparent : IsAncestor c t.name p := by
      refine .single ?_
      rw [parentsOf_of_get? (hindexed.listed ht)]
      exact (mem_directOf.mp hp).1
    obtain ⟨line, roots, horder, hline⟩ := direct_line ht hparents horders hp
    exact line_of_one horders (nodup_classesAbove hdiffer hts hdistinct) hparent horder hline
      fun a ha => (hinherited a).mpr ⟨p, hp, ha⟩
  · rw [hdirect] at hstraight
    simp at hstraight

include hc ht hparents horders hview in
/-- Where the orders of the parents' classes are lines, the bases are known. -/
theorem bases_of_lines : ∀ b ∈ d.bases, b ∈ orders.keys := by
  intro b hb
  rcases mem_bases hc hview hb with (rfl | rfl) | ⟨p, hp, rfl⟩
  · exact Keyed.mem_keys_of_get? horders.sendable
  · exact Keyed.mem_keys_of_get? horders.base
  · obtain ⟨line, roots, horder, -⟩ := direct_line ht hparents horders hp
    exact Keyed.mem_keys_of_get? horder

include hindexed hdiffer hc ht hparents horders hview in
/-- One more class keeps the orders of the classes of types to which others belong lines. -/
theorem OrdersOf.step (hts : ∀ t ∈ ts, t ∈ c.complex.values)
    (hdistinct : (ts.map TypeDefinition.name).Nodup) (hnew : t.name ∉ ts.map TypeDefinition.name)
    (hstraight : Belonged c t.name → (directOf c (parentTypes c t)).length ≤ 1)
    (hload : loadData orders d = .ok orders') : OrdersOf c (ts ++ [t]) orders' := by
  have hname : d.className = c.className t.name := (of_freshView hc hview).1
  have hknown := bases_of_lines hc ht hparents horders hview
  obtain ⟨order, horder, rfl⟩ : ∃ order,
      linearize d.className d.bases (d.bases.filterMap orders.get?) = some order ∧
        orders' = orders.put d.className order := by
    cases hlinear : linearize d.className d.bases (d.bases.filterMap orders.get?) with
    | none =>
      rw [loadData_none hknown hlinear] at hload
      cases hload
    | some order =>
      rw [loadData_some hknown hlinear] at hload
      exact ⟨order, rfl, (Except.ok.inj hload).symm⟩
  have habove : classesAbove c (ts ++ [t]) = c.className t.name :: classesAbove c ts := by
    simp [classesAbove]
  have hroot : ∀ {b}, b ∈ Catalog.boundNames → b ≠ d.className := fun hb heq =>
    hdiffer.unbound ht (hname ▸ heq ▸ hb)
  refine ⟨?_, ?_, fun u hu hbelonged => ?_⟩
  · rw [Keyed.get?_put, if_neg (hroot (by decide)), horders.base]
  · rw [Keyed.get?_put, if_neg (hroot (by decide)), horders.sendable]
  · rw [habove]
    rcases List.mem_append.mp hu with hbefore | hu
    · obtain ⟨line, roots, hget, hline⟩ := horders.lines u hbefore hbelonged
      have hne : c.className u.name ≠ d.className := fun heq => by
        obtain rfl := hdiffer.injective (hts u hbefore) ht (heq.trans hname)
        exact hnew (List.mem_map_of_mem hbefore)
      refine ⟨line, roots, ?_, hline.sublist.cons _, hline.ancestors, hline.roots⟩
      rw [Keyed.get?_put, if_neg hne, hget]
    · obtain rfl := List.mem_singleton.mp hu
      obtain ⟨line, roots, hlinear, hline⟩ := line_of_straight hindexed hdiffer hc ht hparents
        horders hview hts hdistinct (hstraight hbelonged)
      refine ⟨line, roots, ?_, hline⟩
      rw [Keyed.get?_put, if_pos hname.symm, ← hlinear, horder]

end Lines

/-- Where types to which others belong have at most one parent that stays, all classes can be
loaded. -/
theorem exists_load (hindexed : c.Indexed) (hdiffer : c.ClassesDiffer) (hc : Acyclic c)
    (hstraight : ∀ t ∈ c.complex.values, Belonged c t.name →
      (directOf c (parentTypes c t)).length ≤ 1)
    (ts rest : List TypeDefinition) (hts : ∀ t ∈ ts ++ rest, t ∈ c.complex.values)
    (hdistinct : ((ts ++ rest).map TypeDefinition.name).Nodup) (hfirst : ParentsFirst c (ts ++ rest))
    (horders : OrdersOf c ts orders) (hviews : rest.mapM (freshView c) = .ok ds) :
    ∃ orders', ds.foldlM loadData orders = .ok orders' := by
  induction rest generalizing ts orders ds with
  | nil =>
    rw [← pure_eq_ok.mp hviews]
    exact ⟨orders, rfl⟩
  | cons t rest ih =>
    obtain ⟨d, ds, hview, hrest, rfl⟩ := mapM_cons_eq_ok.mp hviews
    have ht : t ∈ c.complex.values := hts t (by simp)
    have hts' : ∀ u ∈ ts, u ∈ c.complex.values := fun u hu => hts u (List.mem_append_left _ hu)
    have hparents := hfirst ts t rest rfl
    rw [List.map_append, List.map_cons] at hdistinct
    obtain ⟨hdistinct', -, hapart⟩ := List.nodup_append'.mp hdistinct
    obtain ⟨orders₁, hload⟩ := (loadData_isOk_iff (bases_of_lines hc ht hparents horders hview)).mpr
      ⟨_, keeps_of_lines hindexed hdiffer hc ht hparents horders hview hts' hdistinct'⟩
    have hnext := OrdersOf.step hindexed hdiffer hc ht hparents horders hview hts' hdistinct'
      (fun hmem => hapart hmem List.mem_cons_self) (hstraight t ht) hload
    rw [List.append_cons] at hts hfirst
    obtain ⟨orders', hall⟩ := ih _ hts (by simpa using hdistinct) hfirst hnext hrest
    exact ⟨orders', by rw [List.foldlM_cons, hload]; exact hall⟩

/-! ### The hierarchy -/

/-- **When data classes can be loaded.** Where types have different names and none is its own
ancestor, no class statement misses a base: the only refusal is that of a class without an order.
All statements can be executed exactly if, for each of them, some order keeps the orders of its bases
and the list of its bases; and so they can where no class name is given and no interface or union
to which types belong has more than one parent that stays. -/
theorem hierarchy_loads_iff {configuration : Configuration} {s : Schema}
    (hnames : (s.types.map TypeDefinition.name).Nodup)
    (hmake : (Catalog.make configuration s).2 = .ok c) (hc : Acyclic c)
    (hds : dataViews c = .ok ds) :
    (∀ e, ds.foldlM loadData baseOrders = .error e → e = .badCall) ∧
    ((∃ orders, ds.foldlM loadData baseOrders = .ok orders) ↔
      ∀ before d after, ds = before ++ d :: after →
        ∀ orders, before.foldlM loadData baseOrders = .ok orders →
          ∃ order, Keeps order (d.bases.filterMap orders.get? ++ [d.bases])) ∧
    (configuration.classNames = .empty →
      (∀ t ∈ s.complexTypes, ∀ p ∈ parentTypes c t, (directOf c (parentsOf c p)).length ≤ 1) →
        ∃ orders, ds.foldlM loadData baseOrders = .ok orders) := by
  obtain ⟨hindexed, hvalues⟩ := Catalog.indexed_of_make hnames hmake
  refine ⟨fun e he => ?_, ?_, fun hgiven hstraight => ?_⟩
  · obtain ⟨before, d, after, orders, hsplit, hbefore, hstep⟩ := exists_step_of_foldlM he
    have hknown := bases_known hindexed hc hds hsplit hbefore
    cases hlinear : linearize d.className d.bases (d.bases.filterMap orders.get?) with
    | none =>
      rw [loadData_none hknown hlinear] at hstep
      exact (Except.error.inj hstep).symm
    | some order =>
      rw [loadData_some hknown hlinear] at hstep
      cases hstep
  · rw [foldlM_isOk_iff]
    refine forall₄_congr fun before d after hsplit => ?_
    refine forall₂_congr fun orders hbefore => ?_
    exact loadData_isOk_iff (bases_known hindexed hc hds hsplit hbefore)
  · obtain ⟨ts, hperm, hfirst, hviews⟩ := dataViews_eq hindexed hc hds
    refine exists_load hindexed (Catalog.classesDiffer_of_make hgiven hnames hmake) hc
      (fun t ht ⟨u, hu, hparent⟩ => ?_) [] ts (fun t ht => hperm.subset ht)
      ((hperm.map _).nodup_iff.mpr hindexed.distinct) hfirst (ordersOf_nil c) hviews
    have hdirect := hstraight u (hvalues ▸ hu) t.name hparent
    rwa [parentsOf_of_get? (hindexed.listed ht)] at hdirect

/-! ### Two interfaces that disagree -/

/-- A type with an identifier that belongs to interfaces. -/
def accountType (kind : Kind) (name : String) (interfaces : List String) : TypeDefinition :=
  ⟨kind, name, none, [⟨"id", none, .leaf .scalar (some "ID"), [], false, none⟩], [],
    interfaces.map fun n => .leaf .interface (some n), [], []⟩

/-- A schema in which two interfaces belong to the same two others, named in different orders, and a
type belongs to all four. -/
def accountSchema : Schema where
  queryType := none
  mutationType := none
  subscriptionType := none
  types :=
    [accountType .interface "Node" [], accountType .interface "Entity" [],
      accountType .interface "Person" ["Node", "Entity"],
      accountType .interface "Account" ["Entity", "Node"],
      accountType .object "User" ["Node", "Entity", "Person", "Account"]]
  directives := []

/-- The catalog of the schema. -/
def accountCatalog : Catalog where
  configuration := {}
  schema := accountSchema
  types := byName accountSchema.types
  complex := byName accountSchema.complexTypes
  directives := .empty
  memberships := .empty
  renamed := .empty
  referenced := []

theorem make_account : (Catalog.make {} accountSchema).2 = .ok accountCatalog := by
  cbv

theorem account_distinct : (accountSchema.types.map TypeDefinition.name).Nodup := by
  decide

theorem account_acyclic : Acyclic accountCatalog :=
  acyclic_of_rank (Catalog.indexed_of_make account_distinct make_account).1
    (fun n => if n = "User" then 2 else if n = "Person" ∨ n = "Account" then 1 else 0)
    (by decide +kernel)

theorem account_load : ∃ ds, dataViews accountCatalog = .ok ds ∧
    ∃ e, ds.foldlM loadData baseOrders = .error e := by
  have hfails : (dataViews accountCatalog).toOption.map (fun ds =>
      (ds.foldlM loadData baseOrders).toOption.isSome) = some false := by decide +kernel
  cases hds : dataViews accountCatalog with
  | error e =>
    rw [hds] at hfails
    cases hfails
  | ok ds =>
    rw [hds] at hfails
    cases hload : ds.foldlM loadData baseOrders with
    | error e => exact ⟨ds, rfl, e, hload⟩
    | ok orders =>
      simp only [Except.toOption, Option.map_some, hload] at hfails
      cases hfails

/-- No type is its own ancestor and all data classes can be written, and still they cannot be loaded:
the classes of the two interfaces have their bases in different orders, and no order keeps both. -/
theorem account_without_order :
    (accountSchema.types.map TypeDefinition.name).Nodup ∧
      (Catalog.make {} accountSchema).2 = .ok accountCatalog ∧ Acyclic accountCatalog ∧
      ∃ ds, dataViews accountCatalog = .ok ds ∧
        ds.foldlM loadData baseOrders = .error .badCall ∧
        ¬ ∀ before d after, ds = before ++ d :: after →
          ∀ orders, before.foldlM loadData baseOrders = .ok orders →
            ∃ order, Keeps order (d.bases.filterMap orders.get? ++ [d.bases]) := by
  obtain ⟨ds, hds, e, he⟩ := account_load
  obtain ⟨honly, hiff, -⟩ :=
    hierarchy_loads_iff account_distinct make_account account_acyclic hds
  obtain rfl := honly e he
  refine ⟨account_distinct, make_account, account_acyclic, ds, hds, he, fun hall => ?_⟩
  obtain ⟨orders, horders⟩ := hiff.mpr hall
  rw [he] at horders
  cases horders

end Bindery.Client
