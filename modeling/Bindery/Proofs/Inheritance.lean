import Bindery.Inheritance
import Mathlib.Algebra.Order.BigOperators.Group.List
import Mathlib.Algebra.Order.Ring.Nat
import Mathlib.Data.List.Nodup

/-!
# When linear orders exist

The merge of orders takes the first head that stands behind no other head. It ends in an order that
keeps all the given ones, and it gets stuck only where no order at all keeps them: in an order that
does, the first name among the heads stands behind no other head, and without the name that is taken
out the order keeps what is left.

## What is proved

* `keeps_of_merge` — the merged order keeps the given orders.
* `exists_merge_iff` — orders can be merged exactly if some order keeps them all.
* `exists_linearize_iff` — when a class has a linear order.
-/

namespace Bindery.Inheritance

variable {order r : List String} {lists orders : List (List String)} {x name : String}

/-- The order lists each name once, and the names of each of the lists stand in it as they stand in
the list. -/
structure Keeps (order : List String) (lists : List (List String)) : Prop where
  /-- No name stands twice. -/
  distinct : order.Nodup
  /-- Each list is kept. -/
  sublist : ∀ l ∈ lists, l.Sublist order

/-! ### One step -/

theorem inTail_eq_false : inTail x lists = false ↔ ∀ l ∈ lists, x ∉ l.tail := by
  simp [inTail]

/-- The name that is taken out is a head, and stands behind no head. -/
theorem candidate?_eq_some (h : candidate? lists = some x) :
    (∃ l ∈ lists, l.head? = some x) ∧ ∀ l ∈ lists, x ∉ l.tail := by
  refine ⟨List.mem_filterMap.mp (List.mem_of_find?_eq_some h), inTail_eq_false.mp ?_⟩
  simpa using List.find?_some h

/-- Where some order keeps the lists, a name can be taken out: the first name of the order that is
a head. -/
theorem exists_candidate (hne : lists ≠ []) (hfull : ∀ l ∈ lists, l ≠ [])
    (h : Keeps order lists) : ∃ x, candidate? lists = some x := by
  suffices hhead : ∃ x, (∃ l ∈ lists, l.head? = some x) ∧ ∀ l ∈ lists, x ∉ l.tail by
    obtain ⟨x, hx, htail⟩ := hhead
    rw [← Option.isSome_iff_exists, candidate?, List.find?_isSome]
    exact ⟨x, List.mem_filterMap.mpr hx, by simpa using inTail_eq_false.mpr htail⟩
  obtain ⟨hdistinct, hsub⟩ := h
  induction order with
  | nil =>
    obtain ⟨l, hl⟩ := List.exists_mem_of_ne_nil lists hne
    exact absurd (List.sublist_nil.mp (hsub l hl)) (hfull l hl)
  | cons y order ih =>
    obtain ⟨hy, hrest⟩ := List.nodup_cons.mp hdistinct
    by_cases hhead : ∃ l ∈ lists, l.head? = some y
    · refine ⟨y, hhead, fun l hl hmem => hy ?_⟩
      exact (hsub l hl).tail.subset hmem
    · refine ih hrest fun l hl => ?_
      rcases List.sublist_cons_iff.mp (hsub l hl) with hl' | ⟨tail, rfl, -⟩
      · exact hl'
      · exact absurd ⟨_, hl, rfl⟩ hhead

theorem mem_dropHead {l : List String} :
    l ∈ dropHead x lists ↔
      l ≠ [] ∧ ∃ m ∈ lists, (if m.head? = some x then m.tail else m) = l := by
  simp [dropHead, and_comm]

/-- A list that does not begin with the name does not contain it. -/
theorem not_mem_of_head_ne {l : List String} (htail : x ∉ l.tail) (hhead : l.head? ≠ some x) :
    x ∉ l := by
  cases l with
  | nil => exact List.not_mem_nil
  | cons y l =>
    intro hx
    rcases List.mem_cons.mp hx with rfl | hx
    · exact hhead rfl
    · exact htail hx

/-- Without the name that is taken out, the order keeps what is left of the lists. -/
theorem Keeps.without (h : Keeps order lists) (htail : ∀ l ∈ lists, x ∉ l.tail) :
    Keeps (order.erase x) (dropHead x lists) := by
  refine ⟨h.distinct.erase x, fun l hl => ?_⟩
  obtain ⟨-, m, hm, rfl⟩ := mem_dropHead.mp hl
  have herase := (h.sublist m hm).erase x
  split_ifs with hhead
  · obtain ⟨tail, rfl⟩ := List.head?_eq_some_iff.mp hhead
    rwa [List.erase_cons_head] at herase
  · rwa [List.erase_of_not_mem (not_mem_of_head_ne (htail m hm) hhead)] at herase

/-- An order that keeps what is left of the lists keeps them with the name in front. -/
theorem Keeps.infront (h : Keeps r (dropHead x lists)) (hnew : x ∉ r) :
    Keeps (x :: r) lists := by
  refine ⟨List.nodup_cons.mpr ⟨hnew, h.distinct⟩, fun l hl => ?_⟩
  have hleft : ∀ m : List String, (if l.head? = some x then l.tail else l) = m → m.Sublist r := by
    intro m hm
    by_cases hempty : m = []
    · exact hempty ▸ List.nil_sublist r
    · exact h.sublist m (mem_dropHead.mpr ⟨hempty, l, hl, hm⟩)
  by_cases hhead : l.head? = some x
  · obtain ⟨tail, rfl⟩ := List.head?_eq_some_iff.mp hhead
    exact (hleft tail (if_pos hhead)).cons_cons x
  · exact (hleft l (if_neg hhead)).cons x

/-- The number of names in lists. -/
def size (lists : List (List String)) : Nat :=
  (lists.map List.length).sum

theorem size_filter (lists : List (List String)) :
    size (lists.filter fun l => !l.isEmpty) = size lists := by
  induction lists with
  | nil => rfl
  | cons l lists ih =>
    rw [List.filter_cons]
    cases l with
    | nil => simpa [size] using ih
    | cons y l => simpa [size] using ih

/-- Each step takes a name out. -/
theorem size_dropHead_lt (h : ∃ l ∈ lists, l.head? = some x) :
    size (dropHead x lists) < size lists := by
  have hle : ∀ l : List String, (if l.head? == some x then l.tail else l).length ≤ l.length := by
    intro l
    split_ifs <;> simp
  obtain ⟨l, hl, hhead⟩ := h
  rw [dropHead, size_filter, size, List.map_map]
  refine List.sum_lt_sum _ _ (fun l _ => hle l) ⟨l, hl, ?_⟩
  obtain ⟨tail, rfl⟩ := List.head?_eq_some_iff.mp hhead
  simp

/-! ### The merge -/

/-- The merged order keeps the lists, and all its names are names of the lists. -/
theorem keeps_of_mergeWith {fuel : Nat} (hfull : ∀ l ∈ lists, l ≠ [])
    (h : mergeWith fuel lists = some r) : Keeps r lists ∧ ∀ y ∈ r, ∃ l ∈ lists, y ∈ l := by
  induction fuel generalizing lists r with
  | zero =>
    cases lists with
    | nil => cases h; exact ⟨⟨.nil, nofun⟩, nofun⟩
    | cons l lists => cases h
  | succ fuel ih =>
    cases hlists : lists with
    | nil =>
      rw [hlists] at h
      cases h
      exact ⟨⟨.nil, nofun⟩, nofun⟩
    | cons l rest =>
      rw [← hlists]
      have hstep : (candidate? lists).bind (fun x =>
          (mergeWith fuel (dropHead x lists)).bind fun r => some (x :: r)) = some r := by
        rw [hlists] at h ⊢
        exact h
      obtain ⟨x, hx, hstep⟩ := Option.bind_eq_some_iff.mp hstep
      obtain ⟨left, hleft, hr⟩ := Option.bind_eq_some_iff.mp hstep
      obtain rfl := Option.some.inj hr
      obtain ⟨⟨head, hhead, hheadx⟩, htail⟩ := candidate?_eq_some hx
      obtain ⟨hkeeps, hnames⟩ := ih (fun l hl => (mem_dropHead.mp hl).1) hleft
      have hnames' : ∀ y ∈ left, ∃ m ∈ lists,
          y ∈ if m.head? = some x then m.tail else m := by
        intro y hy
        obtain ⟨l, hl, hyl⟩ := hnames y hy
        obtain ⟨-, m, hm, rfl⟩ := mem_dropHead.mp hl
        exact ⟨m, hm, hyl⟩
      refine ⟨hkeeps.infront fun hnew => ?_, fun y hy => ?_⟩
      · obtain ⟨m, hm, hxm⟩ := hnames' x hnew
        split_ifs at hxm with hmx
        · exact htail m hm hxm
        · exact not_mem_of_head_ne (htail m hm) hmx hxm
      · rcases List.mem_cons.mp hy with rfl | hy
        · exact ⟨head, hhead, List.mem_of_mem_head? hheadx⟩
        · obtain ⟨m, hm, hym⟩ := hnames' y hy
          refine ⟨m, hm, ?_⟩
          split_ifs at hym
          · exact List.mem_of_mem_tail hym
          · exact hym

/-- Where some order keeps the lists, they can be merged. -/
theorem exists_mergeWith {fuel : Nat} (hfuel : size lists ≤ fuel) (hfull : ∀ l ∈ lists, l ≠ [])
    (h : Keeps order lists) : ∃ r, mergeWith fuel lists = some r := by
  induction fuel generalizing lists order with
  | zero =>
    cases lists with
    | nil => exact ⟨[], rfl⟩
    | cons l lists =>
      have hpos : 0 < l.length := List.length_pos_iff.mpr (hfull l List.mem_cons_self)
      simp only [size, List.map_cons, List.sum_cons] at hfuel
      omega
  | succ fuel ih =>
    by_cases hlists : lists = []
    · subst hlists
      exact ⟨[], rfl⟩
    · obtain ⟨x, hx⟩ := exists_candidate hlists hfull h
      obtain ⟨hhead, htail⟩ := candidate?_eq_some hx
      have hsize := size_dropHead_lt hhead
      obtain ⟨r, hr⟩ := ih (by omega) (fun l hl => (mem_dropHead.mp hl).1) (h.without htail)
      obtain ⟨l, rest, rfl⟩ := List.exists_cons_of_ne_nil hlists
      exact ⟨x :: r, by simp [mergeWith, hx, hr]⟩

theorem Keeps.of_filter (h : Keeps order (lists.filter fun l => !l.isEmpty)) :
    Keeps order lists := by
  refine ⟨h.distinct, fun l hl => ?_⟩
  cases l with
  | nil => exact List.nil_sublist order
  | cons y l => exact h.sublist _ (List.mem_filter.mpr ⟨hl, rfl⟩)

/-- The merged order keeps the given orders, and all its names are names of theirs. -/
theorem keeps_of_merge (h : merge lists = some r) :
    Keeps r lists ∧ ∀ y ∈ r, ∃ l ∈ lists, y ∈ l := by
  obtain ⟨hkeeps, hnames⟩ := keeps_of_mergeWith (fun l hl => by simp_all) h
  refine ⟨hkeeps.of_filter, fun y hy => ?_⟩
  obtain ⟨l, hl, hyl⟩ := hnames y hy
  exact ⟨l, List.mem_of_mem_filter hl, hyl⟩

/-- **Orders can be merged exactly if some order keeps them all.** -/
theorem exists_merge_iff : (∃ r, merge lists = some r) ↔ ∃ order, Keeps order lists := by
  refine ⟨fun ⟨r, hr⟩ => ⟨r, (keeps_of_merge hr).1⟩, fun ⟨order, horder⟩ => ?_⟩
  have hsize : size (lists.filter fun l => !l.isEmpty) =
      (lists.map List.length).foldl (· + ·) 0 := by
    rw [size_filter, size, List.sum_eq_foldl]
  exact exists_mergeWith hsize.le (fun l hl => by simp_all)
    ⟨horder.distinct, fun l hl => horder.sublist l (List.mem_of_mem_filter hl)⟩

/-- Orders of which one keeps all are merged to that one. -/
theorem merge_of_keeps (hl : order ∈ lists) (h : Keeps order lists) : merge lists = some order := by
  obtain ⟨r, hr⟩ := exists_merge_iff.mpr ⟨order, h⟩
  obtain ⟨hkeeps, hmem⟩ := keeps_of_merge hr
  have hsub : r ⊆ order := fun y hy => by
    obtain ⟨l, hl, hyl⟩ := hmem y hy
    exact (h.sublist l hl).subset hyl
  rw [hr, (hkeeps.sublist order hl).eq_of_length_le (hkeeps.distinct.length_le_of_subset hsub)]

theorem mergeWith_step {fuel : Nat} (hne : lists ≠ []) (hx : candidate? lists = some x)
    (hrest : mergeWith fuel (dropHead x lists) = some r) :
    mergeWith (fuel + 1) lists = some (x :: r) := by
  obtain ⟨l, lists, rfl⟩ := List.exists_cons_of_ne_nil hne
  simp [mergeWith, hx, hrest]

/-- A name that must stand before the last one is put right before it. -/
theorem mergeWith_before_last {l : List String} {late last : String} (hl : l.Nodup)
    (hlate : late ∉ l) (hlast : last ∉ l) (hne : late ≠ last) {fuel : Nat}
    (hfuel : l.length + 2 ≤ fuel) :
    mergeWith fuel [l ++ [last], [late, last], [late]] = some (l ++ [late, last]) := by
  induction l generalizing fuel with
  | nil =>
    obtain ⟨fuel, rfl⟩ : ∃ n, fuel = n + 2 := ⟨fuel - 2, by omega⟩
    have hfirst : candidate? [[last], [late, last], [late]] = some late := by
      simp [candidate?, inTail, hne]
    have hsecond : candidate? [[last], [last]] = some last := rfl
    refine mergeWith_step (by simp) hfirst ?_
    have hdrop : dropHead late [[last], [late, last], [late]] = [[last], [last]] := by
      simp [dropHead, hne.symm]
    rw [List.nil_append, hdrop]
    exact mergeWith_step (by simp) hsecond (by simp [dropHead, mergeWith])
  | cons x l ih =>
    obtain ⟨fuel, rfl⟩ : ∃ n, fuel = n + 1 := ⟨fuel - 1, by omega⟩
    obtain ⟨hx, hl⟩ := List.nodup_cons.mp hl
    rw [List.mem_cons, not_or] at hlate hlast
    have hfirst : candidate? [x :: l ++ [last], [late, last], [late]] = some x := by
      simp [candidate?, inTail, hx, Ne.symm hlast.1]
    have hdrop : dropHead x [x :: l ++ [last], [late, last], [late]] =
        [l ++ [last], [late, last], [late]] := by
      simp [dropHead, hlate.1]
    refine mergeWith_step (by simp) hfirst ?_
    rw [hdrop]
    exact ih hl hlate.2 hlast.2 (by simpa using hfuel)

/-- The order of a class with one base and a late one: the late one is put right before the last
class. -/
theorem merge_before_last {l : List String} {late last : String} (hl : (x :: l).Nodup)
    (hlate : late ∉ x :: l) (hlast : last ∉ x :: l) (hne : late ≠ last) :
    merge [x :: l ++ [last], [late, last], [x, late]] = some (x :: l ++ [late, last]) := by
  obtain ⟨hx, hl⟩ := List.nodup_cons.mp hl
  rw [List.mem_cons, not_or] at hlate hlast
  have hfirst : candidate? [x :: l ++ [last], [late, last], [x, late]] = some x := by
    simp [candidate?, inTail, hx, Ne.symm hlast.1, Ne.symm hlate.1]
  have hdrop : dropHead x [x :: l ++ [last], [late, last], [x, late]] =
      [l ++ [last], [late, last], [late]] := by
    simp [dropHead, hlate.1]
  have hrest : mergeWith (l.length + 5) [l ++ [last], [late, last], [late]] =
      some (l ++ [late, last]) := mergeWith_before_last hl hlate.2 hlast.2 hne (by omega)
  have hfuel : ([x :: l ++ [last], [late, last], [x, late]].map List.length).foldl (· + ·) 0 =
      l.length + 5 + 1 := by simp
  have hfull : ([x :: l ++ [last], [late, last], [x, late]].filter fun l => !l.isEmpty) =
      [x :: l ++ [last], [late, last], [x, late]] := by simp
  rw [merge, hfuel, hfull]
  exact mergeWith_step (by simp) hfirst (hdrop ▸ hrest)

/-! ### Classes -/

/-- Names each of which is kept once have no repetition. -/
theorem nodup_eraseDups : ∀ l : List String, l.eraseDups.Nodup
  | [] => .nil
  | y :: l => by
    rw [List.eraseDups_cons, List.nodup_cons, List.mem_eraseDups]
    exact ⟨by simp, nodup_eraseDups _⟩
termination_by l => l.length
decreasing_by exact Nat.lt_succ_of_le (List.length_filter_le _ _)

theorem eraseDups_of_nodup {l : List String} (h : l.Nodup) : l.eraseDups = l := by
  induction l with
  | nil => rfl
  | cons y l ih =>
    obtain ⟨hy, hl⟩ := List.nodup_cons.mp h
    have hkept : l.filter (fun z => !z == y) = l := by
      refine List.filter_eq_self.mpr fun z hz => ?_
      have hne : z ≠ y := fun heq => hy (heq ▸ hz)
      simp [hne]
    rw [List.eraseDups_cons, hkept, ih hl]

theorem linearize_of_merge {parents : List String} (hdistinct : parents.Nodup)
    (h : merge (orders ++ [parents]) = some r) : linearize name parents orders = some (name :: r) := by
  rw [linearize, eraseDups_of_nodup hdistinct, if_neg (lt_irrefl _), h]
  rfl

/-- The order of a class with one base. -/
theorem linearize_single {l : List String} (hl : (x :: l).Nodup) :
    linearize name [x] [x :: l] = some (name :: x :: l) := by
  refine linearize_of_merge (List.nodup_singleton x) (merge_of_keeps List.mem_cons_self ⟨hl, ?_⟩)
  simp

/-- The order of a class with a base and a late one. -/
theorem linearize_before_last {l : List String} {late last : String} (hl : (x :: l).Nodup)
    (hlate : late ∉ x :: l) (hlast : last ∉ x :: l) (hne : late ≠ last) :
    linearize name [x, late] [x :: l ++ [last], [late, last]] =
      some (name :: (x :: l ++ [late, last])) := by
  have hdistinct : [x, late].Nodup := by
    have hx : x ≠ late := fun h => hlate (h ▸ List.mem_cons_self)
    simpa using hx
  exact linearize_of_merge hdistinct (merge_before_last hl hlate hlast hne)

/-- What the linear order of a class is. -/
theorem linearize_eq_some {parents : List String} (h : linearize name parents orders = some r) :
    ∃ inherited, r = name :: inherited ∧ Keeps inherited (orders ++ [parents]) ∧
      ∀ y ∈ inherited, ∃ l ∈ orders ++ [parents], y ∈ l := by
  rw [linearize] at h
  split_ifs at h
  obtain ⟨inherited, hmerge, rfl⟩ := Option.map_eq_some_iff.mp h
  obtain ⟨hkeeps, hnames⟩ := keeps_of_merge hmerge
  exact ⟨inherited, rfl, hkeeps, hnames⟩

/-- **A class has a linear order exactly if some order keeps those of its parents and the list of
its parents.** -/
theorem exists_linearize_iff (name : String) {parents : List String} :
    (∃ r, linearize name parents orders = some r) ↔ ∃ order, Keeps order (orders ++ [parents]) := by
  constructor
  · rintro ⟨r, hr⟩
    obtain ⟨inherited, -, hkeeps, -⟩ := linearize_eq_some hr
    exact ⟨inherited, hkeeps⟩
  · rintro ⟨order, horder⟩
    obtain ⟨r, hr⟩ := exists_merge_iff.mpr ⟨order, horder⟩
    have hdistinct : parents.Nodup := horder.distinct.sublist (horder.sublist parents (by simp))
    exact ⟨name :: r, linearize_of_merge hdistinct hr⟩

end Bindery.Inheritance
