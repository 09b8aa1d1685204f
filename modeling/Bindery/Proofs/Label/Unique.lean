import Bindery.Label.Free
import Mathlib

/-!
# Unique labels

A search through numbered candidates finds one where enough candidates are tried: the candidates
differ, so each obstacle stops at most one of them. A name that is in use takes a number, and there
are more numbers to try than names in use. So a unique label is not in use, labels that are made one
after the other differ, and none of them is empty where no name is.

A search that tries one candidate after the other without any bound is a relation here. It ends, with
the label that the bounded search finds, and which label that is depends on nothing but the set of
names that are in use.

## What is proved

* `length_le_of_ways` — there are no more candidates that are stopped than obstacles in all the ways
  to stop one.
* `uniqueName_not_mem` — a unique label is not in use.
* `uniqueNames_nodup` — unique labels differ from each other.
* `uniqueNames_append` — more labels go on with the names in use.
* `of_mem_uniqueNames` — a unique label is one of the names, perhaps with a number behind it.
* `mem_uniqueNames_iff` — which names that end in no digit are labels.
* `Search.unique`, `search_uniqueName` — the search without a bound ends, and with one label.
* `Search.congr`, `uniqueName_congr` — the names in use count as a set.
* `labelling_iff` — names are labelled one after the other as `uniqueNames` does it.
* `uniqueNames_labelling` — labels differ, none is in use, and a name that is free is kept.
-/

namespace Bindery.Label

/-! ### Searching -/

/-- A search that gets as far as a number that passes finds one that passes. -/
theorem ok_searchFrom (ok : Nat → Bool) {fuel n k : Nat} (hn : n ≤ k) (hk : k ≤ n + fuel)
    (h : ok k = true) : ok (searchFrom ok fuel n) = true := by
  induction fuel generalizing n with
  | zero => rwa [searchFrom, Nat.le_antisymm hn hk]
  | succ fuel ih =>
    rw [searchFrom]
    split_ifs with hok
    · exact hok
    · have hne : n ≠ k := by
        rintro rfl
        exact hok h
      exact ih (by omega) (by omega)

/-- Different things whose images are obstacles are no more than there are obstacles. -/
theorem length_le_of_obstacles {α β : Type} {xs : List α} {obstacles : List β} {f : α → β}
    (hn : xs.Nodup) (hf : Function.Injective f) (h : ∀ x ∈ xs, f x ∈ obstacles) :
    xs.length ≤ obstacles.length := by
  have hsub : xs.map f ⊆ obstacles := by
    intro y hy
    obtain ⟨x, hx, rfl⟩ := List.mem_map.mp hy
    exact h x hx
  have hle := ((hn.map hf).subperm hsub).length_le
  rwa [List.length_map] at hle

/-- Different things each of which is stopped in one of some ways are no more than there are
obstacles in all the ways together. -/
theorem length_le_of_ways {α β : Type} [DecidableEq β] {ways : List ((α → β) × List β)}
    {xs : List α} (hn : xs.Nodup) (hf : ∀ w ∈ ways, Function.Injective w.1)
    (h : ∀ x ∈ xs, ∃ w ∈ ways, w.1 x ∈ w.2) :
    xs.length ≤ (ways.map fun w => w.2.length).sum := by
  induction ways generalizing xs with
  | nil =>
    obtain rfl : xs = [] := List.eq_nil_iff_forall_not_mem.mpr fun x hx => by
      obtain ⟨w, hw, -⟩ := h x hx
      cases hw
    exact Nat.zero_le _
  | cons w ways ih =>
    rw [List.forall_mem_cons] at hf
    -- What the first way stops is counted by its obstacles, the rest by the other ways.
    let stopped : α → Bool := fun x => decide (w.1 x ∈ w.2)
    have hstopped : (xs.filter stopped).length ≤ w.2.length :=
      length_le_of_obstacles (hn.filter _) hf.1 fun x hx =>
        of_decide_eq_true (List.mem_filter.mp hx).2
    have hrest : (xs.filter fun x => !stopped x).length ≤
        (ways.map fun w => w.2.length).sum := by
      refine ih (hn.filter _) hf.2 fun x hx => ?_
      obtain ⟨hx, hw⟩ := List.mem_filter.mp hx
      obtain ⟨v, hv, hxv⟩ := h x hx
      rcases List.mem_cons.mp hv with rfl | hv
      · simp [stopped, hxv] at hw
      · exact ⟨v, hv, hxv⟩
    rw [List.length_eq_length_filter_add stopped, List.map_cons, List.sum_cons]
    exact Nat.add_le_add hstopped hrest

/-! ### Names with numbers -/

variable {used names : List String} {name label : String}

theorem numbered_injective (name : String) : Function.Injective (numbered name) := by
  intro m n h
  rw [numbered, numbered, String.append_right_inj] at h
  exact Nat.repr_inj.mp h

/-- One of the numbers from two on gives a label that is not in use. -/
theorem exists_numbered_not_mem (used : List String) (name : String) :
    ∃ k, 2 ≤ k ∧ k ≤ 2 + used.length ∧ numbered name k ∉ used := by
  by_contra! hall
  have hinjective : Function.Injective fun k => numbered name (2 + k) := fun m n h =>
    Nat.add_left_cancel (numbered_injective name h)
  have hused : ∀ k ∈ List.range (used.length + 1), numbered name (2 + k) ∈ used := by
    intro k hk
    rw [List.mem_range] at hk
    exact hall (2 + k) (by omega) (by omega)
  have hle := length_le_of_obstacles List.nodup_range hinjective hused
  rw [List.length_range] at hle
  omega

/-- A unique label is not in use. -/
theorem uniqueName_not_mem (used : List String) (name : String) : uniqueName used name ∉ used := by
  rw [uniqueName]
  split_ifs with h
  · obtain ⟨k, htwo, hle, hfree⟩ := exists_numbered_not_mem used name
    have hok := ok_searchFrom (fun k => !used.contains (numbered name k)) htwo hle
      (by simpa using hfree)
    simpa using hok
  · simpa using h

theorem uniqueName_ne_empty (h : name ≠ "") : uniqueName used name ≠ "" := by
  rw [uniqueName]
  split_ifs
  · rw [numbered]
    simp [h]
  · exact h

/-- Labels that are made one after the other differ from each other and from those in use. -/
theorem uniqueNames_nodup (used names : List String) :
    (uniqueNames used names).1.Nodup ∧ ∀ l ∈ (uniqueNames used names).1, l ∉ used := by
  induction names generalizing used with
  | nil => exact ⟨.nil, nofun⟩
  | cons name names ih =>
    obtain ⟨hdistinct, hnew⟩ := ih (uniqueName used name :: used)
    refine ⟨List.nodup_cons.mpr ⟨fun h => hnew _ h List.mem_cons_self, hdistinct⟩, ?_⟩
    refine List.forall_mem_cons.mpr ⟨uniqueName_not_mem used name, fun l hl hused => ?_⟩
    exact hnew l hl (List.mem_cons_of_mem _ hused)

@[simp]
theorem length_uniqueNames (used names : List String) :
    (uniqueNames used names).1.length = names.length := by
  induction names generalizing used with
  | nil => rfl
  | cons name names ih => exact congrArg Nat.succ (ih _)

/-- Labels for more names go on with the names that are in use behind the first ones. -/
theorem uniqueNames_append (used names more : List String) :
    uniqueNames used (names ++ more) =
      ((uniqueNames used names).1 ++ (uniqueNames (uniqueNames used names).2 more).1,
        (uniqueNames (uniqueNames used names).2 more).2) := by
  induction names generalizing used with
  | nil => rfl
  | cons name names ih => simp only [List.cons_append, uniqueNames, ih]

theorem uniqueNames_ne_empty (h : ∀ n ∈ names, n ≠ "") :
    ∀ l ∈ (uniqueNames used names).1, l ≠ "" := by
  induction names generalizing used with
  | nil => exact nofun
  | cons name names ih =>
    rw [List.forall_mem_cons] at h
    exact List.forall_mem_cons.mpr ⟨uniqueName_ne_empty h.1, ih h.2⟩

/-! ### Labels and names -/

/-- The label is the name, perhaps with a number behind it. -/
def IsLabelOf (name label : String) : Prop :=
  label = name ∨ ∃ k, label = numbered name k

theorem isLabelOf_uniqueName (used : List String) (name : String) :
    IsLabelOf name (uniqueName used name) := by
  rw [uniqueName]
  split_ifs
  · exact .inr ⟨_, rfl⟩
  · exact .inl rfl

theorem isDigit_of_mem_toString {k : Nat} {c : Char} (h : c ∈ (toString k).toList) :
    c.isDigit = true := by
  rw [Nat.toString_eq_repr, Nat.toList_repr] at h
  exact Nat.isDigit_of_mem_toDigits (by decide) (by decide) h

theorem IsLabelOf.prefix (h : IsLabelOf name label) : name.toList <+: label.toList := by
  rcases h with rfl | ⟨k, rfl⟩
  · exact List.prefix_rfl
  · rw [numbered, String.toList_append]
    exact List.prefix_append _ _

theorem IsLabelOf.isNameChar (h : IsLabelOf name label)
    (hname : ∀ c ∈ name.toList, Text.isNameChar c = true) :
    ∀ c ∈ label.toList, Text.isNameChar c = true := by
  rcases h with rfl | ⟨k, rfl⟩
  · exact hname
  · intro c hc
    rw [numbered, String.toList_append, List.mem_append] at hc
    rcases hc with hc | hc
    · exact hname c hc
    · simp [Text.isNameChar, Char.isAlphanum, isDigit_of_mem_toString hc]

/-- A unique label is that of a name. -/
theorem of_mem_uniqueNames (h : label ∈ (uniqueNames used names).1) :
    ∃ name ∈ names, IsLabelOf name label := by
  induction names generalizing used with
  | nil => cases h
  | cons name names ih =>
    rcases List.mem_cons.mp h with rfl | h
    · exact ⟨name, List.mem_cons_self, isLabelOf_uniqueName used name⟩
    · obtain ⟨n, hn, hlabel⟩ := ih h
      exact ⟨n, List.mem_cons_of_mem _ hn, hlabel⟩

/-- A label with a number ends in a digit. -/
theorem getLast?_numbered (name : String) (k : Nat) :
    (numbered name k).toList.getLast?.any Char.isDigit = true := by
  have hne : (toString k).toList ≠ [] := by
    rw [Nat.toString_eq_repr, Nat.toList_repr]
    exact Nat.toDigits_ne_nil
  rw [numbered, String.toList_append, List.getLast?_append_of_ne_nil _ hne,
    List.getLast?_eq_some_getLast hne]
  exact isDigit_of_mem_toString (List.getLast_mem hne)

/-- A name that is not in use and ends in no digit is a label exactly if it is one of the names: no
number is put behind another name to make it. -/
theorem mem_uniqueNames_iff (hdigit : label.toList.getLast?.any Char.isDigit = false)
    (hused : label ∉ used) : label ∈ (uniqueNames used names).1 ↔ label ∈ names := by
  constructor
  · intro h
    obtain ⟨name, hname, rfl | ⟨k, rfl⟩⟩ := of_mem_uniqueNames h
    · exact hname
    · rw [getLast?_numbered] at hdigit
      cases hdigit
  · intro h
    induction names generalizing used with
    | nil => cases h
    | cons name names ih =>
      by_cases hlabel : label = uniqueName used name
      · exact hlabel ▸ List.mem_cons_self
      · rcases List.mem_cons.mp h with rfl | h
        · exact absurd (if_neg (by simpa using hused)).symm hlabel
        · exact List.mem_cons_of_mem _ (ih (by simp [hlabel, hused]) h)

end Bindery.Label

namespace Bindery.Label

variable {used used' names labels : List String} {name candidate label label' : String} {n : Nat}

/-! ### One search -/

/-- The search for a label of a name that tries `candidate` next ends with `label`. A candidate that
is in use gives way to the name with the number `n` behind it. -/
inductive Search (used : List String) (name : String) : String → Nat → String → Prop where
  /-- The candidate is not in use. -/
  | free {candidate : String} {n : Nat} :
    candidate ∉ used → Search used name candidate n candidate
  /-- The candidate is in use. -/
  | taken {candidate label : String} {n : Nat} :
    candidate ∈ used → Search used name (numbered name n) (n + 1) label →
      Search used name candidate n label

/-- A search ends with one label. -/
theorem Search.unique (h : Search used name candidate n label)
    (h' : Search used name candidate n label') : label = label' := by
  induction h with
  | free hfree =>
    cases h' with
    | free => rfl
    | taken htaken => exact absurd htaken hfree
  | taken htaken _ ih =>
    cases h' with
    | free hfree => exact absurd htaken hfree
    | taken _ hrest => exact ih hrest

/-- A search depends on nothing but the set of names that are in use. -/
theorem Search.congr (hused : ∀ s, s ∈ used ↔ s ∈ used')
    (h : Search used name candidate n label) : Search used' name candidate n label := by
  induction h with
  | free hfree => exact .free (mt (hused _).mpr hfree)
  | taken htaken _ ih => exact .taken ((hused _).mp htaken) ih

/-- The search from a numbered candidate on ends where the bounded search ends, if that has found a
label that is not in use. -/
theorem search_searchFrom {fuel : Nat}
    (hfree : numbered name (searchFrom (fun k => !used.contains (numbered name k)) fuel n) ∉ used) :
    Search used name (numbered name n) (n + 1)
      (numbered name (searchFrom (fun k => !used.contains (numbered name k)) fuel n)) := by
  induction fuel generalizing n with
  | zero => exact .free hfree
  | succ fuel ih =>
    rw [searchFrom] at hfree ⊢
    split_ifs at hfree ⊢ with hok
    · exact .free hfree
    · exact .taken (by simpa using hok) (ih hfree)

/-- The search ends with the unique label. -/
theorem search_uniqueName (used : List String) (name : String) :
    Search used name name 2 (uniqueName used name) := by
  have hfree := uniqueName_not_mem used name
  rw [uniqueName] at hfree ⊢
  split_ifs at hfree ⊢ with hused
  · exact .taken (by simpa using hused) (search_searchFrom hfree)
  · exact .free hfree

/-- The names in use count as a set. -/
theorem uniqueName_congr (hused : ∀ s, s ∈ used ↔ s ∈ used') (name : String) :
    uniqueName used name = uniqueName used' name :=
  ((search_uniqueName used name).congr hused).unique (search_uniqueName used' name)

/-- A name is its own label exactly if it is not in use. -/
theorem uniqueName_eq_self_iff : uniqueName used name = name ↔ name ∉ used := by
  constructor
  · intro h
    have hnew := uniqueName_not_mem used name
    rwa [h] at hnew
  · intro h
    exact if_neg (by simpa using h)

/-! ### Names one after the other -/

/-- The names are labelled one after the other, each by a search; each label is in use from then
on. -/
inductive Labelling : (used names labels used' : List String) → Prop where
  /-- No names are left. -/
  | nil {used : List String} : Labelling used [] [] used
  /-- The next name is labelled. -/
  | cons {used names labels used' : List String} {name label : String} :
    Search used name name 2 label → Labelling (label :: used) names labels used' →
      Labelling used (name :: names) (label :: labels) used'

/-- Labelling ends for all names, as `uniqueNames` has it. -/
theorem labelling_uniqueNames (used names : List String) :
    Labelling used names (uniqueNames used names).1 (uniqueNames used names).2 := by
  induction names generalizing used with
  | nil => exact .nil
  | cons name names ih => exact .cons (search_uniqueName used name) (ih _)

theorem labelling_iff :
    Labelling used names labels used' ↔ uniqueNames used names = (labels, used') := by
  constructor
  · intro h
    induction h with
    | nil => rfl
    | cons hsearch _ ih => rw [hsearch.unique (search_uniqueName _ _)] at ih ⊢; rw [uniqueNames, ih]
  · intro h
    have hall := labelling_uniqueNames used names
    rwa [h] at hall

/-- The names that are in use afterwards. -/
theorem mem_used_uniqueNames {s : String} :
    s ∈ (uniqueNames used names).2 ↔ s ∈ used ∨ s ∈ (uniqueNames used names).1 := by
  induction names generalizing used with
  | nil => exact (or_iff_left List.not_mem_nil).symm
  | cons name names ih =>
    rw [uniqueNames]
    dsimp only
    rw [ih, List.mem_cons, List.mem_cons, or_assoc, or_left_comm]

/-- The label of a name is found by a search among the names that are in use when its turn comes. -/
theorem getElem?_uniqueNames (i : Nat) :
    (uniqueNames used names).1[i]? =
      names[i]?.map (uniqueName (uniqueNames used (names.take i)).2) := by
  induction names generalizing used i with
  | nil => rfl
  | cons name names ih =>
    cases i with
    | zero => rfl
    | succ i => exact ih i

/-- **Labelling ends and gives each name a label of its own.** Searches without bound label the
names in one way, which `uniqueNames` finds: the labels differ from each other and from the names that
were in use; afterwards these names and the labels are in use; and a name is kept exactly if it is
not in use when its turn comes. -/
theorem uniqueNames_labelling (used names : List String) :
    (∀ labels used', Labelling used names labels used' ↔
      uniqueNames used names = (labels, used')) ∧
    (uniqueNames used names).1.length = names.length ∧
    (uniqueNames used names).1.Nodup ∧
    (∀ label ∈ (uniqueNames used names).1, label ∉ used) ∧
    (∀ s, s ∈ (uniqueNames used names).2 ↔ s ∈ used ∨ s ∈ (uniqueNames used names).1) ∧
    (∀ i, ∀ name ∈ names[i]?, (uniqueNames used names).1[i]? = some name ↔
      name ∉ (uniqueNames used (names.take i)).2) := by
  obtain ⟨hdistinct, hnew⟩ := uniqueNames_nodup used names
  refine ⟨fun _ _ => labelling_iff, length_uniqueNames used names, hdistinct, hnew,
    fun _ => mem_used_uniqueNames, fun i name hname => ?_⟩
  rw [getElem?_uniqueNames, hname, Option.map_some, Option.some.injEq, uniqueName_eq_self_iff]

-- The name with a number is taken by the time that a name like it comes.
example : uniqueNames [] ["a", "a", "a2", "a"] =
    (["a", "a2", "a22", "a3"], ["a3", "a22", "a2", "a"]) := by
  decide +kernel

end Bindery.Label
