import Bindery.Proofs.Keyed
import Mathlib.Data.List.Induction
import Mathlib.Data.List.Perm.Basic

/-!
# Histories of a map

What a map holds follows from the history of the changes that were made to it. A key is present if
some put of it was not followed by a removal. It has the value of its last put, and it stands where
the first put behind its last removal has put it: putting it again leaves it in its place.

The scans of putting and removing stop at the first entry of a key. That suffices because no key has
a second entry, which every change restores.

## What is proved

* `lastPut_concat`, `present_concat`, `firstPut_concat` — what one more change does to a history.
* `Recorded.apply` — a change keeps the entries those that the history records.
* `Recorded.unique` — a history records one list of entries.
* `run_recorded` — a map that is changed from nothing holds what its history records.
-/

namespace Bindery.Keyed

variable {α : Type}

/-! ### Changes -/

/-- A change of a map. -/
inductive Change (α : Type) where
  /-- A key is put with a value. -/
  | put (key : String) (value : α)
  /-- A key is removed. -/
  | remove (key : String)
  /-- All keys are removed. -/
  | clear
  deriving Repr

/-- The map after a change. -/
def apply (m : Keyed α) : Change α → Keyed α
  | .put key value => m.put key value
  | .remove key => (m.remove key).1
  | .clear => .empty

/-- The map after changes that were made one after the other. -/
def run (m : Keyed α) (cs : List (Change α)) : Keyed α :=
  cs.foldl apply m

/-- Does the change put the key? -/
def Change.Puts (key : String) : Change α → Prop
  | .put k _ => k = key
  | .remove _ => False
  | .clear => False

/-- Does the change remove the key? -/
def Change.Removes (key : String) : Change α → Prop
  | .put _ _ => False
  | .remove k => k = key
  | .clear => True

/-! ### Histories -/

/-- In the history `h` the change `c` stands behind `before`, and no change behind it ends its
effect. -/
def Stands (ends : Change α → Prop) (before : List (Change α)) (c : Change α)
    (h : List (Change α)) : Prop :=
  ∃ after, h = before ++ c :: after ∧ ∀ d ∈ after, ¬ ends d

/-- The key was put with the value last, and was not removed since. -/
def LastPut (h : List (Change α)) (key : String) (value : α) : Prop :=
  ∃ before, Stands (fun c => c.Puts key ∨ c.Removes key) before (.put key value) h

/-- The key was put and not removed since. -/
def Present (h : List (Change α)) (key : String) : Prop :=
  ∃ before value, Stands (Change.Removes key) before (.put key value) h

/-- The first put of the key since its last removal stands behind `i` changes. -/
def FirstPut (h : List (Change α)) (key : String) (i : Nat) : Prop :=
  ∃ before value, Stands (Change.Removes key) before (.put key value) h ∧
    ¬ Present before key ∧ before.length = i

/-- The entries that a history leaves: each key that is present has the value of its last put, and
the keys stand in the order of their first puts. -/
structure Recorded (h : List (Change α)) (es : List (String × α)) : Prop where
  /-- No key has two entries. -/
  distinct : (es.map Prod.fst).Nodup
  /-- The entries hold the values that were put last. -/
  mem_iff : ∀ key value, (key, value) ∈ es ↔ LastPut h key value
  /-- The keys stand in the order in which they were put first. -/
  order : (es.map Prod.fst).Pairwise fun a b => ∃ i j, FirstPut h a i ∧ FirstPut h b j ∧ i < j

variable {h : List (Change α)} {c d : Change α} {key k : String} {value v : α} {i j : Nat}

/-! ### One more change -/

/-- A change stands in a longer history if it is the last one, or if it stood before and the last
one does not end its effect. -/
theorem stands_concat {ends : Change α → Prop} {before : List (Change α)} :
    Stands ends before d (h ++ [c]) ↔
      (before = h ∧ d = c) ∨ (Stands ends before d h ∧ ¬ ends c) := by
  constructor
  · rintro ⟨after, heq, hafter⟩
    rcases List.eq_nil_or_concat after with rfl | ⟨after, x, rfl⟩
    · obtain ⟨rfl, hlast⟩ := List.append_inj' heq rfl
      exact .inl ⟨rfl, (List.singleton_inj.mp hlast).symm⟩
    · rw [List.concat_eq_append] at heq hafter
      rw [← List.cons_append, ← List.append_assoc] at heq
      obtain ⟨rfl, hlast⟩ := List.append_inj' heq rfl
      obtain rfl := List.singleton_inj.mp hlast
      refine .inr ⟨⟨after, rfl, fun d hd => hafter d (List.mem_append_left _ hd)⟩, ?_⟩
      exact hafter c (List.mem_append_right _ (List.mem_singleton_self c))
  · rintro (⟨rfl, rfl⟩ | ⟨⟨after, rfl, hafter⟩, hends⟩)
    · exact ⟨[], rfl, nofun⟩
    · refine ⟨after ++ [c], by rw [← List.cons_append, ← List.append_assoc], fun d hd => ?_⟩
      rcases List.mem_append.mp hd with hd | hd
      · exact hafter d hd
      · rwa [List.mem_singleton.mp hd]

theorem Change.puts_iff : c.Puts key ↔ ∃ value, c = .put key value := by
  cases c with
  | put k v =>
    constructor
    · rintro rfl
      exact ⟨v, rfl⟩
    · rintro ⟨_, heq⟩
      cases heq
      rfl
  | remove k => exact ⟨False.elim, fun ⟨_, heq⟩ => by cases heq⟩
  | clear => exact ⟨False.elim, fun ⟨_, heq⟩ => by cases heq⟩

theorem Change.not_removes_of_puts (hput : c.Puts key) : ¬ c.Removes key := by
  obtain ⟨value, rfl⟩ := puts_iff.mp hput
  exact id

theorem lastPut_concat :
    LastPut (h ++ [c]) key value ↔
      c = .put key value ∨ (LastPut h key value ∧ ¬ c.Puts key ∧ ¬ c.Removes key) := by
  simp only [LastPut, stands_concat, exists_or, exists_and_right, exists_eq, true_and, not_or,
    eq_comm (a := c)]

theorem present_concat :
    Present (h ++ [c]) key ↔ c.Puts key ∨ (Present h key ∧ ¬ c.Removes key) := by
  rw [Change.puts_iff]
  simp only [Present, stands_concat, exists_or, exists_and_right, exists_and_left, exists_eq,
    true_and, eq_comm (a := c)]

theorem firstPut_concat :
    FirstPut (h ++ [c]) key i ↔
      (c.Puts key ∧ ¬ Present h key ∧ h.length = i) ∨ (FirstPut h key i ∧ ¬ c.Removes key) := by
  rw [Change.puts_iff]
  constructor
  · rintro ⟨before, value, hstands, hnew, hlength⟩
    rcases stands_concat.mp hstands with ⟨rfl, heq⟩ | ⟨hstands, hends⟩
    · exact .inl ⟨⟨value, heq.symm⟩, hnew, hlength⟩
    · exact .inr ⟨⟨before, value, hstands, hnew, hlength⟩, hends⟩
  · rintro (⟨⟨value, rfl⟩, hnew, hlength⟩ | ⟨⟨before, value, hstands, hnew, hlength⟩, hends⟩)
    · exact ⟨h, value, stands_concat.mpr (.inl ⟨rfl, rfl⟩), hnew, hlength⟩
    · exact ⟨before, value, stands_concat.mpr (.inr ⟨hstands, hends⟩), hnew, hlength⟩

/-! ### Keys that are present -/

@[simp]
theorem not_present_nil : ¬ Present ([] : List (Change α)) key := by
  rintro ⟨before, value, after, heq, -⟩
  exact List.append_ne_nil_of_right_ne_nil before (List.cons_ne_nil _ after) heq.symm

@[simp]
theorem not_lastPut_nil : ¬ LastPut ([] : List (Change α)) key value := by
  rintro ⟨before, after, heq, -⟩
  exact List.append_ne_nil_of_right_ne_nil before (List.cons_ne_nil _ after) heq.symm

/-- A key is present if it has a value that was put last. -/
theorem present_iff_exists_lastPut : Present h key ↔ ∃ value, LastPut h key value := by
  induction h using List.reverseRecOn with
  | nil => simp
  | append_singleton h c ih =>
    rw [present_concat, Change.puts_iff, ih]
    simp only [lastPut_concat, exists_or, exists_and_right, Change.puts_iff]
    tauto

theorem present_of_firstPut (hfirst : FirstPut h key i) : Present h key := by
  obtain ⟨before, value, hstands, -, -⟩ := hfirst
  exact ⟨before, value, hstands⟩

/-- A key that is present was put at some time. -/
theorem exists_put_of_present (hkey : Present h key) : ∃ value, .put key value ∈ h := by
  obtain ⟨before, value, after, rfl, -⟩ := hkey
  exact ⟨value, List.mem_append_right _ List.mem_cons_self⟩

theorem firstPut_lt (hfirst : FirstPut h key i) : i < h.length := by
  obtain ⟨before, value, ⟨after, rfl, -⟩, -, rfl⟩ := hfirst
  simp

/-- A key that is present was put first at some time. -/
theorem exists_firstPut (hkey : Present h key) : ∃ i, FirstPut h key i := by
  induction h using List.reverseRecOn with
  | nil => exact absurd hkey not_present_nil
  | append_singleton h c ih =>
    simp only [firstPut_concat, exists_or, exists_and_left, exists_eq', and_true, exists_and_right]
    rcases present_concat.mp hkey with hput | ⟨hold, hends⟩
    · by_cases hold : Present h key
      · exact .inr ⟨ih hold, Change.not_removes_of_puts hput⟩
      · exact .inl ⟨hput, hold⟩
    · exact .inr ⟨ih hold, hends⟩

/-- A key was put first at one time only. -/
theorem firstPut_unique (hi : FirstPut h key i) (hj : FirstPut h key j) : i = j := by
  induction h using List.reverseRecOn with
  | nil => exact absurd (firstPut_lt hi) (Nat.not_lt_zero i)
  | append_singleton h c ih =>
    rcases firstPut_concat.mp hi with ⟨-, hnew, rfl⟩ | ⟨hi, -⟩ <;>
      rcases firstPut_concat.mp hj with ⟨-, hnew', rfl⟩ | ⟨hj, -⟩
    · rfl
    · exact absurd (present_of_firstPut hj) hnew
    · exact absurd (present_of_firstPut hi) hnew'
    · exact ih hi hj

/-! ### What a removal leaves -/

theorem keys_remove (m : Keyed α) (key : String) : (m.remove key).1.keys = m.keys.erase key := by
  obtain ⟨es⟩ := m
  change (removeEntry key es).map Prod.fst = (es.map Prod.fst).erase key
  induction es with
  | nil => rfl
  | cons e es ih =>
    rw [removeEntry, List.map_cons, List.erase_cons]
    split_ifs
    · rfl
    · rw [List.map_cons, ih]

/-- Where the keys are distinct, nothing is found under a key that was removed. -/
theorem get?_remove {m : Keyed α} (hkeys : m.keys.Nodup) (key k : String) :
    (m.remove key).1.get? k = if k = key then none else m.get? k := by
  have hkeys' : (m.remove key).1.keys.Nodup := by
    rw [keys_remove]
    exact hkeys.erase key
  split_ifs with heq
  · rw [Option.eq_none_iff_forall_ne_some]
    intro v hv
    have hmem := mem_keys_of_get? hv
    rw [keys_remove, hkeys.mem_erase_iff] at hmem
    exact hmem.1 heq
  · refine Option.ext fun v => ⟨fun hv => ?_, fun hv => ?_⟩
    · exact get?_of_mem_entries hkeys (mem_removeEntry (mem_entries_of_get? hv))
    · have hmem : k ∈ (m.remove key).1.keys := by
        rw [keys_remove, hkeys.mem_erase_iff]
        exact ⟨heq, mem_keys_of_get? hv⟩
      obtain ⟨w, hw⟩ := exists_get?_of_mem_keys hmem
      have hold := get?_of_mem_entries hkeys (mem_removeEntry (mem_entries_of_get? hw))
      rw [hw, ← hold, hv]

/-- Where the keys are distinct, the entries are what is found under the keys. -/
theorem mem_entries_iff {m : Keyed α} (hkeys : m.keys.Nodup) :
    (key, value) ∈ m.entries ↔ m.get? key = some value :=
  ⟨get?_of_mem_entries hkeys, mem_entries_of_get?⟩

/-- A key that is put again keeps its place, and the other entries stay as they are. -/
theorem entries_put_of_mem {m : Keyed α} (hkeys : m.keys.Nodup) (hkey : key ∈ m.keys) (value : α) :
    (m.put key value).entries =
      m.entries.map fun e => if e.1 = key then (key, value) else e := by
  have hsame : (⟨m.entries.map fun e => if e.1 = key then (key, value) else e⟩ : Keyed α).keys =
      m.keys := by
    rw [keys, keys, List.map_map]
    refine List.map_congr_left fun e _ => ?_
    dsimp only [Function.comp]
    split_ifs with heq
    · exact heq.symm
    · rfl
  refine entries_eq_of_subset (m := ⟨_⟩) ((keys_put_of_mem hkey value).trans hsame.symm)
    (hsame ▸ hkeys) fun e he => ?_
  obtain ⟨k, v⟩ := e
  rw [mem_entries_iff (nodup_keys_put hkeys key value), get?_put] at he
  split_ifs at he with heq
  · obtain ⟨w, hw⟩ := exists_get?_of_mem_keys hkey
    refine List.mem_map.mpr ⟨(key, w), mem_entries_of_get? hw, ?_⟩
    rw [if_pos rfl, heq, Option.some.inj he]
  · exact List.mem_map.mpr ⟨(k, v), mem_entries_of_get? he, if_neg heq⟩

/-! ### Recorded entries -/

theorem Recorded.mem_keys_iff {m : Keyed α} (hm : Recorded h m.entries) :
    key ∈ m.keys ↔ Present h key := by
  rw [present_iff_exists_lastPut]
  constructor
  · intro hkey
    obtain ⟨v, hv⟩ := exists_get?_of_mem_keys hkey
    exact ⟨v, (hm.mem_iff key v).mp (mem_entries_of_get? hv)⟩
  · rintro ⟨v, hv⟩
    exact List.mem_map_of_mem ((hm.mem_iff key v).mpr hv)

/-- The order of first puts in a longer history. -/
theorem pairwise_firstPut_concat {ks : List String} (hends : ∀ k ∈ ks, ¬ c.Removes k)
    (hks : ks.Pairwise fun a b => ∃ i j, FirstPut h a i ∧ FirstPut h b j ∧ i < j) :
    ks.Pairwise fun a b => ∃ i j, FirstPut (h ++ [c]) a i ∧ FirstPut (h ++ [c]) b j ∧ i < j := by
  refine hks.imp_of_mem fun {a b} ha hb hab => ?_
  obtain ⟨i, j, hi, hj, hlt⟩ := hab
  exact ⟨i, j, firstPut_concat.mpr (.inr ⟨hi, hends a ha⟩),
    firstPut_concat.mpr (.inr ⟨hj, hends b hb⟩), hlt⟩

/-- Each change keeps the entries those that the history records. -/
theorem Recorded.apply {m : Keyed α} (hm : Recorded h m.entries) (c : Change α) :
    Recorded (h ++ [c]) (m.apply c).entries := by
  have hkeys : m.keys.Nodup := hm.distinct
  have hget : ∀ k v, m.get? k = some v ↔ LastPut h k v := fun k v =>
    (mem_entries_iff hkeys).symm.trans (hm.mem_iff k v)
  cases c with
  | put key value =>
    have hkeys' : (m.put key value).keys.Nodup := nodup_keys_put hkeys key value
    refine ⟨hkeys', fun k v => ?_, ?_⟩
    · change (k, v) ∈ (m.put key value).entries ↔ _
      rw [mem_entries_iff hkeys', get?_put, lastPut_concat]
      split_ifs with heq
      · subst heq
        simp [Change.Puts, Change.Removes]
      · simp [hget, Change.Puts, Change.Removes, Ne.symm heq]
    · have hold := pairwise_firstPut_concat (c := .put key value) (fun _ _ => id) hm.order
      change (m.put key value).keys.Pairwise _
      by_cases hkey : key ∈ m.keys
      · rw [keys_put_of_mem hkey]
        exact hold
      · -- A new key stands behind all others, which were put before.
        rw [keys_put_of_not_mem hkey, List.pairwise_append]
        refine ⟨hold, List.pairwise_singleton _ _, fun a ha b hb => ?_⟩
        obtain rfl := List.mem_singleton.mp hb
        obtain ⟨i, hi⟩ := exists_firstPut (hm.mem_keys_iff.mp ha)
        refine ⟨i, h.length, firstPut_concat.mpr (.inr ⟨hi, id⟩), ?_, firstPut_lt hi⟩
        exact firstPut_concat.mpr (.inl ⟨rfl, fun hp => hkey (hm.mem_keys_iff.mpr hp), rfl⟩)
  | remove key =>
    have hkeys' : (m.remove key).1.keys.Nodup := by
      rw [keys_remove]
      exact hkeys.erase key
    refine ⟨hkeys', fun k v => ?_, ?_⟩
    · change (k, v) ∈ (m.remove key).1.entries ↔ _
      rw [mem_entries_iff hkeys', get?_remove hkeys, lastPut_concat]
      split_ifs with heq
      · simp [Change.Removes, heq]
      · simp [hget, Change.Puts, Change.Removes, Ne.symm heq]
    · change (m.remove key).1.keys.Pairwise _
      rw [keys_remove]
      refine pairwise_firstPut_concat (fun k hk => ?_) (hm.order.sublist List.erase_sublist)
      exact Ne.symm (hkeys.mem_erase_iff.mp hk).1
  | clear =>
    refine ⟨List.nodup_nil, fun k v => ?_, List.Pairwise.nil⟩
    rw [lastPut_concat]
    simp [Keyed.apply, empty, Change.Removes]

/-- A map that is changed from nothing holds what its history records. -/
theorem recorded_run (h : List (Change α)) : Recorded h (run .empty h).entries := by
  induction h using List.reverseRecOn with
  | nil => exact ⟨List.nodup_nil, fun k v => by simp [run, empty], List.Pairwise.nil⟩
  | append_singleton h c ih =>
    rw [run, List.foldl_append]
    exact ih.apply c

/-- What is found under a key after a history is the value that was put last. -/
theorem get?_run : (run .empty h).get? key = some value ↔ LastPut h key value :=
  (mem_entries_iff (recorded_run h).distinct).symm.trans ((recorded_run h).mem_iff key value)

/-- A map from a list is what putting the entries of the list leaves. -/
theorem ofList_eq_run (es : List (String × α)) :
    ofList es = run .empty (es.map fun e => .put e.1 e.2) := by
  rw [run, List.foldl_map]
  rfl

/-- A history records one list of entries. -/
theorem Recorded.unique {es es' : List (String × α)} (hes : Recorded h es)
    (hes' : Recorded h es') : es = es' := by
  have hperm : es.Perm es' :=
    (List.perm_ext_iff_of_nodup hes.distinct.of_map hes'.distinct.of_map).mpr fun e =>
      (hes.mem_iff e.1 e.2).trans (hes'.mem_iff e.1 e.2).symm
  refine List.Perm.eq_of_pairwise (fun a b _ _ hab hba => ?_) (List.pairwise_map.mp hes.order)
    (List.pairwise_map.mp hes'.order) hperm
  obtain ⟨i, j, hi, hj, hlt⟩ := hab
  obtain ⟨i', j', hi', hj', hlt'⟩ := hba
  rw [firstPut_unique hi' hj, firstPut_unique hj' hi] at hlt'
  exact absurd hlt' (Nat.lt_asymm hlt)

/-- **A map that is changed from nothing holds what its history records.** After any puts, removals
and clearings no key has two entries, and the entries are those that the history records, in their
order; a key has the value of its last put that no removal follows; a removal tells whether the key
was present; and a key that is put again keeps its place, and all other entries stay as they are. -/
theorem run_recorded (h : List (Change α)) :
    (run .empty h).keys.Nodup ∧
    (∀ es, Recorded h es ↔ es = (run .empty h).entries) ∧
    (∀ key value, (run .empty h).get? key = some value ↔ LastPut h key value) ∧
    (∀ key, ((run .empty h).remove key).2 = true ↔ Present h key) ∧
    (∀ key value, Present h key → ((run .empty h).put key value).entries =
      (run .empty h).entries.map fun e => if e.1 = key then (key, value) else e) := by
  have hrun := recorded_run h
  have hkeys : (run .empty h).keys.Nodup := hrun.distinct
  refine ⟨hkeys, fun es => ⟨fun hes => hes.unique hrun, ?_⟩, fun _ _ => get?_run,
    fun key => contains_iff.trans hrun.mem_keys_iff,
    fun key value hkey => entries_put_of_mem hkeys (hrun.mem_keys_iff.mpr hkey) value⟩
  rintro rfl
  exact hrun

-- A key that was removed stands behind the others when it is put again.
example : (run .empty [.put "id" 1, .put "name" 2, .put "id" 3, .remove "name", .put "age" 4,
    .put "name" 5]).entries = [("id", 3), ("age", 4), ("name", 5)] := by
  decide +kernel

end Bindery.Keyed
