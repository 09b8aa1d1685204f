import Bindery.Keyed
import Mathlib.Data.List.Nodup

/-!
# Insertion-ordered maps

What putting and removing a key does to the entries and to what is found under the keys. A list of
entries with distinct keys is a map as it is.
-/

namespace Bindery.Keyed

variable {α β : Type}

theorem mem_putEntry {key : String} {value : α} {es : List (String × α)} {e : String × α}
    (h : e ∈ putEntry key value es) : e = (key, value) ∨ e ∈ es := by
  induction es with
  | nil => simpa [putEntry] using h
  | cons x r ih =>
    rw [putEntry] at h
    split_ifs at h with hk
    · rw [beq_iff_eq] at hk
      rw [List.mem_cons] at h
      rcases h with rfl | h
      · exact Or.inl (by rw [hk])
      · exact Or.inr (List.mem_cons_of_mem _ h)
    · rw [List.mem_cons] at h
      rcases h with rfl | h
      · exact Or.inr List.mem_cons_self
      · exact (ih h).imp_right (List.mem_cons_of_mem _)

/-- Removing a key leaves the other entries in their order. -/
theorem removeEntry_sublist (key : String) (es : List (String × α)) :
    (removeEntry key es).Sublist es := by
  induction es with
  | nil => exact List.Sublist.refl _
  | cons x r ih =>
    rw [removeEntry]
    split_ifs
    · exact List.sublist_cons_self x r
    · exact ih.cons_cons x

theorem mem_removeEntry {key : String} {es : List (String × α)} {e : String × α}
    (h : e ∈ removeEntry key es) : e ∈ es :=
  (removeEntry_sublist key es).subset h

/-- A value of the map with a key put is the new one or was a value before. -/
theorem mem_values_put {m : Keyed α} {key : String} {value v : α}
    (h : v ∈ (m.put key value).values) : v = value ∨ v ∈ m.values := by
  obtain ⟨e, he, rfl⟩ := List.mem_map.mp h
  rcases mem_putEntry he with rfl | he
  · exact Or.inl rfl
  · exact Or.inr (List.mem_map_of_mem he)

theorem mem_values_remove {m : Keyed α} {key : String} {v : α}
    (h : v ∈ (m.remove key).1.values) : v ∈ m.values := by
  obtain ⟨e, he, rfl⟩ := List.mem_map.mp h
  exact List.mem_map_of_mem (mem_removeEntry he)

@[simp]
theorem get?_empty (k : String) : (empty : Keyed α).get? k = none := rfl

theorem get?_put (m : Keyed α) (key k : String) (value : α) :
    (m.put key value).get? k = if k = key then some value else m.get? k := by
  obtain ⟨es⟩ := m
  change List.lookup k (putEntry key value es) = if k = key then some value else List.lookup k es
  induction es with
  | nil =>
    rw [putEntry, List.lookup_cons]
    split_ifs with h
    · simp [h]
    · rw [beq_false_of_ne h]
  | cons x r ih =>
    obtain ⟨n, v⟩ := x
    rw [putEntry]
    by_cases hn : n = key
    · subst hn
      rw [if_pos (beq_self_eq_true n), List.lookup_cons, List.lookup_cons]
      split_ifs with h
      · simp [h]
      · rw [beq_false_of_ne h]
    · rw [if_neg (by simpa using hn), List.lookup_cons, List.lookup_cons, ih]
      by_cases hk : k = n
      · subst hk
        simp [hn]
      · rw [beq_false_of_ne hk]

theorem mem_entries_of_get? {m : Keyed α} {key : String} {v : α} (h : m.get? key = some v) :
    (key, v) ∈ m.entries := by
  obtain ⟨es⟩ := m
  change List.lookup key es = some v at h
  change (key, v) ∈ es
  induction es with
  | nil => cases h
  | cons x r ih =>
    obtain ⟨n, w⟩ := x
    rw [List.lookup_cons] at h
    split at h
    · rename_i hk
      rw [beq_iff_eq.mp hk, Option.some.inj h]
      exact List.mem_cons_self
    · exact List.mem_cons_of_mem _ (ih h)

theorem mem_keys_of_get? {m : Keyed α} {key : String} {v : α} (h : m.get? key = some v) :
    key ∈ m.keys :=
  List.mem_map_of_mem (mem_entries_of_get? h)

theorem mem_keys_put {m : Keyed α} {key k : String} {value : α} :
    k ∈ (m.put key value).keys ↔ k = key ∨ k ∈ m.keys := by
  obtain ⟨es⟩ := m
  change k ∈ (putEntry key value es).map Prod.fst ↔ k = key ∨ k ∈ es.map Prod.fst
  induction es with
  | nil => rw [putEntry, List.map_singleton, List.mem_singleton, List.map_nil]; simp
  | cons x r ih =>
    rw [putEntry, List.map_cons, List.mem_cons]
    split_ifs with hk
    · rw [beq_iff_eq] at hk
      rw [List.map_cons, List.mem_cons, ← or_assoc, ← hk, or_self]
    · rw [List.map_cons, List.mem_cons, ih, or_left_comm]

/-- The keys of a map from a list are those of the list. -/
theorem mem_keys_ofList {es : List (String × α)} {k : String} :
    k ∈ (ofList es).keys ↔ k ∈ es.map Prod.fst := by
  suffices key : ∀ m : Keyed α, k ∈ (es.foldl (fun m e => m.put e.1 e.2) m).keys ↔
      k ∈ m.keys ∨ k ∈ es.map Prod.fst by
    exact (key .empty).trans (or_iff_right List.not_mem_nil)
  induction es with
  | nil => exact fun m => (or_iff_left List.not_mem_nil).symm
  | cons x r ih =>
    intro m
    rw [List.foldl_cons, ih, mem_keys_put, List.map_cons, List.mem_cons, or_assoc, or_left_comm]

/-- The entries of a map from a list are entries of the list. -/
theorem mem_entries_ofList {es : List (String × α)} {e : String × α}
    (h : e ∈ (ofList es).entries) : e ∈ es := by
  suffices key : ∀ (m : Keyed α), e ∈ (es.foldl (fun m e => m.put e.1 e.2) m).entries →
      e ∈ m.entries ∨ e ∈ es by
    exact (key .empty h).resolve_left List.not_mem_nil
  clear h
  induction es with
  | nil => exact fun m => .inl
  | cons x r ih =>
    intro m h
    rcases ih (m.put x.1 x.2) h with h | h
    · exact (mem_putEntry h).elim (fun h => .inr (h ▸ List.mem_cons_self)) .inl
    · exact .inr (List.mem_cons_of_mem _ h)

/-- The values of a map from a list are values of the list. -/
theorem mem_values_ofList {es : List (String × α)} {v : α} (h : v ∈ (ofList es).values) :
    v ∈ es.map Prod.snd := by
  obtain ⟨e, he, rfl⟩ := List.mem_map.mp h
  exact List.mem_map_of_mem (mem_entries_ofList he)

theorem map_put (m : Keyed α) (key : String) (value : α) (f : α → β) :
    (m.put key value).map f = (m.map f).put key (f value) := by
  obtain ⟨es⟩ := m
  suffices h : (putEntry key value es).map (fun e => (e.1, f e.2)) =
      putEntry key (f value) (es.map fun e => (e.1, f e.2)) from congrArg Keyed.mk h
  induction es with
  | nil => rfl
  | cons x r ih =>
    rw [putEntry, List.map_cons, putEntry]
    split_ifs
    · rfl
    · rw [List.map_cons, ih]

/-- Where entries are kept by their keys, what is found under a key that is kept is what was found
there. -/
theorem lookup_filter {κ : Type} [BEq κ] [LawfulBEq κ] (keep : κ → Bool) (es : List (κ × α))
    (key : κ) :
    (es.filter fun e => keep e.1).lookup key = if keep key then es.lookup key else none := by
  induction es with
  | nil => simp
  | cons e es ih =>
    obtain ⟨k, v⟩ := e
    by_cases hkey : key = k
    · subst hkey
      cases hkeep : keep key <;> simp [hkeep, ih]
    · have hlookup : ((k, v) :: es).lookup key = es.lookup key := by
        rw [List.lookup_cons, beq_false_of_ne hkey]
      cases hkeep : keep k
      · rw [List.filter_cons_of_neg (by simp [hkeep]), ih, hlookup]
      · rw [List.filter_cons_of_pos (by simp [hkeep]), List.lookup_cons, beq_false_of_ne hkey, ih,
          hlookup]

/-! ### Distinct keys -/

theorem contains_iff {m : Keyed α} {key : String} : m.contains key = true ↔ key ∈ m.keys := by
  simp [contains, keys]

/-- A key that is not present is put behind all others. -/
theorem entries_put_of_not_mem {m : Keyed α} {key : String} (h : key ∉ m.keys) (value : α) :
    (m.put key value).entries = m.entries ++ [(key, value)] := by
  obtain ⟨es⟩ := m
  change key ∉ es.map Prod.fst at h
  change putEntry key value es = es ++ [(key, value)]
  induction es with
  | nil => rfl
  | cons x r ih =>
    rw [List.map_cons, List.mem_cons, not_or] at h
    rw [putEntry, if_neg (by simpa using Ne.symm h.1), ih h.2, List.cons_append]

theorem keys_put_of_not_mem {m : Keyed α} {key : String} (h : key ∉ m.keys) (value : α) :
    (m.put key value).keys = m.keys ++ [key] := by
  rw [keys, entries_put_of_not_mem h, List.map_append]
  rfl

theorem values_put_of_not_mem {m : Keyed α} {key : String} (h : key ∉ m.keys) (value : α) :
    (m.put key value).values = m.values ++ [value] := by
  rw [values, entries_put_of_not_mem h, List.map_append]
  rfl

/-- A list of entries with distinct keys is the list of the entries of its map. -/
theorem entries_ofList {es : List (String × α)} (h : (es.map Prod.fst).Nodup) :
    (ofList es).entries = es := by
  suffices key : ∀ m : Keyed α, (m.keys ++ es.map Prod.fst).Nodup →
      (es.foldl (fun m e => m.put e.1 e.2) m).entries = m.entries ++ es from key .empty h
  clear h
  induction es with
  | nil => exact fun m _ => (List.append_nil _).symm
  | cons x r ih =>
    intro m hm
    rw [List.map_cons] at hm
    have hnew : x.1 ∉ m.keys := fun hx =>
      (List.nodup_append'.mp hm).2.2 hx List.mem_cons_self
    rw [List.foldl_cons, ih, entries_put_of_not_mem hnew, List.append_assoc, List.singleton_append]
    rwa [keys_put_of_not_mem hnew, List.append_assoc]

theorem nodup_keys_put {m : Keyed α} (h : m.keys.Nodup) (key : String) (value : α) :
    (m.put key value).keys.Nodup := by
  obtain ⟨es⟩ := m
  change (es.map Prod.fst).Nodup at h
  change ((putEntry key value es).map Prod.fst).Nodup
  induction es with
  | nil => exact List.nodup_singleton key
  | cons x r ih =>
    rw [List.map_cons, List.nodup_cons] at h
    rw [putEntry]
    split_ifs with hk
    · exact List.nodup_cons.mpr h
    · refine List.nodup_cons.mpr ⟨fun hx => ?_, ih h.2⟩
      rcases mem_keys_put (m := ⟨r⟩).mp hx with heq | hx
      · exact hk (by simpa using heq)
      · exact h.1 hx

/-- No key comes twice in a map from a list. -/
theorem nodup_keys_ofList (es : List (String × α)) : (ofList es).keys.Nodup := by
  suffices key : ∀ m : Keyed α, m.keys.Nodup →
      (es.foldl (fun m e => m.put e.1 e.2) m).keys.Nodup from key .empty .nil
  induction es with
  | nil => exact fun m h => h
  | cons x r ih => exact fun m h => ih _ (nodup_keys_put h x.1 x.2)

/-- The value of a key that is present. -/
theorem exists_get?_of_mem_keys {m : Keyed α} {key : String} (h : key ∈ m.keys) :
    ∃ v, m.get? key = some v := by
  obtain ⟨es⟩ := m
  change key ∈ es.map Prod.fst at h
  change ∃ v, List.lookup key es = some v
  induction es with
  | nil => cases h
  | cons x r ih =>
    obtain ⟨n, v⟩ := x
    rw [List.lookup_cons]
    split
    · exact ⟨v, rfl⟩
    · rename_i hne
      exact ih ((List.mem_cons.mp h).resolve_left (by simpa using hne))

/-- Where the keys are distinct, an entry is what is found under its key. -/
theorem get?_of_mem_entries {m : Keyed α} (hkeys : m.keys.Nodup) {key : String} {v : α}
    (h : (key, v) ∈ m.entries) : m.get? key = some v := by
  obtain ⟨w, hw⟩ := exists_get?_of_mem_keys (List.mem_map_of_mem h)
  have heq := List.inj_on_of_nodup_map hkeys (mem_entries_of_get? hw) h rfl
  rw [hw, (Prod.mk.inj heq).2]

theorem putNew_of_mem {m : Keyed α} {key : String} (h : key ∈ m.keys) (value : α) :
    m.putNew key value = m :=
  if_pos (contains_iff.mpr h)

theorem putNew_of_not_mem {m : Keyed α} {key : String} (h : key ∉ m.keys) (value : α) :
    m.putNew key value = m.put key value :=
  if_neg fun hc => h (contains_iff.mp hc)

/-! ### Maps from lists -/

theorem keys_put_of_mem {m : Keyed α} {key : String} (h : key ∈ m.keys) (value : α) :
    (m.put key value).keys = m.keys := by
  obtain ⟨es⟩ := m
  change key ∈ es.map Prod.fst at h
  change (putEntry key value es).map Prod.fst = es.map Prod.fst
  induction es with
  | nil => cases h
  | cons x r ih =>
    rw [putEntry]
    split_ifs with hk
    · rfl
    · have hne : key ≠ x.1 := fun heq => hk (by simp [heq])
      rw [List.map_cons, List.map_cons, ih ((List.mem_cons.mp h).resolve_left hne)]

/-- The keys of a map from a list depend on nothing but the keys of the list. -/
theorem keys_ofList_congr {es es' : List (String × α)}
    (h : es'.map Prod.fst = es.map Prod.fst) : (ofList es').keys = (ofList es).keys := by
  suffices key : ∀ m m' : Keyed α, m'.keys = m.keys →
      (es'.foldl (fun m e => m.put e.1 e.2) m').keys =
        (es.foldl (fun m e => m.put e.1 e.2) m).keys from key .empty .empty rfl
  induction es generalizing es' with
  | nil =>
    rw [List.map_eq_nil_iff.mp h]
    exact fun m m' hm => hm
  | cons x r ih =>
    intro m m' hm
    obtain ⟨x', r', rfl, hx, hr⟩ := List.map_eq_cons_iff.mp h
    rw [List.foldl_cons, List.foldl_cons]
    refine ih hr _ _ ?_
    rw [hx]
    by_cases hmem : x.1 ∈ m.keys
    · rw [keys_put_of_mem hmem, keys_put_of_mem (hm ▸ hmem), hm]
    · rw [keys_put_of_not_mem hmem, keys_put_of_not_mem (hm ▸ hmem), hm]

/-- Maps with the same distinct keys are the same where all entries of one are entries of the
other. -/
theorem entries_eq_of_subset {m m' : Keyed α} (hkeys : m'.keys = m.keys) (hn : m.keys.Nodup)
    (hsub : ∀ e ∈ m'.entries, e ∈ m.entries) : m'.entries = m.entries := by
  have hlength : m'.entries.length = m.entries.length := by
    simpa [keys] using congrArg List.length hkeys
  refine List.ext_getElem hlength fun i hi hi' => ?_
  refine List.inj_on_of_nodup_map hn (hsub _ (List.getElem_mem hi)) (List.getElem_mem hi') ?_
  have hkey := congrArg (fun ks => ks[i]?) hkeys
  simpa [keys, List.getElem?_eq_getElem hi, List.getElem?_eq_getElem hi'] using hkey

/-- A list with the same keys makes the same map if under each key it has nothing but the value that
came last. -/
theorem ofList_congr {es es' : List (String × α)} (hkeys : es'.map Prod.fst = es.map Prod.fst)
    (hlast : ∀ e ∈ es', (ofList es).get? e.1 = some e.2) : (ofList es').entries = (ofList es).entries :=
  entries_eq_of_subset (keys_ofList_congr hkeys) (nodup_keys_ofList es)
    fun e he => mem_entries_of_get? (hlast e (mem_entries_ofList he))

end Bindery.Keyed
