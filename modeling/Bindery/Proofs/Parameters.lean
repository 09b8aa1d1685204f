import Bindery.Configuration
import Bindery.Proofs.Keyed
import Bindery.Proofs.Text.Blank
import Mathlib.Data.List.Forall2

/-!
# Parameters in groups

A parameter can hold several entries with commas and semicolons between them. How entries are grouped
to parameters makes no difference: the mapping that is read, or the refusal of the first entry at
fault, depends on nothing but the entries one after the other.

## What is proved

* `entriesOf_append` — a comma or a semicolon divides the entries of a parameter.
* `Regrouped.entries` — the same parts in other groups hold the same entries.
* `exists_entry` — a key and a value are read from what writes them, whatever blanks stand around.
* `readPairs_regrouped` — what is read is independent of the grouping, and reading undoes writing.
-/

namespace Bindery

open Bindery.Text

/-! ### Groups -/

/-- The parts stand in one parameter, with a comma or a semicolon between each two. -/
inductive Joined : List String → String → Prop where
  /-- No parts stand in the empty parameter. -/
  | nil : Joined [] ""
  /-- One part is the parameter. -/
  | single (part : String) : Joined [part] part
  /-- One more part in front. -/
  | cons {part next parameter : String} {rest : List String} {c : Char} : endsEntry c = true →
    Joined (next :: rest) parameter →
    Joined (part :: next :: rest) (part ++ (String.singleton c ++ parameter))

/-- The parameters hold the parts in consecutive groups. -/
inductive Regrouped : List String → List String → Prop where
  /-- No groups. -/
  | nil : Regrouped [] []
  /-- One more group in front. -/
  | cons {group rest parameters : List String} {parameter : String} : Joined group parameter →
    Regrouped rest parameters → Regrouped (group ++ rest) (parameter :: parameters)

/-- All parts in one parameter. -/
theorem Joined.regrouped {parts : List String} {parameter : String} (h : Joined parts parameter) :
    Regrouped parts [parameter] := by
  have hone := Regrouped.cons h .nil
  rwa [List.append_nil] at hone

/-- The entry at the characters, if it is not empty. -/
def trimmedEntries (pieces : List (List Char)) : List String :=
  (pieces.map fun cs => String.ofList (trimBlanks cs)).filter fun s => !s.isEmpty

theorem entriesOf_eq (parameter : String) :
    entriesOf parameter = trimmedEntries (parameter.toList.splitOnP endsEntry) := by
  have hpieces : (parameter.split endsEntry).toList.map (fun s => trim s.toString) =
      (parameter.toList.splitOnP endsEntry).map fun cs => String.ofList (trimBlanks cs) := by
    have hsplit := congrArg (List.map trim) (String.toList_split_bool (s := parameter) (p := endsEntry))
    rw [List.map_map, List.map_map] at hsplit
    refine hsplit.trans (List.map_congr_left fun cs _ => ?_)
    rw [Function.comp_apply, trim, String.toList_ofList]
  rw [entriesOf, hpieces, trimmedEntries]

/-- What stands before a comma or a semicolon and what stands behind it has its own entries. -/
theorem entriesOf_append {c : Char} (h : endsEntry c = true) (part parameter : String) :
    entriesOf (part ++ (String.singleton c ++ parameter)) = entriesOf part ++ entriesOf parameter := by
  rw [entriesOf_eq, entriesOf_eq, entriesOf_eq, String.toList_append, String.toList_append,
    String.toList_singleton, List.singleton_append, List.splitOnP_append_cons _ _ h]
  simp only [trimmedEntries, List.map_append, List.filter_append]

theorem entriesOf_empty : entriesOf "" = [] := by
  rw [entriesOf_eq]
  rfl

theorem Joined.entries {parts : List String} {parameter : String} (h : Joined parts parameter) :
    entriesOf parameter = parts.flatMap entriesOf := by
  induction h with
  | nil => exact entriesOf_empty
  | single part => rw [List.flatMap_singleton]
  | cons hc _ ih => rw [entriesOf_append hc, ih]; rfl

theorem Regrouped.entries {parts parameters : List String} (h : Regrouped parts parameters) :
    parameters.flatMap entriesOf = parts.flatMap entriesOf := by
  induction h with
  | nil => rfl
  | cons hjoined _ ih => rw [List.flatMap_cons, List.flatMap_append, hjoined.entries, ih]

/-- What is read depends on nothing but the entries. -/
theorem Regrouped.readPairs {parts parameters : List String} (h : Regrouped parts parameters)
    (separator : String) : Bindery.readPairs separator parameters = Bindery.readPairs separator parts := by
  rw [Bindery.readPairs, Bindery.readPairs, h.entries]

/-! ### Writing entries -/

/-- The text is another one with blanks around it. -/
def Spaced (s text : String) : Prop :=
  ∃ before after, AllBlank before ∧ AllBlank after ∧ text.toList = before ++ s.toList ++ after

theorem Spaced.trimBlanks {s text : String} (h : Spaced s text) :
    Text.trimBlanks text.toList = Text.trimBlanks s.toList := by
  obtain ⟨before, after, hbefore, hafter, htext⟩ := h
  rw [htext, trimBlanks_surrounded hbefore hafter]

theorem Spaced.mem {s text : String} (h : Spaced s text) {c : Char} (hc : c ∈ text.toList) :
    isBlank c = true ∨ c ∈ s.toList := by
  obtain ⟨before, after, hbefore, hafter, htext⟩ := h
  rw [htext, List.mem_append, List.mem_append] at hc
  rcases hc with (hc | hc) | hc
  · exact .inl (hbefore c hc)
  · exact .inr hc
  · exact .inl (hafter c hc)

/-- The text writes a key and a value, with blanks around each of them and around the whole. -/
inductive WritesPair : String × String → String → Prop where
  /-- The key, a colon and the value. -/
  | mk {key value keyText valueText text : String} : Spaced key keyText → Spaced value valueText →
    Spaced (keyText ++ ":" ++ valueText) text → WritesPair (key, value) text

/-- A key and a value that can be written in an entry. -/
structure IsWritable (e : String × String) : Prop where
  /-- The key is not empty. -/
  key_ne : e.1 ≠ ""
  /-- No blanks stand around the key. -/
  key_trimmed : trim e.1 = e.1
  /-- Nothing in the key ends an entry or the key. -/
  key_plain : ∀ c ∈ e.1.toList, endsEntry c = false ∧ c ≠ ':'
  /-- The value is not empty. -/
  value_ne : e.2 ≠ ""
  /-- No blanks stand around the value. -/
  value_trimmed : trim e.2 = e.2
  /-- Nothing in the value ends an entry. -/
  value_plain : ∀ c ∈ e.2.toList, endsEntry c = false

theorem isWritable_iff {e : String × String} : IsWritable e ↔
    (e.1 ≠ "" ∧ trim e.1 = e.1 ∧ e.1.toList.all (fun c => !endsEntry c && c != ':') = true) ∧
      e.2 ≠ "" ∧ trim e.2 = e.2 ∧ e.2.toList.all (fun c => !endsEntry c) = true := by
  simp only [List.all_eq_true, Bool.and_eq_true, Bool.not_eq_true', bne_iff_ne]
  constructor
  · intro h
    exact ⟨⟨h.key_ne, h.key_trimmed, h.key_plain⟩, h.value_ne, h.value_trimmed, h.value_plain⟩
  · rintro ⟨⟨hk, hkt, hkp⟩, hv, hvt, hvp⟩
    exact ⟨hk, hkt, hkp, hv, hvt, hvp⟩

instance (e : String × String) : Decidable (IsWritable e) :=
  decidable_of_iff _ isWritable_iff.symm

theorem not_endsEntry_of_isBlank {c : Char} (h : isBlank c = true) : endsEntry c = false := by
  by_contra hends
  rw [Bool.not_eq_false, endsEntry, Bool.or_eq_true, beq_iff_eq, beq_iff_eq] at hends
  rcases hends with rfl | rfl <;> exact absurd h (by decide)

theorem ne_colon_of_isBlank {c : Char} (h : isBlank c = true) : c ≠ ':' := by
  rintro rfl
  exact absurd h (by decide)

/-- The first colon divides a text. -/
theorem partitionAt_colon {before : List Char} (h : ':' ∉ before) (after : List Char) :
    partitionAt [':'] (before ++ ':' :: after) = some (before, after) := by
  induction before with
  | nil => rfl
  | cons c r ih =>
    rw [List.mem_cons, not_or] at h
    rw [List.cons_append, partitionAt, if_neg (by simpa using h.1), ih h.2]
    rfl

/-- An entry is read as what stands before its first colon and what stands behind it. -/
theorem pairOf_colon {before after : List Char} {key value : String} (h : ':' ∉ before)
    (hkey : trim (String.ofList before) = key) (hvalue : trim (String.ofList after) = value)
    (hkeyne : key ≠ "") (hvaluene : value ≠ "") :
    pairOf ":" (String.ofList (before ++ ':' :: after)) = .ok (key, value) := by
  have hparts : partitionAt (":" : String).toList (String.ofList (before ++ ':' :: after)).toList =
      some (before, after) := by
    rw [String.toList_ofList, String.toList_ofList]
    exact partitionAt_colon h after
  rw [pairOf, hparts]
  dsimp only
  rw [hkey, hvalue, if_neg (by simp [hkeyne, hvaluene])]

/-- What writes a key and a value holds one entry, in which they are read. -/
theorem exists_entry {e : String × String} {text : String} (h : WritesPair e text)
    (hwritable : IsWritable e) : ∃ entry, entriesOf text = [entry] ∧ pairOf ":" entry = .ok e := by
  obtain @⟨key, value, keyText, valueText, text, hkey, hvalue, htext⟩ := h
  have hinner : (keyText ++ ":" ++ valueText).toList = keyText.toList ++ ':' :: valueText.toList := by
    rw [String.toList_append, String.toList_append, List.append_assoc]
    rfl
  have hplain : ∀ c ∈ text.toList, endsEntry c = false := by
    intro c hc
    rcases htext.mem hc with hblank | hc
    · exact not_endsEntry_of_isBlank hblank
    rw [hinner, List.mem_append, List.mem_cons] at hc
    rcases hc with hc | rfl | hc
    · exact (hkey.mem hc).elim not_endsEntry_of_isBlank fun hc => (hwritable.key_plain c hc).1
    · decide
    · exact (hvalue.mem hc).elim not_endsEntry_of_isBlank (hwritable.value_plain c)
  have hcolon : ':' ∉ keyText.toList.dropWhile isBlank := by
    intro hc
    rcases hkey.mem ((List.dropWhile_sublist isBlank).subset hc) with hblank | hc
    · exact ne_colon_of_isBlank hblank rfl
    · exact (hwritable.key_plain _ hc).2 rfl
  -- Trimming the whole trims the key in front and the value at the end.
  have htrim : trimBlanks text.toList = keyText.toList.dropWhile isBlank ++
      ':' :: dropBlankEnd valueText.toList := by
    rw [htext.trimBlanks, hinner, trimBlanks_append_cons (by decide)]
  have hne : (String.ofList (trimBlanks text.toList)).isEmpty = false := by
    rw [← Bool.not_eq_true, String.isEmpty_iff, ← String.toList_inj, String.toList_ofList, htrim]
    exact List.append_ne_nil_of_right_ne_nil _ (List.cons_ne_nil _ _)
  refine ⟨String.ofList (trimBlanks text.toList), ?_, ?_⟩
  · rw [entriesOf_eq, List.splitOnP_eq_singleton hplain, trimmedEntries, List.map_singleton,
      List.filter_singleton, hne]
    rfl
  · rw [htrim]
    refine pairOf_colon hcolon ?_ ?_ hwritable.key_ne hwritable.value_ne
    · rw [trim, String.toList_ofList, trimBlanks_dropWhile, hkey.trimBlanks]
      exact hwritable.key_trimmed
    · rw [trim, String.toList_ofList, trimBlanks_dropBlankEnd, hvalue.trimBlanks]
      exact hwritable.value_trimmed

/-! ### Reading what was written -/

/-- An entry with a new key is put behind the others. -/
theorem addPair_of_new {m : Keyed String} {entry key value : String}
    (hpair : pairOf ":" entry = .ok (key, value)) (hnew : key ∉ m.keys) :
    addPair ":" m entry = .ok (m.put key value) := by
  have hcontains : m.contains key = false := by
    rwa [← Bool.not_eq_true, Keyed.contains_iff]
  rw [addPair, hpair]
  simp only [bind, Except.bind, hcontains]
  rfl

/-- Entries whose keys differ from each other and from those of a mapping are added in order. The
induction is on the entries, and the mapping grows by each of them. -/
theorem foldlM_addPair {es : List (String × String)} {entries : List String} {m : Keyed String}
    (hpairs : List.Forall₂ (fun e entry => pairOf ":" entry = .ok e) es entries)
    (hkeys : (m.keys ++ es.map Prod.fst).Nodup) :
    entries.foldlM (addPair ":") m = .ok ⟨m.entries ++ es⟩ := by
  induction hpairs generalizing m with
  | nil =>
    rw [List.append_nil]
    rfl
  | @cons e entry es entries hpair _ ih =>
    rw [List.map_cons] at hkeys
    have hnew : e.1 ∉ m.keys := fun hmem =>
      (List.nodup_append'.mp hkeys).2.2 hmem List.mem_cons_self
    rw [List.foldlM_cons, addPair_of_new hpair hnew]
    change entries.foldlM (addPair ":") (m.put e.1 e.2) = _
    rw [ih, Keyed.entries_put_of_not_mem hnew, List.append_assoc, List.singleton_append]
    rwa [Keyed.keys_put_of_not_mem hnew, List.append_assoc, List.singleton_append]

/-- The mapping that texts write is read from them. -/
theorem readPairs_of_writesPair {m : Keyed String} {texts : List String} (hkeys : m.keys.Nodup)
    (hwritable : ∀ e ∈ m.entries, IsWritable e) (h : List.Forall₂ WritesPair m.entries texts) :
    readPairs ":" texts = .ok m := by
  obtain ⟨es⟩ := m
  change List.Forall₂ WritesPair es texts at h
  suffices hentries : ∃ entries, texts.flatMap entriesOf = entries ∧
      List.Forall₂ (fun e entry => pairOf ":" entry = .ok e) es entries by
    obtain ⟨entries, heq, hpairs⟩ := hentries
    rw [readPairs, heq]
    exact foldlM_addPair hpairs hkeys
  clear hkeys
  induction h with
  | nil => exact ⟨[], rfl, .nil⟩
  | @cons e text es texts hwrites _ ih =>
    rw [List.forall_mem_cons] at hwritable
    obtain ⟨entry, hentry, hpair⟩ := exists_entry hwrites hwritable.1
    obtain ⟨entries, hentries, hpairs⟩ := ih hwritable.2
    exact ⟨entry :: entries, by rw [List.flatMap_cons, hentry, hentries]; rfl, .cons hpair hpairs⟩

/-- However parts are grouped to parameters, the same mapping is read from them or the same refusal
ends the reading; the same holds of mappings to class names. Where the parts write a mapping with
distinct keys, that mapping is read in its order. -/
theorem readPairs_regrouped {parts parameters : List String} (h : Regrouped parts parameters) :
    (∀ separator, readPairs separator parameters = readPairs separator parts) ∧
    readClassNames parameters = readClassNames parts ∧
    ∀ m : Keyed String, m.keys.Nodup → (∀ e ∈ m.entries, IsWritable e) →
      List.Forall₂ WritesPair m.entries parts → readPairs ":" parameters = .ok m := by
  refine ⟨h.readPairs, ?_, ?_⟩
  · rw [readClassNames, readClassNames, h.readPairs]
  · intro m hkeys hwritable hwrites
    rw [h.readPairs]
    exact readPairs_of_writesPair hkeys hwritable hwrites

/-- Two classes and an address in one parameter, with blanks around them. -/
theorem classes_regrouped :
    Regrouped ["User : Person", " Post:Article\t", "Site: http://a.b "]
      ["User : Person; Post:Article\t", "Site: http://a.b "] ∧
    readPairs ":" ["User : Person; Post:Article\t", "Site: http://a.b "] =
      .ok ⟨[("User", "Person"), ("Post", "Article"), ("Site", "http://a.b")]⟩ := by
  have hgroups : Regrouped ["User : Person", " Post:Article\t", "Site: http://a.b "]
      ["User : Person; Post:Article\t", "Site: http://a.b "] :=
    show Regrouped (["User : Person", " Post:Article\t"] ++ ["Site: http://a.b "]) _ from
      .cons (.cons (c := ';') rfl (.single _)) (Joined.single _).regrouped
  have hfirst : WritesPair ("User", "Person") "User : Person" :=
    @WritesPair.mk _ _ "User " " Person" _ ⟨[], [' '], nofun, by decide, rfl⟩
      ⟨[' '], [], by decide, nofun, rfl⟩ ⟨[], [], nofun, nofun, rfl⟩
  have hsecond : WritesPair ("Post", "Article") " Post:Article\t" :=
    @WritesPair.mk _ _ "Post" "Article" _ ⟨[], [], nofun, nofun, rfl⟩
      ⟨[], [], nofun, nofun, rfl⟩ ⟨[' '], ['\t'], by decide, by decide, rfl⟩
  have hthird : WritesPair ("Site", "http://a.b") "Site: http://a.b " :=
    @WritesPair.mk _ _ "Site" " http://a.b " _ ⟨[], [], nofun, nofun, rfl⟩
      ⟨[' '], [' '], by decide, by decide, rfl⟩ ⟨[], [], nofun, nofun, rfl⟩
  have hwritable : ∀ e ∈ [("User", "Person"), ("Post", "Article"), ("Site", "http://a.b")],
      IsWritable e := by
    decide
  exact ⟨hgroups, (readPairs_regrouped hgroups).2.2
    ⟨[("User", "Person"), ("Post", "Article"), ("Site", "http://a.b")]⟩ (by decide) hwritable
    (.cons hfirst (.cons hsecond (.cons hthird .nil)))⟩

end Bindery
