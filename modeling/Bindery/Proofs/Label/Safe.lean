import Bindery.Client.Reserved
import Bindery.Proofs.Label.Spelling
import Bindery.Proofs.Label.Unique

/-!
# Safe labels

A safe label is what attributes, parameters and members of enumerations are called. Underscores are
appended until the label is neither a keyword nor reserved; no keyword ends in an underscore and each
reserved name stops one label only, so this comes to an end. Underscores in front go to the end, and
with them the only character that lets a digit stand behind it: such a label is no identifier.

## What is proved

* `isBlocked_safeName` — a safe label is no keyword and not reserved.
* `head?_safeName` — it begins with the first character of the name that is no underscore.
* `safeName_usable_iff` — the safe label of a name is usable but for a digit in front.
-/

namespace Bindery.Label

open Bindery.Text

variable {cs form : List Char} {c : Char} {reserved : List String} {name : String}

/-! ### Labels that are free -/

theorem toList_underscores (n : Nat) : (underscores n).toList = List.replicate n '_' :=
  String.toList_ofList

theorem underscores_injective : Function.Injective underscores := by
  intro m n h
  have hlength := congrArg (fun s => s.toList.length) h
  simpa [toList_underscores] using hlength

/-- No keyword ends in an underscore. -/
theorem getLast?_keyword : ∀ w ∈ keywords, w.toList.getLast? ≠ some '_' := by
  decide

theorem isKeyword_append_underscores (base : String) (n : Nat) :
    isKeyword (base ++ underscores (n + 1)) = false := by
  rw [isKeyword, List.contains_eq_mem, decide_eq_false_iff_not]
  intro hmem
  refine getLast?_keyword _ hmem ?_
  rw [String.toList_append, toList_underscores, List.replicate_succ', ← List.append_assoc,
    List.getLast?_concat]

/-- With enough underscores a label is free. -/
theorem exists_not_isBlocked (reserved : List String) (base : String) :
    ∃ k ≤ reserved.length + 1, isBlocked reserved (base ++ underscores k) = false := by
  by_contra! hall
  have hinjective : Function.Injective fun k => base ++ underscores (k + 1) := fun m n h =>
    Nat.succ_injective (underscores_injective ((String.append_right_inj base).mp h))
  have hreserved : ∀ k ∈ List.range (reserved.length + 1), base ++ underscores (k + 1) ∈ reserved := by
    intro k hk
    rw [List.mem_range] at hk
    have hblocked := hall (k + 1) (by omega)
    rw [isBlocked, isKeyword_append_underscores, Bool.false_or] at hblocked
    simpa using hblocked
  have hle := length_le_of_obstacles List.nodup_range hinjective hreserved
  rw [List.length_range] at hle
  omega

/-- The characters of a safe label: underscores stand behind what is left of the name. -/
theorem toList_safeName (reserved : List String) (name : String) :
    ∃ k, (safeName reserved name).toList = moveUnderscores name.toList ++ List.replicate k '_' :=
  ⟨_, by rw [safeName, String.toList_append, String.toList_ofList, toList_underscores]⟩

/-- A safe label is neither a keyword nor reserved. -/
theorem isBlocked_safeName (reserved : List String) (name : String) :
    isBlocked reserved (safeName reserved name) = false := by
  obtain ⟨k, hk, hfree⟩ :=
    exists_not_isBlocked reserved (String.ofList (moveUnderscores name.toList))
  have hok := ok_searchFrom
    (fun k => !isBlocked reserved (String.ofList (moveUnderscores name.toList) ++ underscores k))
    (Nat.zero_le k) (by omega : k ≤ 0 + (reserved.length + 1)) (by rw [hfree]; rfl)
  rw [safeName]
  simpa using hok

/-! ### The first character -/

theorem moveUnderscores_ne_nil (h : cs ≠ []) : moveUnderscores cs ≠ [] := by
  rw [moveUnderscores]
  split_ifs with hlead
  · exact h
  · simp
  · intro hnil
    rw [List.append_eq_nil_iff] at hnil
    exact hlead (by simp [hnil.2])

/-- Without underscores in front there is nothing to move, and behind them stands the first character
that is none. -/
theorem head?_moveUnderscores (h : cs ≠ []) :
    (moveUnderscores cs).head? = some ((initial? cs).getD 'f') := by
  obtain ⟨c, r, rfl⟩ := List.exists_cons_of_ne_nil h
  rw [moveUnderscores]
  by_cases hc : c = '_'
  · subst hc
    cases hrest : r.dropWhile (· == '_') with
    | nil => simp [initial?, hrest]
    | cons d s => simp [initial?, hrest]
  · simp [initial?_cons hc, hc]

/-- A safe label begins with the first character of the name that is no underscore. -/
theorem head?_safeName (h : name ≠ "") :
    (safeName reserved name).toList.head? = some ((initial? name.toList).getD 'f') := by
  have hchars : name.toList ≠ [] := by simpa using h
  obtain ⟨k, hk⟩ := toList_safeName reserved name
  rw [hk, List.head?_append_of_ne_nil _ (moveUnderscores_ne_nil hchars),
    head?_moveUnderscores hchars]

theorem safeName_ne_empty (h : name ≠ "") : safeName reserved name ≠ "" := by
  intro hempty
  have hhead : (safeName reserved name).toList.head? = _ := head?_safeName h
  rw [hempty] at hhead
  cases hhead

/-- A safe label consists of characters of the name, of a word that may stand for it, and of
underscores. -/
theorem isNameChar_safeName (h : ∀ c ∈ name.toList, isNameChar c = true) :
    ∀ c ∈ (safeName reserved name).toList, isNameChar c = true := by
  obtain ⟨k, hk⟩ := toList_safeName reserved name
  have hlead : ∀ c ∈ name.toList.takeWhile (· == '_'), isNameChar c = true :=
    fun c hc => h c ((List.takeWhile_sublist _).subset hc)
  have hrest : ∀ c ∈ name.toList.dropWhile (· == '_'), isNameChar c = true :=
    fun c hc => h c ((List.dropWhile_sublist _).subset hc)
  have hword : ∀ c ∈ "field".toList, isNameChar c = true := by simp [isNameChar]
  intro c hc
  rw [hk, List.mem_append, List.mem_replicate, moveUnderscores] at hc
  rcases hc with hc | ⟨-, rfl⟩
  · split_ifs at hc
    · exact h c hc
    · exact (List.mem_append.mp hc).elim (hword c) (hlead c)
    · exact (List.mem_append.mp hc).elim (hrest c) (hlead c)
  · rfl

/-- Underscores that are moved or appended end the label. -/
theorem safeName_eq_self (h : (safeName reserved name).toList.getLast? ≠ some '_') :
    safeName reserved name = name := by
  obtain ⟨k, hk⟩ := toList_safeName reserved name
  rw [hk] at h
  cases k with
  | succ k =>
    rw [List.replicate_succ', ← List.append_assoc, List.getLast?_concat] at h
    exact absurd rfl h
  | zero =>
    rw [List.replicate_zero, List.append_nil] at h hk
    rw [← String.toList_inj, hk]
    by_cases hlead : name.toList.takeWhile (· == '_') = []
    · rw [moveUnderscores, hlead]
      rfl
    · rw [moveUnderscores, if_neg (by simpa using hlead), List.getLast?_append_of_ne_nil _ hlead,
        List.getLast?_eq_some_getLast hlead] at h
      have hlast := List.mem_takeWhile_imp (List.getLast_mem hlead)
      rw [beq_iff_eq.mp hlast] at h
      exact absurd rfl h

/-! ### Labels of names -/

/-- The upper case form of a name is not empty. -/
theorem upperCase_ne_empty (h : isGraphQLName name = true) : upperCase name ≠ "" := by
  intro hempty
  have hspelling := (isSpelling_apply h .upperCase).nonempty
  rw [Spelling.apply, hempty] at hspelling
  exact hspelling rfl

/-- Characters of names are an identifier where the first of them is no digit. -/
theorem isIdentifierChars_iff (hcs : ∀ d ∈ c :: cs, isNameChar d = true) :
    isIdentifierChars (c :: cs) = true ↔ c.isDigit = false := by
  rw [List.forall_mem_cons] at hcs
  have hrest : cs.all isIdentifierChar = true := by
    rw [List.all_eq_true]
    intro d hd
    rw [isIdentifierChar, if_pos (ascii_of_isNameChar (hcs.2 d hd))]
    exact hcs.2 d hd
  rw [isIdentifierChars, hrest, Bool.and_true, isIdentifierStart,
    if_pos (ascii_of_isNameChar hcs.1), isNameStart]
  have hfirst := hcs.1
  rw [isNameChar, Char.isAlphanum] at hfirst
  constructor
  · intro hstart
    rcases Bool.or_eq_true_iff.mp hstart with halpha | hunderscore
    · exact isDigit_of_isAlpha halpha
    · rw [beq_iff_eq.mp hunderscore]
      rfl
  · intro hdigit
    rwa [hdigit, Bool.or_false] at hfirst

/-- **The safe label of a name is usable but for a digit in front.** In every spelling and with any
reserved names the label is no keyword, not reserved and does not begin with an underscore. It is an
identifier exactly if no digit stands behind the underscores with which the name begins. -/
theorem safeName_usable_iff (h : isGraphQLName name = true) (spelling : Spelling)
    (reserved : List String) :
    isKeyword (safeName reserved (spelling.apply name)) = false ∧
      safeName reserved (spelling.apply name) ∉ reserved ∧
      (safeName reserved (spelling.apply name)).toList.head? ≠ some '_' ∧
      (isIdentifier (safeName reserved (spelling.apply name)) = true ↔
        (initial? name.toList).any Char.isDigit = false) := by
  have hform := isSpelling_apply h spelling
  generalize spelling.apply name = form at hform ⊢
  have hne : form ≠ "" := by
    rintro rfl
    exact hform.nonempty rfl
  have hfree := isBlocked_safeName reserved form
  rw [isBlocked, Bool.or_eq_false_iff] at hfree
  have hhead : (safeName reserved form).toList.head? = _ := head?_safeName hne
  have hchars : ∀ c ∈ (safeName reserved form).toList, isNameChar c = true :=
    isNameChar_safeName hform.nameChars
  refine ⟨hfree.1, by simpa using hfree.2, ?_, ?_⟩
  · rw [hhead]
    cases hfirst : initial? form.toList with
    | none => decide
    | some c => simpa using initial?_ne hfirst
  · rw [isIdentifier, ← hform.digit]
    cases hlabel : (safeName reserved form).toList with
    | nil =>
      rw [hlabel] at hhead
      cases hhead
    | cons c r =>
      rw [hlabel] at hhead hchars
      rw [isIdentifierChars_iff hchars, Option.some.inj hhead]
      cases initial? form.toList with
      | none => decide
      | some d => rfl

theorem safeName_usable_iff_one :
    isGraphQLName "_1" = true ∧
      isKeyword (safeName Client.enumNames (upperCase "_1")) = false ∧
      safeName Client.enumNames (upperCase "_1") ∉ Client.enumNames ∧
      (safeName Client.enumNames (upperCase "_1")).toList.head? ≠ some '_' ∧
      (isIdentifier (safeName Client.enumNames (upperCase "_1")) = true ↔
        (initial? "_1".toList).any Char.isDigit = false) ∧
      safeName Client.enumNames (upperCase "_1") = "1_" ∧ isIdentifier "1_" = false := by
  have hname : isGraphQLName "_1" = true := by decide
  obtain ⟨hkeyword, hreserved, hhead, hidentifier⟩ :=
    safeName_usable_iff hname .upperCase Client.enumNames
  exact ⟨hname, hkeyword, hreserved, hhead, hidentifier, by decide +kernel, by decide +kernel⟩

end Bindery.Label
