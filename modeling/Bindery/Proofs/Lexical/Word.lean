import Bindery.Proofs.Lexical.Scan
import Bindery.Query.Name
import Bindery.Query.Literal
import Mathlib.Data.List.Basic
import Mathlib.Tactic.IntervalCases

/-!
# Words and strings as tokens

Proved here: a name is read as one token, a string literal is read as the characters that were
escaped in it, whatever follows (`stringLiteral_delimited`), and a name or a type that was accepted
keeps its tokens even where a line feed ends it.
-/

namespace Bindery.Definition

open Bindery.Text

theorem isNameChar_of_isNameStart {c : Char} (h : isNameStart c = true) : isNameChar c = true := by
  simp only [isNameStart, isNameChar, Char.isAlphanum, Bool.or_eq_true] at h ⊢
  tauto

theorem exists_cons_of_isGraphQLNameChars {name : List Char} (h : isGraphQLNameChars name = true) :
    ∃ c r, name = c :: r ∧ isNameStart c = true ∧ r.all isNameChar = true := by
  cases name with
  | nil => cases h
  | cons c r =>
    rw [isGraphQLNameChars, Bool.and_eq_true] at h
    exact ⟨c, r, rfl, h⟩

theorem isNameChar_of_mem_name {name : List Char} (h : isGraphQLNameChars name = true) {c : Char}
    (hc : c ∈ name) : isNameChar c = true := by
  obtain ⟨d, r, rfl, hd, hr⟩ := exists_cons_of_isGraphQLNameChars h
  rcases List.mem_cons.mp hc with rfl | hc
  · exact isNameChar_of_isNameStart hd
  · exact List.all_eq_true.mp hr _ hc

/-- A character that begins a name is none of those that begin something else. -/
theorem ne_of_isNameStart {c d : Char} (h : isNameStart c = true) (hd : isNameStart d = false) :
    c ≠ d := by
  rintro rfl
  simp [h] at hd

theorem isIgnored_of_isNameStart {c : Char} (h : isNameStart c = true) : isIgnored c = false := by
  have h₁ := ne_of_isNameStart h (d := ' ') (by decide)
  have h₂ := ne_of_isNameStart h (d := '\t') (by decide)
  have h₃ := ne_of_isNameStart h (d := ',') (by decide)
  have h₄ := ne_of_isNameStart h (d := '\n') (by decide)
  have h₅ := ne_of_isNameStart h (d := '\r') (by decide)
  have h₆ := ne_of_isNameStart h (d := '\ufeff') (by decide)
  simp [isIgnored, *]

theorem readToken_name {c : Char} (h : isNameStart c = true) (r : List Char) :
    readToken (c :: r) = some (.name (String.ofList (c :: r.takeWhile isNameChar)),
      r.drop (r.takeWhile isNameChar).length) := by
  have hs : signs.contains c = false := by
    rw [← Bool.not_eq_true, List.contains_iff_mem]
    intro hm
    have hsigns : signs.all (fun d => !isNameStart d) = true := by
      decide
    have hc := List.all_eq_true.mp hsigns c hm
    simp [h] at hc
  unfold readToken
  split
  · simp at *
  · rename_i heq; cases heq; exact absurd h (by decide)
  · rename_i heq; cases heq; exact absurd h (by decide)
  · rename_i heq; cases heq; exact absurd h (by decide)
  · rename_i heq; cases heq; simp only [hs, h]; rfl

/-- A name in front of what breaks it off is read as a name. -/
theorem readToken_word {n rest : List Char} (h : isGraphQLNameChars n = true)
    (hr : rest = [] ∨ breaks rest = true) :
    readToken (n ++ rest) = some (.name (String.ofList n), rest) := by
  cases n with
  | nil => cases h
  | cons c n =>
    simp only [isGraphQLNameChars, Bool.and_eq_true] at h
    have hw : (n ++ rest).takeWhile isNameChar = n := by
      rw [List.takeWhile_append_of_pos (by simpa using h.2)]
      rcases hr with rfl | hr
      · simp
      · cases rest with
        | nil => simp
        | cons d r =>
          simp only [breaks, Bool.not_eq_true', Bool.or_eq_false_iff] at hr
          simp [hr.1.1]
    rw [List.cons_append, readToken_name h.1, hw]
    simp

/-- A name is read as a name. -/
theorem scans_name {n : List Char} (h : isGraphQLNameChars n = true) :
    Scans n (some [.name (String.ofList n)]) := by
  intro rest hr
  have hread := readToken_word h hr
  cases n with
  | nil => cases h
  | cons c n =>
    simp only [isGraphQLNameChars, Bool.and_eq_true] at h
    rw [List.cons_append] at hread ⊢
    rw [tokens?_token (isIgnored_of_isNameStart h.1) (ne_of_isNameStart h.1 (by decide)), hread]
    simp [← map_cons_eq_follow]

/-! ### Strings -/

theorem readEscape_hex {n : Nat} (h : n < 32) (r : List Char) :
    readEscape ('u' :: (hexDigits 4 n ++ r)) = some (Char.ofNat n, r) := by
  interval_cases n <;> rfl

theorem readString_plain {c : Char} (h₁ : c ≠ '"') (h₂ : c ≠ '\\') (h₃ : c ≠ '\n') (h₄ : c ≠ '\r')
    (fuel : Nat) (r : List Char) :
    readString (fuel + 1) (c :: r) = (readString fuel r).map fun p => (c :: p.1, p.2) := by
  rw [readString.eq_def]
  dsimp only
  split
  · contradiction
  · simp_all
  · simp_all
  · simp_all
  · simp_all
  · rename_i heq
    cases heq
    cases readString fuel r <;> rfl

theorem readString_escape {c : Char} {s r : List Char} (h : readEscape s = some (c, r))
    (fuel : Nat) :
    readString (fuel + 1) ('\\' :: s) = (readString fuel r).map fun p => (c :: p.1, p.2) := by
  rw [readString]
  simp only [h, Option.bind_eq_bind, Option.bind_some]
  cases readString fuel r <;> rfl

/-- A character is escaped by one letter or, below the space, by its number, or else it stands for
itself. -/
theorem escaped_cases (c : Char) :
    (∃ e, e ≠ 'u' ∧ 32 ≤ e.toNat ∧ shortEscape? e = some c ∧ Query.escaped c = ['\\', e]) ∨
      (c.toNat < 32 ∧ Query.escaped c = '\\' :: 'u' :: hexDigits 4 c.toNat) ∨
      (c ≠ '"' ∧ c ≠ '\\' ∧ 32 ≤ c.toNat ∧ Query.escaped c = [c]) := by
  by_cases h₁ : c = '"'
  · exact Or.inl ⟨'"', by decide, by decide, by rw [h₁]; rfl, by rw [h₁]; rfl⟩
  by_cases h₂ : c = '\\'
  · exact Or.inl ⟨'\\', by decide, by decide, by rw [h₂]; rfl, by rw [h₂]; rfl⟩
  by_cases h₃ : c = '/'
  · exact Or.inl ⟨'/', by decide, by decide, by rw [h₃]; rfl, by rw [h₃]; rfl⟩
  by_cases h₄ : c = '\x08'
  · exact Or.inl ⟨'b', by decide, by decide, by rw [h₄]; rfl, by rw [h₄]; rfl⟩
  by_cases h₅ : c = '\x0c'
  · exact Or.inl ⟨'f', by decide, by decide, by rw [h₅]; rfl, by rw [h₅]; rfl⟩
  by_cases h₆ : c = '\n'
  · exact Or.inl ⟨'n', by decide, by decide, by rw [h₆]; rfl, by rw [h₆]; rfl⟩
  by_cases h₇ : c = '\r'
  · exact Or.inl ⟨'r', by decide, by decide, by rw [h₇]; rfl, by rw [h₇]; rfl⟩
  by_cases h₈ : c = '\t'
  · exact Or.inl ⟨'t', by decide, by decide, by rw [h₈]; rfl, by rw [h₈]; rfl⟩
  by_cases h₉ : c.toNat < 32
  · refine Or.inr (Or.inl ⟨h₉, ?_⟩)
    simp only [Query.escaped, beq_iff_eq, *, if_false, if_true]
  · refine Or.inr (Or.inr ⟨h₁, h₂, Nat.le_of_not_lt h₉, ?_⟩)
    simp only [Query.escaped, beq_iff_eq, *, if_false]

/-- An escaped character is written without anything below the space. -/
theorem le_of_mem_escaped {c d : Char} (h : d ∈ Query.escaped c) : 32 ≤ d.toNat := by
  rcases escaped_cases c with ⟨e, -, he, -, hc⟩ | ⟨hlt, hc⟩ | ⟨-, -, hle, hc⟩
  · rw [hc, List.mem_cons, List.mem_singleton] at h
    rcases h with rfl | rfl
    · decide
    · exact he
  · have hdigits : ∀ n < 32, (hexDigits 4 n).all (fun x => 32 ≤ x.toNat) = true := by decide
    rw [hc, List.mem_cons, List.mem_cons] at h
    rcases h with rfl | rfl | h
    · decide
    · decide
    · exact of_decide_eq_true (List.all_eq_true.mp (hdigits _ hlt) d h)
  · rw [hc, List.mem_singleton] at h
    rwa [h]

/-- Nothing in a string literal stands below the space, so that it ends no line. -/
theorem le_of_mem_stringLiteral {cs : List Char} {d : Char} (h : d ∈ Query.stringLiteral cs) :
    32 ≤ d.toNat := by
  simp only [Query.stringLiteral, List.cons_append, List.mem_cons, List.mem_append, List.mem_flatMap,
    List.not_mem_nil, or_false] at h
  rcases h with rfl | ⟨c, -, hd⟩ | rfl
  · decide
  · exact le_of_mem_escaped hd
  · decide

/-- An escaped character is read as the character. -/
theorem readString_escaped (c : Char) (fuel : Nat) (r : List Char) :
    readString (fuel + 1) (Query.escaped c ++ r) =
      (readString fuel r).map fun p => (c :: p.1, p.2) := by
  rcases escaped_cases c with ⟨e, hu, -, he, hc⟩ | ⟨hlt, hc⟩ | ⟨h₁, h₂, hle, hc⟩
  · rw [hc]
    refine readString_escape (s := e :: r) ?_ fuel
    unfold readEscape
    split <;> simp_all
  · have hhex := readEscape_hex hlt r
    rw [Char.ofNat_toNat] at hhex
    rw [hc]
    exact readString_escape hhex fuel
  · have h₃ : c ≠ '\n' := by
      rintro rfl
      exact absurd hle (by decide)
    have h₄ : c ≠ '\r' := by
      rintro rfl
      exact absurd hle (by decide)
    rw [hc]
    exact readString_plain h₁ h₂ h₃ h₄ fuel r

/-- A string literal is read as its characters. -/
theorem readString_escapes (cs : List Char) {fuel : Nat} (h : cs.length < fuel) (rest : List Char) :
    readString fuel (cs.flatMap Query.escaped ++ '"' :: rest) = some (cs, rest) := by
  induction cs generalizing fuel with
  | nil =>
    obtain ⟨n, rfl⟩ := Nat.exists_eq_add_one_of_ne_zero (Nat.ne_zero_of_lt h)
    rfl
  | cons c cs ih =>
    obtain ⟨n, rfl⟩ := Nat.exists_eq_add_one_of_ne_zero (by omega : fuel ≠ 0)
    simp only [List.length_cons, Nat.add_lt_add_iff_right] at h
    rw [List.flatMap_cons, List.append_assoc, readString_escaped, ih h]
    rfl

theorem readToken_string {s : List Char} (h : ∀ r, s ≠ '"' :: '"' :: r) :
    readToken ('"' :: s) =
      (readString (s.length + 1) s).map fun p => (.string (String.ofList p.1) false, p.2) := by
  unfold readToken
  split
  · simp at *
  · simp_all
  · rename_i heq; cases heq; exact absurd rfl (h _)
  · rename_i heq; cases heq; cases readString (s.length + 1) s <;> rfl
  · rename_i hq heq; cases heq; exact absurd rfl hq

/-- An escaped character begins with no quote. -/
theorem escaped_ne (c : Char) (r s : List Char) : Query.escaped c ++ r ≠ '"' :: s := by
  rcases escaped_cases c with ⟨e, -, -, -, hc⟩ | ⟨-, hc⟩ | ⟨h, -, -, hc⟩
  · simp [hc]
  · simp [hc]
  · simp [hc, h]

theorem length_le_escapes (cs : List Char) : cs.length ≤ (cs.flatMap Query.escaped).length := by
  induction cs with
  | nil => exact Nat.le_refl _
  | cons c cs ih =>
    have hc : 1 ≤ (Query.escaped c).length := by
      rcases escaped_cases c with ⟨e, -, -, -, hc⟩ | ⟨-, hc⟩ | ⟨-, -, -, hc⟩ <;> simp [hc]
    rw [List.flatMap_cons, List.length_append, List.length_cons]
    omega

/-- The text begins with the three quotes that open a block string. -/
def OpensBlock (cs : List Char) : Prop :=
  ['"', '"', '"'] <+: cs

/-- A string literal opens a block only where nothing stands in it and a quote follows. -/
theorem opensBlock_stringLiteral_iff {cs rest : List Char} :
    OpensBlock (Query.stringLiteral cs ++ rest) ↔ cs = [] ∧ rest.head? = some '"' := by
  cases cs with
  | nil => cases rest <;> simp [OpensBlock, Query.stringLiteral, eq_comm]
  | cons c cs =>
    refine iff_of_false ?_ (by simp)
    rintro ⟨r, hr⟩
    have htext : Query.stringLiteral (c :: cs) ++ rest =
        '"' :: (Query.escaped c ++ (cs.flatMap Query.escaped ++ '"' :: rest)) := by
      simp [Query.stringLiteral]
    rw [htext] at hr
    exact escaped_ne _ _ _ (List.cons.inj hr).2.symm

/-- A string literal is read as one string, unless it opens a block. -/
theorem readToken_of_not_opensBlock (cs : List Char) {rest : List Char}
    (h : ¬ OpensBlock (Query.stringLiteral cs ++ rest)) :
    readToken (Query.stringLiteral cs ++ rest) = some (.string (String.ofList cs) false, rest) := by
  have htext : Query.stringLiteral cs ++ rest =
      '"' :: (cs.flatMap Query.escaped ++ '"' :: rest) := by
    simp [Query.stringLiteral]
  have hblock : ∀ r, cs.flatMap Query.escaped ++ '"' :: rest ≠ '"' :: '"' :: r := by
    intro r hr
    exact h ⟨r, by rw [htext, hr]; rfl⟩
  have hfuel : cs.length < (cs.flatMap Query.escaped ++ '"' :: rest).length + 1 := by
    have := length_le_escapes cs
    simp only [List.length_append]
    omega
  rw [htext, readToken_string hblock, readString_escapes cs hfuel rest]
  rfl

theorem not_opensBlock_of_breaks (cs : List Char) {rest : List Char}
    (hr : rest = [] ∨ breaks rest = true) : ¬ OpensBlock (Query.stringLiteral cs ++ rest) := by
  rw [opensBlock_stringLiteral_iff]
  rintro ⟨-, hquote⟩
  cases rest with
  | nil => cases hquote
  | cons c r =>
    rw [List.head?_cons, Option.some.injEq] at hquote
    subst hquote
    exact absurd (hr.resolve_left (List.cons_ne_nil _ _)) (by simp [breaks])

theorem readToken_stringLiteral (cs : List Char) {rest : List Char}
    (hr : rest = [] ∨ breaks rest = true) :
    readToken (Query.stringLiteral cs ++ rest) = some (.string (String.ofList cs) false, rest) :=
  readToken_of_not_opensBlock cs (not_opensBlock_of_breaks cs hr)

theorem tokens?_of_not_opensBlock (cs : List Char) {rest : List Char}
    (h : ¬ OpensBlock (Query.stringLiteral cs ++ rest)) :
    tokens? (Query.stringLiteral cs ++ rest) =
      (tokens? rest).map (.string (String.ofList cs) false :: ·) := by
  have hread := readToken_of_not_opensBlock cs h
  rw [Query.stringLiteral, List.cons_append, List.cons_append] at hread ⊢
  rw [tokens?_token (by decide) (by decide), hread]
  rfl

theorem scans_string (cs : List Char) :
    Scans (Query.stringLiteral cs) (some [.string (String.ofList cs) false]) :=
  fun _ hr => tokens?_of_not_opensBlock cs (not_opensBlock_of_breaks cs hr)

/-- A string literal delimits itself: nothing in it stands below the space, so no line ends in it, and
in front of any text it is read as one token, the string that was escaped, which takes nothing of the
text. The one exception are the empty quotes in front of another quote, which open a block string. -/
theorem stringLiteral_delimited (s : String) (rest : List Char) :
    (∀ c ∈ Query.stringLiteral s.toList, 32 ≤ c.toNat) ∧
    (OpensBlock (Query.stringLiteral s.toList ++ rest) ↔ s = "" ∧ rest.head? = some '"') ∧
    (¬ OpensBlock (Query.stringLiteral s.toList ++ rest) →
      readToken (Query.stringLiteral s.toList ++ rest) = some (.string s false, rest) ∧
      tokens? (Query.stringLiteral s.toList ++ rest) = (tokens? rest).map (.string s false :: ·)) := by
  have hread (h : ¬ OpensBlock (Query.stringLiteral s.toList ++ rest)) :=
    readToken_of_not_opensBlock s.toList h
  have htokens (h : ¬ OpensBlock (Query.stringLiteral s.toList ++ rest)) :=
    tokens?_of_not_opensBlock s.toList h
  rw [String.ofList_toList] at hread htokens
  refine ⟨fun c => le_of_mem_stringLiteral, ?_, fun h => ⟨hread h, htokens h⟩⟩
  rw [opensBlock_stringLiteral_iff, String.toList_eq_nil_iff]

/-- Quotes, escapes and an end of a line in a literal, and a quote right behind it. -/
theorem awkward_delimited :
    ¬ OpensBlock (Query.stringLiteral "\"\\\n\x01".toList ++ "\"a\"".toList) ∧
    readToken (Query.stringLiteral "\"\\\n\x01".toList ++ "\"a\"".toList) =
      some (.string "\"\\\n\x01" false, "\"a\"".toList) ∧
    tokens? (Query.stringLiteral "\"\\\n\x01".toList ++ "\"a\"".toList) =
      some [.string "\"\\\n\x01" false, .string "a" false] := by
  obtain ⟨-, hopens, hread⟩ := stringLiteral_delimited "\"\\\n\x01" "\"a\"".toList
  have h : ¬ OpensBlock (Query.stringLiteral "\"\\\n\x01".toList ++ "\"a\"".toList) := by
    rw [hopens]
    decide
  exact ⟨h, (hread h).1, (hread h).2⟩

/-! ### Names and types with a line feed at the end -/

/-- The name that a text accepted as one stands for: a line feed at the end is no part of it. -/
def bareName (s : String) : String :=
  String.ofList (Query.dropLineFeed s.toList)

/-- A line feed at the end changes no token. -/
theorem Scans.lineFeed {cs : List Char} {ts : Option (List Token)}
    (h : Scans (Query.dropLineFeed cs) ts) : Scans cs ts := by
  unfold Query.dropLineFeed at h
  split at h
  · rename_i hl
    simp only [beq_iff_eq] at hl
    obtain ⟨p, rfl⟩ := List.getLast?_eq_some_iff.mp hl
    rw [List.dropLast_concat] at h
    have := h.append (closes_nil.ignored (c := '\n') rfl).scans rfl
    rwa [follow_some_nil] at this
  · exact h

theorem scans_acceptedName {s : String} (h : Query.acceptsName s = true) :
    Scans s.toList (some [.name (bareName s)]) :=
  (scans_name h).lineFeed

theorem bareName_eq {s : String} (h : isGraphQLName s = true) : bareName s = s := by
  have hl : s.toList.getLast? ≠ some '\n' := by
    intro hl
    have hm : '\n' ∈ s.toList := List.mem_of_getLast? hl
    unfold isGraphQLName isGraphQLNameChars at h
    split at h
    · cases h
    · rename_i c r heq
      rw [heq, List.mem_cons] at hm
      simp only [Bool.and_eq_true] at h
      rcases hm with rfl | hm
      · exact absurd h.1 (by decide)
      · exact absurd (List.all_eq_true.mp h.2 _ hm) (by decide)
  rw [bareName, Query.dropLineFeed, if_neg (by simpa using hl), String.ofList_toList]

/-- The text that an accepted name stands for is a name. -/
theorem isGraphQLName_bareName {s : String} (h : Query.acceptsName s = true) :
    isGraphQLName (bareName s) = true := by
  simpa [isGraphQLName, bareName, Query.acceptsName] using h

theorem closes_isClosing {cs : List Char} (h : Query.isClosing cs = true) :
    (∃ ts, Closes cs (some ts)) ∧ (cs = [] ∨ breaks cs = true) := by
  fun_induction Query.isClosing cs with
  | case1 => exact ⟨⟨[], closes_nil⟩, Or.inl rfl⟩
  | case2 r ih =>
    obtain ⟨⟨ts, hts⟩, -⟩ := ih h
    exact ⟨⟨_, (hts.sign (c := '!') (by decide)).sign (by decide)⟩, Or.inr rfl⟩
  | case3 r _ ih =>
    obtain ⟨⟨ts, hts⟩, -⟩ := ih h
    exact ⟨⟨_, hts.sign (by decide)⟩, Or.inr rfl⟩
  | case4 => cases h

theorem closes_isTypeEnd {cs : List Char} (h : Query.isTypeEnd cs = true) :
    (∃ ts, Closes cs (some ts)) ∧ (cs = [] ∨ breaks cs = true) := by
  unfold Query.isTypeEnd at h
  split at h
  · obtain ⟨⟨ts, hts⟩, -⟩ := closes_isClosing h
    exact ⟨⟨_, hts.sign (by decide)⟩, Or.inr rfl⟩
  · exact closes_isClosing h

/-- The text of a type has tokens of its own, even where its brackets do not pair up. -/
theorem scans_acceptedType {s : String} (h : Query.acceptsTypeName s = true) :
    ∃ ts, Scans s.toList (some ts) := by
  unfold Query.acceptsTypeName at h
  dsimp only at h
  generalize hd : Query.dropLineFeed s.toList = cs at h
  suffices key : ∃ ts, Scans cs (some ts) by
    obtain ⟨ts, hts⟩ := key
    exact ⟨ts, Scans.lineFeed (hd ▸ hts)⟩
  clear hd
  induction cs with
  | nil => cases h
  | cons c r ih =>
    by_cases hc : c = '['
    · subst hc
      obtain ⟨ts, hts⟩ := ih (by simpa using h)
      exact ⟨_, hts.sign (by decide)⟩
    · rw [List.dropWhile_cons_of_neg (by simpa using hc)] at h
      simp only [Bool.and_eq_true] at h
      obtain ⟨⟨ts, hts⟩, hb⟩ := closes_isTypeEnd h.2
      have hn : Scans (c :: r.takeWhile isNameChar)
          (some [.name (String.ofList (c :: r.takeWhile isNameChar))]) := by
        refine scans_name ?_
        simp [isGraphQLNameChars, h.1]
      have htext : c :: r = (c :: r.takeWhile isNameChar) ++ r.dropWhile isNameChar := by
        simp
      rw [htext]
      rcases hb with hb | hb
      · rw [hb, List.append_nil]; exact ⟨_, hn⟩
      · exact ⟨_, (hn.append hts.scans hb)⟩

end Bindery.Definition
