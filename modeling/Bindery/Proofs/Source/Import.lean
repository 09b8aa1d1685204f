import Bindery.Proofs.Lexical.Numeral
import Bindery.Proofs.Text.Identifier
import Bindery.Source.Program

/-!
# Lines that import a class

A line that imports a class from a module beside it is a program exactly if both are usable names.
Class names and modules are words: where a word is a keyword, the scanner reads it as one, and the
grammar wants a name there; where it begins with a digit, a number stands in its place; and where it
is no identifier, the line has no tokens.

## What is proved

* `takeToken_word`, `takeToken_number` — which token a word is.
* `prefix_of_scanFrom` — tokens that were taken remain.
* `of_isStatements_from` — an import that is a statement can be read.
* `isProgram_import` — when a line that imports a class is a program.
-/

namespace Bindery.Source

open Bindery.Text

/-! ### Words -/

/-- Is the text made of the characters of names? -/
def isWord (s : String) : Bool :=
  s.toList.all isWordChar

theorem isWordChar_eq (c : Char) : isWordChar c = inClass isNameChar anyScalar c := by
  have hvalid : c.toNat < 0xD800 ∨ 0xDFFF < c.toNat ∧ c.toNat < 0x110000 := c.valid
  rw [isWordChar, inClass]
  split_ifs with hascii
  · simp [isNameChar, hascii]
  · have hlarge : decide (c.toNat ≥ 128) = true := by simpa using hascii
    have hranges : inRanges anyScalar c = true := by
      rw [inRanges_eq_true]
      rcases hvalid with h | ⟨h, h'⟩
      · exact ⟨(0x80, 0xD7FF), by simp [anyScalar], by simpa using hascii, by simp; omega⟩
      · exact ⟨(0xE000, 0x10FFFF), by simp [anyScalar], by simp; omega, by simp; omega⟩
    rw [hlarge, hranges, Bool.or_true]

/-- A character of a word is none that is not. -/
theorem ne_of_isWordChar {c d : Char} (hc : isWordChar c = true) (hd : isWordChar d = false) :
    c ≠ d := by
  rintro rfl
  exact absurd (hc.symm.trans hd) (by decide)

/-- The snake case form of a word is a word. -/
theorem isWord_snakeCase {s : String} (h : isWord s = true) :
    isWord (Label.snakeCase s) = true := by
  simp only [isWord, List.all_eq_true, isWordChar_eq] at h ⊢
  rw [Label.snakeCase, String.toList_ofList]
  refine caseClosed_word.lowerFrom (by decide) (fun c hc => ?_) []
  cases hs : s.toList with
  | nil =>
    rw [hs] at hc
    cases hc
  | cons d r =>
    rw [hs] at h hc
    rcases List.mem_cons.mp hc with rfl | hc
    · exact h c List.mem_cons_self
    · rcases mem_separateFrom hc with hc | rfl
      · exact h c (List.mem_cons_of_mem _ hc)
      · decide

/-! ### The tokens of words -/

section Scan

variable {c d : Char} {r rest : List Char} {w : String} {k : Nat} {taken ts : List Token}

/-- The token of a word without a digit in front. -/
def wordToken? (w : String) : Option Token :=
  if isKeyword w then some (.keyword w)
  else if isIdentifier w then some (.name w)
  else none

/-- A word that ends before a blank is a keyword, a name or nothing. -/
theorem takeToken_word (hword : ∀ e ∈ c :: r, isWordChar e = true) (hc : c.isDigit = false)
    (hd : d = ' ' ∨ d = '\n') :
    takeToken ((c :: r) ++ d :: rest) =
      (wordToken? (String.ofList (c :: r))).map fun t => (t, d :: rest) := by
  have hend : isWordChar d = false := by
    rcases hd with rfl | rfl <;> decide
  have hquote : (some d).filter (fun e => e == '\'' || e == '"') = none := by
    rcases hd with rfl | rfl <;> rfl
  have hfirst := hword c List.mem_cons_self
  have htake : ((c :: r) ++ d :: rest).takeWhile isWordChar = c :: r := by
    rw [List.takeWhile_append_of_pos hword, List.takeWhile_cons_of_neg (by simp [hend]),
      List.append_nil]
  have hdrop : ((c :: r) ++ d :: rest).dropWhile isWordChar = d :: rest := by
    rw [List.dropWhile_append_of_pos hword, List.dropWhile_cons_of_neg (by simp [hend])]
  have hdot : (c == '.') = false := by
    simpa using ne_of_isWordChar hfirst (show isWordChar '.' = false by decide)
  rw [List.cons_append, takeToken, if_neg (by simp [hc, hdot]), if_pos (by simp [hfirst]),
    ← List.cons_append, takeWord, htake, hdrop, List.head?_cons, hquote]
  simp only [wordToken?]
  split_ifs <;> rfl

/-- A digit begins a number, and so does a point before a digit. -/
theorem takeToken_number (h : c.isDigit = true ∨ c = '.' ∧ r.head?.any Char.isDigit = true)
    {p : Token × List Char} (hp : takeToken (c :: r) = some p) : ∃ i, p.1 = .number i := by
  rw [takeToken, if_pos (by rcases h with h | ⟨rfl, h⟩ <;> simp [h]), Option.map_eq_some_iff] at hp
  obtain ⟨⟨i, rest⟩, -, rfl⟩ := hp
  exact ⟨i, rfl⟩

/-- A point before a word is a sign. -/
theorem takeToken_point (hc : isWordChar c = true) (hdigit : c.isDigit = false) :
    takeToken ('.' :: c :: r) = some (.sign ".", c :: r) := by
  have hpoint : (('.' : Char) == c) = false := by
    simpa using (ne_of_isWordChar hc (show isWordChar '.' = false by decide)).symm
  have hsigns : (longSigns.find? fun s => s.isPrefixOf ('.' :: c :: r)) = none := by
    simp [longSigns, List.isPrefixOf, hpoint]
  rw [takeToken, if_neg (by simp [hdigit]), if_neg (by decide), takeSign, hsigns]
  rfl

/-- The scanner takes the token that begins with a character of a word or a point. -/
theorem scanFrom_token (hc : isWordChar c = true ∨ c = '.') :
    scanFrom (k + 1) false {} taken (c :: r) =
      (takeToken (c :: r)).bind fun p => scanFrom k false {} (p.1 :: taken) p.2 := by
  have hne : ∀ d, isWordChar d = false → d ≠ '.' → c ≠ d := by
    rintro d hd hpoint rfl
    rcases hc with hc | hc
    · exact ne_of_isWordChar hc hd rfl
    · exact hpoint hc
  have hopens : opensBracket c = false := by
    simp [opensBracket, hne '(' (by decide) (by decide), hne '[' (by decide) (by decide),
      hne '\x7b' (by decide) (by decide)]
  have hcloses : closesBracket c = false := by
    simp [closesBracket, hne ')' (by decide) (by decide), hne ']' (by decide) (by decide),
      hne '\x7d' (by decide) (by decide)]
  rw [scanFrom]
  · rw [if_neg (by simp [hne ' ' (by decide) (by decide), hne '\t' (by decide) (by decide),
      hne '\x0c' (by decide) (by decide)]), if_neg (by simp [hne '#' (by decide) (by decide)]),
      Nesting.bracket, hopens, hcloses]
    rfl
  · exact hne '\n' (by decide) (by decide)
  · exact fun _ _ h => absurd h (hne '\\' (by decide) (by decide))
  · exact hne '\\' (by decide) (by decide)

theorem scanFrom_blank :
    scanFrom (k + 1) false {} taken (' ' :: r) = scanFrom k false {} taken r := rfl

/-- Tokens that were taken remain. -/
theorem prefix_of_scanFrom {atStart : Bool} {n : Nesting} {cs : List Char}
    (h : scanFrom k atStart n taken cs = some ts) : taken.reverse <+: ts := by
  induction k generalizing atStart n taken cs with
  | zero => cases h
  | succ k ih =>
    -- Where a step takes tokens, they stand before those that were taken.
    have hmore : ∀ us {atStart n cs}, scanFrom k atStart n (us ++ taken) cs = some ts →
        taken.reverse <+: ts := by
      intro us atStart n cs h
      have hlonger := ih h
      rw [List.reverse_append] at hlonger
      exact (List.prefix_append _ _).trans hlonger
    cases atStart with
    | true =>
      simp only [scanFrom, Option.bind_eq_bind, Option.bind_eq_some_iff] at h
      obtain ⟨⟨i, r⟩, -, h⟩ := h
      cases r with
      | nil =>
        dsimp only at h
        split_ifs at h
        rw [← Option.some.inj h, List.reverse_append]
        exact List.prefix_append _ _
      | cons c r =>
        dsimp only at h
        split_ifs at h
        · exact ih h
        · exact ih h
        · obtain ⟨⟨us, m⟩, -, h⟩ := Option.bind_eq_some_iff.mp h
          exact hmore us h
    | false =>
      rw [scanFrom.eq_def] at h
      dsimp only at h
      split at h
      · cases h
      · split_ifs at h
        · exact hmore [.newline] h
        · exact ih h
      · exact ih h
      · cases h
      · split_ifs at h
        · exact ih h
        · exact ih h
        · obtain ⟨m, -, h⟩ := Option.bind_eq_some_iff.mp h
          obtain ⟨⟨t, r⟩, -, h⟩ := Option.bind_eq_some_iff.mp h
          exact hmore [t] h

end Scan

/-! ### Imports as statements -/

section Statement

variable {k : Nat} {ts r : List Token} {m n w : String} {t : Token}

theorem readFromImport_number {i : Bool} : readFromImport (k + 3) (.number i :: r) = none := rfl

theorem readFromImport_keyword :
    readFromImport (k + 3) (.sign "." :: .keyword w :: .keyword "import" :: r) = none := by
  by_cases h : w = "import"
  · subst h
    rfl
  · have hpoints : readPoints (k + 3) (.sign "." :: .keyword w :: .keyword "import" :: r) =
        some (true, .keyword w :: .keyword "import" :: r) := rfl
    have hcomes : comes (.keyword "import") (.keyword w :: .keyword "import" :: r) =
        some (false, .keyword w :: .keyword "import" :: r) := by
      simp [comes, h]
    simp only [readFromImport, bind, StateT.bind, hpoints, Option.bind_some, hcomes, Bool.and_false]
    rfl

theorem readFromImport_target (hname : ∀ s, t ≠ .name s) (hsign : ∀ s, t ≠ .sign s) :
    readFromImport (k + 3) (.sign "." :: .name m :: .keyword "import" :: t :: r) = none := by
  cases t with
  | name s => exact absurd rfl (hname s)
  | sign s => exact absurd rfl (hsign s)
  | keyword | number | literal | newline | indent | dedent => rfl

/-- An import that is a statement can be read. -/
theorem of_isStatements_from (h : isStatements (.keyword "from" :: ts) = true) :
    ∃ r, readFromImport (ts.length + 3) ts = some ((), r) := by
  cases hread : readFromImport (ts.length + 3) ts with
  | some p => exact ⟨p.2, rfl⟩
  | none =>
    have hline : readLine (ts.length + 3) (ts.length + 3) (.keyword "from" :: ts) = none := by
      change (readFromImport (ts.length + 3) ts).bind _ = none
      rw [hread]
      rfl
    have hstatements : readStatements (ts.length + 3) (.keyword "from" :: ts) = none := by
      change (readLine (ts.length + 3) (ts.length + 3) (.keyword "from" :: ts)).bind _ = none
      rw [hline]
      rfl
    rw [isStatements, boundOf, List.length_cons, hstatements] at h
    cases h

end Statement

/-! ### Lines that import a class -/

section Line

variable {k : Nat} {ts taken : List Token} {w m n : String} {rest cs : List Char} {d : Char}
  {t : Token}

/-- Does a digit begin the text? -/
def startsWithDigit (w : String) : Bool :=
  w.toList.head?.any Char.isDigit

theorem of_wordToken? (h : wordToken? w = some t) :
    t = .keyword w ∨ t = .name w ∧ isUsableName w = true := by
  rw [wordToken?] at h
  split_ifs at h with hkeyword hidentifier
  · exact .inl (Option.some.inj h).symm
  · exact .inr ⟨(Option.some.inj h).symm, by simp [isUsableName, hkeyword, hidentifier]⟩

theorem isWordChar_of_isIdentifierChar {c : Char} (h : isIdentifierChar c = true) :
    isWordChar c = true := by
  by_cases hascii : c.toNat < 0x80
  · rw [isIdentifierChar, if_pos hascii] at h
    rwa [isWordChar_eq, inClass, if_pos hascii]
  · rw [isWordChar, Bool.or_eq_true]
    exact .inr (by simpa using hascii)

theorem of_isIdentifierStart {c : Char} (h : isIdentifierStart c = true) :
    isWordChar c = true ∧ c.isDigit = false := by
  by_cases hascii : c.toNat < 0x80
  · rw [isIdentifierStart, if_pos hascii] at h
    refine ⟨?_, Bool.eq_false_iff.mpr fun hdigit => ?_⟩
    · rw [isWordChar_eq, inClass, if_pos hascii]
      exact Definition.isNameChar_of_isNameStart h
    · obtain ⟨-, -, -, -, -, hname, -⟩ := Definition.begins_number (.inr hdigit)
      rw [h] at hname
      cases hname
  · refine ⟨?_, Bool.eq_false_iff.mpr fun hdigit => hascii ?_⟩
    · rw [isWordChar, Bool.or_eq_true]
      exact .inr (by simpa using hascii)
    · exact Label.ascii_of_isAlphanum (by rw [Char.isAlphanum, hdigit, Bool.or_true])

/-- An identifier is a word that no digit begins. -/
theorem word_of_isIdentifier (h : isIdentifier w = true) :
    isWord w = true ∧ startsWithDigit w = false ∧ w ≠ "" := by
  rw [isIdentifier] at h
  cases hchars : w.toList with
  | nil =>
    rw [hchars] at h
    cases h
  | cons c r =>
    rw [hchars, isIdentifierChars, Bool.and_eq_true, List.all_eq_true] at h
    obtain ⟨hword, hdigit⟩ := of_isIdentifierStart h.1
    refine ⟨?_, ?_, ?_⟩
    · rw [isWord, hchars, List.all_eq_true, List.forall_mem_cons]
      exact ⟨hword, fun d hd => isWordChar_of_isIdentifierChar (h.2 d hd)⟩
    · rw [startsWithDigit, hchars]
      exact hdigit
    · rintro rfl
      cases hchars

/-- The characters of a word that no digit begins. -/
theorem exists_letter (hw : isWord w = true) (hdigit : startsWithDigit w = false) (hne : w ≠ "") :
    ∃ c r, w.toList = c :: r ∧ (∀ e ∈ c :: r, isWordChar e = true) ∧ c.isDigit = false := by
  rw [isWord, List.all_eq_true] at hw
  rw [startsWithDigit] at hdigit
  cases hchars : w.toList with
  | nil => exact absurd (String.toList_inj.mp hchars) hne
  | cons c r =>
    rw [hchars] at hw hdigit
    exact ⟨c, r, rfl, hw, hdigit⟩

/-- The characters of a word that a digit begins. -/
theorem exists_digit (h : startsWithDigit w = true) :
    ∃ c r, w.toList = c :: r ∧ c.isDigit = true := by
  rw [startsWithDigit] at h
  cases hchars : w.toList with
  | nil =>
    rw [hchars] at h
    cases h
  | cons c r =>
    rw [hchars] at h
    exact ⟨c, r, rfl, h⟩

/-- The scanner reads a word that no digit begins as one token. -/
theorem scanFrom_word (hw : isWord w = true) (hdigit : startsWithDigit w = false) (hne : w ≠ "")
    (hd : d = ' ' ∨ d = '\n') :
    scanFrom (k + 1) false {} taken (w.toList ++ d :: rest) =
      (wordToken? w).bind fun t => scanFrom k false {} (t :: taken) (d :: rest) := by
  obtain ⟨c, r, hchars, hword, hc⟩ := exists_letter hw hdigit hne
  rw [hchars, List.cons_append, scanFrom_token (.inl (hword c List.mem_cons_self)),
    ← List.cons_append, takeToken_word hword hc hd, ← hchars, String.ofList_toList, Option.bind_map]
  rfl

/-- A word that a digit begins is read as a number. -/
theorem prefix_of_startsWithDigit (hdigit : startsWithDigit w = true)
    (h : scanFrom (k + 1) false {} taken (w.toList ++ rest) = some ts) :
    ∃ i, (Token.number i :: taken).reverse <+: ts := by
  obtain ⟨c, r, hchars, hc⟩ := exists_digit hdigit
  have hword : isWordChar c = true := by rw [isWordChar, Char.isAlphanum, hc, Bool.or_true]; rfl
  rw [hchars, List.cons_append, scanFrom_token (.inl hword)] at h
  obtain ⟨⟨t, r'⟩, hp, h⟩ := Option.bind_eq_some_iff.mp h
  obtain ⟨i, rfl⟩ := takeToken_number (.inl hc) hp
  exact ⟨i, prefix_of_scanFrom h⟩

/-- A point before a word is a sign, unless a digit begins the word. -/
theorem scanFrom_point (hw : isWord w = true) (hdigit : startsWithDigit w = false) (hne : w ≠ "") :
    scanFrom (k + 1) false {} taken ('.' :: (w.toList ++ rest)) =
      scanFrom k false {} (.sign "." :: taken) (w.toList ++ rest) := by
  obtain ⟨c, r, hchars, hword, hc⟩ := exists_letter hw hdigit hne
  rw [scanFrom_token (.inr rfl), hchars, List.cons_append,
    takeToken_point (hword c List.mem_cons_self) hc, Option.bind_some]

theorem prefix_of_point (hdigit : startsWithDigit w = true)
    (h : scanFrom (k + 1) false {} taken ('.' :: (w.toList ++ rest)) = some ts) :
    ∃ i, (Token.number i :: taken).reverse <+: ts := by
  obtain ⟨c, r, hchars, hc⟩ := exists_digit hdigit
  rw [scanFrom_token (.inr rfl), hchars] at h
  obtain ⟨⟨t, r'⟩, hp, h⟩ := Option.bind_eq_some_iff.mp h
  have hhead : (c :: r ++ rest).head?.any Char.isDigit = true := hc
  obtain ⟨i, rfl⟩ := takeToken_number (.inr ⟨rfl, hhead⟩) hp
  exact ⟨i, prefix_of_scanFrom h⟩

/-- The scanner reads an identifier as a keyword or a name. -/
theorem scanFrom_identifier (hw : isIdentifier w = true) (hd : d = ' ' ∨ d = '\n') :
    scanFrom (k + 1) false {} taken (w.toList ++ d :: rest) =
      scanFrom k false {} ((if isKeyword w then .keyword w else .name w) :: taken) (d :: rest) := by
  obtain ⟨hword, hdigit, hne⟩ := word_of_isIdentifier hw
  rw [scanFrom_word hword hdigit hne hd, wordToken?]
  split_ifs <;> rfl

theorem unifyLines_eq (h : ∀ c ∈ cs, c ≠ '\r') : unifyLines cs = cs := by
  induction cs with
  | nil => rfl
  | cons c cs ih =>
    rw [List.forall_mem_cons] at h
    rw [unifyLines, ih h.2]
    · exact fun _ hc => absurd hc h.1
    · exact h.1

/-- The text of a line that is not ended. -/
theorem tokens?_line (hcs : ∀ c ∈ cs, c ≠ '\r' ∧ c ≠ '\n' ∧ c ≠ '\x00') (hne : cs ≠ []) :
    tokens? cs = scanFrom (2 * (cs.length + 1) + 2) true {} [] (cs ++ ['\n']) := by
  have hlast : cs.getLast?.all (· == '\n') = false := by
    rw [List.getLast?_eq_some_getLast hne, Option.all_some, beq_eq_false_iff_ne]
    exact (hcs _ (List.getLast_mem hne)).2.1
  have hnull : '\x00' ∉ cs := fun h => (hcs _ h).2.2 rfl
  simp only [tokens?, unifyLines_eq fun c hc => (hcs c hc).1, hlast, Bool.false_eq_true, if_false]
  rw [if_neg (by simp [hnull]), List.length_append]
  rfl

/-- A line with an import begins with a keyword. -/
theorem scanFrom_start (k : Nat) (rest : List Char) :
    scanFrom (k + 3) true {} [] ("from".toList ++ ' ' :: rest) =
      scanFrom k false {} [.keyword "from"] rest := by
  have hchars : "from".toList = ['f', 'r', 'o', 'm'] := by decide
  have hstart : scanFrom (k + 3) true {} [] ("from".toList ++ ' ' :: rest) =
      scanFrom (k + 2) false {} [] ("from".toList ++ ' ' :: rest) := by
    rw [hchars]
    rfl
  rw [hstart, scanFrom_identifier (by decide) (.inl rfl)]
  rfl

/-- The line that imports a class from a module beside it. -/
theorem tokens?_import (hm : isWord m = true) (hn : isWord n = true) :
    ∃ k, tokens? ("from ." ++ m ++ " import " ++ n).toList =
      scanFrom (k + 8) false {} [.keyword "from"]
        ('.' :: (m.toList ++ ' ' :: ("import".toList ++ ' ' :: (n.toList ++ ['\n'])))) := by
  have hplain : ∀ c ∈ ("from ." ++ m ++ " import " ++ n).toList,
      c ≠ '\r' ∧ c ≠ '\n' ∧ c ≠ '\x00' := by
    have hword : ∀ {w : String}, isWord w = true → ∀ c ∈ w.toList,
        c ≠ '\r' ∧ c ≠ '\n' ∧ c ≠ '\x00' := by
      intro w hw c hc
      have hchar := List.all_eq_true.mp hw c hc
      exact ⟨ne_of_isWordChar hchar (by decide), ne_of_isWordChar hchar (by decide),
        ne_of_isWordChar hchar (by decide)⟩
    have hfrom : ∀ c ∈ "from .".toList, c ≠ '\r' ∧ c ≠ '\n' ∧ c ≠ '\x00' := by simp
    have himport : ∀ c ∈ " import ".toList, c ≠ '\r' ∧ c ≠ '\n' ∧ c ≠ '\x00' := by simp
    intro c hc
    simp only [String.toList_append, List.mem_append] at hc
    rcases hc with ((hc | hc) | hc) | hc
    · exact hfrom c hc
    · exact hword hm c hc
    · exact himport c hc
    · exact hword hn c hc
  have hchars : ("from ." ++ m ++ " import " ++ n).toList ++ ['\n'] =
      "from".toList ++ ' ' :: '.' ::
        (m.toList ++ ' ' :: ("import".toList ++ ' ' :: (n.toList ++ ['\n']))) := by
    simp [String.toList_append]
  generalize hline : ("from ." ++ m ++ " import " ++ n).toList = line at hplain hchars ⊢
  have hne : line ≠ [] := by
    rw [← hline]
    simp
  rw [tokens?_line hplain hne, hchars]
  refine ⟨2 * line.length - 7, ?_⟩
  have hlength : 14 ≤ line.length := by
    have h := congrArg List.length hchars
    simp at h
    omega
  have hfuel : 2 * (line.length + 1) + 2 = 2 * line.length - 7 + 8 + 3 := by omega
  rw [hfuel]
  exact scanFrom_start _ _

/-- Tokens with which no import begins begin no statement. -/
theorem isStatements_eq_false {us : List Token} (hbegins : .keyword "from" :: us <+: ts)
    (hread : ∀ k r, readFromImport (k + 3) (us ++ r) = none) : isStatements ts = false := by
  obtain ⟨r, rfl⟩ := hbegins
  rw [List.cons_append, Bool.eq_false_iff]
  intro h
  obtain ⟨r', hr'⟩ := of_isStatements_from h
  rw [hread] at hr'
  cases hr'

/-- What is imported is a usable name: a keyword, a number and the end of the line are refused. -/
theorem usable_of_target (hn : isWord n = true)
    (hscan : scanFrom (k + 2) false {} [.keyword "import", .name m, .sign ".", .keyword "from"]
      (n.toList ++ ['\n']) = some ts)
    (h : isStatements ts = true) : isUsableName n = true := by
  have hrefused : ∀ t, (∀ s, t ≠ .name s) → (∀ s, t ≠ .sign s) →
      ¬ [.keyword "from", .sign ".", .name m, .keyword "import", t] <+: ts := by
    intro t hname hsign hbegins
    rw [isStatements_eq_false hbegins fun k r => readFromImport_target hname hsign] at h
    cases h
  by_cases hempty : n = ""
  · subst hempty
    have hline : scanFrom (k + 1) true {}
        [.newline, .keyword "import", .name m, .sign ".", .keyword "from"] [] = some ts := hscan
    exact absurd (prefix_of_scanFrom hline) (hrefused .newline nofun nofun)
  by_cases hdigit : startsWithDigit n = true
  · obtain ⟨i, hbegins⟩ := prefix_of_startsWithDigit hdigit hscan
    exact absurd hbegins (hrefused (.number i) nofun nofun)
  rw [scanFrom_word hn (by simpa using hdigit) hempty (.inr rfl)] at hscan
  obtain ⟨t, ht, hscan⟩ := Option.bind_eq_some_iff.mp hscan
  rcases of_wordToken? ht with rfl | ⟨-, husable⟩
  · exact absurd (prefix_of_scanFrom hscan) (hrefused (.keyword n) nofun nofun)
  · exact husable

/-- Where the line is scanned and its tokens form a statement, both words are usable names. -/
theorem usable_of_scanFrom (hm : isWord m = true) (hn : isWord n = true) (hne : m ≠ "")
    (hscan : scanFrom (k + 8) false {} [.keyword "from"]
      ('.' :: (m.toList ++ ' ' :: ("import".toList ++ ' ' :: (n.toList ++ ['\n'])))) = some ts)
    (h : isStatements ts = true) : isUsableName m = true ∧ isUsableName n = true := by
  by_cases hdigit : startsWithDigit m = true
  · obtain ⟨i, hbegins⟩ := prefix_of_point hdigit hscan
    rw [isStatements_eq_false hbegins fun k r => readFromImport_number] at h
    cases h
  have hdigit : startsWithDigit m = false := by simpa using hdigit
  rw [scanFrom_point hm hdigit hne, scanFrom_word hm hdigit hne (.inl rfl)] at hscan
  obtain ⟨t, ht, hscan⟩ := Option.bind_eq_some_iff.mp hscan
  rw [scanFrom_blank, scanFrom_identifier (by decide) (.inl rfl), scanFrom_blank] at hscan
  rcases of_wordToken? ht with rfl | ⟨rfl, husable⟩
  · rw [isStatements_eq_false (prefix_of_scanFrom hscan) fun k r => readFromImport_keyword] at h
    cases h
  · exact ⟨husable, usable_of_target hn hscan h⟩

/-- **A line that imports a class from a module beside it is a program exactly if both are usable
names.** -/
theorem isProgram_import (hm : isWord m = true) (hn : isWord n = true) (hne : m ≠ "") :
    isProgram ("from ." ++ m ++ " import " ++ n) = true ↔
      isUsableName m = true ∧ isUsableName n = true := by
  obtain ⟨k, htokens⟩ := tokens?_import hm hn
  rw [isProgram, htokens]
  constructor
  · intro h
    split at h
    · cases h
    · rename_i ts hscan
      rw [Bool.and_eq_true] at h
      exact usable_of_scanFrom hm hn hne hscan h.1
  · rintro ⟨hmodule, hclass⟩
    obtain ⟨hname, hkeyword⟩ := Bool.and_eq_true_iff.mp hmodule
    obtain ⟨hname', hkeyword'⟩ := Bool.and_eq_true_iff.mp hclass
    rw [Bool.not_eq_true'] at hkeyword hkeyword'
    rw [scanFrom_point hm (word_of_isIdentifier hname).2.1 hne,
      scanFrom_identifier hname (.inl rfl), scanFrom_blank,
      scanFrom_identifier (by decide) (.inl rfl), scanFrom_blank,
      scanFrom_identifier hname' (.inr rfl), hkeyword, hkeyword']
    rfl

end Line

end Bindery.Source
