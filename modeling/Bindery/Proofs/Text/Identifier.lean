import Bindery.Proofs.Label.Forms
import Bindery.Text.Identifier

/-!
# Identifiers in snake case

The lower case form of a letter is a letter, and that of any character of an identifier may stand in
one. So the snake case form of an identifier is an identifier. Above ASCII this is read off the
tables: all code points that a run of the lower case mapping spans move into a class, or none of them
is in the class. With the code points of a class as the bits of a number, that is one comparison of
numbers for each run.

## What is proved

* `testBit_bitsOf` — the bits of ranges are their code points.
* `CaseClosed.lowerAt` — the lower case form of a character of a class begins in the class.
* `caseClosed_start`, `caseClosed_continue`, `caseClosed_word` — the classes for which this holds.
* `isIdentifier_snakeCase` — the snake case form of an identifier is an identifier.
-/

namespace Bindery.Text

/-! ### Classes of characters -/

/-- The class of characters that a test gives for ASCII and ranges for all others. -/
def inClass (ascii : Char → Bool) (table : List Range) (c : Char) : Bool :=
  if c.toNat < 0x80 then ascii c else inRanges table c

/-- The code points of ranges as the bits of a number. -/
def bitsOf : List Range → Nat
  | [] => 0
  | g :: table => bitsOf table ||| (2 ^ (g.2 + 1 - g.1) - 1) <<< g.1

/-- Are these bits of a number not set? -/
def isClear (bits first count : Nat) : Bool :=
  (bits >>> first) % 2 ^ count == 0

/-- Are these bits of a number set? -/
def isFull (bits first count : Nat) : Bool :=
  (bits >>> first) % 2 ^ count == 2 ^ count - 1

/-- How many code points the run spans. -/
def Run.span (r : Run) : Nat :=
  r.last + 1 - r.first

/-- Does the run move its code points to those that are given by bits? -/
def Run.landsIn (r : Run) (bits : Nat) : Bool :=
  decide (0 ≤ r.first + r.shift) && isFull bits (Int.toNat (r.first + r.shift)) r.span

/-- Does the run move one code point to the letter `k`, as that of the Kelvin sign does? -/
def Run.isKelvin (r : Run) : Bool :=
  r.first == r.last && r.first + r.shift == 0x6B

/-- Are all code points those of characters above ASCII? -/
def areScalars (bits : Nat) : Bool :=
  isClear bits 0 0x80 && isClear bits 0xD800 0x800 && bits >>> 0x110000 == 0

/-- Does each run move into the class that bits give or to the letter `k`, or is it outside of the
class? -/
def isLowerClosed (bits : Nat) : Bool :=
  Table.lowerRuns.all fun r => r.landsIn bits || r.isKelvin || isClear bits r.first r.span

/-- Lower case leaves the first character in the class. -/
structure CaseClosed (ascii : Char → Bool) (table : List Range) : Prop where
  /-- ASCII characters of the class have their lower case forms in it. -/
  toLower : ∀ c, ascii c = true → ascii c.toLower = true
  /-- The letters to which characters above ASCII move are in the class. -/
  letters : ascii 'i' = true ∧ ascii 'k' = true
  /-- Both forms of the sigma are in the class. -/
  sigmas : inRanges table '\u03c2' = true ∧ inRanges table '\u03c3' = true
  /-- The ranges hold characters. -/
  scalars : areScalars (bitsOf table) = true
  /-- Characters above ASCII move into the class, to the letter `k`, or are outside the class. -/
  runs : isLowerClosed (bitsOf table) = true

section Bits

variable {table : List Range} {bits first count n m : Nat}

/-- The bits of a number from one place on. -/
theorem testBit_window (bits : Nat) (hfirst : first ≤ n) (hlast : n < first + count) :
    ((bits >>> first) % 2 ^ count).testBit (n - first) = bits.testBit n := by
  have hwithin : n - first < count := by omega
  rw [Nat.testBit_mod_two_pow, Nat.testBit_shiftRight, Nat.add_sub_cancel' hfirst,
    decide_eq_true hwithin, Bool.true_and]

theorem testBit_of_isClear (h : isClear bits first count = true) (hfirst : first ≤ n)
    (hlast : n < first + count) : bits.testBit n = false := by
  rw [isClear, beq_iff_eq] at h
  rw [← testBit_window bits hfirst hlast, h, Nat.zero_testBit]

theorem testBit_of_isFull (h : isFull bits first count = true) (hfirst : first ≤ n)
    (hlast : n < first + count) : bits.testBit n = true := by
  rw [isFull, beq_iff_eq] at h
  rw [← testBit_window bits hfirst hlast, h, Nat.testBit_two_pow_sub_one, decide_eq_true_eq]
  omega

/-- The bits of ranges are their code points. -/
theorem testBit_bitsOf (table : List Range) (n : Nat) :
    (bitsOf table).testBit n = table.any fun g => g.has n := by
  induction table with
  | nil => rw [bitsOf, Nat.zero_testBit, List.any_nil]
  | cons g table ih =>
    have hrange : ((2 ^ (g.2 + 1 - g.1) - 1) <<< g.1).testBit n = g.has n := by
      rw [Nat.testBit_shiftLeft, Nat.testBit_two_pow_sub_one, Bool.eq_iff_iff]
      simp only [Range.has, Bool.and_eq_true, decide_eq_true_eq]
      omega
    rw [bitsOf, Nat.testBit_or, ih, hrange, List.any_cons, Bool.or_comm]

theorem inRanges_eq_testBit (table : List Range) (c : Char) :
    inRanges table c = (bitsOf table).testBit c.toNat :=
  (testBit_bitsOf table c.toNat).symm

/-- Such code points are those of characters above ASCII. -/
theorem toNat_ofNat_of_areScalars (h : areScalars bits = true) (hn : bits.testBit n = true) :
    (Char.ofNat n).toNat = n ∧ 0x80 ≤ n := by
  simp only [areScalars, Bool.and_eq_true, beq_iff_eq] at h
  have hclear : ∀ first count, isClear bits first count = true → n < first ∨ first + count ≤ n := by
    intro first count hclear
    by_contra hin
    rw [testBit_of_isClear hclear (by omega) (by omega)] at hn
    cases hn
  have hlow := hclear 0 0x80 h.1.1
  have hsurrogate := hclear 0xD800 0x800 h.1.2
  have hhigh : n < 0x110000 := by
    by_contra hhigh
    have hbit : (bits >>> 0x110000).testBit (n - 0x110000) = false := by
      rw [h.2, Nat.zero_testBit]
    rw [Nat.testBit_shiftRight, Nat.add_sub_cancel' (by omega), hn] at hbit
    cases hbit
  have hvalid : n.isValidChar := by
    rw [Nat.isValidChar]
    omega
  exact ⟨by rw [Char.ofNat, dif_pos hvalid]; exact Char.toNat_ofNatAux hvalid, by omega⟩

theorem inRanges_eq_true {c : Char} :
    inRanges table c = true ↔ ∃ g ∈ table, g.1 ≤ c.toNat ∧ c.toNat ≤ g.2 := by
  simp [inRanges, Range.has]

/-- A code point that a run moves is one of the run. -/
theorem Run.move?_eq_some {r : Run} (h : r.move? n = some m) :
    r.first ≤ n ∧ n ≤ r.last ∧ m = Int.toNat (n + r.shift) := by
  rw [Run.move?] at h
  split_ifs at h with hin
  simp only [Bool.and_eq_true, decide_eq_true_eq] at hin
  exact ⟨hin.1.1, hin.1.2, (Option.some.inj h).symm⟩

end Bits

namespace CaseClosed

variable {ascii : Char → Bool} {table : List Range} {c : Char}

/-- Where a run moves a character of the class, it moves it into the class. -/
theorem moved (h : CaseClosed ascii table) {r : Run} {m : Nat} (hr : r ∈ Table.lowerRuns)
    (hc : inRanges table c = true) (hm : r.move? c.toNat = some m) :
    inClass ascii table (Char.ofNat m) = true := by
  obtain ⟨hfirst, hlast, rfl⟩ := Run.move?_eq_some hm
  have hrun := List.all_eq_true.mp h.runs r hr
  rw [Bool.or_eq_true, Bool.or_eq_true] at hrun
  rcases hrun with (hlands | hkelvin) | hclear
  · rw [Run.landsIn, Bool.and_eq_true, decide_eq_true_eq] at hlands
    have hbit : (bitsOf table).testBit (Int.toNat (c.toNat + r.shift)) = true :=
      testBit_of_isFull hlands.2 (by omega) (by rw [Run.span]; omega)
    obtain ⟨hnat, hhigh⟩ := toNat_ofNat_of_areScalars h.scalars hbit
    rw [inClass, hnat, if_neg (by omega), inRanges_eq_testBit, hnat]
    exact hbit
  · simp only [Run.isKelvin, Bool.and_eq_true, beq_iff_eq] at hkelvin
    have hk : Int.toNat (c.toNat + r.shift) = 0x6B := by omega
    rw [hk]
    exact h.letters.2
  · rw [inRanges_eq_testBit, testBit_of_isClear hclear hfirst (by rw [Run.span]; omega)] at hc
    cases hc

/-- The lower case form of a character of the class begins in the class; only a dot may follow. -/
theorem lowerAt (h : CaseClosed ascii table) (before after : List Char)
    (hc : inClass ascii table c = true) :
    ∃ d r, Text.lowerAt before c after = d :: r ∧ inClass ascii table d = true ∧
      ∀ e ∈ r, e = '\u0307' := by
  have hsigma : ∀ d, d = '\u03c2' ∨ d = '\u03c3' → inClass ascii table d = true := by
    rintro d (rfl | rfl)
    · exact h.sigmas.1
    · exact h.sigmas.2
  rw [Text.lowerAt]
  split_ifs with hcapital hfinal
  · exact ⟨_, [], rfl, hsigma _ (.inl rfl), List.forall_mem_nil _⟩
  · exact ⟨_, [], rfl, hsigma _ (.inr rfl), List.forall_mem_nil _⟩
  rw [lowerChar]
  by_cases hascii : c.toNat < 0x80
  · rw [inClass, if_pos hascii] at hc
    have hlow : c.toLower.toNat < 0x80 := Label.toLower_ascii hascii
    refine ⟨c.toLower, [], if_pos hascii, ?_, List.forall_mem_nil _⟩
    rw [inClass, if_pos hlow]
    exact h.toLower c hc
  rw [inClass, if_neg hascii] at hc
  rw [if_neg hascii]
  split
  case h_1 ns hlong =>
    -- The capital `I` with a dot is the only character that becomes two.
    rw [Table.lowerLong, List.lookup_cons] at hlong
    split at hlong
    · cases hlong
      exact ⟨'i', ['\u0307'], rfl, h.letters.1, by simp⟩
    · cases hlong
  case h_2 =>
    cases hmove : moveIn Table.lowerRuns c.toNat with
    | none =>
      refine ⟨c, [], rfl, ?_, List.forall_mem_nil _⟩
      rw [inClass, if_neg hascii]
      exact hc
    | some m =>
      obtain ⟨r, hr, hm⟩ := List.exists_of_findSome?_eq_some hmove
      exact ⟨Char.ofNat m, [], rfl, h.moved hr hc hm, List.forall_mem_nil _⟩

end CaseClosed

/-! ### The classes of the generated source -/

theorem isNameStart_toLower {c : Char} (h : isNameStart c = true) :
    isNameStart c.toLower = true := by
  rw [isNameStart, Bool.or_eq_true, beq_iff_eq] at h
  rcases h with h | rfl
  · simp [isNameStart, h]
  · rfl

theorem isNameChar_toLower {c : Char} (h : isNameChar c = true) :
    isNameChar c.toLower = true := by
  by_cases hupper : c.isUpper = true
  · simp [isNameChar, Char.isAlphanum, Char.isAlpha, hupper]
  · rwa [Char.toLower_eq_of_not_isUpper hupper]

/-- All characters above ASCII. -/
def anyScalar : List Range :=
  [(0x80, 0xD7FF), (0xE000, 0x10FFFF)]

/-- The tables of the classes hold the sigmas, are made of characters, and lower case leaves them. -/
theorem tables_closed : ∀ table ∈ [Table.identifierStart, Table.identifierContinue, anyScalar],
    (inRanges table '\u03c2' = true ∧ inRanges table '\u03c3' = true) ∧
      areScalars (bitsOf table) = true ∧ isLowerClosed (bitsOf table) = true := by
  decide +kernel

/-- A class with one of the tables is closed if its ASCII characters are. -/
theorem caseClosed_of_mem {ascii : Char → Bool} {table : List Range}
    (hlower : ∀ c, ascii c = true → ascii c.toLower = true)
    (hletters : ascii 'i' = true ∧ ascii 'k' = true)
    (htable : table ∈ [Table.identifierStart, Table.identifierContinue, anyScalar]) :
    CaseClosed ascii table := by
  obtain ⟨hsigmas, hscalars, hruns⟩ := tables_closed table htable
  exact ⟨hlower, hletters, hsigmas, hscalars, hruns⟩

theorem caseClosed_start : CaseClosed isNameStart Table.identifierStart :=
  caseClosed_of_mem (fun _ => isNameStart_toLower) (by decide) List.mem_cons_self

theorem caseClosed_continue : CaseClosed isNameChar Table.identifierContinue :=
  caseClosed_of_mem (fun _ => isNameChar_toLower) (by decide)
    (List.mem_cons_of_mem _ List.mem_cons_self)

theorem caseClosed_word : CaseClosed isNameChar anyScalar :=
  caseClosed_of_mem (fun _ => isNameChar_toLower) (by decide)
    (List.mem_cons_of_mem _ (List.mem_cons_of_mem _ List.mem_cons_self))

/-! ### Snake case -/

/-- Snake case inserts underscores. -/
theorem mem_separateFrom {before d : Char} {r : List Char} (h : d ∈ Label.separateFrom before r) :
    d ∈ r ∨ d = '_' := by
  induction r generalizing before with
  | nil => cases h
  | cons c r ih =>
    rw [Label.separateFrom] at h
    split_ifs at h
    · rcases List.mem_cons.mp h with rfl | h
      · exact .inr rfl
      · rcases List.mem_cons.mp h with rfl | h
        · exact .inl List.mem_cons_self
        · exact (ih h).imp_left (List.mem_cons_of_mem _)
    · rcases List.mem_cons.mp h with rfl | h
      · exact .inl List.mem_cons_self
      · exact (ih h).imp_left (List.mem_cons_of_mem _)

section SnakeCase

variable {ascii : Char → Bool} {table : List Range} {name : String}

/-- Characters of a class that holds the dot above letters have their lower case forms in it. -/
theorem CaseClosed.lowerFrom (h : CaseClosed ascii table) (hdot : inRanges table '\u0307' = true)
    {cs : List Char} (hcs : ∀ c ∈ cs, inClass ascii table c = true) (before : List Char) :
    ∀ d ∈ Text.lowerFrom before cs, inClass ascii table d = true := by
  induction cs generalizing before with
  | nil => exact nofun
  | cons c cs ih =>
    rw [List.forall_mem_cons] at hcs
    obtain ⟨d, r, hlower, hd, hr⟩ := h.lowerAt before cs hcs.1
    rw [Text.lowerFrom, hlower, List.cons_append, List.forall_mem_cons]
    refine ⟨hd, fun e he => ?_⟩
    rcases List.mem_append.mp he with he | he
    · rw [hr e he]
      exact hdot
    · exact ih hcs.2 _ e he

/-- The snake case form of a name of characters of such a class, which begins in a class of its own,
is one too. -/
theorem snakeCase_inClass {first : Char → Bool} {firsts : List Range}
    (hfirst : CaseClosed first firsts) (h : CaseClosed ascii table)
    (hdot : inRanges table '\u0307' = true) (hunderscore : ascii '_' = true) {c : Char}
    {r : List Char} (hname : name.toList = c :: r) (hc : inClass first firsts c = true)
    (hr : ∀ d ∈ r, inClass ascii table d = true) :
    ∃ d s, (Label.snakeCase name).toList = d :: s ∧ inClass first firsts d = true ∧
      ∀ e ∈ s, inClass ascii table e = true := by
  have hseparated : ∀ e ∈ Label.separateFrom c r, inClass ascii table e = true := by
    intro e he
    rcases mem_separateFrom he with he | rfl
    · exact hr e he
    · exact hunderscore
  obtain ⟨d, dots, hlower, hd, hdots⟩ := hfirst.lowerAt [] (Label.separateFrom c r) hc
  refine ⟨d, dots ++ Text.lowerFrom [c] (Label.separateFrom c r), ?_, hd, fun e he => ?_⟩
  · rw [Label.snakeCase, String.toList_ofList, hname, Label.separate, lowerChars, Text.lowerFrom,
      hlower]
    rfl
  · rcases List.mem_append.mp he with he | he
    · rw [hdots e he]
      exact hdot
    · exact h.lowerFrom hdot hseparated [c] e he

/-- **The snake case form of an identifier is an identifier.** -/
theorem isIdentifier_snakeCase (h : isIdentifier name = true) :
    isIdentifier (Label.snakeCase name) = true := by
  rw [isIdentifier] at h
  cases hname : name.toList with
  | nil =>
    rw [hname] at h
    cases h
  | cons c r =>
    rw [hname, isIdentifierChars, Bool.and_eq_true, List.all_eq_true] at h
    obtain ⟨d, s, hform, hd, hs⟩ := snakeCase_inClass caseClosed_start caseClosed_continue
      (by decide) rfl hname h.1 h.2
    rw [isIdentifier, hform, isIdentifierChars, Bool.and_eq_true, List.all_eq_true]
    exact ⟨hd, hs⟩

end SnakeCase

end Bindery.Text
