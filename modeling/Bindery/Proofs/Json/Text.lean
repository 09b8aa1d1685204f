import Bindery.Json.Reader
import Bindery.Json.Writer
import Bindery.Proofs.Keyed
import Bindery.Proofs.Number.Shown

/-!
# The text of a value is read as the value

A value whose objects have different names and whose numbers have no fraction is written so that the
reader gives it back.

## What is proved

* `toList_write` — the characters of the text of a value.
* `stringFrom_escaped` — a string is read up to its closing quote.
* `readNumber_digits` — a number is read up to what ends it.
* `readValue_chars`, `readItems_chars`, `readFields_chars` — values, items and fields are read from
  their characters.
* `ofText?_text` — the text of a value is read as the value.
-/

namespace Bindery.Json

open Bindery.Text Bindery.Number

variable {rest : List Char}

/-! ### Characters -/

/-- The characters of a string between its quotes, and the quotes. -/
def stringChars (s : String) : List Char :=
  '"' :: s.toList.flatMap escapeChar ++ ['"']

mutual

/-- The characters of the text of a value. -/
def chars : Json → List Char
  | .null => "null".toList
  | .bool b => (if b then "true" else "false").toList
  | .int n => integerChars n
  | .real d => realChars d
  | .str s => stringChars s
  | .arr items => '[' :: itemChars true items ++ [']']
  | .obj fields => '\x7b' :: fieldChars true fields ++ ['\x7d']

/-- The characters of the items of an array. -/
def itemChars (first : Bool) : List Json → List Char
  | [] => []
  | j :: r => (if first then [] else [',', ' ']) ++ chars j ++ itemChars false r

/-- The characters of the fields of an object. -/
def fieldChars (first : Bool) : List (String × Json) → List Char
  | [] => []
  | (k, j) :: r =>
    (if first then [] else [',', ' ']) ++ stringChars k ++ [':', ' '] ++ chars j ++
      fieldChars false r

end

theorem toList_push_all (cs : List Char) (out : String) :
    (cs.foldl String.push out).toList = out.toList ++ cs := by
  induction cs generalizing out with
  | nil => exact (List.append_nil _).symm
  | cons c cs ih => rw [List.foldl_cons, ih, String.toList_push, List.append_assoc]; rfl

theorem toList_writeString (out s : String) :
    (writeString out s).toList = out.toList ++ stringChars s := by
  have hescaped : ∀ (cs : List Char) (out : String),
      (cs.foldl (fun out c => (escapeChar c).foldl String.push out) out).toList =
        out.toList ++ cs.flatMap escapeChar := by
    intro cs
    induction cs with
    | nil => exact fun out => (List.append_nil _).symm
    | cons c cs ih =>
      intro out
      rw [List.foldl_cons, ih, toList_push_all, List.append_assoc, List.flatMap_cons]
  rw [writeString, String.toList_push, String.foldl_eq_foldl_toList, hescaped, String.toList_push,
    stringChars]
  simp

mutual

/-- A value is written behind what was written. -/
theorem toList_write (out : String) : ∀ j : Json, (write out j).toList = out.toList ++ chars j
  | .null => by rw [write, chars, String.toList_append]
  | .bool b => by rw [write, chars, String.toList_append]
  | .int n => by rw [write, chars, String.toList_append, String.toList_ofList]
  | .real d => by rw [write, chars, String.toList_append, String.toList_ofList]
  | .str s => by rw [write, chars, toList_writeString]
  | .arr items => by
    rw [write, chars, String.toList_push, toList_writeItems, String.toList_push]
    simp
  | .obj fields => by
    rw [write, chars, String.toList_push, toList_writeFields, String.toList_push]
    simp

theorem toList_writeItems (out : String) (first : Bool) :
    ∀ items : List Json, (writeItems out first items).toList = out.toList ++ itemChars first items
  | [] => by rw [writeItems, itemChars, List.append_nil]
  | j :: r => by
    rw [writeItems, itemChars, toList_writeItems, toList_write]
    cases first <;> simp

theorem toList_writeFields (out : String) (first : Bool) :
    ∀ fields : List (String × Json),
      (writeFields out first fields).toList = out.toList ++ fieldChars first fields
  | [] => by rw [writeFields, fieldChars, List.append_nil]
  | (k, j) :: r => by
    rw [writeFields, fieldChars, toList_writeFields, toList_write, String.toList_append,
      toList_writeString]
    cases first <;> simp

end

theorem toList_text (j : Json) : (text j).toList = chars j :=
  (toList_write "" j).trans (List.nil_append _)

/-! ### Strings -/

theorem hexValue?_hexDigit {d : Nat} (h : d < 16) : hexValue? (hexDigit d) = some d := by
  interval_cases d <;> rfl

/-- The four digits of a code unit. -/
theorem exists_hexDigits {n : Nat} (h : n < 0x10000) :
    ∃ a b c d, hexDigits 4 n = [a, b, c, d] ∧ hex4? a b c d = some n := by
  refine ⟨hexDigit (n / 16 / 16 / 16 % 16), hexDigit (n / 16 / 16 % 16), hexDigit (n / 16 % 16),
    hexDigit (n % 16), rfl, ?_⟩
  rw [hex4?, hexValue?_hexDigit (Nat.mod_lt _ (by decide)),
    hexValue?_hexDigit (Nat.mod_lt _ (by decide)), hexValue?_hexDigit (Nat.mod_lt _ (by decide)),
    hexValue?_hexDigit (Nat.mod_lt _ (by decide))]
  refine congrArg some ?_
  omega

/-- The reader goes on behind the character. -/
def Continues (written : List Char) (c : Char) : Prop :=
  ∀ r, stringFrom none (written ++ r) = (stringFrom none r).map fun (s, rest) => (c :: s, rest)

theorem continues_plain {c : Char} (hquote : c ≠ '"') (hslash : c ≠ '\\') (h : 0x20 ≤ c.toNat) :
    Continues [c] c := by
  intro r
  rw [List.singleton_append, stringFrom.eq_def]
  split
  all_goals simp_all

theorem continues_unit {n : Nat} (h : n < 0x10000) (hhigh : isHighUnit n = false)
    (hlow : isLowUnit n = false) : Continues (escapeUnit n) (Char.ofNat n) := by
  intro r
  obtain ⟨a, b, c, d, hdigits, hvalue⟩ := exists_hexDigits h
  rw [escapeUnit, hdigits]
  simp only [List.cons_append, List.nil_append]
  rw [stringFrom, hvalue]
  simp [hhigh, hlow, unitChar]

theorem continues_pair {h l : Nat} (hh : h < 0x10000) (hl : l < 0x10000)
    (hhigh : isHighUnit h = true) (hlow : isLowUnit l = true) :
    Continues (escapeUnit h ++ escapeUnit l)
      (Char.ofNat (0x10000 + (h - 0xD800) * 0x400 + (l - 0xDC00))) := by
  intro r
  obtain ⟨a, b, c, d, hdigits, hvalue⟩ := exists_hexDigits hh
  obtain ⟨a', b', c', d', hdigits', hvalue'⟩ := exists_hexDigits hl
  rw [escapeUnit, escapeUnit, hdigits, hdigits']
  simp only [List.cons_append, List.nil_append]
  rw [stringFrom, hvalue]
  simp only [hhigh, if_true]
  rw [stringFrom, hvalue']
  simp only [hlow, if_true]

/-- The numbers of characters leave out those of code units that stand for halves of one. -/
theorem toNat_cases (c : Char) : c.toNat < 0xD800 ∨ 0xDFFF < c.toNat ∧ c.toNat < 0x110000 :=
  c.valid

/-- **The reader undoes each escape.** -/
theorem continues_escapeChar (c : Char) : Continues (escapeChar c) c := by
  rw [escapeChar]
  split_ifs with hquote hslash hline hplain hunit
  · obtain rfl := beq_iff_eq.mp hquote
    exact fun r => by simp [stringFrom]
  · obtain rfl := beq_iff_eq.mp hslash
    exact fun r => by simp [stringFrom]
  · obtain rfl := beq_iff_eq.mp hline
    exact fun r => by simp [stringFrom]
  · rw [Bool.and_eq_true, decide_eq_true_eq, decide_eq_true_eq] at hplain
    exact continues_plain (by simpa using hquote) (by simpa using hslash) hplain.1
  · have hvalid := toNat_cases c
    have hcontinues := continues_unit hunit
      (by rw [isHighUnit, Bool.and_eq_false_iff, decide_eq_false_iff_not, decide_eq_false_iff_not]
          omega)
      (by rw [isLowUnit, Bool.and_eq_false_iff, decide_eq_false_iff_not, decide_eq_false_iff_not]
          omega)
    rwa [Char.ofNat_toNat] at hcontinues
  · -- characters beyond the first plane are written as two code units
    have hvalid := toNat_cases c
    have hcontinues := continues_pair (h := 0xD800 + (c.toNat - 0x10000) / 0x400)
      (l := 0xDC00 + (c.toNat - 0x10000) % 0x400) (by omega) (by omega)
      (by rw [isHighUnit, Bool.and_eq_true, decide_eq_true_eq, decide_eq_true_eq]; omega)
      (by rw [isLowUnit, Bool.and_eq_true, decide_eq_true_eq, decide_eq_true_eq]; omega)
    have hvalue : 0x10000 + (0xD800 + (c.toNat - 0x10000) / 0x400 - 0xD800) * 0x400 +
        (0xDC00 + (c.toNat - 0x10000) % 0x400 - 0xDC00) = c.toNat := by omega
    rwa [hvalue, Char.ofNat_toNat] at hcontinues

/-- A string is read up to its closing quote. -/
theorem stringFrom_escaped (cs rest : List Char) :
    stringFrom none (cs.flatMap escapeChar ++ '"' :: rest) = some (cs, rest) := by
  induction cs with
  | nil => rfl
  | cons c cs ih => rw [List.flatMap_cons, List.append_assoc, continues_escapeChar c, ih]; rfl

/-! ### Numbers -/

/-- Behind a value stands nothing, or what separates or closes values. -/
def Ends (rest : List Char) : Prop :=
  ∀ c ∈ rest.head?, c = ',' ∨ c = ']' ∨ c = '\x7d'

theorem ends_nil : Ends [] := nofun

theorem ends_cons {c : Char} (h : c = ',' ∨ c = ']' ∨ c = '\x7d') (r : List Char) :
    Ends (c :: r) := by
  intro d hd
  cases hd
  exact h

theorem Ends.noDigit (h : Ends rest) : ∀ c ∈ rest.head?, c.isDigit = false := by
  intro c hc
  rcases h c hc with rfl | rfl | rfl <;> rfl

theorem spanDigits_append {ds : List Char} (hds : ds.all Char.isDigit = true) (h : Ends rest) :
    spanDigits (ds ++ rest) = (ds, rest) := by
  have hall : ∀ c ∈ ds, c.isDigit = true := List.all_eq_true.mp hds
  rw [spanDigits, List.takeWhile_append_of_pos hall, List.dropWhile_append_of_pos hall]
  cases rest with
  | nil => simp
  | cons c r => simp [h.noDigit c rfl]

theorem readWhole_digitsOf (n : Nat) (h : Ends rest) :
    readWhole (digitsOf n ++ rest) = some (digitsOf n, rest) := by
  obtain ⟨⟨hne, hdigits⟩, hzero⟩ := isWhole_digitsOf n
  cases hds : digitsOf n with
  | nil => exact absurd hds hne
  | cons c ds =>
    rw [hds] at hdigits hzero
    by_cases hc : c = '0'
    · subst hc
      rw [List.cons.inj (hzero rfl) |>.2]
      rfl
    · rw [List.cons_append, readWhole.eq_def]
      have hdigit : c.isDigit = true := by simpa using (List.all_eq_true.mp hdigits) c (by simp)
      split
      · rename_i heq
        cases heq
        exact absurd rfl hc
      · rename_i heq
        cases heq
        rw [if_pos hdigit, ← List.cons_append, spanDigits_append hdigits h]
      · rename_i heq
        cases heq

theorem readFraction_of_ends (h : Ends rest) : readFraction rest = ([], rest) := by
  cases rest with
  | nil => rfl
  | cons c r => rcases h c rfl with rfl | rfl | rfl <;> rfl

theorem readExponent_of_ends (h : Ends rest) : readExponent rest = (none, rest) := by
  cases rest with
  | nil => rfl
  | cons c r => rcases h c rfl with rfl | rfl | rfl <;> rfl

/-- A number is read up to what ends it. -/
theorem readNumber_digits (negative : Bool) (n : Nat) (h : Ends rest) :
    readNumber negative (digitsOf n ++ rest) =
      some (.int (if negative then -(n : Int) else n), rest) := by
  rw [readNumber, readWhole_digitsOf n h]
  simp only [Option.bind_eq_bind, Option.bind_some, readFraction_of_ends h, readExponent_of_ends h,
    List.append_nil, readDigits_digitsOf]
  rfl

/-! ### Values -/

mutual

/-- No number in the value has a fraction, and no object has two fields of one name. -/
def isPlain : Json → Bool
  | .real _ => false
  | .arr items => areItemsPlain items
  | .obj fields => decide (fields.map Prod.fst).Nodup && areFieldsPlain fields
  | _ => true

/-- The items are plain. -/
def areItemsPlain : List Json → Bool
  | [] => true
  | j :: r => isPlain j && areItemsPlain r

/-- The values of the fields are plain. -/
def areFieldsPlain : List (String × Json) → Bool
  | [] => true
  | (_, j) :: r => isPlain j && areFieldsPlain r

end

theorem exists_digitsOf (n : Nat) : ∃ c ds, digitsOf n = c :: ds ∧ c.isDigit = true := by
  obtain ⟨hne, hdigits⟩ := isDigits_digitsOf n
  cases hds : digitsOf n with
  | nil => exact absurd hds hne
  | cons c ds =>
    rw [hds] at hdigits
    exact ⟨c, ds, rfl, by simpa using (List.all_eq_true.mp hdigits) c (by simp)⟩

theorem isSpace_of_isDigit {c : Char} (h : c.isDigit = true) : isSpace c = false := by
  refine Bool.eq_false_iff.mpr fun hspace => ?_
  simp only [isSpace, Bool.or_eq_true, beq_iff_eq] at hspace
  rcases hspace with ((rfl | rfl) | rfl) | rfl <;> cases h

/-- The text of a value begins with a character that is no space and closes nothing. -/
theorem exists_chars (j : Json) (h : j.isPlain = true) :
    ∃ c r, chars j = c :: r ∧ isSpace c = false ∧ c ≠ ']' := by
  cases j with
  | null => exact ⟨'n', _, rfl, rfl, by decide⟩
  | bool b =>
    cases b
    · exact ⟨'f', _, rfl, rfl, by decide⟩
    · exact ⟨'t', _, rfl, rfl, by decide⟩
  | int n =>
    rw [chars, integerChars]
    split_ifs
    · exact ⟨'-', _, rfl, rfl, by decide⟩
    · obtain ⟨c, ds, hds, hc⟩ := exists_digitsOf n.natAbs
      exact ⟨c, ds, hds, isSpace_of_isDigit hc, by rintro rfl; cases hc⟩
  | real d => cases h
  | str s => exact ⟨'"', _, rfl, rfl, by decide⟩
  | arr items => exact ⟨'[', _, rfl, rfl, by decide⟩
  | obj fields => exact ⟨'\x7b', _, rfl, rfl, by decide⟩

theorem skip_cons {c : Char} (h : isSpace c = false) (r : List Char) : skip (c :: r) = c :: r := by
  rw [skip, List.dropWhile_cons_of_neg (by simp [h])]

theorem readValue_digit {c : Char} (h : c.isDigit = true) (fuel : Nat) (r : List Char) :
    readValue (fuel + 1) (c :: r) = (readNumber false (c :: r)).or (readWord (c :: r)) := by
  rw [readValue]
  case x_2 => nofun
  all_goals
    rintro r' heq
    cases heq
    cases h

theorem readValue_int (n : Int) (fuel : Nat) (h : Ends rest) :
    readValue (fuel + 1) (integerChars n ++ rest) = some (.int n, rest) := by
  rw [integerChars]
  split_ifs with hn
  · have hvalue : -(n.natAbs : Int) = n := by omega
    rw [List.cons_append, readValue, readNumber_digits true n.natAbs h, if_pos rfl, hvalue]
    rfl
  · obtain ⟨c, ds, hds, hc⟩ := exists_digitsOf n.natAbs
    have hvalue : (n.natAbs : Int) = n := by omega
    have hread := readNumber_digits false n.natAbs h
    rw [if_neg Bool.false_ne_true, hvalue, hds, List.cons_append] at hread
    rw [hds, List.cons_append, readValue_digit hc, hread]
    rfl

theorem readValue_string (s : String) (fuel : Nat) (rest : List Char) :
    readValue (fuel + 1) (stringChars s ++ rest) = some (.str s, rest) := by
  have hread := stringFrom_escaped s.toList rest
  simp only [stringChars, List.cons_append, List.append_assoc, List.nil_append]
  rw [readValue, hread]
  simp

theorem readValue_items {c : Char} (hspace : isSpace c = false) (hclose : c ≠ ']') (fuel : Nat)
    (r : List Char) :
    readValue (fuel + 1) ('[' :: c :: r) =
      (readItems fuel (c :: r)).map fun (items, rest) => (.arr items, rest) := by
  rw [readValue, skip_cons hspace]
  split
  · rename_i heq
    cases heq
    exact absurd rfl hclose
  · rfl

theorem readItems_last {fuel : Nat} {cs : List Char} {j : Json}
    (h : readValue fuel cs = some (j, ']' :: rest)) :
    readItems (fuel + 1) cs = some ([j], rest) := by
  rw [readItems, h]
  rfl

theorem readItems_next {fuel : Nat} {c : Char} {cs r : List Char} {j : Json}
    (h : readValue fuel cs = some (j, ',' :: ' ' :: c :: r)) (hspace : isSpace c = false) :
    readItems (fuel + 1) cs =
      (readItems fuel (c :: r)).map fun (items, rest) => (j :: items, rest) := by
  have hskip : skip (' ' :: c :: r) = c :: r := skip_cons hspace r
  rw [readItems, h]
  simp only [skip_cons (show isSpace ',' = false from rfl), hskip]

theorem itemChars_true (j : Json) (r : List Json) :
    itemChars true (j :: r) = chars j ++ itemChars false r := by
  rw [itemChars]
  rfl

theorem itemChars_false (j : Json) (r : List Json) :
    itemChars false (j :: r) = ',' :: ' ' :: itemChars true (j :: r) := by
  rw [itemChars, itemChars]
  rfl

theorem fieldChars_true (k : String) (j : Json) (r : List (String × Json)) :
    fieldChars true ((k, j) :: r) =
      stringChars k ++ ':' :: ' ' :: (chars j ++ fieldChars false r) := by
  rw [fieldChars]
  simp

theorem fieldChars_false (f : String × Json) (r : List (String × Json)) :
    fieldChars false (f :: r) = ',' :: ' ' :: fieldChars true (f :: r) := by
  obtain ⟨k, j⟩ := f
  rw [fieldChars, fieldChars]
  rfl

theorem exists_itemChars {j : Json} (r : List Json) (h : j.isPlain = true) :
    ∃ c cs, itemChars true (j :: r) = c :: cs ∧ isSpace c = false ∧ c ≠ ']' := by
  obtain ⟨c, cs, hcs, hc⟩ := exists_chars j h
  rw [itemChars_true, hcs]
  exact ⟨c, cs ++ itemChars false r, rfl, hc⟩

theorem exists_fieldChars (f : String × Json) (r : List (String × Json)) :
    ∃ cs, fieldChars true (f :: r) = '"' :: cs := by
  obtain ⟨k, j⟩ := f
  rw [fieldChars_true]
  exact ⟨_, rfl⟩

/-- The colon and the space behind a key are passed over. -/
theorem skip_colon {cs : List Char} (h : ∀ c ∈ cs.head?, isSpace c = false) :
    skip (':' :: ' ' :: cs) = ':' :: ' ' :: cs ∧ skip (' ' :: cs) = cs := by
  refine ⟨rfl, ?_⟩
  cases cs with
  | nil => rfl
  | cons c cs => exact skip_cons (h c rfl) cs

theorem readFields_last {fuel : Nat} {k : String} {cs : List Char} {j : Json}
    (hspace : ∀ c ∈ cs.head?, isSpace c = false)
    (h : readValue fuel cs = some (j, '\x7d' :: rest)) :
    readFields (fuel + 1) (stringChars k ++ ':' :: ' ' :: cs) = some ([(k, j)], rest) := by
  have hkey := stringFrom_escaped k.toList (':' :: ' ' :: cs)
  simp only [stringChars, List.cons_append, List.append_assoc, List.nil_append]
  rw [readFields, hkey]
  simp only [skip_colon hspace, h, skip_cons (show isSpace '\x7d' = false from rfl),
    String.ofList_toList]

theorem readFields_next {fuel : Nat} {k : String} {cs r : List Char} {j : Json}
    (hspace : ∀ c ∈ cs.head?, isSpace c = false)
    (h : readValue fuel cs = some (j, ',' :: ' ' :: '"' :: r)) :
    readFields (fuel + 1) (stringChars k ++ ':' :: ' ' :: cs) =
      (readFields fuel ('"' :: r)).map fun (fields, rest) => ((k, j) :: fields, rest) := by
  have hkey := stringFrom_escaped k.toList (':' :: ' ' :: cs)
  have hskip : skip (' ' :: '"' :: r) = '"' :: r := rfl
  simp only [stringChars, List.cons_append, List.append_assoc, List.nil_append]
  rw [readFields, hkey]
  simp only [skip_colon hspace, h, skip_cons (show isSpace ',' = false from rfl), hskip,
    String.ofList_toList]

mutual

/-- **A value is read from its characters.** The reader takes at most two steps to come to a value
inside another one, whose characters include a bracket; so twice the characters are enough fuel. -/
theorem readValue_chars : ∀ (j : Json), j.isPlain = true → ∀ (fuel : Nat) (rest : List Char),
    2 * (chars j).length ≤ fuel + 1 → Ends rest →
      readValue (fuel + 1) (chars j ++ rest) = some (j, rest)
  | .null, _, fuel, rest, _, _ => rfl
  | .bool true, _, fuel, rest, _, _ => rfl
  | .bool false, _, fuel, rest, _, _ => rfl
  | .int n, _, fuel, rest, _, hends => by
    rw [chars]
    exact readValue_int n fuel hends
  | .real d, h, _, _, _, _ => by cases h
  | .str s, _, fuel, rest, _, _ => by
    rw [chars]
    exact readValue_string s fuel rest
  | .arr [], _, fuel, rest, _, _ => rfl
  | .arr (j :: r), h, fuel, rest, hfuel, hends => by
    rw [isPlain] at h
    have hread := readItems_chars (j :: r) (List.cons_ne_nil _ _) h fuel rest (by
      rw [chars, List.length_append, List.length_cons, List.length_singleton] at hfuel
      omega)
    obtain ⟨c, cs, hcs, hspace, hclose⟩ := exists_itemChars r (Bool.and_eq_true_iff.mp h).1
    simp only [chars, List.cons_append, List.append_assoc, List.nil_append]
    rw [hcs, List.cons_append] at hread ⊢
    rw [readValue_items hspace hclose, hread]
    rfl
  | .obj [], _, fuel, rest, _, _ => rfl
  | .obj (f :: r), h, fuel, rest, hfuel, hends => by
    rw [isPlain, Bool.and_eq_true, decide_eq_true_eq] at h
    have hread := readFields_chars (f :: r) (List.cons_ne_nil _ _) h.2 fuel rest (by
      rw [chars, List.length_append, List.length_cons, List.length_singleton] at hfuel
      omega)
    obtain ⟨cs, hcs⟩ := exists_fieldChars f r
    simp only [chars, List.cons_append, List.append_assoc, List.nil_append]
    rw [hcs, List.cons_append] at hread ⊢
    calc readValue (fuel + 1) ('\x7b' :: '"' :: (cs ++ '\x7d' :: rest))
        = (readFields fuel ('"' :: (cs ++ '\x7d' :: rest))).map
            fun (fields, rest) => (.obj (Keyed.ofList fields).entries, rest) := rfl
      _ = some (.obj (f :: r), rest) := by
          rw [hread]
          exact congrArg (fun es => some (Json.obj es, rest)) (Keyed.entries_ofList h.1)

/-- Items are read up to the closing bracket. -/
theorem readItems_chars : ∀ (items : List Json), items ≠ [] → areItemsPlain items = true →
    ∀ (fuel : Nat) (rest : List Char), 2 * (itemChars true items).length < fuel →
      readItems fuel (itemChars true items ++ ']' :: rest) = some (items, rest)
  | [], h, _, _, _, _ => absurd rfl h
  | j :: r, _, h, fuel, rest, hfuel => by
    rw [areItemsPlain, Bool.and_eq_true] at h
    obtain ⟨c, cs, hcs, -⟩ := exists_chars j h.1
    rw [itemChars_true, List.length_append] at hfuel
    have hpos : 0 < (chars j).length := by rw [hcs]; exact Nat.succ_pos _
    obtain ⟨fuel, rfl⟩ := Nat.exists_eq_add_of_le' (show 2 ≤ fuel by omega)
    rw [itemChars_true, List.append_assoc]
    cases r with
    | nil =>
      have hvalue := readValue_chars j h.1 fuel (']' :: rest) (by omega)
        (ends_cons (.inr (.inl rfl)) rest)
      exact readItems_last hvalue
    | cons j' r =>
      have hread := readItems_chars (j' :: r) (List.cons_ne_nil _ _) h.2 (fuel + 1) rest (by
        rw [itemChars_false, List.length_cons, List.length_cons] at hfuel
        omega)
      obtain ⟨c', cs', hcs', hspace, -⟩ := exists_itemChars r (Bool.and_eq_true_iff.mp h.2).1
      have hvalue := readValue_chars j h.1 fuel
        (itemChars false (j' :: r) ++ ']' :: rest) (by omega)
      rw [itemChars_false, hcs'] at hvalue ⊢
      rw [hcs'] at hread
      calc readItems (fuel + 2) (chars j ++ (',' :: ' ' :: c' :: cs' ++ ']' :: rest))
          = (readItems (fuel + 1) (c' :: cs' ++ ']' :: rest)).map
              fun (items, rest) => (j :: items, rest) :=
            readItems_next (hvalue (ends_cons (.inl rfl) _)) hspace
        _ = some (j :: j' :: r, rest) := by rw [hread]; rfl

/-- Fields are read up to the closing brace. -/
theorem readFields_chars : ∀ (fields : List (String × Json)), fields ≠ [] →
    areFieldsPlain fields = true → ∀ (fuel : Nat) (rest : List Char),
      2 * (fieldChars true fields).length < fuel →
        readFields fuel (fieldChars true fields ++ '\x7d' :: rest) = some (fields, rest)
  | [], h, _, _, _, _ => absurd rfl h
  | (k, j) :: r, _, h, fuel, rest, hfuel => by
    rw [areFieldsPlain, Bool.and_eq_true] at h
    obtain ⟨c, cs, hcs, hspace, -⟩ := exists_chars j h.1
    rw [fieldChars_true, List.length_append, List.length_cons, List.length_cons,
      List.length_append] at hfuel
    obtain ⟨fuel, rfl⟩ := Nat.exists_eq_add_of_le' (show 2 ≤ fuel by omega)
    have hfirst : ∀ after, ∀ c ∈ (chars j ++ after).head?, isSpace c = false := by
      rw [hcs]
      rintro after _ ⟨rfl⟩
      exact hspace
    rw [fieldChars_true, List.append_assoc, List.cons_append, List.cons_append, List.append_assoc]
    cases r with
    | nil =>
      have hvalue := readValue_chars j h.1 fuel ('\x7d' :: rest) (by omega)
        (ends_cons (.inr (.inr rfl)) rest)
      exact readFields_last (hfirst _) hvalue
    | cons f r =>
      have hread := readFields_chars (f :: r) (List.cons_ne_nil _ _) h.2 (fuel + 1) rest (by
        rw [fieldChars_false, List.length_cons, List.length_cons] at hfuel
        omega)
      obtain ⟨cs', hcs'⟩ := exists_fieldChars f r
      have hvalue := readValue_chars j h.1 fuel
        (fieldChars false (f :: r) ++ '\x7d' :: rest) (by omega)
      rw [fieldChars_false, hcs'] at hvalue ⊢
      rw [hcs'] at hread
      calc readFields (fuel + 2) (stringChars k ++ ':' :: ' ' ::
            (chars j ++ (',' :: ' ' :: '"' :: cs' ++ '\x7d' :: rest)))
          = (readFields (fuel + 1) ('"' :: cs' ++ '\x7d' :: rest)).map
              fun (fields, rest) => ((k, j) :: fields, rest) :=
            readFields_next (hfirst _) (hvalue (ends_cons (.inl rfl) _))
        _ = some ((k, j) :: f :: r, rest) := by rw [hread]; rfl

end

/-- **The text of a value is read as the value.** -/
theorem ofText?_text {j : Json} (h : j.isPlain = true) : ofText? (text j) = some j := by
  obtain ⟨c, cs, hcs, hspace, -⟩ := exists_chars j h
  have hread := readValue_chars j h (2 * (chars j).length + 1) [] (by omega) ends_nil
  rw [List.append_nil] at hread
  have hskip : skip (chars j) = chars j := by rw [hcs, skip_cons hspace]
  rw [ofText?, toList_text, ofChars?, hskip, hread]
  rfl

end Bindery.Json
