import Bindery.Source.Token

/-!
# What text literals denote

The characters that the body of a text literal stands for. A backslash begins an escape: the end of
a line that is left out, a letter for another character, the number of a character to the base eight
or sixteen, or nothing known, which stands as it is. Lines end with line feeds before anything else
is read, wherever a text ends them otherwise.

## What is proved

* `unifyLines_append` — the ends of lines on both sides of a place.
* `takeToken_literal`, `scanFrom_literal` — a literal between triple quotes is one token.
-/

namespace Bindery.Source

/-! ### Escapes -/

/-- The characters that stand behind a backslash for another one. -/
def shortEscapes : List (Char × Char) :=
  [('\\', '\\'), ('\'', '\''), ('"', '"'), ('a', '\x07'), ('b', '\x08'), ('f', '\x0c'), ('n', '\n'),
    ('r', '\r'), ('t', '\t'), ('v', '\x0b')]

/-- Is the character a digit to the base eight? -/
def isOctalDigit (c : Char) : Bool :=
  '0' ≤ c && c ≤ '7'

/-- The character of a number, if the number has one. -/
def charOf? (n : Nat) : Option Char :=
  if n.isValidChar then some (Char.ofNat n) else none

/-- The character that digits to the base sixteen stand for, if so many come first. -/
def hexChar? (count : Nat) (cs : List Char) : Option Char :=
  if startsWithHex count cs then
    charOf? ((cs.take count).foldl (fun n c => 16 * n + hexValue c) 0)
  else none

/-- What the character behind a backslash stands for with those behind it, and how many of these
belong to the escape. The names of characters are not known. -/
def escape? (c : Char) (behind : List Char) : Option (List Char × Nat) :=
  if c == '\n' then some ([], 0)
  else if isOctalDigit c then
    let more := (behind.take 2).takeWhile isOctalDigit
    (charOf? ((c :: more).foldl (fun n d => 8 * n + (d.toNat - 48)) 0)).map fun d =>
      ([d], more.length)
  else if c == 'x' then (hexChar? 2 behind).map fun d => ([d], 2)
  else if c == 'u' then (hexChar? 4 behind).map fun d => ([d], 4)
  else if c == 'U' then (hexChar? 8 behind).map fun d => ([d], 8)
  else if c == 'N' then none
  else
    match shortEscapes.lookup c with
    | some d => some ([d], 0)
    | none => some (['\\', c], 0)

/-- The characters that the body of a text literal stands for. -/
def denoted? : List Char → Option (List Char)
  | [] => some []
  | '\\' :: c :: r => do
    let (own, count) ← escape? c r
    let rest ← denoted? (r.drop count)
    return own ++ rest
  | c :: r => if c == '\\' then none else (denoted? r).map (c :: ·)
  termination_by cs => cs.length
  decreasing_by
    all_goals simp only [List.length_cons, List.length_drop]
    all_goals omega

example : denoted? "a\\\\\\x41\\101\\q\\\n\\\"".toList = some "a\\AA\\q\"".toList := by cbv

theorem denoted?_cons {c : Char} {r : List Char} (h : c ≠ '\\') :
    denoted? (c :: r) = (denoted? r).map (c :: ·) := by
  rw [denoted?]
  · rw [if_neg (by simpa using h)]
  · exact fun _ _ heq => absurd heq h

/-- A character that an escape stands for on its own. -/
theorem denoted?_escape {c d : Char} {r : List Char} (h : escape? c r = some ([d], 0)) :
    denoted? ('\\' :: c :: r) = (denoted? r).map (d :: ·) := by
  rw [denoted?, h, Option.bind_eq_bind, Option.bind_some]
  change (denoted? (r.drop 0)).bind (fun rest => some ([d] ++ rest)) = _
  rw [List.drop_zero]
  cases denoted? r <;> rfl

/-! ### Ends of lines -/

theorem unifyLines_cons {c : Char} {r : List Char} (h : c ≠ '\r') :
    unifyLines (c :: r) = c :: unifyLines r := by
  rw [unifyLines]
  · exact fun _ hc => absurd hc h
  · exact h

theorem unifyLines_return {r : List Char} (h : r.head? ≠ some '\n') :
    unifyLines ('\r' :: r) = '\n' :: unifyLines r := by
  rw [unifyLines]
  rintro r' rfl
  exact h rfl

theorem unifyLines_return_feed {r : List Char} :
    unifyLines ('\r' :: '\n' :: r) = unifyLines ('\n' :: r) := by
  rw [unifyLines, unifyLines_cons (by decide)]

/-- A character other than a line feed stands where it stood. -/
theorem of_unifyLines_eq_cons {c : Char} {r s : List Char} (hc : c ≠ '\n')
    (h : unifyLines r = c :: s) : ∃ r', r = c :: r' ∧ unifyLines r' = s := by
  fun_cases unifyLines r with
  | case1 r' =>
    rw [unifyLines] at h
    exact absurd (List.cons.inj h).1.symm hc
  | case2 r' hr =>
    rw [unifyLines] at h
    · exact absurd (List.cons.inj h).1.symm hc
    · exact hr
  | case3 d r' _ hne =>
    rw [unifyLines_cons hne] at h
    obtain ⟨rfl, rfl⟩ := List.cons.inj h
    exact ⟨r', rfl, rfl⟩
  | case4 => cases h

/-- The ends of lines in two parts of a text, unless a line feed begins the second part. -/
theorem unifyLines_append (cs : List Char) {r : List Char} (h : r.head? ≠ some '\n') :
    unifyLines (cs ++ r) = unifyLines cs ++ unifyLines r := by
  fun_induction unifyLines cs with
  | case1 r' ih => rw [List.cons_append, List.cons_append, unifyLines, ih, List.cons_append]
  | case2 r' hr ih =>
    rw [List.cons_append, unifyLines_return, ih, List.cons_append]
    cases r' with
    | nil => exact h
    | cons d r' => exact fun heq => hr r' (by rw [Option.some.inj heq])
  | case3 c r' hc hne ih =>
    have hne : c ≠ '\r' := hne
    rw [List.cons_append, unifyLines_cons hne, ih, List.cons_append]
  | case4 => rfl

/-! ### Literals between triple quotes -/

/-- The quotes around a literal that may have several lines. -/
def tripleQuote : List Char := ['"', '"', '"']

variable {body rest : List Char}

section Body

variable {taken cs : List Char} {c d e : Char}

attribute [local simp] takeBody

theorem takeBody_escape :
    takeBody '"' true taken ('\\' :: c :: cs) = takeBody '"' true (c :: '\\' :: taken) cs := by
  rw [takeBody]

theorem takeBody_plain (hquote : c ≠ '"') (hescape : c ≠ '\\') :
    takeBody '"' true taken (c :: cs) = takeBody '"' true (c :: taken) cs := by
  rcases cs with _ | ⟨d, _ | ⟨e, cs⟩⟩ <;> simp [hquote, hescape]

/-- Quotes of which there are less than three belong to the body. -/
theorem takeBody_quote (h : d = '"' → e ≠ '"') :
    takeBody '"' true taken ('"' :: d :: e :: cs) =
      takeBody '"' true ('"' :: taken) (d :: e :: cs) := by
  rw [takeBody, if_pos (by decide), if_neg (by decide), if_neg (by simpa using h)]
  exact fun _ _ h => absurd h (by decide)

theorem takeBody_close : takeBody '"' true taken (tripleQuote ++ cs) = some (taken.reverse, cs) := by
  simp [tripleQuote]

end Body

/-- A body that ends at the closing quotes and has well-formed escapes makes a token. -/
theorem takeToken_literal
    (hbody : takeBody '"' true [] (body ++ tripleQuote ++ rest) = some (body, rest))
    (hescapes : escapesAreFormed false body = true) :
    takeToken (tripleQuote ++ body ++ tripleQuote ++ rest) = some (.literal false [], rest) := by
  have hliteral : takeLiteral '"' ('"' :: '"' :: (body ++ tripleQuote ++ rest)) =
      some (body, rest) := hbody
  have hexpressions : (LiteralKind.mk false false false).expressions? body = some [] := by
    simp [LiteralKind.expressions?, hescapes]
  have htext : tripleQuote ++ body ++ tripleQuote ++ rest =
      '"' :: '"' :: '"' :: (body ++ tripleQuote ++ rest) := by
    simp [tripleQuote]
  rw [htext, takeToken, if_neg (by simp), if_pos (by decide), takeWord,
    List.takeWhile_cons_of_neg (by decide), List.dropWhile_cons_of_neg (by decide)]
  change ((takeLiteral '"' ('"' :: '"' :: (body ++ tripleQuote ++ rest))).bind fun p =>
    ((LiteralKind.mk false false false).expressions? p.1).bind fun expressions =>
      some (Token.literal false expressions, p.2)) = _
  rw [hliteral, Option.bind_some, hexpressions, Option.bind_some]

/-- A literal between triple quotes is one token, and what is behind it is read on. -/
theorem scanFrom_literal (k : Nat) (n : Nesting) (taken : List Token)
    (hbody : takeBody '"' true [] (body ++ tripleQuote ++ rest) = some (body, rest))
    (hescapes : escapesAreFormed false body = true) :
    scanFrom (k + 1) false n taken (tripleQuote ++ body ++ tripleQuote ++ rest) =
      scanFrom k false n (.literal false [] :: taken) rest := by
  have htoken := takeToken_literal hbody hescapes
  have htext : tripleQuote ++ body ++ tripleQuote ++ rest =
      '"' :: ('"' :: '"' :: (body ++ tripleQuote ++ rest)) := by
    simp [tripleQuote]
  rw [htext] at htoken ⊢
  rw [scanFrom, htoken]
  · rfl
  · decide
  · exact fun _ _ h => absurd h (by decide)
  · decide

end Bindery.Source
