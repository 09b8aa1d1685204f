import Bindery.Proofs.Lexical.Numeral
import Bindery.Text.Blank

/-!
# Brackets that are open

How many brackets are open behind a text is told by its tokens. A text that breaks off, or one with
a number that the grammar has no token for, has tokens all the same: a character at which no token
begins is passed over.

## What is proved

* `tokensIn_eq` — the tokens in a text that the grammar reads are the tokens of the text.
* `Reads.append` — the tokens in two texts one behind the other are those in each, as long as the
  second does not continue the last token of the first.
* `closesLevel_firstToken?` — the first token on a line closes a bracket exactly where the line
  begins with a closing bracket.
-/

namespace Bindery.Definition

open Bindery.Text

/-! ### The tokens in any text -/

/-- The tokens in a text; each step consumes a character. -/
def tokensInWith : Nat → List Char → List Token
  | _, [] => []
  | 0, _ => []
  | fuel + 1, c :: r =>
    if isIgnored c then tokensInWith fuel r
    else if c == '#' then tokensInWith fuel (r.dropWhile fun x => !endsComment x)
    else
      match readToken (c :: r) with
      | some p => p.1 :: tokensInWith fuel p.2
      | none => tokensInWith fuel r

/-- The tokens in a text, where a character that begins none is passed over. -/
def tokensIn (cs : List Char) : List Token :=
  tokensInWith cs.length cs

/-- More steps than characters change nothing. -/
theorem tokensInWith_eq {n : Nat} {cs : List Char} (h : cs.length ≤ n) :
    tokensInWith n cs = tokensIn cs := by
  suffices key : ∀ n m (cs : List Char), cs.length ≤ n → cs.length ≤ m →
      tokensInWith n cs = tokensInWith m cs from key _ _ cs h (Nat.le_refl _)
  intro n
  induction n with
  | zero =>
    intro m cs hn _
    obtain rfl := List.length_eq_zero_iff.mp (Nat.le_zero.mp hn)
    cases m <;> rfl
  | succ n ih =>
    intro m cs hn hm
    cases cs with
    | nil => cases m <;> rfl
    | cons c r =>
      obtain ⟨m, rfl⟩ : ∃ k, m = k + 1 := ⟨m - 1, by simp at hm; omega⟩
      simp only [List.length_cons, Nat.add_le_add_iff_right] at hn hm
      have hd : (r.dropWhile fun x => !endsComment x).length ≤ r.length :=
        (List.dropWhile_sublist _).length_le
      unfold tokensInWith
      rw [ih m r hn hm, ih m _ (Nat.le_trans hd hn) (Nat.le_trans hd hm)]
      cases ht : readToken (c :: r) with
      | none => rfl
      | some p =>
        have hp := readToken_length (t := p.1) (r := p.2) ht
        simp only [List.length_cons] at hp
        simp only [ih m p.2 (by omega) (by omega)]

theorem tokensIn_ignored {c : Char} (h : isIgnored c = true) (r : List Char) :
    tokensIn (c :: r) = tokensIn r := by
  rw [tokensIn, List.length_cons, tokensInWith, if_pos h]
  rfl

/-- What is left out in front of a text adds no tokens. -/
theorem tokensIn_gap {g : List Char} (h : g.all isIgnored = true) (cs : List Char) :
    tokensIn (g ++ cs) = tokensIn cs := by
  induction g with
  | nil => rfl
  | cons c g ih =>
    rw [List.all_cons, Bool.and_eq_true] at h
    rw [List.cons_append, tokensIn_ignored h.1, ih h.2]

/-- At a character that is neither left out nor the start of a comment, a token begins or the
character is passed over. -/
theorem tokensIn_cons {c : Char} (h : isIgnored c = false) (h' : c ≠ '#') (r : List Char) :
    tokensIn (c :: r) =
      match readToken (c :: r) with
      | some p => p.1 :: tokensIn p.2
      | none => tokensIn r := by
  rw [tokensIn, List.length_cons, tokensInWith, if_neg (by simp [h]), if_neg (by simpa using h')]
  cases ht : readToken (c :: r) with
  | none => rfl
  | some p =>
    have hp := readToken_length (t := p.1) (r := p.2) ht
    simp only [List.length_cons] at hp
    simp only [tokensInWith_eq (show p.2.length ≤ r.length by omega)]

/-- The tokens in a text that the grammar reads are the tokens of the text. -/
theorem tokensIn_eq {cs : List Char} {ts : List Token} (h : tokens? cs = some ts) :
    tokensIn cs = ts := by
  suffices key : ∀ n cs ts, tokensWith n cs = some ts → tokensInWith n cs = ts by
    rw [← tokensInWith_eq (Nat.le_succ _)]
    exact key _ _ _ h
  intro n
  induction n with
  | zero =>
    intro cs ts h
    cases cs with
    | nil => cases h; rfl
    | cons => cases h
  | succ n ih =>
    intro cs ts h
    cases cs with
    | nil => cases h; rfl
    | cons c r =>
      unfold tokensWith at h
      unfold tokensInWith
      split_ifs at h ⊢
      · exact ih r ts h
      · exact ih _ ts h
      · simp only [Option.bind_eq_bind, Option.bind_eq_some_iff] at h
        obtain ⟨⟨t, r'⟩, ht, us, hus, h⟩ := h
        cases h
        rw [ht]
        dsimp only
        rw [ih r' us hus]

/-! ### Texts in front of others -/

/-- The tokens in the text are `ts`, at the end or before a text that breaks off its last token;
where the text is closed, whatever stands behind it. -/
def Reads (closed : Bool) (p : List Char) (ts : List Token) : Prop :=
  ∀ rest, (closed = true ∨ rest = [] ∨ breaks rest = true) →
    tokensIn (p ++ rest) = ts ++ tokensIn rest

section Calculus

variable {closed closed' : Bool} {p q : List Char} {ts us : List Token}

theorem Reads.tokensIn (h : Reads closed p ts) : Definition.tokensIn p = ts := by
  have := h [] (Or.inr (Or.inl rfl))
  rwa [List.append_nil, show Definition.tokensIn [] = [] from rfl, List.append_nil] at this

theorem Reads.weaken (h : Reads closed p ts) : Reads false p ts :=
  fun rest hr => h rest (Or.inr (hr.resolve_left (by simp)))

theorem Reads.append (h : Reads closed p ts) (h' : Reads closed' q us)
    (hq : closed = true ∨ breaks q = true) : Reads closed' (p ++ q) (ts ++ us) := by
  intro rest hr
  have hfront : closed = true ∨ q ++ rest = [] ∨ breaks (q ++ rest) = true :=
    hq.imp_right fun hq => Or.inr (breaks_append hq rest)
  rw [List.append_assoc, h _ hfront, h' rest hr, List.append_assoc]

theorem reads_nil : Reads true [] [] := fun _ _ => rfl

theorem Reads.gap {g : List Char} (hg : g.all isIgnored = true) (h : Reads closed p ts) :
    Reads closed (g ++ p) ts :=
  fun rest hr => by rw [List.append_assoc, tokensIn_gap hg, h rest hr]

theorem reads_sign {c : Char} (hc : c ∈ signs) : Reads true [c] [.sign c] := by
  intro rest _
  have h : isIgnored c = false ∧ c ≠ '#' ∧ readToken (c :: rest) = some (.sign c, rest) := by
    simp only [signs, List.mem_cons, List.not_mem_nil, or_false] at hc
    rcases hc with rfl | rfl | rfl | rfl | rfl | rfl | rfl | rfl | rfl | rfl | rfl | rfl | rfl <;>
      exact ⟨rfl, by decide, rfl⟩
  rw [List.cons_append, List.nil_append, tokensIn_cons h.1 h.2.1, h.2.2]
  rfl

theorem Reads.sign {c : Char} (hc : c ∈ signs) (h : Reads closed p ts) :
    Reads closed (c :: p) (.sign c :: ts) :=
  (reads_sign hc).append h (Or.inl rfl)

theorem reads_dots : Reads true "...".toList [.sign '.'] :=
  fun rest _ => tokensIn_cons rfl (by decide) _

/-- A text that is read as one token. -/
theorem reads_token {c : Char} {t : Token} (hc : isIgnored c = false) (hc' : c ≠ '#')
    (h : ∀ rest, rest = [] ∨ breaks rest = true → readToken (c :: p ++ rest) = some (t, rest)) :
    Reads false (c :: p) [t] := by
  intro rest hr
  have hread := h rest (hr.resolve_left (by simp))
  rw [List.cons_append] at hread ⊢
  rw [tokensIn_cons hc hc', hread]
  rfl

theorem reads_name {n : List Char} (h : isGraphQLNameChars n = true) :
    Reads false n [.name (String.ofList n)] := by
  cases n with
  | nil => cases h
  | cons c n =>
    have hc := h
    simp only [isGraphQLNameChars, Bool.and_eq_true] at hc
    exact reads_token (isIgnored_of_isNameStart hc.1) (ne_of_isNameStart hc.1 (by decide))
      fun _ hr => readToken_word h hr

theorem reads_string (cs : List Char) :
    Reads false (Query.stringLiteral cs) [.string (String.ofList cs) false] :=
  reads_token (by decide) (by decide) fun _ hr => readToken_stringLiteral cs hr

/-- A number or a word, perhaps with a minus sign in front, has one token. -/
theorem Spelt.reads {cs : List Char} (h : Spelt cs) :
    Reads false cs [numberToken cs] ∨ ∃ n, Reads false cs [.name n] := by
  rcases h with h | ⟨minus, w, rfl, rfl | rfl, hw⟩
  · have hread (rest : List Char) (hr : rest = [] ∨ breaks rest = true) :=
      readToken_numeral h hr
    obtain ⟨c, r, rfl, hc⟩ := h.exists_cons
    obtain ⟨-, -, hcomment, hignored, -⟩ := begins_number hc
    exact Or.inl (reads_token hignored hcomment hread)
  · exact Or.inr ⟨_, reads_name hw⟩
  · -- the minus sign begins no token and is passed over
    refine Or.inr ⟨String.ofList w, fun rest hr => ?_⟩
    have hword := reads_name hw rest hr
    cases w with
    | nil => cases hw
    | cons c w =>
      simp only [isGraphQLNameChars, Bool.and_eq_true] at hw
      rw [List.append_assoc, List.singleton_append, tokensIn_cons (by decide) (by decide),
        List.cons_append, readToken_signedWord hw.1, ← List.cons_append]
      exact hword

end Calculus

/-! ### Brackets -/

/-- Does the token open a selection set, an object or a list? -/
def opensLevel (t : Token) : Bool :=
  t == .sign '{' || t == .sign '['

/-- Does the token close a selection set, an object or a list? -/
def closesLevel (t : Token) : Bool :=
  t == .sign '}' || t == .sign ']'

/-- The number of open brackets behind a token, from the number in front of it. -/
def levelAfter (n : Nat) (t : Token) : Nat :=
  if opensLevel t then n + 1 else if closesLevel t then n - 1 else n

/-- The number of open brackets behind the tokens, from the number in front of them. -/
def levelBehind (n : Nat) (ts : List Token) : Nat :=
  ts.foldl levelAfter n

/-- The number of brackets that the tokens open and do not close. -/
def unclosed (ts : List Token) : Nat :=
  levelBehind 0 ts

/-- The tokens close what they open and nothing else. -/
def IsLevel (ts : List Token) : Prop :=
  ∀ n, levelBehind n ts = n

section Levels

variable {ts us : List Token}

theorem levelBehind_append (n : Nat) (ts us : List Token) :
    levelBehind n (ts ++ us) = levelBehind (levelBehind n ts) us :=
  List.foldl_append

theorem isLevel_nil : IsLevel [] := fun _ => rfl

theorem IsLevel.append (h : IsLevel ts) (h' : IsLevel us) : IsLevel (ts ++ us) := by
  intro n
  rw [levelBehind_append, h n, h' n]

theorem isLevel_singleton {t : Token} (ho : opensLevel t = false) (hc : closesLevel t = false) :
    IsLevel [t] := by
  intro n
  simp [levelBehind, levelAfter, ho, hc]

/-- Tokens between an opening and a closing bracket. -/
theorem IsLevel.enclosed {opening closing : Token} (ho : opensLevel opening = true)
    (ho' : opensLevel closing = false) (hc : closesLevel closing = true) (h : IsLevel ts) :
    IsLevel ([opening] ++ ts ++ [closing]) := by
  intro n
  have hopen : levelBehind n [opening] = n + 1 := by simp [levelBehind, levelAfter, ho]
  have hclose : levelBehind (n + 1) [closing] = n := by simp [levelBehind, levelAfter, ho', hc]
  rw [levelBehind_append, levelBehind_append, hopen, h, hclose]

end Levels

/-! ### The first token of a line -/

/-- The token that begins at the first character that is not left out. -/
def firstToken? (cs : List Char) : Option Token :=
  (readToken (cs.dropWhile isIgnored)).map Prod.fst

/-- A sign that is read is the first character. -/
theorem sign_of_readToken {c d : Char} {r r' : List Char}
    (h : readToken (c :: r) = some (.sign d, r')) : c = d := by
  unfold readToken at h
  split at h
  · cases h
  · rename_i heq
    cases heq
    cases h
    rfl
  · simp only [Option.bind_eq_bind, Option.bind_eq_some_iff] at h
    obtain ⟨_, _, h⟩ := h
    cases h
  · simp only [Option.bind_eq_bind, Option.bind_eq_some_iff] at h
    obtain ⟨_, _, h⟩ := h
    cases h
  · rename_i heq
    cases heq
    split_ifs at h
    · cases h
      rfl
    · cases h
    · unfold readNumber at h
      simp only [Option.bind_eq_bind, Option.bind_eq_some_iff] at h
      obtain ⟨_, _, _, _, _, _, h⟩ := h
      split_ifs at h <;> cases h

/-- The first token on a line closes a bracket exactly where the line begins with a closing
bracket. -/
theorem closesLevel_firstToken? {c : Char} (hc : isIgnored c = false) (k : Nat) (r : List Char) :
    (firstToken? (List.replicate k ' ' ++ c :: r)).any closesLevel = (c == '}' || c == ']') := by
  have hdrop : (List.replicate k ' ' ++ c :: r).dropWhile isIgnored = c :: r := by
    rw [List.dropWhile_append_of_pos (fun d hd => by rw [List.eq_of_mem_replicate hd]; rfl),
      List.dropWhile_cons_of_neg (by simp [hc])]
  rw [firstToken?, hdrop]
  by_cases hclosing : c = '}' ∨ c = ']'
  · rcases hclosing with rfl | rfl <;> rfl
  · have hbool : (c == '}' || c == ']') = false := by simpa [not_or] using hclosing
    rw [hbool]
    cases ht : readToken (c :: r) with
    | none => rfl
    | some p =>
      obtain ⟨t, r'⟩ := p
      show closesLevel t = false
      rw [closesLevel, Bool.or_eq_false_iff, beq_eq_false_iff_ne, beq_eq_false_iff_ne]
      constructor <;> rintro rfl
      · exact hclosing (Or.inl (sign_of_readToken ht))
      · exact hclosing (Or.inr (sign_of_readToken ht))

end Bindery.Definition
