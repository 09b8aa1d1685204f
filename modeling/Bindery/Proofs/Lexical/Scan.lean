import Bindery.Definition.Token
import Mathlib.Data.List.Basic

/-!
# Tokens of a text in pieces

A text that is put together of pieces has the tokens of the pieces, as long as no piece continues
the last token of the one before. A piece that is closed keeps its tokens whatever follows; any
other keeps them at the end and before what breaks off.

## What is proved

* `readToken_length` — a token takes at least one character, so the number of characters bounds the
  number of steps, and `tokensWith_eq` says that more steps change nothing.
* `Closes.append`, `Scans.append_closes` and the like — the tokens of two pieces in a row.
-/

namespace Bindery.Definition

open Bindery.Text

theorem readEscape_length {cs r : List Char} {c : Char} (h : readEscape cs = some (c, r)) :
    r.length < cs.length := by
  unfold readEscape at h
  split at h
  · rename_i r'
    dsimp only at h
    split at h
    · cases h
    · simp only [Option.bind_eq_bind, Option.bind_eq_some_iff] at h
      obtain ⟨x, -, h⟩ := h
      cases h
      simp only [List.length_drop, List.length_cons]
      omega
  · simp only [Option.bind_eq_bind, Option.bind_eq_some_iff] at h
    obtain ⟨n, -, h⟩ := h
    split at h
    · cases h; simp only [List.length_cons]; omega
    · split at h
      · simp only [Option.bind_eq_some_iff] at h
        obtain ⟨m, -, h⟩ := h
        split at h
        · simp only [Option.pure_def, Option.some.injEq, Prod.mk.injEq] at h
          obtain ⟨-, rfl⟩ := h
          simp only [List.length_cons]; omega
        · cases h
      · cases h
  · simp only [Option.map_eq_some_iff] at h
    obtain ⟨x, -, h⟩ := h
    cases h; simp
  · cases h

theorem readString_length {fuel : Nat} {cs s r : List Char} (h : readString fuel cs = some (s, r)) :
    r.length < cs.length := by
  induction fuel generalizing cs s with
  | zero => cases h
  | succ fuel ih =>
    unfold readString at h
    split at h
    · cases h
    · cases h; simp
    · cases h
    · cases h
    · simp only [Option.bind_eq_bind, Option.bind_eq_some_iff] at h
      obtain ⟨⟨c, r₁⟩, hc, ⟨s', r₂⟩, hs, h⟩ := h
      cases h
      have h₁ := readEscape_length hc
      have h₂ := ih hs
      simp only [List.length_cons] at h₁ h₂ ⊢; omega
    · simp only [Option.bind_eq_bind, Option.bind_eq_some_iff] at h
      obtain ⟨⟨s', r₂⟩, hs, h⟩ := h
      cases h
      have h₂ := ih hs
      simp only [List.length_cons] at h₂ ⊢; omega

theorem readBlock_length {cs s r : List Char} (h : readBlock cs = some (s, r)) :
    r.length < cs.length := by
  fun_induction readBlock cs generalizing s with
  | case1 => cases h
  | case2 r' => cases h; simp only [List.length_cons]; omega
  | case3 r' ih =>
    simp only [Option.bind_eq_bind, Option.bind_eq_some_iff] at h
    obtain ⟨⟨s', r₂⟩, hs, h⟩ := h
    cases h
    have := ih hs
    simp only [List.length_cons] at this ⊢; omega
  | case4 c r' _ _ ih =>
    simp only [Option.bind_eq_bind, Option.bind_eq_some_iff] at h
    obtain ⟨⟨s', r₂⟩, hs, h⟩ := h
    cases h
    have := ih hs
    simp only [List.length_cons] at this ⊢; omega

theorem readDigits_length {cs ds r : List Char} (h : readDigits cs = some (ds, r)) :
    r.length < cs.length := by
  simp only [readDigits] at h
  split at h
  · cases h
  · rename_i hne
    cases h
    have hle := (List.takeWhile_sublist (l := cs) Char.isDigit).length_le
    simp only [List.isEmpty_iff] at hne
    have := List.length_pos_iff.mpr hne
    simp only [List.length_drop]; omega

theorem readWhole_length {cs ds r : List Char} (h : readWhole cs = some (ds, r)) :
    r.length < cs.length := by
  unfold readWhole at h
  split at h
  · split at h
    · cases h
    · cases h; simp
  · exact readDigits_length h

theorem readFraction_length {cs ds r : List Char} (h : readFraction cs = some (ds, r)) :
    r.length ≤ cs.length := by
  unfold readFraction at h
  split at h
  · simp only [Option.map_eq_some_iff] at h
    obtain ⟨⟨ds', r'⟩, hd, h⟩ := h
    cases h
    have := readDigits_length hd
    simp only [List.length_cons]; omega
  · cases h; exact Nat.le_refl _

theorem readExponentSign_length (cs : List Char) : (readExponentSign cs).2.length ≤ cs.length := by
  unfold readExponentSign
  split <;> simp

theorem readExponent_length {cs ds r : List Char} (h : readExponent cs = some (ds, r)) :
    r.length ≤ cs.length := by
  unfold readExponent at h
  split at h
  · rename_i c r₀
    split at h
    · simp only [Option.map_eq_some_iff] at h
      obtain ⟨⟨ds', r'⟩, hd, h⟩ := h
      cases h
      have h₁ := readDigits_length hd
      have h₂ := readExponentSign_length r₀
      simp only [List.length_cons]; omega
    · cases h; exact Nat.le_refl _
  · cases h; exact Nat.le_refl _

theorem readNumber_length {cs r : List Char} {t : Token} (h : readNumber cs = some (t, r)) :
    r.length < cs.length := by
  unfold readNumber at h
  simp only [Option.bind_eq_bind, Option.bind_eq_some_iff] at h
  obtain ⟨⟨w, r₁⟩, hw, ⟨f, r₂⟩, hf, ⟨e, r₃⟩, he, h⟩ := h
  have h₁ := readWhole_length hw
  have h₂ := readFraction_length hf
  have h₃ := readExponent_length he
  have h₀ : (if (cs.head? == some '-') = true then (['-'], cs.tail) else ([], cs)).2.length ≤
      cs.length := by
    split <;> simp
  have hr : r = r₃ := by
    dsimp only at h
    split at h
    · cases h
    · split at h <;> · cases h; rfl
  subst hr
  dsimp only at h₁ h₂ h₃
  omega

theorem readToken_length {cs r : List Char} {t : Token} (h : readToken cs = some (t, r)) :
    r.length < cs.length := by
  unfold readToken at h
  split at h
  · cases h
  · cases h; simp only [List.length_cons]; omega
  · simp only [Option.bind_eq_bind, Option.bind_eq_some_iff] at h
    obtain ⟨⟨s, r'⟩, hb, h⟩ := h
    cases h
    have := readBlock_length hb
    simp only [List.length_cons]; omega
  · simp only [Option.bind_eq_bind, Option.bind_eq_some_iff] at h
    obtain ⟨⟨s, r'⟩, hb, h⟩ := h
    cases h
    have := readString_length hb
    simp only [List.length_cons]; omega
  · split at h
    · cases h; simp
    · split at h
      · cases h
        simp only [List.length_cons, List.length_drop]; omega
      · split at h
        · exact readNumber_length h
        · cases h

/-- More steps than characters change nothing. -/
theorem tokensWith_eq {n : Nat} {cs : List Char} (h : cs.length ≤ n) :
    tokensWith n cs = tokens? cs := by
  suffices key : ∀ n m (cs : List Char), cs.length ≤ n → cs.length ≤ m →
      tokensWith n cs = tokensWith m cs from key _ _ cs h (Nat.le_succ _)
  intro n
  induction n with
  | zero =>
    intro m cs hn _
    obtain rfl := List.length_eq_zero_iff.mp (Nat.le_zero.mp hn)
    cases m <;> rfl
  | succ n ih =>
    intro m cs hn hm
    cases cs with
    | nil => cases m <;> rfl
    | cons c r =>
      obtain ⟨m, rfl⟩ : ∃ k, m = k + 1 := ⟨m - 1, by simp at hm; omega⟩
      simp only [List.length_cons, Nat.add_le_add_iff_right] at hn hm
      have hd : (r.dropWhile fun x => !endsComment x).length ≤ r.length :=
        (List.dropWhile_sublist _).length_le
      unfold tokensWith
      rw [ih m r hn hm, ih m _ (Nat.le_trans hd hn) (Nat.le_trans hd hm)]
      cases ht : readToken (c :: r) with
      | none => rfl
      | some p =>
        have hp := readToken_length (t := p.1) (r := p.2) ht
        simp only [List.length_cons] at hp
        simp only [Option.bind_eq_bind, Option.bind_some, ih m p.2 (by omega) (by omega)]

theorem tokens?_nil : tokens? [] = some [] := rfl

theorem tokens?_ignored {c : Char} (h : isIgnored c = true) (r : List Char) :
    tokens? (c :: r) = tokens? r := by
  rw [tokens?, tokensWith, if_pos h]
  exact tokensWith_eq (by simp)

/-- A character that is neither left out nor the start of a comment begins a token. -/
theorem tokens?_token {c : Char} (h : isIgnored c = false) (h' : c ≠ '#') (r : List Char) :
    tokens? (c :: r) = (readToken (c :: r)).bind fun p => (tokens? p.2).map (p.1 :: ·) := by
  rw [tokens?, tokensWith, if_neg (by simp [h]), if_neg (by simpa using h')]
  cases ht : readToken (c :: r) with
  | none => rfl
  | some p =>
    have hp := readToken_length (t := p.1) (r := p.2) ht
    simp only [List.length_cons] at hp
    simp only [Option.bind_eq_bind, Option.bind_some, List.length_cons]
    rw [tokensWith_eq (by omega)]
    cases tokens? p.2 <;> rfl

/-! ### Texts in front of others -/

/-- The tokens of a text in front of those of the next, where both have tokens. -/
def follow (a b : Option (List Token)) : Option (List Token) :=
  a.bind fun x => b.map (x ++ ·)

@[simp] theorem follow_nil (b : Option (List Token)) : follow (some []) b = b := by
  cases b <;> rfl

@[simp] theorem follow_some (x y : List Token) : follow (some x) (some y) = some (x ++ y) := rfl

@[simp] theorem follow_none (a : Option (List Token)) : follow a none = none := by
  cases a <;> rfl

@[simp] theorem none_follow (b : Option (List Token)) : follow none b = none := rfl

@[simp] theorem follow_some_nil (a : Option (List Token)) : follow a (some []) = a := by
  cases a <;> simp

theorem follow_assoc (a b c : Option (List Token)) :
    follow (follow a b) c = follow a (follow b c) := by
  cases a <;> cases b <;> cases c <;> simp

theorem map_cons_eq_follow (t : Token) (b : Option (List Token)) :
    b.map (t :: ·) = follow (some [t]) b := rfl

/-- Does the text begin with a character that belongs to no token before it? -/
def breaks : List Char → Bool
  | [] => false
  | c :: _ => !(isNameChar c || c == '.' || c == '"')

theorem breaks_append {p : List Char} (h : breaks p = true) (q : List Char) :
    breaks (p ++ q) = true := by
  cases p with
  | nil => cases h
  | cons c r => exact h

/-- The text has the tokens `ts`, whatever stands behind it. -/
def Closes (p : List Char) (ts : Option (List Token)) : Prop :=
  ∀ rest, tokens? (p ++ rest) = follow ts (tokens? rest)

/-- The text has the tokens `ts`, at the end or before a text that breaks off its last token. -/
def Scans (p : List Char) (ts : Option (List Token)) : Prop :=
  ∀ rest, (rest = [] ∨ breaks rest = true) → tokens? (p ++ rest) = follow ts (tokens? rest)

section Calculus

variable {p q : List Char} {a b : Option (List Token)}

theorem Closes.scans (h : Closes p a) : Scans p a := fun rest _ => h rest

theorem Scans.tokens? (h : Scans p a) : Definition.tokens? p = a := by
  simpa [tokens?_nil] using h [] (Or.inl rfl)

theorem Closes.append (h : Closes p a) (h' : Closes q b) : Closes (p ++ q) (follow a b) := by
  intro rest
  rw [List.append_assoc, h, h', follow_assoc]

theorem Closes.append_scans (h : Closes p a) (h' : Scans q b) : Scans (p ++ q) (follow a b) := by
  intro rest hr
  rw [List.append_assoc, h, h' rest hr, follow_assoc]

theorem Scans.append_closes (h : Scans p a) (h' : Closes q b) (hq : breaks q = true) :
    Closes (p ++ q) (follow a b) := by
  intro rest
  rw [List.append_assoc, h _ (Or.inr (breaks_append hq rest)), h', follow_assoc]

theorem Scans.append (h : Scans p a) (h' : Scans q b) (hq : breaks q = true) :
    Scans (p ++ q) (follow a b) := by
  intro rest hr
  rw [List.append_assoc, h _ (Or.inr (breaks_append hq rest)), h' rest hr, follow_assoc]

theorem closes_nil : Closes [] (some []) := fun rest => by simp

theorem Closes.ignored {c : Char} (hc : isIgnored c = true) (h : Closes p a) : Closes (c :: p) a :=
  fun rest => by rw [List.cons_append, tokens?_ignored hc, h]

theorem Scans.ignored {c : Char} (hc : isIgnored c = true) (h : Scans p a) : Scans (c :: p) a :=
  fun rest hr => by rw [List.cons_append, tokens?_ignored hc, h rest hr]

theorem closes_sign {c : Char} (hc : c ∈ signs) : Closes [c] (some [.sign c]) := by
  intro rest
  simp only [signs, List.mem_cons, List.not_mem_nil, or_false] at hc
  rcases hc with rfl | rfl | rfl | rfl | rfl | rfl | rfl | rfl | rfl | rfl | rfl | rfl | rfl <;>
    exact tokens?_token rfl (by decide) rest

theorem Closes.sign {c : Char} (hc : c ∈ signs) (h : Closes p a) :
    Closes (c :: p) (follow (some [.sign c]) a) :=
  (closes_sign hc).append h

theorem Scans.sign {c : Char} (hc : c ∈ signs) (h : Scans p a) :
    Scans (c :: p) (follow (some [.sign c]) a) :=
  (closes_sign hc).append_scans h

theorem closes_dots : Closes "...".toList (some [.sign '.']) :=
  fun rest => tokens?_token rfl (by decide) _

end Calculus

end Bindery.Definition
