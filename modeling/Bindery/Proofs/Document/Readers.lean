import Bindery.Proofs.Document.Tokens
import Bindery.Proofs.Literal.Reading

/-!
# Readers of items and types

Readers that look at the token behind what they take. An item of a bracket is read in front of every
token that does not continue it, so it is enough to know which signs would. A type is a name inside
brackets, where an exclamation mark excludes null. Proved here: items in round brackets are read one
by one, up to the bracket that closes them, and where no bracket opens nothing is read; the text of a
type has the tokens of the type, these are read as the type, and so a text is the text of at most one
type.
-/

namespace Bindery.Query

open Bindery.Definition

/-! ### Readers that look at the next token -/

/-- The tokens begin with none of the signs. -/
def Apart (cs : List Char) (ts : List Token) : Prop :=
  ∀ c ∈ cs, ts.head? ≠ some (.sign c)

section Next

variable {α : Type} {c : Char} {cs ds : List Char} {ts : List Token}

theorem Apart.weaken (h : Apart cs ts) (hd : ds ⊆ cs) : Apart ds ts := by
  intro c hc
  exact h c (hd hc)

theorem apart_name (cs : List Char) (n : String) (r : List Token) : Apart cs (.name n :: r) :=
  fun c _ => by simp

theorem apart_sign {d : Char} (h : d ∉ cs) (r : List Token) : Apart cs (.sign d :: r) := by
  intro c hc
  simp only [List.head?_cons, ne_eq, Option.some.injEq, Token.sign.injEq]
  rintro rfl
  exact h hc

theorem comes_apply (t : Token) (ts : List Token) :
    comes t ts = some (ts.head? == some t, ts) := rfl

theorem remaining_apply (ts : List Token) : remaining ts = some (ts.length, ts) := rfl

theorem readName_name (n : String) (r : List Token) : readName (.name n :: r) = some (n, r) := rfl

/-- An item of a bracket: the reader takes its tokens in front of others that begin with none of the
signs. The tokens are at least one, and neither a sign nor the closing bracket comes first. -/
def ReadsItem (item : Reader α) (closing : Char) (cs : List Char) (ts : Option (List Token))
    (x : α) : Prop :=
  ∃ t r, ts = some (t :: r) ∧ t ≠ .sign closing ∧ Apart cs (t :: r) ∧
    ∀ rest, Apart cs rest → item (t :: r ++ rest) = some (x, rest)

/-- Items up to a closing bracket are read one by one. -/
theorem manyUpTo_reads {item : Reader α} {closing : Char} (hc : closing ∉ cs)
    {ts : Option (List Token)} {x : α} (hx : ReadsItem item closing cs ts x)
    {tss : List (Option (List Token))} {xs : List α}
    (h : List.Forall₂ (ReadsItem item closing cs) tss xs) :
    ∃ t r, followAll (ts :: tss) = some (t :: r) ∧ t ≠ .sign closing ∧ Apart cs (t :: r) ∧
      tss.length ≤ r.length ∧ ∀ fuel rest, tss.length < fuel →
        manyUpTo item (.sign closing) fuel (t :: r ++ .sign closing :: rest) =
          some (x :: xs, rest) := by
  induction h generalizing ts x with
  | nil =>
    obtain ⟨t, r, rfl, ht, ha, hr⟩ := hx
    refine ⟨t, r, by simp, ht, ha, by simp, ?_⟩
    intro fuel rest hf
    obtain ⟨n, rfl⟩ := Nat.exists_eq_add_one_of_ne_zero (Nat.ne_zero_of_lt hf)
    rw [manyUpTo, Reader.bind_of (hr _ (apart_sign hc rest)), Reader.bind_of (accept_self _ _)]
    rfl
  | @cons us y tss xs hy _ ih =>
    obtain ⟨t, r, rfl, ht, ha, hr⟩ := hx
    obtain ⟨u, v, huv, hu, hau, hl, hread⟩ := ih hy
    refine ⟨t, r ++ u :: v, by simp [huv], ht, fun c hc => ha c hc, ?_, fun fuel rest hf => ?_⟩
    · simp only [List.length_cons, List.length_append]
      omega
    · obtain ⟨n, rfl⟩ := Nat.exists_eq_add_one_of_ne_zero (by omega : fuel ≠ 0)
      simp only [List.length_cons, Nat.add_lt_add_iff_right] at hf
      have hnext : Apart cs (u :: v ++ .sign closing :: rest) := fun c hc => hau c hc
      have htext : t :: (r ++ u :: v) ++ .sign closing :: rest =
          t :: r ++ (u :: v ++ .sign closing :: rest) := by simp
      rw [htext, manyUpTo, Reader.bind_of (hr _ hnext),
        Reader.bind_of (accept_other _ (by simpa using hu))]
      simp only [Bool.false_eq_true, if_false]
      rw [Reader.bind_of (hread n rest (by omega))]
      rfl

/-- What a text in round brackets is read as, where it may be left out. -/
theorem optionalMany_reads {item : Reader α} (hc : ')' ∉ cs) {tss : List (Option (List Token))}
    {xs : List α} (h : List.Forall₂ (ReadsItem item ')' cs) tss xs) :
    ∃ ts, bracketTokens tss = some ts ∧ (ts = [] ∨ ts.head? = some (.sign '(')) ∧
      ∀ rest, Apart ['('] rest → optionalMany '(' item ')' (ts ++ rest) = some (xs, rest) := by
  cases h with
  | nil =>
    refine ⟨[], rfl, Or.inl rfl, ?_⟩
    intro rest hr
    rw [List.nil_append, optionalMany, Reader.bind_of (accept_other _ (hr '(' (by simp)))]
    rfl
  | @cons ts x tss xs hx hxs =>
    obtain ⟨t, r, htr, -, -, hl, hread⟩ := manyUpTo_reads hc hx hxs
    refine ⟨.sign '(' :: (t :: r ++ [.sign ')']), ?_, Or.inr rfl, fun rest _ => ?_⟩
    · rw [bracketTokens, htr]
      rfl
    · have htext : .sign '(' :: (t :: r ++ [.sign ')']) ++ rest =
          .sign '(' :: (t :: r ++ .sign ')' :: rest) := by simp
      rw [htext, optionalMany, Reader.bind_of (accept_self _ _)]
      simp only [if_true]
      rw [Reader.bind_of (remaining_apply _)]
      refine hread _ rest ?_
      simp only [List.length_append, List.length_cons]
      omega

/-- Tokens that are none or begin with another sign, in front of others. -/
theorem apart_append {d : Char} (h : ts = [] ∨ ts.head? = some (.sign d)) (hd : d ∉ cs)
    {rest : List Token} (hr : Apart cs rest) : Apart cs (ts ++ rest) := by
  rcases h with rfl | h
  · exact hr
  · cases ts with
    | nil => cases h
    | cons t r =>
      simp only [List.head?_cons, Option.some.injEq] at h
      subst h
      exact apart_sign hd _

end Next

end Bindery.Query

namespace Bindery.Definition

open Bindery.Text
open Bindery.Query (Apart apart_sign apart_name closes_enclosed scans_word enclose)

/-! ### Types -/

/-- The text of a type. -/
def TypeExpr.chars : TypeExpr → List Char
  | .named n => n.toList
  | .list t => '[' :: t.chars ++ [']']
  | .nonNull t => t.chars ++ ['!']

/-- Is the type one that can be written? Its name is a name, and null is excluded only once. -/
def TypeExpr.isWellFormed : TypeExpr → Bool
  | .named n => isGraphQLName n
  | .list t => t.isWellFormed
  | .nonNull t => t.isWellFormed && !t.isNonNull

/-- The tokens of a type. -/
def TypeExpr.tokens : TypeExpr → List Token
  | .named n => [.name n]
  | .list t => .sign '[' :: t.tokens ++ [.sign ']']
  | .nonNull t => t.tokens ++ [.sign '!']

theorem TypeExpr.scans {t : TypeExpr} (h : t.isWellFormed = true) :
    Scans t.chars (some t.tokens) := by
  induction t with
  | named n => exact scans_word h
  | list t ih => exact (closes_enclosed (by decide) (by decide) rfl (ih h)).scans
  | nonNull t ih =>
    simp only [TypeExpr.isWellFormed, Bool.and_eq_true] at h
    exact ((ih h.1).append_closes (closes_sign (by decide)) rfl).scans

theorem withMark_mark (t : TypeExpr) (r : List Token) :
    withMark t (.sign '!' :: r) = some (.nonNull t, r) := by
  rw [withMark, Reader.bind_of (accept_self _ _)]
  rfl

theorem withMark_none (t : TypeExpr) {r : List Token} (h : Apart ['!'] r) :
    withMark t r = some (t, r) := by
  rw [withMark, Reader.bind_of (accept_other _ (h '!' (by simp)))]
  rfl

theorem readTypeWith_named (fuel : Nat) (n : String) (r : List Token) :
    readTypeWith (fuel + 1) (.name n :: r) = withMark (.named n) r := by
  rw [readTypeWith, Reader.bind_of (accept_other _ (by simp))]
  rfl

theorem readTypeWith_list {fuel : Nat} {t : TypeExpr} {ts r : List Token}
    (h : readTypeWith fuel ts = some (t, .sign ']' :: r)) :
    readTypeWith (fuel + 1) (.sign '[' :: ts) = withMark (.list t) r := by
  rw [readTypeWith, Reader.bind_of (accept_self _ _)]
  simp only [if_true]
  rw [Reader.bind_of h, Reader.bind_of (expect_self _ _)]

/-- The tokens of a type are read as the type. -/
theorem readTypeWith_tokens : ∀ t : TypeExpr, t.isWellFormed = true → ∀ fuel rest,
    t.tokens.length < fuel → Apart ['!'] rest →
      readTypeWith fuel (t.tokens ++ rest) = some (t, rest)
  | .named n, _, fuel, rest, hf, hr => by
    obtain ⟨k, rfl⟩ := Nat.exists_eq_add_one_of_ne_zero (by omega : fuel ≠ 0)
    exact (readTypeWith_named k n rest).trans (withMark_none _ hr)
  | .list t, h, fuel, rest, hf, hr => by
    simp only [TypeExpr.tokens, List.length_append, List.length_cons, List.length_nil] at hf
    obtain ⟨k, rfl⟩ := Nat.exists_eq_add_one_of_ne_zero (by omega : fuel ≠ 0)
    have := readTypeWith_tokens t h k (.sign ']' :: rest) (by omega) (apart_sign (by decide) _)
    have := (readTypeWith_list this).trans (withMark_none _ hr)
    simpa [TypeExpr.tokens] using this
  | .nonNull (.named n), _, fuel, rest, hf, _ => by
    obtain ⟨k, rfl⟩ := Nat.exists_eq_add_one_of_ne_zero (by omega : fuel ≠ 0)
    exact (readTypeWith_named k n _).trans (withMark_mark _ rest)
  | .nonNull (.list t), h, fuel, rest, hf, _ => by
    simp only [TypeExpr.isWellFormed, TypeExpr.isNonNull, Bool.not_false, Bool.and_true] at h
    simp only [TypeExpr.tokens, List.length_append, List.length_cons, List.length_nil] at hf
    obtain ⟨k, rfl⟩ := Nat.exists_eq_add_one_of_ne_zero (by omega : fuel ≠ 0)
    have := readTypeWith_tokens t h k (.sign ']' :: .sign '!' :: rest) (by omega)
      (apart_sign (by decide) _)
    have := (readTypeWith_list this).trans (withMark_mark _ rest)
    simpa [TypeExpr.tokens] using this
  | .nonNull (.nonNull t), h, _, _, _, _ => by
    simp [TypeExpr.isWellFormed, TypeExpr.isNonNull] at h

theorem readType_append {t : TypeExpr} (h : t.isWellFormed = true) {rest : List Token}
    (hr : Apart ['!'] rest) : readType (t.tokens ++ rest) = some (t, rest) := by
  rw [readType, Reader.bind_of (Query.remaining_apply _)]
  refine readTypeWith_tokens t h _ rest ?_ hr
  simp only [List.length_append]
  omega

/-- Types of one text are one type. -/
theorem TypeExpr.eq_of_chars {t u : TypeExpr} (ht : t.isWellFormed = true)
    (hu : u.isWellFormed = true) (h : t.chars = u.chars) : t = u := by
  have htokens : t.tokens = u.tokens := by
    have h₁ := (TypeExpr.scans ht).tokens?
    rw [h, (TypeExpr.scans hu).tokens?] at h₁
    exact (Option.some.inj h₁).symm
  have hnil : Apart ['!'] [] := by simp [Apart]
  have h₁ := readType_append ht hnil
  rw [htokens, readType_append hu hnil] at h₁
  simpa using h₁.symm

end Bindery.Definition
