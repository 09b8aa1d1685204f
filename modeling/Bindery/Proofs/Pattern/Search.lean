import Bindery.Pattern.Matcher
import Mathlib.Data.List.Basic

/-!
# Searching a text

A text is searched for a pattern from its start on. Where the pattern matches, the search goes on
behind the match; elsewhere it goes on behind the next character. So the text falls into pieces, the
matches and the characters between them.

A repetition of one set of characters that takes as much as it can first tries what follows behind
all characters of the set that stand there, and gives back one after the other where that fails.

## What is proved

* `Searched.unique` — a text falls into pieces in one way.
* `run_repeat_eq_some`, `run_repeat_eq_none` — how much a repetition takes.
-/

namespace Bindery.Pattern

/-! ### Pieces -/

/-- A piece of a text that is searched. -/
inductive Piece where
  /-- A character between matches. -/
  | kept (c : Char)
  /-- A match, and what its groups matched. -/
  | found (text : List Char) (groups : List (Nat × List Char))
  deriving Repr

/-- The texts of the matches. -/
def matches? : Piece → Option (List Char)
  | .kept _ => none
  | .found text _ => some text

/-- The characters of the piece, with a match replaced by what is made of its groups. -/
def Piece.replaced (f : List (Nat × List Char) → List Char) : Piece → List Char
  | .kept c => [c]
  | .found _ groups => f groups

/-- The search for the pattern in what is left of a text, behind the characters `before` (backwards),
gives the pieces. No match is empty. -/
inductive Searched (n : Node) : List Char → List Char → List Piece → Prop where
  /-- The text ends. -/
  | nil {before : List Char} : n.run some ⟨before, [], []⟩ = none → Searched n before [] []
  /-- There is no match at the next character. -/
  | kept {before r : List Char} {c : Char} {ps : List Piece} :
    n.run some ⟨before, c :: r, []⟩ = none → Searched n (c :: before) r ps →
      Searched n before (c :: r) (.kept c :: ps)
  /-- There is a match. -/
  | found {before w r : List Char} {q : Place} {ps : List Piece} :
    n.run some ⟨before, w ++ r, []⟩ = some q → q.behind = r → w ≠ [] →
      Searched n q.before r ps → Searched n before (w ++ r) (.found w q.groups :: ps)

/-- A text falls into pieces in one way. -/
theorem Searched.unique {n : Node} {before cs : List Char} {ps ps' : List Piece}
    (h : Searched n before cs ps) (h' : Searched n before cs ps') : ps = ps' := by
  induction h generalizing ps' with
  | nil hnone =>
    generalize hcs : ([] : List Char) = cs at h'
    cases h' with
    | nil => rfl
    | kept => cases hcs
    | found _ _ hne => exact absurd (List.append_eq_nil_iff.mp hcs.symm).1 hne
  | @kept before r c ps hnone _ ih =>
    generalize hcs : c :: r = cs at h'
    cases h' with
    | nil => cases hcs
    | kept _ hrest => cases hcs; rw [ih hrest]
    | found hrun => rw [← hcs, hnone] at hrun; cases hrun
  | @found before w r q ps hrun hbehind hne _ ih =>
    generalize hcs : w ++ r = cs at h'
    cases h' with
    | nil => exact absurd (List.append_eq_nil_iff.mp hcs).1 hne
    | kept hnone => rw [← hcs, hrun] at hnone; cases hnone
    | found hrun' hbehind' _ hrest =>
      rw [← hcs, hrun] at hrun'
      obtain rfl := Option.some.inj hrun'
      obtain rfl := hbehind.symm.trans hbehind'
      obtain rfl := List.append_cancel_right hcs
      rw [ih hrest]

/-- No match is empty. -/
theorem Searched.ne_nil {n : Node} {before cs : List Char} {ps : List Piece}
    (h : Searched n before cs ps) : ∀ w ∈ ps.filterMap matches?, w ≠ [] := by
  induction h with
  | nil => exact nofun
  | kept _ _ ih => exact ih
  | found _ _ hne _ ih => exact List.forall_mem_cons.mpr ⟨hne, ih⟩

/-- Where the pattern does not match, the next piece is the next character. -/
theorem Searched.of_eq_none {n : Node} {before r : List Char} {c : Char} {ps : List Piece}
    (h : Searched n before (c :: r) ps) (hnone : n.run some ⟨before, c :: r, []⟩ = none) :
    ∃ qs, ps = .kept c :: qs ∧ Searched n (c :: before) r qs := by
  generalize hcs : c :: r = cs at h
  cases h with
  | nil => cases hcs
  | kept _ hrest => cases hcs; exact ⟨_, rfl, hrest⟩
  | found hrun => rw [← hcs, hnone] at hrun; cases hrun

/-! ### Repetitions of a set -/

/-- The body of a repetition that takes one character. -/
def stepping (accepts : Char → Bool) (k : Follow) (p : Place) : Option Place :=
  (p.step accepts).bind k

section Repeat

variable {accepts : Char → Bool} {k : Follow} {groups : List (Nat × List Char)} {q : Place}
  {before w u r : List Char} {c : Char} {fuel least : Nat} {last : Option Nat}

theorem stepping_cons_of_accepts (h : accepts c = true) :
    stepping accepts k ⟨before, c :: r, groups⟩ = k ⟨c :: before, r, groups⟩ := by
  simp [stepping, Place.step, h]

theorem stepping_of_not_accepts (h : ∀ c ∈ r.head?, accepts c = false) :
    stepping accepts k ⟨before, r, groups⟩ = none := by
  cases r with
  | nil => rfl
  | cons c r => simp [stepping, Place.step, h c rfl]

theorem repeatWith_succ (hlast : last ≠ some r.length) :
    repeatWith (stepping accepts) .most k (fuel + 1) least none last ⟨before, r, groups⟩ =
      (stepping accepts (repeatWith (stepping accepts) .most k fuel (least - 1) none (some r.length))
        ⟨before, r, groups⟩).or (if least = 0 then k ⟨before, r, groups⟩ else none) := by
  rw [repeatWith]
  · rcases Nat.eq_zero_or_pos least with rfl | hpos
    · simp [hlast]
    · simp [hpos, Nat.ne_of_gt hpos]
  · nofun

/-- A repetition does not match where what follows fails behind each number of characters that it may
take. -/
theorem repeatWith_eq_none (hw : ∀ c ∈ w, accepts c = true)
    (hr : ∀ c ∈ r.head?, accepts c = false) (hfuel : w.length < fuel)
    (hlast : last ≠ some (w ++ r).length)
    (hk : ∀ v v', w = v ++ v' → least ≤ v.length →
      k ⟨v.reverse ++ before, v' ++ r, groups⟩ = none) :
    repeatWith (stepping accepts) .most k fuel least none last ⟨before, w ++ r, groups⟩ = none := by
  induction w generalizing fuel least last before with
  | nil =>
    obtain ⟨fuel, rfl⟩ := Nat.exists_eq_add_one_of_ne_zero (Nat.ne_of_gt hfuel)
    rw [repeatWith_succ hlast, List.nil_append, stepping_of_not_accepts hr, Option.none_or]
    split_ifs with hleast
    · exact hk [] [] rfl (Nat.le_of_eq hleast)
    · rfl
  | cons c w ih =>
    obtain ⟨fuel, rfl⟩ := Nat.exists_eq_add_one_of_ne_zero (Nat.ne_of_gt (Nat.zero_lt_of_lt hfuel))
    rw [List.forall_mem_cons] at hw
    rw [List.length_cons] at hfuel
    rw [repeatWith_succ hlast, List.cons_append, stepping_cons_of_accepts hw.1,
      ih hw.2 (by omega) (by simp), Option.none_or]
    · split_ifs with hleast
      · exact hk [] (c :: w) rfl (Nat.le_of_eq hleast)
      · rfl
    · intro v v' hv hle
      simpa using hk (c :: v) v' (by rw [hv, List.cons_append]) (by simpa using Nat.le_add_of_sub_le hle)

/-- A repetition takes the most characters behind which what follows does not fail. -/
theorem repeatWith_eq_some (hw : ∀ c ∈ w ++ u, accepts c = true)
    (hr : ∀ c ∈ r.head?, accepts c = false) (hfuel : (w ++ u).length < fuel)
    (hlast : last ≠ some (w ++ (u ++ r)).length) (hleast : least ≤ w.length)
    (hfirst : k ⟨w.reverse ++ before, u ++ r, groups⟩ = some q)
    (hmore : ∀ v v', u = v ++ v' → v ≠ [] →
      k ⟨(w ++ v).reverse ++ before, v' ++ r, groups⟩ = none) :
    repeatWith (stepping accepts) .most k fuel least none last ⟨before, w ++ (u ++ r), groups⟩ =
      some q := by
  induction w generalizing fuel least last before with
  | nil =>
    obtain ⟨fuel, rfl⟩ := Nat.exists_eq_add_one_of_ne_zero (Nat.ne_of_gt (Nat.zero_lt_of_lt hfuel))
    obtain rfl := Nat.le_zero.mp hleast
    rw [List.nil_append] at hlast ⊢
    rw [repeatWith_succ hlast, if_pos rfl]
    have hmost : stepping accepts (repeatWith (stepping accepts) .most k fuel (0 - 1) none
        (some (u ++ r).length)) ⟨before, u ++ r, groups⟩ = none := by
      cases u with
      | nil => exact stepping_of_not_accepts hr
      | cons c u =>
        rw [List.nil_append, List.forall_mem_cons] at hw
        rw [List.cons_append, stepping_cons_of_accepts hw.1]
        refine repeatWith_eq_none hw.2 hr (by simpa using hfuel) (by simp) fun v v' hv _ => ?_
        simpa using hmore (c :: v) v' (by rw [hv, List.cons_append]) (List.cons_ne_nil c v)
    rw [hmost, Option.none_or]
    exact hfirst
  | cons c w ih =>
    obtain ⟨fuel, rfl⟩ := Nat.exists_eq_add_one_of_ne_zero (Nat.ne_of_gt (Nat.zero_lt_of_lt hfuel))
    rw [List.cons_append, List.forall_mem_cons] at hw
    rw [repeatWith_succ hlast, List.cons_append, stepping_cons_of_accepts hw.1,
      ih hw.2 (by simpa using hfuel) (by simp) (by simpa using hleast) (by simpa using hfirst),
      Option.some_or]
    intro v v' hv hne
    simpa using hmore v v' hv hne

end Repeat

/-! ### Nodes -/

section Node

variable {items : List SetItem} {how : Comparison} {k : Follow} {groups : List (Nat × List Char)}
  {q : Place} {before w u r : List Char} {least : Nat}

/-- Does a set compare the character as one of its own? -/
abbrev accepted (items : List SetItem) (how : Comparison) (c : Char) : Bool :=
  setHolds how items c != false

theorem run_one (items : List SetItem) (how : Comparison) :
    (Node.one false items how).run = stepping (accepted items how) := by
  funext k p
  rw [Node.run]
  rfl

theorem run_repeat_eq_none (hw : ∀ c ∈ w, accepted items how c = true)
    (hr : ∀ c ∈ r.head?, accepted items how c = false)
    (hk : ∀ v v', w = v ++ v' → least ≤ v.length →
      k ⟨v.reverse ++ before, v' ++ r, groups⟩ = none) :
    (Node.many least none .most (.one false items how)).run k ⟨before, w ++ r, groups⟩ = none := by
  rw [Node.run, run_one]
  refine repeatWith_eq_none hw hr ?_ nofun hk
  simp only [rounds, List.length_append]
  omega

theorem run_repeat_eq_some (hw : ∀ c ∈ w ++ u, accepted items how c = true)
    (hr : ∀ c ∈ r.head?, accepted items how c = false) (hleast : least ≤ w.length)
    (hfirst : k ⟨w.reverse ++ before, u ++ r, groups⟩ = some q)
    (hmore : ∀ v v', u = v ++ v' → v ≠ [] →
      k ⟨(w ++ v).reverse ++ before, v' ++ r, groups⟩ = none) :
    (Node.many least none .most (.one false items how)).run k ⟨before, w ++ (u ++ r), groups⟩ =
      some q := by
  rw [Node.run, run_one]
  refine repeatWith_eq_some hw hr ?_ nofun hleast hfirst hmore
  simp only [rounds, List.length_append]
  omega

/-- An option that takes its character where it can, and gives it back where what follows fails. -/
theorem run_option (p : Place) :
    (Node.many 0 (some 1) .most (.one false items how)).run k p =
      (stepping (accepted items how) k p).or (k p) := by
  rw [Node.run, run_one]
  simp [rounds, repeatWith, stepping]

end Node

end Bindery.Pattern
