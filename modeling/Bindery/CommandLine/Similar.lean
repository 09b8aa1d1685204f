/-!
# Similar words

Two words are as similar as the characters that they have in common: those of their longest common
part, and those in common before it and behind it. Of a number of words those that are similar
enough are offered in place of an unknown one.
-/

namespace Bindery.CommandLine

/-- The length of the common start of two words. -/
def commonStart : List Char → List Char → Nat
  | a :: r, b :: t => if a == b then commonStart r t + 1 else 0
  | _, _ => 0

/-- A common part of two words. -/
structure CommonPart where
  /-- Its place in the first word. -/
  first : Nat
  /-- Its place in the second word. -/
  second : Nat
  /-- Its length. -/
  size : Nat
  deriving DecidableEq, Repr

/-- The longest common part; of several ones that which comes first in the first word, and of these
that which comes first in the second one. -/
def longestCommon (a b : List Char) : CommonPart :=
  (List.range a.length).foldl (fun best i =>
    (List.range b.length).foldl (fun best j =>
      let size := commonStart (a.drop i) (b.drop j)
      if best.size < size then ⟨i, j, size⟩ else best) best) ⟨0, 0, 0⟩

/-- The number of characters in common; the first argument bounds the number of parts in a row. -/
def inCommon : Nat → List Char → List Char → Nat
  | 0, _, _ => 0
  | fuel + 1, a, b =>
    let part := longestCommon a b
    if part.size == 0 then 0
    else part.size + inCommon fuel (a.take part.first) (b.take part.second) +
      inCommon fuel (a.drop (part.first + part.size)) (b.drop (part.second + part.size))

/-- How similar two words are: the share of the characters that are in common, as a fraction. -/
def similarity (a b : String) : Nat × Nat :=
  let x := a.toList
  let y := b.toList
  (2 * inCommon x.length x y, x.length + y.length)

/-- A word with its similarity. -/
structure Candidate where
  /-- The word. -/
  word : String
  /-- Its similarity to another word. -/
  score : Nat × Nat
  deriving DecidableEq, Repr

/-- Does the candidate come before the other one? Of two equally similar words the later one in the
order of words does. -/
def Candidate.precedes (x y : Candidate) : Bool :=
  let left := x.score.1 * y.score.2
  let right := y.score.1 * x.score.2
  right < left || (left == right && y.word < x.word)

/-- The candidates with one more in its place. -/
def placeCandidate (c : Candidate) : List Candidate → List Candidate
  | [] => [c]
  | d :: r => if c.precedes d then c :: d :: r else d :: placeCandidate c r

/-- Is three fifths of the characters in common? -/
def isSimilar (score : Nat × Nat) : Bool :=
  3 * score.2 ≤ 5 * score.1

/-- The words that are similar to a word, at most three of them, the most similar one first. -/
def similarWords (word : String) (words : List String) : List String :=
  let candidates := words.map fun w => (⟨w, similarity w word⟩ : Candidate)
  let similar := candidates.filter fun c => isSimilar c.score
  ((similar.foldr placeCandidate []).take 3).map Candidate.word

end Bindery.CommandLine
