/-!
# Ranges of code points

A character class above ASCII is a list of ranges, and a case mapping is a list of runs: code points
that stand at a fixed step from each other and move by one distance. The tables under
`Bindery.Text.Table` are data of these two types.
-/

namespace Bindery.Text

/-- The code points from the first to the second number, both included. -/
abbrev Range := Nat × Nat

/-- Does the range hold the code point? -/
def Range.has (r : Range) (n : Nat) : Bool :=
  r.1 ≤ n && n ≤ r.2

/-- Is the character in one of the ranges? -/
def inRanges (rs : List Range) (c : Char) : Bool :=
  rs.any fun r => r.has c.toNat

/-- Code points at a fixed step from each other that a case mapping moves by one distance. -/
structure Run where
  /-- The first code point of the run. -/
  first : Nat
  /-- The last code point of the run. -/
  last : Nat
  /-- The distance between neighbours of the run. -/
  step : Nat
  /-- How far each code point moves. -/
  shift : Int

/-- Where a run moves a code point, if the code point is in the run. -/
def Run.move? (r : Run) (n : Nat) : Option Nat :=
  if r.first ≤ n && n ≤ r.last && (n - r.first) % r.step == 0 then
    some (Int.toNat (n + r.shift))
  else
    none

/-- Where the first run that holds a code point moves it. -/
def moveIn (rs : List Run) (n : Nat) : Option Nat :=
  rs.findSome? fun r => r.move? n

end Bindery.Text
