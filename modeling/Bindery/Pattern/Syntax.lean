/-!
# Patterns

Regular patterns over texts as trees: characters and sets of them, sequences and choices,
repetitions that take as much or as little as they can, groups that remember what they matched, and
conditions on what stands before and behind a place.
-/

namespace Bindery.Pattern

/-- A class of characters. -/
inductive CharClass where
  /-- The digits of decimal numbers. -/
  | digit
  /-- The blank characters. -/
  | blank
  /-- Letters, digits and the underscore. -/
  | word
  deriving DecidableEq, Repr

/-- An item of a set of characters. -/
inductive SetItem where
  /-- One code point. -/
  | code (n : Nat)
  /-- The code points from the first to the second, both included. -/
  | range (first last : Nat)
  /-- A class, or all characters outside it. -/
  | cls (c : CharClass) (outside : Bool)
  deriving DecidableEq, Repr

/-- How the characters of a set are compared. -/
structure Comparison where
  /-- Is the case of letters left aside? -/
  folds : Bool
  /-- Are the classes and cases those of ASCII? -/
  ascii : Bool
  deriving DecidableEq, Repr

/-- A place in a text. -/
inductive Anchor where
  /-- The start of the text. -/
  | textStart
  /-- The start of a line. -/
  | lineStart
  /-- The end of the text. -/
  | textEnd
  /-- The end of the text, or the place before a line feed at the end. -/
  | finalEnd
  /-- The end of a line. -/
  | lineEnd
  /-- A place between a word and something else, or, if inverted, any other place. -/
  | boundary (inverted ascii : Bool)
  deriving DecidableEq, Repr

/-- How often a repetition tries to go on. -/
inductive Greed where
  /-- As often as it can, and less where that fails. -/
  | most
  /-- As rarely as it can, and more where that fails. -/
  | least
  /-- As often as it can, and nothing else. -/
  | possessive
  deriving DecidableEq, Repr

/-- A pattern. -/
inductive Node where
  /-- A character of a set, or one outside it. -/
  | one (outside : Bool) (items : List SetItem) (how : Comparison)
  /-- Any character; is a line feed one of them? -/
  | any (lineFeed : Bool)
  /-- One after the other. -/
  | seq (parts : List Node)
  /-- One of several, tried in order. -/
  | alt (branches : List Node)
  /-- A repetition between two bounds. -/
  | many (least : Nat) (most : Option Nat) (greed : Greed) (body : Node)
  /-- A group that remembers what it matched under a number. -/
  | capture (number : Nat) (body : Node)
  /-- A pattern whose first match is the only one. -/
  | atomic (body : Node)
  /-- A pattern that matches behind the place, or so many characters before it; or one that does
  not. -/
  | look (back : Option Nat) (inverted : Bool) (body : Node)
  /-- What a group matched. -/
  | recall (number : Nat) (how : Comparison)
  /-- One pattern where a group has matched, another one elsewhere. -/
  | choose (number : Nat) (yes no : Node)
  /-- A place. -/
  | anchor (a : Anchor)
  deriving Repr

/-! ### Width -/

/-- How many characters a match can have: at least and, unless it is unbounded, at most. -/
structure Width where
  /-- The least number of characters. -/
  least : Nat
  /-- The greatest number of characters. -/
  most : Option Nat
  deriving DecidableEq, Repr

namespace Width

/-- The width of one character after another. -/
def add (a b : Width) : Width :=
  ⟨a.least + b.least, do return (← a.most) + (← b.most)⟩

/-- The width of one of two. -/
def either (a b : Width) : Width :=
  ⟨min a.least b.least, do return max (← a.most) (← b.most)⟩

/-- The width of a repetition. -/
def times (a : Width) (least : Nat) (most : Option Nat) : Width :=
  ⟨a.least * least,
    match a.most, most with
    | some x, some n => some (x * n)
    | some 0, none => some 0
    | _, _ => none⟩

/-- The width of nothing. -/
def zero : Width := ⟨0, some 0⟩

/-- The width of one character. -/
def single : Width := ⟨1, some 1⟩

end Width

mutual

/-- The width of the matches of a pattern, where the groups have the given widths. -/
def Node.width (groups : List (Option Width)) : Node → Width
  | .one .. | .any _ => .single
  | .seq parts => seqWidth groups parts
  | .alt branches => altWidth groups branches
  | .many lo hi _ body => (body.width groups).times lo hi
  | .capture _ body => body.width groups
  | .atomic body => body.width groups
  | .look .. | .anchor _ => .zero
  | .recall n _ => ((groups[n - 1]?).join).getD .zero
  | .choose _ yes no => (yes.width groups).either (no.width groups)

/-- The width of patterns one after the other. -/
def seqWidth (groups : List (Option Width)) : List Node → Width
  | [] => .zero
  | p :: r => (p.width groups).add (seqWidth groups r)

/-- The width of one of several patterns. -/
def altWidth (groups : List (Option Width)) : List Node → Width
  | [] => .zero
  | [p] => p.width groups
  | p :: q :: r => (p.width groups).either (altWidth groups (q :: r))

end

end Bindery.Pattern
