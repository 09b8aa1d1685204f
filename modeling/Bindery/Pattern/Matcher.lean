import Bindery.Pattern.Fold

/-!
# Matching

Whether a pattern matches the whole of a text. A pattern is matched at a place with what is to
follow; where the rest fails, the pattern goes back to its last choice and tries the next one.
-/

namespace Bindery.Pattern

/-- A place in a text, and what the groups matched on the way to it. -/
structure Place where
  /-- The characters before the place, backwards. -/
  before : List Char
  /-- The characters behind the place. -/
  behind : List Char
  /-- What the groups matched, by their numbers. -/
  groups : List (Nat × List Char)
  deriving Repr

/-- What is to follow a match. -/
abbrev Follow := Place → Option Place

/-- Is the character before the place, if there is one, of a word? -/
def wordBefore (ascii : Bool) (p : Place) : Bool :=
  (p.before.head?.map (CharClass.holds ascii .word)).getD false

/-- Is the character behind the place, if there is one, of a word? -/
def wordBehind (ascii : Bool) (p : Place) : Bool :=
  (p.behind.head?.map (CharClass.holds ascii .word)).getD false

/-- Is the place one of the anchor? In an empty text there is no boundary and nothing but. -/
def Anchor.holds (p : Place) : Anchor → Bool
  | .textStart => p.before.isEmpty
  | .lineStart => p.before.isEmpty || p.before.head? == some '\n'
  | .textEnd => p.behind.isEmpty
  | .finalEnd => p.behind.isEmpty || p.behind == ['\n']
  | .lineEnd => p.behind.isEmpty || p.behind.head? == some '\n'
  | .boundary inverted ascii =>
    !(p.before.isEmpty && p.behind.isEmpty) &&
      (wordBefore ascii p != wordBehind ascii p) != inverted

/-- The place behind the next character, if it is accepted. -/
def Place.step (accepts : Char → Bool) (p : Place) : Option Place :=
  match p.behind with
  | c :: r => if accepts c then some { p with before := c :: p.before, behind := r } else none
  | [] => none

/-- The place a number of characters earlier, if there is one. -/
def Place.back (p : Place) : Nat → Option Place
  | 0 => some p
  | n + 1 =>
    match p.before with
    | c :: r => Place.back { p with before := r, behind := c :: p.behind } n
    | [] => none

/-- The place behind a text, if it stands there. -/
def Place.follow (how : Comparison) (p : Place) : List Char → Option Place
  | [] => some p
  | c :: r => (p.step (sameChar how c)).bind fun q => q.follow how r

/-- A repetition whose body is given: `least` more rounds must follow, and `most` more may. A round
that consumes nothing is not repeated, so the fuel of one round per character is enough. -/
def repeatWith (body : Follow → Place → Option Place) (greed : Greed) (k : Follow) :
    (fuel least : Nat) → (most : Option Nat) → (last : Option Nat) → Place → Option Place
  | 0, _, _, _, p => k p
  | fuel + 1, least, most, last, p =>
    let again (_ : Unit) : Option Place :=
      body (repeatWith body greed k fuel (least - 1) (most.map (· - 1)) (some p.behind.length)) p
    if 0 < least then again ()
    else if most == some 0 || last == some p.behind.length then k p
    else match greed with
      | .least => (k p).or (again ())
      | _ => (again ()).or (k p)

/-- The rounds that a repetition can have. -/
def rounds (least : Nat) (p : Place) : Nat :=
  least + p.behind.length + 2

mutual

/-- The place behind a match that what follows accepts. -/
def Node.run : Node → Follow → Place → Option Place
  | .one outside items how => fun k p =>
    (p.step fun c => setHolds how items c != outside).bind k
  | .any lineFeed => fun k p => (p.step fun c => lineFeed || c != '\n').bind k
  | .seq parts => runSeq parts
  | .alt branches => runAlt branches
  | .many lo hi greed body => fun k p =>
    match greed with
    | .possessive =>
      (repeatWith body.run .most some (rounds lo p) lo hi none p).bind k
    | greed => repeatWith body.run greed k (rounds lo p) lo hi none p
  | .capture n body => fun k p =>
    body.run (fun q =>
      k { q with groups := (n, p.behind.take (p.behind.length - q.behind.length)) :: q.groups }) p
  | .atomic body => fun k p => (body.run some p).bind k
  | .look back inverted body => fun k p =>
    let found := ((match back with
      | some n => p.back n
      | none => some p).bind fun q => body.run some q)
    if inverted then (if found.isSome then none else k p)
    else found.bind fun q => k { p with groups := q.groups }
  | .recall n how => fun k p =>
    (p.groups.lookup n).bind fun s => (p.follow how s).bind k
  | .choose n yes no => fun k p =>
    if (p.groups.lookup n).isSome then yes.run k p else no.run k p
  | .anchor a => fun k p => if a.holds p then k p else none

/-- The place behind matches one after the other. -/
def runSeq : List Node → Follow → Place → Option Place
  | [] => fun k p => k p
  | n :: r => fun k p => n.run (fun q => runSeq r k q) p

/-- The place behind the first match of several that what follows accepts. -/
def runAlt : List Node → Follow → Place → Option Place
  | [] => fun _ _ => none
  | n :: r => fun k p => (n.run k p).or (runAlt r k p)

end

/-- Does the pattern match the whole of the text? -/
def Node.matchesAll (n : Node) (s : String) : Bool :=
  (n.run (fun p => if p.behind.isEmpty then some p else none) ⟨[], s.toList, []⟩).isSome

end Bindery.Pattern
