import Bindery.Pattern.Fold
import Bindery.Text.Identifier

/-!
# Reading patterns

The grammar of patterns. A pattern may begin with flags that hold for the whole of it; a group may
set flags for its content. A reference leads to a group that is closed, and what is looked for
before a place has a fixed width.
-/

namespace Bindery.Pattern

open Bindery.Text

/-- The flags that hold at a place of a pattern. -/
structure Flags where
  /-- Is the case of letters left aside? -/
  ignoreCase : Bool
  /-- Do lines have a start and an end? -/
  multiLine : Bool
  /-- Does a point stand for a line feed as well? -/
  dotAll : Bool
  /-- Are blanks and comments in the pattern left out? -/
  verbose : Bool
  /-- Are the classes and cases those of ASCII? -/
  ascii : Bool
  deriving DecidableEq, Repr

/-- No flags. -/
def Flags.none : Flags := ⟨false, false, false, false, false⟩

/-- How characters are compared under the flags. -/
def Flags.comparison (f : Flags) : Comparison :=
  ⟨f.ignoreCase, f.ascii⟩

/-- The flags with one of them set or cleared. -/
def Flags.put (f : Flags) (letter : Char) (on : Bool) : Flags :=
  match letter with
  | 'i' => { f with ignoreCase := on }
  | 'm' => { f with multiLine := on }
  | 's' => { f with dotAll := on }
  | 'x' => { f with verbose := on }
  | 'a' => { f with ascii := on }
  | 'u' => { f with ascii := !on }
  | _ => f

/-- The letters of flags. -/
def flagLetters : List Char := ['i', 'm', 's', 'x', 'a', 'u']

/-- The letters of flags of which at most one may be set, and none cleared. -/
def typeLetters : List Char := ['a', 'u']

/-- What is left of a pattern, and what is known of its groups. -/
structure Cursor where
  /-- The characters that are left. -/
  rest : List Char
  /-- The names of groups with their numbers. -/
  names : List (String × Nat)
  /-- The widths of the groups; that of an open group is not known. -/
  widths : List (Option Width)
  /-- The groups that conditions refer to. -/
  conditions : List Nat
  /-- The number of groups before the outermost look back that is being read. -/
  lookback : Option Nat
  deriving Repr

/-- A reader of patterns. -/
abbrev Reader (α : Type) := StateT Cursor Option α

/-! ### Small readers -/

/-- The next character. -/
def peek : Reader (Option Char) := fun c => some (c.rest.head?, c)

/-- The next character, which is taken. -/
def next : Reader Char := fun c =>
  match c.rest with
  | x :: r => some (x, { c with rest := r })
  | [] => Option.none

/-- Does the character come next? It is taken if it does. -/
def accept (x : Char) : Reader Bool := fun c =>
  if c.rest.head? == some x then some (true, { c with rest := c.rest.tail }) else some (false, c)

/-- A character that must come. -/
def expect (x : Char) : Reader Unit := do
  if ← accept x then return () else failure

/-- At most so many characters that are accepted. -/
def takeWhile (limit : Nat) (accepts : Char → Bool) : Reader (List Char) := fun c =>
  let xs := (c.rest.take limit).takeWhile accepts
  some (xs, { c with rest := c.rest.drop xs.length })

/-- The characters up to one that ends them, at least one; the end is taken. -/
def takeUntil (x : Char) : Reader String := fun c =>
  let xs := c.rest.takeWhile (· != x)
  if xs.isEmpty || xs.length == c.rest.length then Option.none
  else some (String.ofList xs, { c with rest := c.rest.drop (xs.length + 1) })

/-- Is the character an octal digit? -/
def isOctal (c : Char) : Bool :=
  '0' ≤ c && c ≤ '7'

/-- Is the character a hexadecimal digit? -/
def isHex (c : Char) : Bool :=
  c.isDigit || ('a' ≤ c && c ≤ 'f') || ('A' ≤ c && c ≤ 'F')

/-- The value of a digit. -/
def digitOf (c : Char) : Nat :=
  if c.isDigit then c.toNat - '0'.toNat
  else if c.isUpper then c.toNat - 'A'.toNat + 10
  else c.toNat - 'a'.toNat + 10

/-- The number that digits denote. -/
def numberOf (base : Nat) (ds : List Char) : Nat :=
  ds.foldl (fun n d => n * base + digitOf d) 0

/-! ### Escapes -/

/-- The code points of escapes of one letter. -/
def letterCodes : List (Char × Nat) :=
  [('a', 7), ('b', 8), ('f', 12), ('n', 10), ('r', 13), ('t', 9), ('v', 11), ('\\', 92)]

/-- The classes of escapes of one letter. -/
def letterClasses : List (Char × SetItem) :=
  [('d', .cls .digit false), ('D', .cls .digit true), ('s', .cls .blank false),
    ('S', .cls .blank true), ('w', .cls .word false), ('W', .cls .word true)]

/-- The code point of so many hexadecimal digits. -/
def hexCode (width : Nat) : Reader Nat := do
  let ds ← takeWhile width isHex
  if ds.length == width then return numberOf 16 ds else failure

/-- The code point of an escape that is written with digits or stands for itself. -/
def plainCode (c : Char) : Reader Nat := do
  match c with
  | 'x' => hexCode 2
  | 'u' => hexCode 4
  | 'U' =>
    let n ← hexCode 8
    if n < 0x110000 then return n else failure
  | c => if c.isAlpha then failure else return c.toNat

/-- An escape in a set behind its backslash. -/
def setEscape : Reader SetItem := do
  let c ← next
  match letterCodes.lookup c, letterClasses.lookup c with
  | some n, _ => return .code n
  | _, some cls => return cls
  | _, _ =>
    if isOctal c then
      let ds ← takeWhile 2 isOctal
      let n := numberOf 8 (c :: ds)
      if n ≤ 0xff then return .code n else failure
    else if c.isDigit then failure
    else return .code (← plainCode c)

/-- The set of one item. -/
def single (f : Flags) (i : SetItem) : Node :=
  .one false [i] f.comparison

/-- A reference to a group that is closed. -/
def reference (f : Flags) (n : Nat) : Reader Node := fun c =>
  let known := n ≠ 0 && (c.widths[n - 1]?).join.isSome
  let early := (c.lookback.map fun g => decide (n ≤ g)).getD true
  if known && early then some (.recall n f.comparison, c) else Option.none

/-- The places of escapes of one letter. -/
def letterAnchors (f : Flags) : List (Char × Anchor) :=
  [('A', .textStart), ('Z', .textEnd), ('b', .boundary false f.ascii), ('B', .boundary true f.ascii)]

/-- An escape with digits: an octal number or a reference. -/
def digitEscape (f : Flags) (c : Char) : Reader Node := do
  if c == '0' then
    let ds ← takeWhile 2 isOctal
    return single f (.code (numberOf 8 ds))
  else
    let second ← takeWhile 1 Char.isDigit
    let third ← match second with
      | [d] => if isOctal c && isOctal d then takeWhile 1 isOctal else pure []
      | _ => pure []
    if third.isEmpty then reference f (numberOf 10 (c :: second))
    else
      let n := numberOf 8 (c :: second ++ third)
      if n ≤ 0xff then return single f (.code n) else failure

/-- An escape outside sets behind its backslash. -/
def readEscape (f : Flags) : Reader Node := do
  let c ← next
  match (letterAnchors f).lookup c, letterClasses.lookup c, letterCodes.lookup c with
  | some a, _, _ => return .anchor a
  | _, some cls, _ => return single f cls
  | _, _, some n => return single f (.code n)
  | _, _, _ =>
    if c.isDigit then digitEscape f c else return single f (.code (← plainCode c))

/-! ### Sets -/

/-- An item of a set that begins with a character. -/
def setItem (c : Char) : Reader SetItem :=
  if c == '\\' then setEscape else return .code c.toNat

/-- The items of a set up to its closing bracket, which may stand as an item in the first place. -/
def setItems (first : Bool) : Nat → Reader (List SetItem)
  | 0 => failure
  | fuel + 1 => do
    let c ← next
    if c == ']' && !first then return []
    let i ← setItem c
    if ← accept '-' then
      let d ← next
      if d == ']' then return [i, .code '-'.toNat]
      match i, ← setItem d with
      | .code lo, .code hi =>
        if hi < lo then failure
        let r ← setItems false fuel
        return .range lo hi :: r
      | _, _ => failure
    else
      let r ← setItems false fuel
      return i :: r

/-- A set behind its opening bracket. -/
def readSet (f : Flags) : Reader Node := do
  let outside ← accept '^'
  let c ← get
  let items ← setItems true (c.rest.length + 1)
  return .one outside items f.comparison

/-! ### Repetitions -/

/-- The bounds of a repetition behind a sign, or nothing where the sign stands for itself. -/
def readBounds (sign : Char) : Reader (Option (Nat × Option Nat)) := do
  match sign with
  | '?' => return some (0, some 1)
  | '*' => return some (0, Option.none)
  | '+' => return some (1, Option.none)
  | _ =>
    let start ← get
    if start.rest.head? == some '}' then return Option.none
    let lo ← takeWhile start.rest.length Char.isDigit
    let hi ← if ← accept ',' then takeWhile start.rest.length Char.isDigit else pure lo
    if ← accept '}' then
      let least := numberOf 10 lo
      if hi.isEmpty then return some (least, Option.none)
      if numberOf 10 hi < least then failure
      return some (least, some (numberOf 10 hi))
    else
      set start
      return Option.none

/-- May the pattern be repeated? -/
def isRepeatable : Node → Bool
  | .anchor _ | .many .. => false
  | _ => true

/-- The patterns read so far, the last one first, with the last one repeated. -/
def repeatLast (bounds : Nat × Option Nat) (acc : List Node) : Reader (List Node) := do
  match acc with
  | [] => failure
  | n :: r =>
    if !isRepeatable n then failure
    let greed : Greed ←
      if ← accept '?' then pure .least else if ← accept '+' then pure .possessive else pure .most
    return .many bounds.1 bounds.2 greed n :: r

/-! ### Groups -/

/-- A comment up to its closing bracket. -/
def skipComment : Reader Unit := fun c =>
  let xs := c.rest.takeWhile (· != ')')
  if xs.length == c.rest.length then Option.none
  else some ((), { c with rest := c.rest.drop (xs.length + 1) })

/-- A comment up to the end of its line. -/
def skipLine : Reader Unit := fun c =>
  some ((), { c with rest := (c.rest.dropWhile (· != '\n')).tail })

/-- Is the character left out of a verbose pattern? -/
def isLayout (c : Char) : Bool :=
  c == ' ' || ('\t' ≤ c && c ≤ '\r')

/-- The letters of flags that are set, and of those that are cleared; is the group a mere
setting? -/
def readFlags (first : Char) : Reader (List Char × List Char × Bool) := do
  let c ← get
  let on ← if first == '-' then pure [] else
    (takeWhile c.rest.length flagLetters.contains).map (first :: ·)
  if on.contains 'a' && on.contains 'u' then failure
  let stop ← if first == '-' then pure '-' else next
  match stop with
  | ')' => return (on, [], true)
  | ':' => return (on, [], false)
  | '-' =>
    let off ← takeWhile c.rest.length flagLetters.contains
    expect ':'
    if off.isEmpty || off.any typeLetters.contains || off.any on.contains then failure
    return (on, off, false)
  | _ => failure

/-- The flags with some set and some cleared. -/
def Flags.change (f : Flags) (on off : List Char) : Flags :=
  off.foldl (fun f c => f.put c false) (on.foldl (fun f c => f.put c true) f)

/-- A new group, which is open; its name is new as well. -/
def openGroup (name : Option String) : Reader Nat := fun c =>
  let n := c.widths.length + 1
  match name with
  | some s =>
    if c.names.any (fun p => p.1 == s) then Option.none
    else some (n, { c with widths := c.widths ++ [Option.none], names := (s, n) :: c.names })
  | Option.none => some (n, { c with widths := c.widths ++ [Option.none] })

/-- The group is closed with a body. -/
def closeGroup (n : Nat) (body : Node) : Reader Unit := fun c =>
  some ((), { c with widths := c.widths.set (n - 1) (some (body.width c.widths)) })

/-- The name of a group up to the character that ends it. -/
def readGroupName (stop : Char) : Reader String := do
  let s ← takeUntil stop
  if isIdentifier s then return s else failure

/-- The number of a group by its name. -/
def groupNamed (s : String) : Reader Nat := fun c =>
  (c.names.lookup s).map fun n => (n, c)

/-- The group of a condition by its name or its number. -/
def readCondition : Reader Nat := do
  let s ← takeUntil ')'
  let n ← if isIdentifier s then groupNamed s
    else if s.toList.all Char.isDigit then pure (numberOf 10 s.toList) else failure
  if n == 0 then failure
  let c ← get
  match c.lookback with
  | some _ => discard (reference .none n)
  | Option.none => pure ()
  modify fun c => { c with conditions := n :: c.conditions }
  return n

/-- What is looked for before a place, with its width, which is fixed. -/
def lookBack (inverted : Bool) (body : Node) : Reader Node := fun c =>
  let w := body.width c.widths
  if w.most == some w.least then some (.look (some w.least) inverted body, c) else Option.none

/-- The place at the end of a text or a line. -/
def endAnchor (f : Flags) : Anchor :=
  if f.multiLine then .lineEnd else .finalEnd

/-- The place at the start of a text or a line. -/
def startAnchor (f : Flags) : Anchor :=
  if f.multiLine then .lineStart else .textStart

mutual

/-- Patterns one after the other, the last one first, up to an end that is not taken. -/
def readParts : Nat → Flags → List Node → Reader (List Node)
  | 0, _, _ => failure
  | fuel + 1, f, acc => do
    match ← peek with
    | Option.none => return acc
    | some '|' => return acc
    | some ')' => return acc
    | some x =>
      discard next
      if f.verbose && isLayout x then readParts fuel f acc
      else if f.verbose && x == '#' then
        skipLine
        readParts fuel f acc
      else match x with
        | '\\' =>
          let n ← readEscape f
          readParts fuel f (n :: acc)
        | '[' =>
          let n ← readSet f
          readParts fuel f (n :: acc)
        | '.' => readParts fuel f (.any f.dotAll :: acc)
        | '^' => readParts fuel f (.anchor (startAnchor f) :: acc)
        | '$' => readParts fuel f (.anchor (endAnchor f) :: acc)
        | '(' =>
          let n ← readGroup fuel f
          readParts fuel f (n.toList ++ acc)
        | x =>
          if x == '*' || x == '+' || x == '?' || x == '{' then
            match ← readBounds x with
            | Option.none => readParts fuel f (single f (.code x.toNat) :: acc)
            | some bounds =>
              let acc ← repeatLast bounds acc
              readParts fuel f acc
          else readParts fuel f (single f (.code x.toNat) :: acc)

/-- Patterns to choose from, up to an end that is not taken. -/
def readChoice : Nat → Flags → Reader Node
  | 0, _ => failure
  | fuel + 1, f => do
    let branches ← readBranches fuel f
    match branches with
    | [b] => return b
    | bs => return .alt bs

/-- The branches of a choice. -/
def readBranches : Nat → Flags → Reader (List Node)
  | 0, _ => failure
  | fuel + 1, f => do
    let parts ← readParts fuel f []
    let b := Node.seq parts.reverse
    if ← accept '|' then
      let bs ← readBranches fuel f
      return b :: bs
    else return [b]

/-- A group behind its opening bracket; a comment is none. -/
def readGroup : Nat → Flags → Reader (Option Node)
  | 0, _ => failure
  | fuel + 1, f => do
    if ← accept '?' then
      let x ← next
      match x with
      | 'P' =>
        if ← accept '<' then
          let s ← readGroupName '>'
          readCapture fuel f (some s)
        else
          expect '='
          let s ← readGroupName ')'
          let n ← groupNamed s
          let r ← reference f n
          return some r
      | ':' =>
        let b ← readChoice fuel f
        expect ')'
        return some (.seq [b])
      | '#' =>
        skipComment
        return Option.none
      | '>' =>
        let b ← readChoice fuel f
        expect ')'
        return some (.atomic b)
      | '=' =>
        let b ← readChoice fuel f
        expect ')'
        return some (.look Option.none false b)
      | '!' =>
        let b ← readChoice fuel f
        expect ')'
        return some (.look Option.none true b)
      | '<' =>
        let y ← next
        if y != '=' && y != '!' then failure
        let outer ← get
        modify fun c => { c with lookback := c.lookback.or (some c.widths.length) }
        let b ← readChoice fuel f
        modify fun c => { c with lookback := outer.lookback }
        expect ')'
        let n ← lookBack (y == '!') b
        return some n
      | '(' =>
        let n ← readCondition
        let yes ← readParts fuel f []
        let no ← if ← accept '|' then readParts fuel f [] else pure []
        expect ')'
        return some (.choose n (.seq yes.reverse) (.seq no.reverse))
      | x =>
        if !(flagLetters.contains x || x == '-') then failure
        let (on, off, setting) ← readFlags x
        if setting then failure
        let b ← readChoice fuel (f.change on off)
        expect ')'
        return some (.seq [b])
    else readCapture fuel f Option.none

/-- A group that remembers what it matched, behind its opening bracket and its name. -/
def readCapture : Nat → Flags → Option String → Reader (Option Node)
  | 0, _, _ => failure
  | fuel + 1, f, name => do
    let n ← openGroup name
    let b ← readChoice fuel f
    expect ')'
    closeGroup n b
    return some (.capture n b)

end

/-! ### Whole patterns -/

/-- The rest of a text behind a start, if it begins with it. -/
def behindStart? (start : List Char) (cs : List Char) : Option (List Char) :=
  if start.isPrefixOf cs then some (cs.drop start.length) else Option.none

/-- The letters of the flags at the start of a pattern, and the rest behind them. -/
def leadingFlags : Nat → List Char → List Char → List Char × List Char
  | 0, on, cs => (on, cs)
  | fuel + 1, on, cs =>
    match cs with
    | '(' :: '?' :: '#' :: r =>
      if r.contains ')' then leadingFlags fuel on (r.dropWhile (· != ')')).tail else (on, cs)
    | '(' :: '?' :: r =>
      let letters := r.takeWhile flagLetters.contains
      match r.drop letters.length with
      | ')' :: rest => if letters.isEmpty then (on, cs) else leadingFlags fuel (on ++ letters) rest
      | _ => (on, cs)
    | x :: r =>
      if on.contains 'x' && isLayout x then leadingFlags fuel on r
      else if on.contains 'x' && x == '#' then
        leadingFlags fuel on (r.dropWhile (· != '\n')).tail
      else (on, cs)
    | [] => (on, cs)

/-- The pattern that a text denotes. -/
def ofText? (s : String) : Option Node := do
  let (on, rest) := leadingFlags (s.length + 1) [] s.toList
  if on.contains 'a' && on.contains 'u' then failure
  let start : Cursor := ⟨rest, [], [], [], Option.none⟩
  let (n, c) ← readChoice (3 * s.length + 3) (Flags.none.change on []) start
  if c.rest.isEmpty && c.conditions.all (fun g => g ≤ c.widths.length) then return n else failure

end Bindery.Pattern
