import Bindery.Source.Token

/-!
# Readers of tokens

Small readers from which the grammar of programs is made. A reader takes tokens and returns what it
read with the tokens behind it.
-/

namespace Bindery.Source

/-- A reader of tokens. -/
abbrev Reader (α : Type) := StateT (List Token) Option α

/-- The token that comes next. -/
def peek : Reader (Option Token) := fun ts => some (ts.head?, ts)

/-- Does the token come next? -/
def comes (t : Token) : Reader Bool := fun ts => some (ts.head? == some t, ts)

/-- Does one of the signs come next? -/
def signComes (signs : List String) : Reader Bool := fun ts =>
  some (match ts with
    | .sign s :: _ => signs.contains s
    | _ => false, ts)

/-- Does the token come next? It is taken if it does. -/
def accept (t : Token) : Reader Bool := fun ts =>
  match ts with
  | x :: r => if x == t then some (true, r) else some (false, ts)
  | [] => some (false, [])

/-- A token that must come. -/
def expect (t : Token) : Reader Unit := fun ts =>
  match ts with
  | x :: r => if x == t then some ((), r) else none
  | [] => none

/-- Does the sign come next? It is taken if it does. -/
def acceptSign (s : String) : Reader Bool := accept (.sign s)

/-- A sign that must come. -/
def expectSign (s : String) : Reader Unit := expect (.sign s)

/-- Does the keyword come next? It is taken if it does. -/
def acceptWord (s : String) : Reader Bool := accept (.keyword s)

/-- A keyword that must come. -/
def expectWord (s : String) : Reader Unit := expect (.keyword s)

/-- A name. -/
def readName : Reader Unit := fun ts =>
  match ts with
  | .name _ :: r => some ((), r)
  | _ => none

/-- The condition must hold. -/
def require (b : Bool) : Reader Unit :=
  if b then pure () else failure

/-- What is read, if it can be read. -/
def optional {α : Type} (x : Reader α) : Reader (Option α) := fun ts =>
  match x ts with
  | some (a, r) => some (some a, r)
  | none => some (none, ts)

/-- Items with commas between them up to a closing token, which is not taken; is there no comma
behind the last item? -/
def itemsUpTo {α : Type} (item : Reader α) (closes : Reader Bool) : Nat → Reader (List α × Bool)
  | 0 => failure
  | fuel + 1 => do
    if ← closes then return ([], false)
    let x ← item
    if ← acceptSign "," then
      let (xs, isOpen) ← itemsUpTo item closes fuel
      return (x :: xs, isOpen)
    return ([x], true)

/-- Items with commas between them, and perhaps one behind the last; is there no comma there? -/
def commaItems {α : Type} (item : Reader α) : Nat → Reader (List α × Bool)
  | 0 => failure
  | fuel + 1 => do
    let x ← item
    if ← acceptSign "," then
      match ← optional (commaItems item fuel) with
      | some (xs, isOpen) => return (x :: xs, isOpen)
      | none => return ([x], false)
    return ([x], true)

/-- Items with commas between them. -/
def separated (item : Reader Unit) : Nat → Reader Unit
  | 0 => failure
  | fuel + 1 => do
    item
    if ← acceptSign "," then separated item fuel

/-- Items as long as a condition holds. -/
def whileComes (condition : Reader Bool) (item : Reader Unit) : Nat → Reader Unit
  | 0 => failure
  | fuel + 1 => do
    if ← condition then
      item
      whileComes condition item fuel

end Bindery.Source
