import Bindery.Text.Identifier

/-!
# Free labels

A label is made usable in two steps. A safe label is neither a keyword nor reserved and starts with
no underscore; a unique label differs from the labels that are taken. Both searches try numbered
candidates in order, and as many candidates as there are names to avoid always suffice.
-/

namespace Bindery.Label

open Bindery.Text

/-- The least number from `n` on that passes the test, where at most `fuel` numbers fail. -/
def searchFrom (ok : Nat → Bool) : (fuel n : Nat) → Nat
  | 0, n => n
  | fuel + 1, n => if ok n then n else searchFrom ok fuel (n + 1)

/-- That many underscores. -/
def underscores (n : Nat) : String :=
  String.ofList (List.replicate n '_')

/-- The characters with their leading underscores moved to the end; of underscores alone, the word
`field` is put before them. -/
def moveUnderscores (cs : List Char) : List Char :=
  let lead := cs.takeWhile (· == '_')
  let rest := cs.dropWhile (· == '_')
  if lead.isEmpty then cs
  else (if rest.isEmpty then "field".toList else rest) ++ lead

/-- Is the label a keyword or reserved? -/
def isBlocked (reserved : List String) (s : String) : Bool :=
  isKeyword s || reserved.contains s

/-- The name as a label that is no keyword, not reserved and starts with no underscore: underscores
are appended until it is free. -/
def safeName (reserved : List String) (name : String) : String :=
  let base := String.ofList (moveUnderscores name.toList)
  base ++ underscores
    (searchFrom (fun k => !isBlocked reserved (base ++ underscores k)) (reserved.length + 1) 0)

/-- The `k`th candidate for a unique label. -/
def numbered (name : String) (k : Nat) : String :=
  name ++ toString k

/-- The name itself when it is not in use, else the name with the least number from two on that
makes it differ from every name in use. -/
def uniqueName (used : List String) (name : String) : String :=
  if used.contains name then
    numbered name (searchFrom (fun k => !used.contains (numbered name k)) used.length 2)
  else
    name

/-- Unique labels for the names from left to right, each avoiding those before it, and the names
in use afterwards. -/
def uniqueNames (used : List String) : List String → List String × List String
  | [] => ([], used)
  | name :: r =>
    let label := uniqueName used name
    let (labels, used') := uniqueNames (label :: used) r
    (label :: labels, used')

end Bindery.Label
