/-!
# Linear inheritance orders

A class inherits from several others. Its linear order lists it and all that it inherits from, so
that each stands before its parents, parents keep the order in which they are named, and the order
of every parent is kept. Such an order need not exist.
-/

namespace Bindery.Inheritance

/-- Does the name stand behind the head of one of the lists? -/
def inTail (name : String) (lists : List (List String)) : Bool :=
  lists.any fun l => l.tail.contains name

/-- The first head that stands in no tail. -/
def candidate? (lists : List (List String)) : Option String :=
  (lists.filterMap List.head?).find? fun h => !inTail h lists

/-- The lists without a name at their heads, and without those that became empty. -/
def dropHead (name : String) (lists : List (List String)) : List (List String) :=
  (lists.map fun l => if l.head? == some name then l.tail else l).filter fun l => !l.isEmpty

/-- The merge of orders into one that keeps them all. -/
def mergeWith : Nat → List (List String) → Option (List String)
  | _, [] => some []
  | 0, _ => none
  | fuel + 1, lists => do
    let h ← candidate? lists
    let rest ← mergeWith fuel (dropHead h lists)
    return h :: rest

/-- The merge of orders; each step takes an element out. -/
def merge (lists : List (List String)) : Option (List String) :=
  mergeWith ((lists.map List.length).foldl (· + ·) 0) (lists.filter fun l => !l.isEmpty)

/-- The linear order of a class with the given parents, from the orders of the parents. -/
def linearize (name : String) (parents : List String) (orders : List (List String)) :
    Option (List String) :=
  if parents.eraseDups.length < parents.length then none
  else (merge (orders ++ [parents])).map (name :: ·)

end Bindery.Inheritance
