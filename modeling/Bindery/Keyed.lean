/-!
# Insertion-ordered maps

A list of entries with distinct keys in the order in which the keys were first put. Putting a key
that is present replaces its value in place.
-/

namespace Bindery

/-- Entries in the order in which their keys were first put. -/
structure Keyed (α : Type) where
  /-- The entries. -/
  entries : List (String × α)
  deriving Repr

namespace Keyed

variable {α β : Type}

/-- The entries with the value of a key replaced in place, or the key added at the end. -/
def putEntry (key : String) (value : α) : List (String × α) → List (String × α)
  | [] => [(key, value)]
  | (k, v) :: r => if k == key then (k, value) :: r else (k, v) :: putEntry key value r

/-- The entries without the first one of a key. -/
def removeEntry (key : String) : List (String × α) → List (String × α)
  | [] => []
  | (k, v) :: r => if k == key then r else (k, v) :: removeEntry key r

/-- No entries. -/
def empty : Keyed α := ⟨[]⟩

instance : Inhabited (Keyed α) := ⟨empty⟩

/-- The map with a key set to a value. -/
def put (m : Keyed α) (key : String) (value : α) : Keyed α :=
  ⟨putEntry key value m.entries⟩

/-- The value of a key. -/
def get? (m : Keyed α) (key : String) : Option α :=
  m.entries.lookup key

/-- Is the key present? -/
def contains (m : Keyed α) (key : String) : Bool :=
  m.entries.any fun e => e.1 == key

/-- The map without a key, and whether the key was present. -/
def remove (m : Keyed α) (key : String) : Keyed α × Bool :=
  (⟨removeEntry key m.entries⟩, m.contains key)

/-- The keys in order. -/
def keys (m : Keyed α) : List String :=
  m.entries.map Prod.fst

/-- The values in the order of their keys. -/
def values (m : Keyed α) : List α :=
  m.entries.map Prod.snd

/-- The number of entries. -/
def size (m : Keyed α) : Nat :=
  m.entries.length

/-- The map that arises from putting entries one after the other. -/
def ofList (es : List (String × α)) : Keyed α :=
  es.foldl (fun m e => m.put e.1 e.2) empty

/-- The map with the key set to a value unless it is present. -/
def putNew (m : Keyed α) (key : String) (value : α) : Keyed α :=
  if m.contains key then m else m.put key value

/-- The map with a function applied to its values. -/
def map (f : α → β) (m : Keyed α) : Keyed β :=
  ⟨m.entries.map fun e => (e.1, f e.2)⟩

end Keyed

end Bindery
