/-!
# Order of texts

Texts are ordered by the numbers of their characters. Things that have a text are put into the order
of their texts; things of one text keep their order.
-/

namespace Bindery.Text

variable {α : Type}

/-- The list, which is in order, with one more thing before those of the same text. -/
def placeBy (key : α → String) (a : α) : List α → List α
  | [] => [a]
  | b :: r => if key b < key a then b :: placeBy key a r else a :: b :: r

/-- The things in the order of their texts. -/
def orderBy (key : α → String) (as : List α) : List α :=
  as.foldr (placeBy key) []

/-- The texts in their order. -/
def inOrder (texts : List String) : List String :=
  orderBy id texts

end Bindery.Text
