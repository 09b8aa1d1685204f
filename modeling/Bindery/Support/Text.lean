import Bindery.Support.Argument
import Bindery.Support.Builder
import Bindery.Support.Opening
import Bindery.Support.Selection
import Bindery.Support.Value

/-!
# The support text

The text that every client carries: the base classes of its builders and models. It stands in a file
of its own, or, without its opening and its exports, before the classes of a client in one file.
-/

namespace Bindery.Support

/-- The lines behind the exports. -/
def bodyLines : List String :=
  constantLines ++ parameterLines ++ inputLines ++ argumentLines ++ directiveLines ++
    selectionLines ++ changingLines ++ buildingLines

/-- Lines, each with a line feed at its end. -/
def textOf (lines : List String) : String :=
  String.join (lines.map fun l => l ++ "\n")

/-- The text that stands in a file of its own. -/
def fullText : String :=
  textOf (openingLines ++ importLines ++ exportLines ++ bodyLines)

/-- The lines, where at most two empty ones stand together; `empty` is the number of those
before. -/
def closeUp (empty : Nat) : List String → List String
  | [] => []
  | l :: r =>
    if l.isEmpty then
      if empty < 2 then l :: closeUp (empty + 1) r else closeUp empty r
    else l :: closeUp 0 r

/-- The text that stands before the classes of a client. -/
def embeddedText : String :=
  textOf ((closeUp 0 (importLines ++ bodyLines)).dropWhile String.isEmpty)

end Bindery.Support
