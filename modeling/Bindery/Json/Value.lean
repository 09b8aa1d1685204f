import Bindery.Keyed
import Bindery.Number.Binary64

/-!
# JSON values

The values of a JSON document. A number keeps the decimal value that the document writes, so none is
rounded, and the fields of an object keep their order; a name that is repeated keeps its first place
and its last value.
-/

namespace Bindery

open Bindery.Number

/-- A JSON value. -/
inductive Json where
  /-- The null value. -/
  | null
  /-- A truth value. -/
  | bool (b : Bool)
  /-- A number written without a fraction and an exponent. -/
  | int (n : Int)
  /-- Any other number. -/
  | real (d : Decimal)
  /-- A text. -/
  | str (s : String)
  /-- An array. -/
  | arr (items : List Json)
  /-- An object. -/
  | obj (fields : List (String × Json))
  deriving Repr

namespace Json

/-- The value of the field of an object. -/
def field? (key : String) : Json → Option Json
  | .obj fields => fields.lookup key
  | _ => none

/-- The first of the fields that an object has. -/
def fieldOf? (keys : List String) (j : Json) : Option Json :=
  keys.findSome? fun k => j.field? k

/-- Is the value an object? -/
def isObject : Json → Bool
  | .obj _ => true
  | _ => false

/-- Is the value null? -/
def isNull : Json → Bool
  | .null => true
  | _ => false

/-- The text, if the value is one. -/
def string? : Json → Option String
  | .str s => some s
  | _ => none

end Json

end Bindery
