import Bindery.Query.Error
import Bindery.Text.Identifier

/-!
# Names and type references

Which texts the builders accept as the name of a parameter, an alias, a directive or an operation,
and as the type of a variable. A single line feed at the end of either is let through. A type is a
name with brackets before it and after it, where an exclamation mark may follow the name and each
closing bracket; the brackets need not pair up.
-/

namespace Bindery.Query

open Bindery.Text

/-- The characters without one line feed at the end. -/
def dropLineFeed (cs : List Char) : List Char :=
  if cs.getLast? == some '\n' then cs.dropLast else cs

/-- Is the text accepted as a name? -/
def acceptsName (s : String) : Bool :=
  isGraphQLNameChars (dropLineFeed s.toList)

/-- The name, or the refusal of a text that is none. -/
def checkName (kind s : String) : Except Error String :=
  if acceptsName s then .ok s else .error (.invalidName kind (quoted s))

/-- Closing brackets, each perhaps with an exclamation mark. -/
def isClosing : List Char → Bool
  | [] => true
  | ']' :: '!' :: r => isClosing r
  | ']' :: r => isClosing r
  | _ => false

/-- What may follow the name of a type. -/
def isTypeEnd : List Char → Bool
  | '!' :: r => isClosing r
  | cs => isClosing cs

/-- Is the text accepted as the type of a variable? -/
def acceptsTypeName (s : String) : Bool :=
  let cs := (dropLineFeed s.toList).dropWhile (· == '[')
  match cs with
  | [] => false
  | c :: r => isNameStart c && isTypeEnd (r.dropWhile isNameChar)

/-- A parameter with the given name, type and value. -/
def makeParameter (name typeName : Option String) (value : Value) : Except Error Value := do
  match name with
  | some n => discard (checkName "parameter name" n)
  | none => pure ()
  match typeName with
  | some t => if acceptsTypeName t then pure () else throw (.invalidTypeName t)
  | none => pure ()
  return .parameter ⟨name, typeName, none⟩ value

/-- The declaration of an operation variable, numbered to tell it from others. -/
def makeVariable (number : Nat) (name : String) (typeName : Option String) (value : Value) :
    Except Error Value := do
  match typeName with
  | none => throw .typeNameRequired
  | some t =>
    discard (makeParameter (some name) (some t) value)
    return .parameter ⟨some name, some t, some number⟩ value

/-- The value as a parameter: a parameter is one already. -/
def wrapParameter : Value → Value
  | .parameter h v => .parameter h v
  | v => .parameter ⟨none, none, none⟩ v

end Bindery.Query
