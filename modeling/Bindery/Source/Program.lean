import Bindery.Source.Statement

/-!
# Programs

Is a text a Python program? It must consist of tokens, these must follow the grammar, and so must
the expressions in formatted literals.
-/

namespace Bindery.Source

/-- The bound for loops over tokens. -/
def boundOf (ts : List Token) : Nat :=
  ts.length + 2

/-- Do the tokens form the statements of a program? -/
def isStatements (ts : List Token) : Bool :=
  match readStatements (boundOf ts) ts with
  | some (_, []) => true
  | _ => false

/-- Do the tokens form an expression between parentheses on a line? -/
def isExpression (ts : List Token) : Bool :=
  let n := boundOf ts
  match readRow n (readAt n n) ts with
  | some (_, [.newline]) => true
  | _ => false

/-- The expressions in the formatted literals among tokens. -/
def formattedIn (ts : List Token) : List (List Char) :=
  ts.flatMap fun
    | .literal _ es => es
    | _ => []

/-- Is the text of an expression in a formatted literal well formed? Those in the literals inside it
are shorter, so its length bounds the fuel. -/
def isFormattedPart : Nat → List Char → Bool
  | 0, _ => false
  | fuel + 1, cs =>
    match tokens? ('(' :: cs ++ [')']) with
    | none => false
    | some ts => isExpression ts && (formattedIn ts).all (isFormattedPart fuel)

/-- Is the text a program? -/
def isProgram (text : String) : Bool :=
  match tokens? text.toList with
  | none => false
  | some ts => isStatements ts && (formattedIn ts).all fun cs => isFormattedPart (cs.length + 1) cs

end Bindery.Source
