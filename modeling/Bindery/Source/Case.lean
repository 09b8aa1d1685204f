import Bindery.Source.Expression

/-!
# Cases

The grammar of the patterns with which values are compared in the cases of a choice.
-/

namespace Bindery.Source

section Cases

variable (n : Nat) (pattern : Reader Unit)

/-- Does none of the signs come that make more of a name? -/
def nameEnds : Reader Unit := do
  require !(← signComes [".", "(", "="])

/-- A name for a value. -/
def readCapture : Reader Unit := fun ts =>
  match ts with
  | .name s :: r => if s == "_" then none else nameEnds r
  | _ => none

/-- A number that is imaginary or not. -/
def readNumber (isImaginary : Bool) : Reader Unit :=
  expect (.number isImaginary)

/-- A number that may be negative, or the sum of a real and an imaginary one. -/
def readSignedNumber : Reader Unit := do
  discard (acceptSign "-")
  if ← accept (.number true) then require !(← signComes ["+", "-"])
  else
    readNumber false
    if ← signComes ["+", "-"] then
      modify List.tail
      readNumber true

/-- Text literals, or a word for a value. -/
def readConstant : Reader Unit := fun ts =>
  match ts with
  | .literal b _ :: r => (readLiterals b r).map fun r => ((), r)
  | .keyword k :: r =>
    if k == "None" || k == "True" || k == "False" then some ((), r) else none
  | _ => none

/-- A literal. -/
def readCaseLiteral : Reader Unit :=
  readSignedNumber <|> readConstant

/-- A name, perhaps with attributes. -/
def readDotted : Nat → Reader Unit
  | 0 => failure
  | fuel + 1 => do
    readName
    if ← acceptSign "." then readDotted fuel

/-- A name with attributes that stands for a value. -/
def readValue : Reader Unit := do
  readName
  expectSign "."
  readDotted n
  nameEnds

/-- A pattern, or a name for several items. -/
def readStarPattern : Reader Unit := do
  if ← acceptSign "*" then readCapture <|> expect (.name "_")
  else pattern

/-- Patterns up to a closing sign, which is taken. -/
def readPatternsUpTo (closing : String) : Reader (List Unit × Bool) := do
  let items ← itemsUpTo (readStarPattern pattern) (comes (.sign closing)) n
  expectSign closing
  return items

/-- Patterns between parentheses, or a pattern, behind the opening parenthesis. -/
def readPatternGroup : Reader Unit := fun ts =>
  match (do pattern; expectSign ")" : Reader Unit) ts with
  | some r => some r
  | none => (do
      let (items, isOpen) ← readPatternsUpTo n pattern ")"
      require (items.isEmpty || !isOpen || items.length > 1) : Reader Unit) ts

/-- A pair of a mapping, or a name for its rest; is it a pair? -/
def readCasePair : Reader Bool := do
  if ← acceptSign "**" then
    readCapture
    return false
  readCaseLiteral <|> (do readName; expectSign "."; readDotted n)
  expectSign ":"
  pattern
  return true

/-- A mapping behind the opening brace. The name for the rest stands last. -/
def readCaseMapping : Reader Unit := do
  let (pairs, _) ← itemsUpTo (readCasePair n pattern) (comes (.sign "\x7d")) n
  require (pairs.dropLast.all id)
  expectSign "\x7d"

/-- A pattern for an argument of a class; is it a named one? -/
def readCaseArgument : Reader Bool := do
  if ← acceptArgumentName then
    pattern
    return true
  pattern
  return false

/-- Are all named patterns behind the others? -/
def namedLast : List Bool → Bool
  | [] => true
  | isNamed :: r => if isNamed then r.all id else namedLast r

/-- The class of a value with patterns for its arguments. -/
def readClassPattern : Reader Unit := do
  readDotted n
  expectSign "("
  let (names, _) ← itemsUpTo (readCaseArgument pattern) (comes (.sign ")")) n
  require (namedLast names)
  expectSign ")"

/-- A pattern without alternatives. -/
def readClosedPattern : Reader Unit := do
  if ← acceptSign "(" then readPatternGroup n pattern
  else if ← acceptSign "[" then discard (readPatternsUpTo n pattern "]")
  else if ← acceptSign "\x7b" then readCaseMapping n pattern
  else readCaseLiteral <|> readCapture <|> (do expect (.name "_"); nameEnds) <|> readValue n
    <|> readClassPattern n pattern

/-- Alternatives. -/
def readAlternatives : Nat → Reader Unit
  | 0 => failure
  | fuel + 1 => do
    readClosedPattern n pattern
    if ← acceptSign "|" then readAlternatives fuel

/-- A pattern, perhaps with a name. -/
def readNamedPattern : Reader Unit := do
  readAlternatives n pattern n
  if ← acceptWord "as" then readCapture

end Cases

/-- A pattern, where `n` bounds the number of tokens. -/
def readPattern (n : Nat) : Nat → Reader Unit
  | 0 => failure
  | fuel + 1 => readNamedPattern n (readPattern n fuel)

/-- The patterns of a case. -/
def readCasePatterns (n : Nat) : Reader Unit := do
  let isStar ← comes (.sign "*")
  let (items, isOpen) ← commaItems (readStarPattern (readPattern n n)) n
  require (!isStar || !isOpen || items.length > 1)

end Bindery.Source
