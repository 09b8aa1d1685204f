import Bindery.Source.Reader

/-!
# Expressions

The grammar of expressions. Of an expression only its shape is kept, which decides whether something
can be assigned to it. The readers of one level take the readers of what stands inside brackets and
behind some words; how deeply these are nested bounds the fuel, which is the number of tokens.
-/

namespace Bindery.Source

/-- The shape of an expression. -/
inductive Shape where
  /-- A name. -/
  | name
  /-- An attribute or an item of something. -/
  | place
  /-- A tuple or a list. -/
  | sequence (items : List Shape)
  /-- Something that stands for several items. -/
  | star (inner : Shape)
  /-- Something between parentheses. -/
  | group (inner : Shape)
  /-- An assignment inside an expression. -/
  | assignment
  /-- Anything else. -/
  | other

/-- Does the shape stand for several items? -/
def Shape.isStar : Shape → Bool
  | .star _ => true
  | _ => false

/-- Is the shape an assignment without parentheses? -/
def Shape.isAssignment : Shape → Bool
  | .assignment => true
  | _ => false

/-- Can a single value be assigned to the expression? -/
def Shape.isSingleTarget : Shape → Bool
  | .name | .place => true
  | .group s => s.isSingleTarget
  | _ => false

mutual

/-- Can something be assigned to the expression? -/
def Shape.isTarget : Shape → Bool
  | .name | .place => true
  | .star s => !s.isStar && s.isTarget
  | .group s => !s.isStar && s.isTarget
  | .sequence ss => areTargets ss
  | .assignment | .other => false

/-- Can something be assigned to all of the expressions? -/
def areTargets : List Shape → Bool
  | [] => true
  | s :: r => s.isTarget && areTargets r

end

mutual

/-- Can the expression be deleted? -/
def Shape.isDeletable : Shape → Bool
  | .name | .place => true
  | .group s => s.isDeletable
  | .sequence ss => areDeletable ss
  | .star _ | .assignment | .other => false

/-- Can all of the expressions be deleted? -/
def areDeletable : List Shape → Bool
  | [] => true
  | s :: r => s.isDeletable && areDeletable r

end

/-- The levels at which an expression can be read from other places. -/
inductive Level where
  /-- A whole expression. -/
  | expression
  /-- An expression without a condition. -/
  | disjunction
  /-- An expression of operators that calculate. -/
  | arithmetic
  /-- A name or a literal with what follows it. -/
  | primary

section Levels

variable (n : Nat) (inner : Level → Reader Shape)

/-- The shape of items with commas between them. -/
def shapeOf (items : List Shape × Bool) : Shape :=
  match items with
  | ([s], true) => s
  | (ss, _) => .sequence ss

/-- Something that stands for several items. -/
def readStarred (level : Level) : Reader Shape := do
  expectSign "*"
  return .star (← inner level)

/-- An expression or an assignment. -/
def readNamed : Reader Shape := fun ts =>
  match ts with
  | .name _ :: .sign ":=" :: r => (inner .expression r).map fun (_, r) => (.assignment, r)
  | _ => inner .expression ts

/-- An item of a display. -/
def readItem : Reader Shape := do
  if ← comes (.sign "*") then readStarred inner .arithmetic else readNamed inner

/-- An item of a row of expressions. -/
def readStarItem : Reader Shape := do
  if ← comes (.sign "*") then readStarred inner .arithmetic else inner .expression

/-- A row of expressions. -/
def readRow : Reader Shape := do
  return shapeOf (← commaItems (readStarItem inner) n)

/-- Does something come that ends an expression? -/
def endComes : Reader Bool := do
  match ← peek with
  | none | some .newline => return true
  | some (.sign s) => return [")", "]", "\x7d", ";", "=", ":", ","].contains s
  | _ => return false

/-- What is yielded. -/
def readYield : Reader Shape := do
  expectWord "yield"
  if ← acceptWord "from" then discard (inner .expression)
  else if !(← endComes) then discard (readRow n inner)
  return .other

/-- Targets of an assignment in front of a word. -/
def readTargets : Reader Unit := do
  let item : Reader Shape := do
    if ← comes (.sign "*") then readStarred inner .primary else inner .primary
  let (ss, _) ← commaItems item n
  require (areTargets ss)

/-- Does a clause come that runs through items? -/
def clauseComes : Reader Bool := fun ts =>
  some (match ts with
    | .keyword "for" :: _ | .keyword "async" :: .keyword "for" :: _ => true
    | _ => false, ts)

/-- A clause that runs through items, with its conditions. -/
def readClause : Reader Unit := do
  discard (acceptWord "async")
  expectWord "for"
  readTargets n inner
  expectWord "in"
  discard (inner .disjunction)
  whileComes (acceptWord "if") (discard (inner .disjunction)) n

/-- The clauses that run through items. -/
def readClauses : Reader Unit := do
  readClause n inner
  whileComes clauseComes (readClause n inner) n

/-! ### Brackets -/

/-- What stands between parentheses, behind the opening one. -/
def readParentheses : Reader Shape := do
  if ← acceptSign ")" then return .sequence []
  if ← comes (.keyword "yield") then
    discard (readYield n inner)
    expectSign ")"
    return .group .other
  let first ← readItem inner
  if ← clauseComes then
    require !first.isStar
    readClauses n inner
    expectSign ")"
    return .other
  if ← acceptSign "," then
    let (rest, _) ← itemsUpTo (readItem inner) (comes (.sign ")")) n
    expectSign ")"
    return .sequence (first :: rest)
  require !first.isStar
  expectSign ")"
  return .group first

/-- What stands between brackets, behind the opening one. -/
def readBrackets : Reader Shape := do
  if ← acceptSign "]" then return .sequence []
  let first ← readItem inner
  if ← clauseComes then
    require !first.isStar
    readClauses n inner
    expectSign "]"
    return .other
  if ← acceptSign "," then
    let (rest, _) ← itemsUpTo (readItem inner) (comes (.sign "]")) n
    expectSign "]"
    return .sequence (first :: rest)
  expectSign "]"
  return .sequence [first]

/-- A pair of a mapping, or another mapping. -/
def readPair : Reader Shape := do
  if ← acceptSign "**" then inner .arithmetic
  else
    discard (inner .expression)
    expectSign ":"
    inner .expression

/-- What stands between braces behind the first item, up to the closing brace: clauses, if an item
of this kind can have some, or further items. -/
def readBraceRest (item : Reader Shape) (runs : Bool) : Reader Unit := do
  if ← clauseComes then
    require runs
    readClauses n inner
  else if ← acceptSign "," then
    discard (itemsUpTo item (comes (.sign "\x7d")) n)
  expectSign "\x7d"

/-- What stands between braces, behind the opening one. -/
def readBraces : Reader Shape := do
  if ← acceptSign "\x7d" then return .other
  if ← comes (.sign "**") then
    discard (readPair inner)
    readBraceRest n inner (readPair inner) false
  else
    let first ← readItem inner
    if ← acceptSign ":" then
      require !(first.isStar || first.isAssignment)
      discard (inner .expression)
      readBraceRest n inner (readPair inner) true
    else readBraceRest n inner (readItem inner) !first.isStar
  return .other

/-! ### Behind a primary -/

/-- Where among the arguments of a call a place stands. -/
inductive ArgumentPlace where
  /-- Before all named arguments. -/
  | positional
  /-- Behind a named argument. -/
  | named
  /-- Behind a mapping of named arguments. -/
  | mapped
  deriving DecidableEq

/-- Does a named argument come? Its name and the sign behind it are taken if it does. -/
def acceptArgumentName : Reader Bool := fun ts =>
  match ts with
  | .name _ :: .sign "=" :: r => some (true, r)
  | _ => some (false, ts)

/-- An argument of a call, and the place behind it. -/
def readArgument (place : ArgumentPlace) : Reader ArgumentPlace := do
  if ← acceptSign "**" then
    discard (inner .expression)
    return .mapped
  if ← acceptSign "*" then
    require (place != .mapped)
    discard (inner .expression)
    return place
  if ← acceptArgumentName then
    discard (inner .expression)
    return if place == .positional then .named else place
  require (place == .positional)
  discard (readNamed inner)
  return place

/-- Arguments up to the closing parenthesis, which is taken. -/
def readArguments : Nat → ArgumentPlace → Reader Unit
  | 0, _ => failure
  | fuel + 1, place => do
    if ← acceptSign ")" then return
    let place ← readArgument inner place
    if ← acceptSign "," then readArguments fuel place else expectSign ")"

/-- Does an argument come that has neither a name nor a star? -/
def plainComes : Reader Bool := fun ts =>
  some (match ts with
    | .name _ :: .sign "=" :: _ | .sign "*" :: _ | .sign "**" :: _ | .sign ")" :: _ => false
    | _ => true, ts)

/-- The arguments of a call behind the opening parenthesis: one generator, or arguments. -/
def readCall : Reader Unit := do
  if ← plainComes then
    discard (readNamed inner)
    if ← clauseComes then
      readClauses n inner
      expectSign ")"
    else if ← acceptSign "," then readArguments inner n .positional
    else expectSign ")"
  else readArguments inner n .positional

/-- A bound of a slice, if one comes. -/
def readBound : Reader Unit := do
  if !(← signComes [":", ",", "]"]) then discard (inner .expression)

/-- The first bound of a slice or an index; may further bounds follow? -/
def readFirstBound : Reader Bool := do
  if ← comes (.sign ":") then return true
  return !(← readNamed inner).isAssignment

/-- An index, a slice or something that stands for several indices. -/
def readSlice : Reader Unit := do
  if ← acceptSign "*" then discard (inner .expression)
  else if ← readFirstBound inner then
    if ← acceptSign ":" then
      readBound inner
      if ← acceptSign ":" then readBound inner

/-- The indices behind the opening bracket. -/
def readSlices : Reader Unit := do
  let (items, _) ← itemsUpTo (readSlice inner) (comes (.sign "]")) n
  require !items.isEmpty
  expectSign "]"

/-- Attributes, calls and indices behind an expression of the given shape. -/
def readTrailers : Nat → Shape → Reader Shape
  | 0, _ => failure
  | fuel + 1, s => do
    if ← acceptSign "." then
      readName
      readTrailers fuel .place
    else if ← acceptSign "(" then
      readCall n inner
      readTrailers fuel .other
    else if ← acceptSign "[" then
      readSlices n inner
      readTrailers fuel .place
    else return s

/-- Text literals next to each other, all for text or all for bytes. -/
def readLiterals (isBytes : Bool) : List Token → Option (List Token)
  | .literal b _ :: r => if b == isBytes then readLiterals isBytes r else none
  | ts => some ts

/-- A name, a literal or something between brackets. -/
def readAtom : Reader Shape := fun ts =>
  match ts with
  | .name _ :: r => some (.name, r)
  | .number _ :: r | .sign "..." :: r => some (.other, r)
  | .literal b _ :: r => (readLiterals b r).map fun r => (.other, r)
  | .keyword k :: r =>
    if k == "None" || k == "True" || k == "False" then some (.other, r) else none
  | .sign "(" :: r => readParentheses n inner r
  | .sign "[" :: r => readBrackets n inner r
  | .sign "\x7b" :: r => readBraces n inner r
  | _ => none

/-- A name or a literal with what follows it. -/
def readPrimary : Reader Shape := do
  readTrailers n inner n (← readAtom n inner)

/-! ### Operators -/

/-- An operand with the operators in front of it. -/
def readOperand : Nat → Reader Shape
  | 0 => failure
  | fuel + 1 => do
    if ← signComes ["+", "-", "~"] then
      modify List.tail
      discard (readOperand fuel)
      return .other
    if ← acceptWord "await" then
      discard (readPrimary n inner)
      return .other
    readPrimary n inner

/-- Operands with operators between them, each taken by a reader. -/
def readChain (operand : Reader Shape) (operator : Reader Bool) : Nat → Reader Shape
  | 0 => failure
  | fuel + 1 => do
    let s ← operand
    if ← operator then
      discard (readChain operand operator fuel)
      return .other
    return s

/-- The signs of operators that calculate. -/
def calculatingSigns : List String :=
  ["|", "^", "&", "<<", ">>", "+", "-", "*", "/", "//", "%", "@", "**"]

/-- Does one of the signs come? It is taken if it does. -/
def acceptOneOf (signs : List String) : Reader Bool := do
  if ← signComes signs then
    modify List.tail
    return true
  return false

/-- An expression of operators that calculate. -/
def readArithmetic : Reader Shape :=
  readChain (readOperand n inner n) (acceptOneOf calculatingSigns) n

/-- Does an operator that compares come? It is taken if it does. -/
def acceptComparison : Reader Bool := fun ts =>
  match ts with
  | .keyword "not" :: .keyword "in" :: r | .keyword "is" :: .keyword "not" :: r
  | .keyword "in" :: r | .keyword "is" :: r => some (true, r)
  | _ => acceptOneOf ["==", "!=", "<=", "<", ">=", ">"] ts

/-- A comparison that may be negated. -/
def readInversion : Nat → Reader Shape
  | 0 => failure
  | fuel + 1 => do
    if ← acceptWord "not" then
      discard (readInversion fuel)
      return .other
    readChain (readArithmetic n inner) acceptComparison n

/-- An expression without a condition. -/
def readDisjunction : Reader Shape :=
  readChain (readInversion n inner n) (do return (← acceptWord "or") || (← acceptWord "and")) n

/-! ### Parameters -/

/-- What is known of the parameters in front of a place. -/
structure ParameterState where
  /-- Is there a parameter? -/
  hasAny : Bool := false
  /-- Did the parameters that have no name for callers end? -/
  hasSlash : Bool := false
  /-- Does a parameter have a default? -/
  hasDefault : Bool := false
  /-- Did the parameters that can be given by their place end? -/
  hasStar : Bool := false
  /-- Must a parameter follow? -/
  isOpen : Bool := false

/-- An annotation, if parameters can have one and one comes. -/
def readAnnotation (annotated : Bool) (isStarred : Bool) : Reader Unit := do
  if annotated then
    if ← acceptSign ":" then
      if isStarred && (← comes (.sign "*")) then discard (readStarred inner .arithmetic)
      else discard (inner .expression)

/-- Does a closing sign come, or a comma, which is taken? The result says whether more may
follow. -/
def readParameterEnd (closing : String) : Reader Bool := do
  if ← acceptSign "," then return true
  require (← comes (.sign closing))
  return false

/-- Parameters up to a closing sign, which is not taken. -/
def readParameters (annotated : Bool) (closing : String) : Nat → ParameterState → Reader Unit
  | 0, _ => failure
  | fuel + 1, s => do
    if ← comes (.sign closing) then
      require !s.isOpen
    else if ← acceptSign "**" then
      require !s.isOpen
      readName
      readAnnotation inner annotated false
      discard (readParameterEnd closing)
      require (← comes (.sign closing))
    else if ← acceptSign "*" then
      require !s.hasStar
      if ← acceptSign "," then
        readParameters annotated closing fuel { s with hasStar := true, isOpen := true }
      else
        readName
        readAnnotation inner annotated true
        if ← readParameterEnd closing then
          readParameters annotated closing fuel { s with hasStar := true }
    else if ← acceptSign "/" then
      require (s.hasAny && !s.hasSlash && !s.hasStar)
      if ← readParameterEnd closing then
        readParameters annotated closing fuel { s with hasSlash := true }
    else
      readName
      readAnnotation inner annotated false
      let hasDefault ← acceptSign "="
      if hasDefault then discard (inner .expression)
      require (hasDefault || s.hasStar || !s.hasDefault)
      if ← readParameterEnd closing then
        readParameters annotated closing fuel
          { s with
            hasAny := true
            hasDefault := s.hasDefault || (hasDefault && !s.hasStar)
            isOpen := false }

/-! ### Whole expressions -/

/-- A function without a name. -/
def readLambda : Reader Shape := do
  expectWord "lambda"
  readParameters inner false ":" n {}
  expectSign ":"
  discard (inner .expression)
  return .other

/-- A whole expression. -/
def readExpression : Reader Shape := do
  if ← comes (.keyword "lambda") then readLambda n inner
  else
    let s ← readDisjunction n inner
    if ← acceptWord "if" then
      discard (readDisjunction n inner)
      expectWord "else"
      discard (inner .expression)
      return .other
    return s

/-- The reader of a level. -/
def readLevel : Level → Reader Shape
  | .expression => readExpression n inner
  | .disjunction => readDisjunction n inner
  | .arithmetic => readArithmetic n inner
  | .primary => readPrimary n inner

end Levels

/-- The reader of a level, where `n` bounds the number of tokens. -/
def readAt (n : Nat) : Nat → Level → Reader Shape
  | 0, _ => failure
  | fuel + 1, level => readLevel n (readAt n fuel) level

end Bindery.Source
