import Bindery.Source.Case

/-!
# Statements

The grammar of statements. The readers of statements take the reader of the blocks inside them; how
deeply these are nested bounds the fuel.
-/

namespace Bindery.Source

section Simple

variable (n : Nat)

/-- The reader of a level of expressions. -/
abbrev part (level : Level) : Reader Shape := readAt n n level

/-- An expression. -/
def readOne : Reader Unit := discard (part n .expression)

/-- A row of expressions. -/
def readStatementRow : Reader Shape := readRow n (part n)

/-- A row of expressions, or what is yielded. -/
def readRowOrYield : Reader Shape := do
  if ← comes (.keyword "yield") then readYield n (part n) else readStatementRow n

/-- The signs of operators that change what a name stands for. -/
def changingSigns : List String :=
  ["+=", "-=", "*=", "/=", "//=", "%=", "@=", "&=", "|=", "^=", ">>=", "<<=", "**="]

/-- The values behind the signs of an assignment. All but the last are assigned to. -/
def readAssigned : Nat → Shape → Reader Unit
  | 0, _ => failure
  | fuel + 1, target => do
    if ← acceptSign "=" then
      require target.isTarget
      let s ← readRowOrYield n
      readAssigned fuel s

/-- An expression or an assignment. -/
def readAssignment : Reader Unit := do
  let s ← readRowOrYield n
  if ← acceptSign ":" then
    require s.isSingleTarget
    readOne n
    if ← acceptSign "=" then discard (readRowOrYield n)
  else if ← acceptOneOf changingSigns then
    require s.isSingleTarget
    discard (readRowOrYield n)
  else readAssigned n n s

/-- Does something come that ends a statement? -/
def statementEnds : Reader Bool := do
  return (← comes .newline) || (← comes (.sign ";"))

/-! ### Imports -/

/-- A name with another one that it gets. -/
def readAlias (name : Reader Unit) : Reader Unit := do
  name
  if ← acceptWord "as" then readName

/-- The points in front of a module; is there one? -/
def readPoints : Nat → Reader Bool
  | 0 => failure
  | fuel + 1 => do
    if ← acceptOneOf [".", "..."] then
      discard (readPoints fuel)
      return true
    return false

/-- What is imported from a module. -/
def readImportTargets : Reader Unit := do
  if ← acceptSign "*" then return
  if ← acceptSign "(" then
    let (names, _) ← itemsUpTo (readAlias readName) (comes (.sign ")")) n
    require !names.isEmpty
    expectSign ")"
  else separated (readAlias readName) n

/-- An import from a module. -/
def readFromImport : Reader Unit := do
  let isRelative ← readPoints n
  if isRelative && (← comes (.keyword "import")) then pure () else readDotted n
  expectWord "import"
  readImportTargets n

/-! ### Simple statements -/

/-- What follows the keyword of a simple statement; nothing where the keyword begins none. -/
def readAfterKeyword (word : String) : Option (Reader Unit) :=
  match word with
  | "pass" | "break" | "continue" => some (pure ())
  | "return" => some do
    if !(← statementEnds) then discard (readStatementRow n)
  | "raise" => some do
    if !(← statementEnds) then
      readOne n
      if ← acceptWord "from" then readOne n
  | "del" => some do
    require (← readStatementRow n).isDeletable
  | "assert" => some do
    readOne n
    if ← acceptSign "," then readOne n
  | "global" | "nonlocal" => some (separated readName n)
  | "import" => some (separated (readAlias (readDotted n)) n)
  | "from" => some (readFromImport n)
  | _ => none

/-- A simple statement. -/
def readSimple : Reader Unit := fun ts =>
  match ts with
  | .keyword w :: r =>
    match readAfterKeyword n w with
    | some reader => reader r
    | none => readAssignment n ts
  | _ => readAssignment n ts

/-- Simple statements on a line. -/
def readLine : Nat → Reader Unit
  | 0 => failure
  | fuel + 1 => do
    readSimple n
    if ← acceptSign ";" then
      if ← accept .newline then return
      readLine fuel
    else expect .newline

end Simple

section Compound

variable (n : Nat) (block : Reader Unit)

/-- A colon and a block. -/
def readBody : Reader Unit := do
  expectSign ":"
  block

/-- A named expression. -/
def readCondition : Reader Unit := discard (readNamed (part n))

/-- The block behind a keyword, if the keyword comes. -/
def readBranch (word : String) : Reader Unit := do
  if ← acceptWord word then readBody block

/-- What follows the first condition of a choice and its block. -/
def readChoice : Reader Unit := do
  readCondition n
  readBody block
  whileComes (acceptWord "elif") (do readCondition n; readBody block) n
  readBranch block "else"

/-- A loop that runs through items. -/
def readFor : Reader Unit := do
  readTargets n (part n)
  expectWord "in"
  discard (readStatementRow n)
  readBody block
  readBranch block "else"

/-- Something that is entered and left, with a target. -/
def readEntered : Reader Unit := do
  readOne n
  if ← acceptWord "as" then
    let s ← if ← comes (.sign "*") then readStarred (part n) .primary else part n .primary
    require s.isTarget

/-- What is entered, between parentheses or not, and the colon behind it. -/
def readEnteredItems : Reader Unit :=
  (do
    expectSign "("
    let (items, _) ← itemsUpTo (readEntered n) (comes (.sign ")")) n
    require !items.isEmpty
    expectSign ")"
    expectSign ":") <|>
  (do
    separated (readEntered n) n
    expectSign ":")

/-- What is caught, with a name. -/
def readCaught : Reader Unit := do
  readOne n
  if ← acceptWord "as" then readName

/-- Blocks for what is caught; do they catch groups? -/
def readHandlers (inGroups : Bool) : Reader Unit := do
  if inGroups then
    expectSign "*"
    readCaught n
  else if !(← comes (.sign ":")) then
    require !(← comes (.sign "*"))
    readCaught n
  readBody block

/-- What follows the block of an attempt. -/
def readAttemptRest : Reader Unit := do
  if ← acceptWord "finally" then readBody block
  else
    expectWord "except"
    let inGroups ← comes (.sign "*")
    readHandlers n block inGroups
    whileComes (acceptWord "except") (readHandlers n block inGroups) n
    readBranch block "else"
    readBranch block "finally"

/-- What follows the keyword of a function. -/
def readFunction : Reader Unit := do
  readName
  expectSign "("
  readParameters (part n) true ")" n {}
  expectSign ")"
  if ← acceptSign "->" then readOne n
  readBody block

/-- What follows the keyword of a class. -/
def readClass : Reader Unit := do
  readName
  if ← acceptSign "(" then readArguments (part n) n .positional
  readBody block

/-- What follows the keyword of a compound statement; nothing where the keyword begins none. -/
def readAfterCompound (word : String) : Option (Reader Unit) :=
  match word with
  | "if" => some (readChoice n block)
  | "while" => some do
    readCondition n
    readBody block
    readBranch block "else"
  | "for" => some (readFor n block)
  | "with" => some do
    readEnteredItems n
    block
  | "try" => some do
    readBody block
    readAttemptRest n block
  | "def" => some (readFunction n block)
  | "class" => some (readClass n block)
  | "async" => some do
    if ← acceptWord "def" then readFunction n block
    else if ← acceptWord "for" then readFor n block
    else
      expectWord "with"
      readEnteredItems n
      block
  | _ => none

/-- Decorators, and the function or class behind them. -/
def readDecorated : Nat → Reader Unit
  | 0 => failure
  | fuel + 1 => do
    if ← acceptSign "@" then
      readCondition n
      expect .newline
      readDecorated fuel
    else if ← acceptWord "async" then
      expectWord "def"
      readFunction n block
    else if ← acceptWord "def" then readFunction n block
    else
      expectWord "class"
      readClass n block

/-- The case of a choice among patterns. -/
def readCase : Reader Unit := do
  expect (.name "case")
  readCasePatterns n
  if ← acceptWord "if" then readCondition n
  readBody block

/-- The value of a choice among patterns. -/
def readSubject : Reader Unit := do
  let (items, isOpen) ← commaItems (readItem (part n)) n
  require (!isOpen || !items.any Shape.isStar)

/-- A choice among patterns. -/
def readMatch : Reader Unit := do
  expect (.name "match")
  readSubject n
  expectSign ":"
  expect .newline
  expect .indent
  readCase n block
  whileComes (do return !(← accept .dedent)) (readCase n block) n

/-- A statement. -/
def readStatement : Reader Unit := fun ts =>
  match ts with
  | .sign "@" :: _ => readDecorated n block n ts
  | .name "match" :: _ => (readMatch n block <|> readLine n n) ts
  | .keyword w :: r =>
    match readAfterCompound n block w with
    | some reader => reader r
    | none => readLine n n ts
  | _ => readLine n n ts

/-- A block: lines with a greater indentation, or simple statements on the same line. -/
def readBlockWith : Reader Unit := do
  if ← accept .newline then
    expect .indent
    readStatement n block
    whileComes (do return !(← accept .dedent)) (readStatement n block) n
  else readLine n n

end Compound

/-- A block, where `n` bounds the number of tokens. -/
def readBlock (n : Nat) : Nat → Reader Unit
  | 0 => failure
  | fuel + 1 => readBlockWith n (readBlock n fuel)

/-- The statements of a program. -/
def readStatements (n : Nat) : Reader Unit :=
  whileComes (do return (← peek).isSome) (readStatement n (readBlock n n)) n

end Bindery.Source
