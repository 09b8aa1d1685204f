import Bindery.Text.Range
import Bindery.Text.Table.Identifier

/-!
# Identifiers of the generated source

Which texts the generated Python source may use as a name: an identifier is a letter or an
underscore followed by letters, digits, marks and underscores, and a usable name is an identifier
that is no keyword. Words that are keywords in some places only are usable.
-/

namespace Bindery.Text

/-- An ASCII letter or the underscore. -/
def isNameStart (c : Char) : Bool :=
  c.isAlpha || c == '_'

/-- An ASCII letter, an ASCII digit or the underscore. -/
def isNameChar (c : Char) : Bool :=
  c.isAlphanum || c == '_'

/-- A character that may begin an identifier. -/
def isIdentifierStart (c : Char) : Bool :=
  if c.toNat < 0x80 then isNameStart c else inRanges Table.identifierStart c

/-- A character that may continue an identifier. -/
def isIdentifierChar (c : Char) : Bool :=
  if c.toNat < 0x80 then isNameChar c else inRanges Table.identifierContinue c

/-- Do the characters form an identifier? -/
def isIdentifierChars : List Char → Bool
  | [] => false
  | c :: r => isIdentifierStart c && r.all isIdentifierChar

/-- Is the text an identifier? -/
def isIdentifier (s : String) : Bool :=
  isIdentifierChars s.toList

/-- The words that are never a name. -/
def keywords : List String :=
  ["False", "None", "True", "and", "as", "assert", "async", "await", "break", "class", "continue",
   "def", "del", "elif", "else", "except", "finally", "for", "from", "global", "if", "import", "in",
   "is", "lambda", "nonlocal", "not", "or", "pass", "raise", "return", "try", "while", "with",
   "yield"]

/-- Is the text a keyword? -/
def isKeyword (s : String) : Bool :=
  keywords.contains s

/-- Is the text an identifier and no keyword? -/
def isUsableName (s : String) : Bool :=
  isIdentifier s && !isKeyword s

/-- Do the characters form a GraphQL name, which is an ASCII identifier? -/
def isGraphQLNameChars : List Char → Bool
  | [] => false
  | c :: r => isNameStart c && r.all isNameChar

/-- Is the text a GraphQL name? -/
def isGraphQLName (s : String) : Bool :=
  isGraphQLNameChars s.toList

end Bindery.Text
