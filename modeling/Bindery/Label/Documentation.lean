import Bindery.Text.Blank

/-!
# Descriptions in the generated source

A description of the schema becomes the body of a triple-quoted string or a comment on one line.
-/

namespace Bindery.Label

open Bindery.Text

/-- The characters with each backslash doubled and each triple quote broken by backslashes. -/
def escapeTriple : List Char → List Char
  | [] => []
  | '"' :: '"' :: '"' :: r => '\\' :: '"' :: '\\' :: '"' :: '\\' :: '"' :: escapeTriple r
  | '\\' :: r => '\\' :: '\\' :: escapeTriple r
  | c :: r => c :: escapeTriple r

/-- The characters, with a space at the end where they end in a quote. -/
def padQuoteEnd (cs : List Char) : List Char :=
  if cs.getLast? == some '"' then cs ++ [' '] else cs

/-- The characters between the triple quotes of a description. -/
def docstringChars (cs : List Char) : List Char :=
  padQuoteEnd (escapeTriple (trimBlanks cs))

/-- The text between the triple quotes of a description. -/
def docstring (text : String) : String :=
  String.ofList (docstringChars text.toList)

/-- The characters cut to 120, the last three of them dots where something was cut. -/
def shorten (cs : List Char) : List Char :=
  if cs.length > 120 then cs.take 117 ++ ['.', '.', '.'] else cs

/-- The characters of a one-line comment. -/
def commentChars (cs : List Char) : List Char :=
  trimBlanks (shorten (collapseBlanks cs))

/-- The text of a one-line comment. -/
def comment (text : String) : String :=
  String.ofList (commentChars text.toList)

end Bindery.Label
