/-!
# Blank characters

White space as the input formats of this library use it: the ASCII blanks, the four information
separators, and the Unicode spaces. A text is trimmed of blanks at both ends, and a run of blanks is
collapsed to one space.
-/

namespace Bindery.Text

/-- The white space characters. -/
def isBlank (c : Char) : Bool :=
  let n := c.toNat
  (9 ≤ n && n ≤ 13) || (28 ≤ n && n ≤ 32) || n == 0x85 || n == 0xA0 || n == 0x1680 ||
    (0x2000 ≤ n && n ≤ 0x200A) || n == 0x2028 || n == 0x2029 || n == 0x202F || n == 0x205F ||
    n == 0x3000

/-- The characters without blanks at the end. -/
def dropBlankEnd (cs : List Char) : List Char :=
  (cs.reverse.dropWhile isBlank).reverse

/-- The characters without blanks at either end. -/
def trimBlanks (cs : List Char) : List Char :=
  dropBlankEnd (cs.dropWhile isBlank)

theorem mem_of_mem_trimBlanks {c : Char} {cs : List Char} (h : c ∈ trimBlanks cs) : c ∈ cs := by
  have hstart : c ∈ cs.dropWhile isBlank :=
    List.mem_reverse.mp ((List.dropWhile_sublist isBlank).mem (List.mem_reverse.mp h))
  exact (List.dropWhile_sublist isBlank).mem hstart

/-- The text without blanks at either end. -/
def trim (s : String) : String :=
  String.ofList (trimBlanks s.toList)

/-- Does the text hold no character but blanks? -/
def isBlankText (s : String) : Bool :=
  s.toList.all isBlank

/-- The characters with each run of blanks replaced by one space; the flag says whether the
character before was a blank. -/
def collapseFrom : Bool → List Char → List Char
  | _, [] => []
  | inRun, c :: r =>
    if isBlank c then
      if inRun then collapseFrom true r else ' ' :: collapseFrom true r
    else
      c :: collapseFrom false r

/-- The characters with each run of blanks replaced by one space. -/
def collapseBlanks (cs : List Char) : List Char :=
  collapseFrom false cs

end Bindery.Text
