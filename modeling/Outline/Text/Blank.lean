/-
Module: Outline.Text.Blank
Purpose: The Unicode white space class and trimming by it.
Main exports: isBlank, trimLeft, trimRight, trim, trimText, blankText
Open obligations: none
-/

namespace Outline

namespace Text

/-!
### White space

Heading texts, configuration values and adornment lines are trimmed by the Unicode `White_Space`
property: the ASCII controls tab to carriage return, the space, next line, no-break space and the
Unicode space separators. Core's `Char.isWhitespace` knows only four ASCII characters, so the class
is spelled out here.
-/

/-- A character of the Unicode `White_Space` property. -/
def isBlank (c : Char) : Bool :=
  let n := c.toNat
  (0x09 ≤ n && n ≤ 0x0D) || n == 0x20 || n == 0x85 || n == 0xA0 || n == 0x1680 ||
    (0x2000 ≤ n && n ≤ 0x200A) || n == 0x2028 || n == 0x2029 || n == 0x202F ||
    n == 0x205F || n == 0x3000

/-- Drop the leading white space. -/
def trimLeft (cs : List Char) : List Char :=
  cs.dropWhile isBlank

/-- Drop the trailing white space. -/
def trimRight (cs : List Char) : List Char :=
  (cs.reverse.dropWhile isBlank).reverse

/-- Drop white space at both ends. -/
def trim (cs : List Char) : List Char :=
  trimRight (trimLeft cs)

theorem isBlank_space : isBlank ' ' = true := by decide

theorem trimLeft_nil : trimLeft [] = [] := rfl

theorem trim_nil : trim [] = [] := rfl

/-- The text with white space dropped at both ends. -/
def trimText (s : String) : String :=
  String.ofList (trim s.toList)

/-- The text holds white space only (or nothing), so trimming leaves it empty. -/
def blankText (s : String) : Bool :=
  s.toList.all isBlank

end Text

end Outline
