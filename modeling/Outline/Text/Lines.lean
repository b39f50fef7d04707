/-
Module: Outline.Text.Lines
Purpose: Cutting a text into lines, with and without their line endings.
Main exports: pieces, lineOf, lines, lineTexts
Open obligations: none
-/

namespace Outline

namespace Text

/-!
### Lines

A text is cut right after each line feed. The last piece is whatever follows the last line feed,
and it is no piece when it is empty, so an empty text has no lines and a final line feed does not
open an empty last line. A line is its piece without the line feed and then without one carriage
return before it; a carriage return that ends the whole text without a line feed stays.
-/

/-- The pieces of `cs` cut after each line feed; `acc` is the current piece, reversed. -/
def piecesFrom (acc : List Char) : List Char → List (List Char)
  | [] => if acc.isEmpty then [] else [acc.reverse]
  | c :: cs =>
    if c = '\n' then (c :: acc).reverse :: piecesFrom [] cs
    else piecesFrom (c :: acc) cs

/-- The pieces of a text, each ending with its line feed except perhaps the last. -/
def pieces (cs : List Char) : List (List Char) :=
  piecesFrom [] cs

/-- Drop one given last character, if the list ends with it. -/
def dropLast? (c : Char) (cs : List Char) : Option (List Char) :=
  match cs.reverse with
  | d :: rest => if d = c then some rest.reverse else none
  | [] => none

/-- A piece's line: without its line feed, and then without one carriage return. -/
def lineOf (piece : List Char) : List Char :=
  match dropLast? '\n' piece with
  | some body => (dropLast? '\r' body).getD body
  | none => piece

/-- The lines of a text. -/
def lines (cs : List Char) : List (List Char) :=
  (pieces cs).map lineOf

/-- The lines of a text, as strings. -/
def lineTexts (s : String) : List String :=
  (lines s.toList).map String.ofList

theorem pieces_nil : pieces [] = [] := rfl

theorem lines_nil : lines [] = [] := rfl

example : lines "a\r\nb\n\nc\r".toList = ["a".toList, "b".toList, [], "c\r".toList] := by decide

end Text

end Outline
