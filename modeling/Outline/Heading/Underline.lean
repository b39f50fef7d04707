/-
Module: Outline.Heading.Underline
Purpose: Section titles underlined by a row of one adornment character, as in reStructuredText.
Main exports: Underline.adornment?, Underline.symbolLevel, Underline.read
Open obligations: none
-/
import Outline.Text.Blank
import Outline.Text.Lines
import Outline.Heading.Basic

namespace Outline

namespace Underline

/-!
### Underlined titles

A title is a line that is not blank, does not start with white space and is not itself an
adornment, directly followed by an adornment: a line, trailing white space aside, made of one
adornment character repeated at least twice (four times for `"`). The character gives the level.
-/

/-- The level an adornment character gives. -/
def symbolLevel : Char → Option Nat
  | '#' => some 1
  | '*' => some 2
  | '=' => some 3
  | '-' => some 4
  | '~' => some 5
  | '^' => some 5
  | '"' => some 6
  | _ => none

/-- The character of an adornment line, if the line is one. -/
def adornment? (line : List Char) : Option Char :=
  match Text.trimRight line with
  | [] => none
  | c :: rest =>
    if (symbolLevel c).isSome && rest.all (· = c) && (if c = '"' then 4 else 2) ≤ rest.length + 1
    then some c else none

/-- The heading a line makes with the line below it. -/
def titleOf (line below : List Char) (n : Nat) : Option Heading :=
  let t := Text.trim line
  match line with
  | [] => none
  | c :: _ =>
    if t.isEmpty || Text.isBlank c || (adornment? line).isSome then none
    else (adornment? below).bind symbolLevel |>.map fun level => ⟨level, String.ofList t, n⟩

/-- The headings of numbered lines, each line taken with the one below it; `above` is the line
    before the rest. -/
def readPairs (above : List Char × Nat) : List (List Char × Nat) → List Heading
  | [] => []
  | below :: rest =>
    let later := readPairs below rest
    match titleOf above.1 below.1 above.2 with
    | some h => h :: later
    | none => later

/-- The underlined titles of a text. -/
def read (content : String) : List Heading :=
  match (Text.lines content.toList).zipIdx 1 with
  | [] => []
  | first :: rest => readPairs first rest

example : read "Title\n=====\n\nSub\n---\n" = [⟨3, "Title", 1⟩, ⟨4, "Sub", 4⟩] := by decide +kernel

end Underline

end Outline
