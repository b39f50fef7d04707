/-
Module: Outline.Heading.Marker
Purpose: Headings written as a run of one repeated marker at the start of a line, as in Markdown
  (`#`), AsciiDoc (`=`) and beancount (`*`).
Main exports: Marker.matchLine, Marker.isFence, Marker.read
Open obligations: none
-/
import Outline.Text.Blank
import Outline.Text.Lines
import Outline.Text.Affix
import Outline.Heading.Basic

namespace Outline

namespace Marker

/-!
### Repeated markers

A heading line is `k ≥ 1` markers, a space, and a title whose first character is neither the
marker nor one of the tree glyphs `│ ├ └ ┌`; the level is `k`. The longest such `k` is taken, which
matters only when the marker is itself a space.

With the marker `#`, fenced code is skipped: a line that starts, after white space, with three
backticks or three tildes opens or closes a fence, and neither it nor any line inside a fence is a
heading.
-/

/-- A character that may not start a title: the marker or a tree glyph. -/
def barred (marker c : Char) : Bool :=
  c = marker || c = '│' || c = '├' || c = '└' || c = '┌'

/-- The title after `k` leading characters, when the line has a space there followed by an
    allowed first character. -/
def titleAt (marker : Char) (line : List Char) (k : Nat) : Option (List Char) :=
  match line.drop k with
  | ' ' :: title@(c :: _) => if barred marker c then none else some title
  | _ => none

/-- The level and raw title of a heading line: the longest run length `k` of markers after which
    the title may start. -/
def matchLine (marker : Char) (line : List Char) : Option (Nat × List Char) :=
  let run := (line.takeWhile (· = marker)).length
  ((List.range run).reverse.map (· + 1)).findSome? fun k =>
    (titleAt marker line k).map fun t => (k, t)

/-- A line that opens or closes fenced code. -/
def isFence (line : List Char) : Bool :=
  let t := Text.trimLeft line
  "```".toList.isPrefixOf t || "~~~".toList.isPrefixOf t

/-- The headings of numbered lines, with the fence state `fenced` carried along when `fences` is
    on. -/
def readFrom (marker : Char) (fences : Bool) : Bool → List (List Char × Nat) → List Heading
  | _, [] => []
  | fenced, (line, n) :: rest =>
    if fences && isFence line then readFrom marker fences (!fenced) rest
    else if fenced then readFrom marker fences fenced rest
    else
      match matchLine marker line with
      | some (level, raw) =>
        let t := Text.trim raw
        if t.isEmpty then readFrom marker fences fenced rest
        else ⟨level, String.ofList t, n⟩ :: readFrom marker fences fenced rest
      | none => readFrom marker fences fenced rest

/-- The marker headings of a text. Fences are tracked only for the marker `#`. -/
def read (marker : Char) (content : String) : List Heading :=
  readFrom marker (marker == '#') false ((Text.lines content.toList).zipIdx 1)

example : read '#' "# Usage\n```sh\n# no\n```\n## Options" = [⟨1, "Usage", 1⟩, ⟨2, "Options", 5⟩] := by
  decide +kernel

example : read ' ' "   x" = [⟨2, "x", 1⟩] := by decide +kernel

end Marker

end Outline
