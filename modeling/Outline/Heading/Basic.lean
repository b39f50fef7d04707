/-
Module: Outline.Heading.Basic
Purpose: A heading found in a text, how it is labelled, and the placeholder tree line it starts as.
Main exports: Heading, Heading.label, Heading.render, Heading.upTo, boxGlyphs, isBoxGlyph
Open obligations: none
-/

namespace Outline

/-- A heading of a text: its nesting depth (1 is the top), its text, and the 1-based line where it
    starts. -/
structure Heading where
  level : Nat
  text : String
  line : Nat
deriving DecidableEq, Repr, Inhabited

/-- The glyphs an outline draws; none of them is ever part of a heading text. -/
def boxGlyphs : List Char := ['│', '├', '└', '┌', '┐', '┘', '─']

/-- The character is one of the outline's own glyphs. -/
def isBoxGlyph (c : Char) : Bool :=
  boxGlyphs.contains c

namespace Heading

/-- The text an outline shows for the heading, followed by its line when lines are numbered. -/
def label (h : Heading) (numbered : Bool) : String :=
  if numbered then h.text ++ " " ++ toString h.line else h.text

/-- Three spaces for each level below the second: the indent of a nested placeholder line. -/
def indent (level : Nat) : String :=
  String.join (List.replicate (level - 2) "   ")

/-- The placeholder tree line of a heading. The top level (and level 0) hangs off the trunk
    with `├`; a deeper one starts with `└` behind the trunk, three columns further in for each
    extra level. The connectors are drawn later, from the lines below. -/
def render (h : Heading) (character : String) (numbered : Bool) : String :=
  if h.level ≤ 1 then character ++ " ├── " ++ h.label numbered
  else character ++ " │  " ++ indent h.level ++ "└── " ++ h.label numbered

/-- The headings no deeper than `depth`; depth 0 keeps them all. -/
def upTo (depth : Nat) (hs : List Heading) : List Heading :=
  if depth = 0 then hs else hs.filter (fun h => h.level ≤ depth)

theorem upTo_zero (hs : List Heading) : upTo 0 hs = hs := rfl

end Heading

end Outline
