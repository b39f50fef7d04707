/-
Module: Outline.Heading.Bars
Purpose: Headings written as comment lines whose first word is a bar of hashes.
Main exports: Bars.barLevel, Bars.readLine, Bars.read
Open obligations: none
-/
import Outline.Text.Blank
import Outline.Text.Lines
import Outline.Text.Affix
import Outline.Heading.Basic

namespace Outline

namespace Bars

/-!
### Comment bars

A heading line is optional white space, the comment character, a space, a bar of hashes, a space
and the title. The bar's width gives the level, halving at each step: 64 hashes for the first
level down to 2 for the sixth. A bar of any other width is no heading.

In files of the R language a title may carry a trailing decoration of at least four `#`, `=` or
`-`, which is dropped together with the white space before it.
-/

/-- The level a bar of the given width stands for. -/
def barLevel : Nat → Option Nat
  | 64 => some 1
  | 32 => some 2
  | 16 => some 3
  | 8 => some 4
  | 4 => some 5
  | 2 => some 6
  | _ => none

/-- The level and the raw title after a bar: the hashes, exactly one bar width of them, then a
    space and at least one more character. -/
def afterBar (rest : List Char) : Option (Nat × List Char) :=
  let width := (rest.takeWhile (· = '#')).length
  match barLevel width, rest.drop width with
  | some level, ' ' :: title@(_ :: _) => some (level, title)
  | _, _ => none

/-- The ways to skip leading white space, longest first: each drop of `0 ≤ k ≤ m` characters,
    where `m` is the length of the leading white space. -/
def skips (line : List Char) : List (List Char) :=
  let m := (line.takeWhile Text.isBlank).length
  (List.range (m + 1)).reverse.map line.drop

/-- The level and raw title of a heading line. The leading white space is tried longest first, so
    a comment character that itself starts with white space is still found. -/
def matchLine (character line : List Char) : Option (Nat × List Char) :=
  (skips line).findSome? fun rest =>
    (Text.dropPrefix? (character ++ [' ']) rest).bind afterBar

/-- The characters of a trailing decoration. -/
def isDecoration (c : Char) : Bool :=
  c = '#' || c = '=' || c = '-'

/-- A title without its trailing decoration: a final run of at least four decoration characters
    and the white space before it are dropped, and the rest is trimmed. -/
def undecorate (title : List Char) : List Char :=
  let rev := title.reverse
  let run := (rev.takeWhile isDecoration).length
  if 4 ≤ run then Text.trim ((rev.drop run).dropWhile Text.isBlank).reverse
  else title

/-- The title of a heading line, trimmed and, for R files, undecorated. A title that is empty or
    holds one of the outline's own glyphs is none. -/
def title (decorated : Bool) (raw : List Char) : Option (List Char) :=
  let t := Text.trim raw
  let t := if decorated then undecorate t else t
  if t.isEmpty || t.any isBoxGlyph then none else some t

/-- The heading of one line, numbered `line`. -/
def readLine (character : List Char) (decorated : Bool) (line : Nat) (cs : List Char) :
    Option Heading :=
  (matchLine character cs).bind fun (level, raw) =>
    (title decorated raw).map fun t => ⟨level, String.ofList t, line⟩

/-- The bar headings of a text, for a comment character and a lowercase extension. -/
def read (character extension content : String) : List Heading :=
  let decorated := extension == "r" || extension == "rpres"
  ((Text.lines content.toList).zipIdx 1).filterMap fun (cs, n) =>
    readLine character.toList decorated n cs

example : read "#" "py" "# ## Six\n  # ######## Four\n# ### Odd" =
    [⟨6, "Six", 1⟩, ⟨4, "Four", 2⟩] := by decide +kernel

end Bars

end Outline
