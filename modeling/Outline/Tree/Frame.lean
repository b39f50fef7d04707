/-
Module: Outline.Tree.Frame
Purpose: The box around an outline: the marker lines that open and close it, the title line, and
  the document that joins the frame, the drawn lines and the comment delimiters.
Main exports: beginMarker, endMarker, displayName, titleLine, header, footer, Document,
  Document.inner, Document.outer, Document.assemble
Main statements: length_beginMarker, length_titleLine, length_titleRule and length_endMarker give
  the width of each line of the box, whatever the name.
Open obligations: none
-/
import Outline.Format.Registry

namespace Outline

namespace Tree

/-!
### The frame

The frame's widths never change: an existing block is found again by its marker lines, byte for
byte. The box is 63 rules wide; a file name longer than 46 characters is cut to 46 and followed
by `...`, and the title is padded to a 50 character name field so that its closing `│` meets the
corners.
-/

/-- Rules between the box corners. -/
def boxWidth : Nat := 63

/-- The longest name shown whole in the title. -/
def nameLimit : Nat := 46

/-- The width of the name field in the title line. -/
def nameField : Nat := 50

/-- A horizontal rule of the box width. -/
def rule : String := String.ofList (List.replicate boxWidth '─')

/-- The first line of every outline block. -/
def beginMarker (character : String) : String :=
  character ++ " ┌" ++ rule ++ "┐"

/-- The last line of every outline block. -/
def endMarker (character : String) : String :=
  character ++ " └" ++ rule

/-- The name as the title shows it. -/
def displayName (name : String) : String :=
  if name.length > nameLimit then String.ofList (name.toList.take nameLimit) ++ "..." else name

/-- The title line: the name as shown, padded with blanks to the name field, between the sides of
    the title box. A shown name has at most 49 characters, so the padding is never cut. -/
def titleLine (character name : String) : String :=
  let shown := displayName name
  character ++ " │ Contents of " ++ shown ++
    String.ofList (List.replicate (nameField - shown.length) ' ') ++ "│"

/-- The rule that closes the title box and joins the trunk on its left. -/
def titleRule (character : String) : String :=
  character ++ " ├" ++ rule ++ "┘"

/-- The four lines above the outline: the opening marker, the title, the rule that closes the
    title box, and an empty trunk line. -/
def header (character name : String) : List String :=
  [beginMarker character, titleLine character name, titleRule character, character ++ " │"]

/-- The two lines below the outline: an empty trunk line and the closing marker. -/
def footer (character : String) : List String :=
  [character ++ " │", endMarker character]

/-!
### Widths

Every line of the box is counted in characters. The opening marker, the title line and the title
rule are 66 characters wider than the comment character, the closing marker 65, whatever the name.
-/

theorem length_rule : rule.length = boxWidth := by
  simp [rule]

theorem length_beginMarker (character : String) :
    (beginMarker character).length = character.length + 66 := by
  have h1 : " ┌".length = 2 := by decide
  have h2 : "┐".length = 1 := by decide
  simp [beginMarker, length_rule, boxWidth, h1, h2]

theorem length_endMarker (character : String) :
    (endMarker character).length = character.length + 65 := by
  have h1 : " └".length = 2 := by decide
  simp [endMarker, length_rule, boxWidth, h1]

theorem length_titleRule (character : String) :
    (titleRule character).length = character.length + 66 := by
  have h1 : " ├".length = 2 := by decide
  have h2 : "┘".length = 1 := by decide
  simp [titleRule, length_rule, boxWidth, h1, h2]

/-- A name is shown whole up to the limit, and cut to the limit and followed by three dots
    beyond it. -/
theorem toList_displayName (name : String) :
    (displayName name).toList =
      if name.length ≤ nameLimit then name.toList
      else name.toList.take nameLimit ++ "...".toList := by
  unfold displayName
  by_cases hn : name.length ≤ nameLimit
  · rw [if_neg (by omega), if_pos hn]
  · rw [if_pos (by omega), if_neg hn, String.toList_append, String.toList_ofList]

/-- A shown name leaves at least one column of the name field free. -/
theorem length_displayName_le (name : String) : (displayName name).length ≤ nameField - 1 := by
  have h : "...".length = 3 := by decide
  unfold displayName nameField nameLimit
  split
  · simp only [String.length_append, String.length_ofList, List.length_take, h]
    omega
  · omega

theorem length_titleLine (character name : String) :
    (titleLine character name).length = character.length + 66 := by
  have h := length_displayName_le name
  have h1 : " │ Contents of ".length = 15 := by decide
  have h2 : "│".length = 1 := by decide
  simp only [titleLine, String.length_append, String.length_ofList, List.length_replicate, h1, h2]
  simp only [nameField] at *
  omega

/-!
### Characters

A marker line is the comment character, a space and a corner glyph, then the rule. Proofs read the
marker lines through these equations: a proof that unfolds one leaves the kernel to decode the
rule's bytes.
-/

theorem toList_rule : rule.toList = List.replicate boxWidth '─' :=
  String.toList_ofList

/-- A line of the box: the comment character, a space and a glyph, then the rest. -/
theorem toList_boxLine (character : String) {corner : String} {g : Char}
    (hg : corner.toList = [' ', g]) (rest : String) :
    (character ++ corner ++ rest).toList = character.toList ++ ' ' :: g :: rest.toList := by
  rw [String.toList_append, String.toList_append, hg, List.append_assoc, List.cons_append,
    List.cons_append, List.nil_append]

theorem toList_beginMarker (character : String) :
    (beginMarker character).toList = character.toList ++ ' ' :: '┌' :: (rule.toList ++ ['┐']) := by
  rw [beginMarker, String.toList_append, toList_boxLine character (g := '┌') (by simp) rule,
    show "┐".toList = ['┐'] by simp, List.append_assoc, List.cons_append, List.cons_append]

theorem toList_titleRule (character : String) :
    (titleRule character).toList = character.toList ++ ' ' :: '├' :: (rule.toList ++ ['┘']) := by
  rw [titleRule, String.toList_append, toList_boxLine character (g := '├') (by simp) rule,
    show "┘".toList = ['┘'] by simp, List.append_assoc, List.cons_append, List.cons_append]

theorem toList_endMarker (character : String) :
    (endMarker character).toList = character.toList ++ ' ' :: '└' :: rule.toList :=
  toList_boxLine character (g := '└') (by simp) rule

end Tree

/-- An outline block in its parts: delimiter lines before, the header, the drawn body, the
    footer, and delimiter lines after. A document without body lines is empty and has no parts. -/
structure Document where
  before : List String
  header : List String
  body : List String
  footer : List String
  after : List String
deriving DecidableEq, Repr, Inhabited

namespace Document

/-- The empty document. -/
def empty : Document := ⟨[], [], [], [], []⟩

/-- A document is empty when it has no body lines. -/
def isEmpty (d : Document) : Bool :=
  d.body.isEmpty

/-- The framed block: header, body and footer joined by line feeds. This is what replaces an
    existing block. The empty document gives the empty text. -/
def inner (d : Document) : String :=
  if d.isEmpty then "" else "\n".intercalate (d.header ++ d.body ++ d.footer)

/-- The framed block inside the comment delimiters. The empty document gives the empty text. -/
def outer (d : Document) : String :=
  if d.isEmpty then "" else "\n".intercalate (d.before ++ [d.inner] ++ d.after)

/-- Frame drawn body lines for a file name, inside the given delimiters. -/
def assemble (body : List String) (character name : String) (delimiters : Delimiters) :
    Document :=
  if body.isEmpty then empty
  else ⟨delimiters.before, Tree.header character name, body, Tree.footer character,
    delimiters.after⟩

end Document

end Outline
