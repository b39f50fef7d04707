/-
Module: Outline.Block.Locate
Purpose: Where an outline block stands in a file, or where a new one goes: the lines of a text
  with their offsets, the block between its marker lines, the preamble that must stay above a new
  block, and the line ending a file uses.
Main exports: Line, linesWithOffsets, Span, findBlock, preambleEnd, lineEnding, byteOffset
Open obligations: none
-/
import Outline.Text.Blank
import Outline.Text.Lines
import Outline.Text.Affix
import Outline.Tree.Frame

namespace Outline

namespace Block

/-- A line of a text: the offset of its first character and its text without the line ending.
    Offsets count characters; `byteOffset` turns them into UTF-8 byte offsets. -/
structure Line where
  start : Nat
  text : List Char
deriving DecidableEq, Repr

/-- The offset just after the line's text, before its line ending. -/
def Line.stop (l : Line) : Nat :=
  l.start + l.text.length

/-- A piece without its line feed and then without one carriage return. Unlike `Text.lineOf`, a
    carriage return is dropped also from a last piece that has no line feed. -/
def bareLine (piece : List Char) : List Char :=
  let body := (Text.dropLast? '\n' piece).getD piece
  (Text.dropLast? '\r' body).getD body

/-- The lines of the pieces, numbered from `start`. -/
def locate (start : Nat) : List (List Char) → List Line
  | [] => []
  | p :: ps => ⟨start, bareLine p⟩ :: locate (start + p.length) ps

/-- The lines of a text with the offset where each starts. -/
def linesWithOffsets (cs : List Char) : List Line :=
  locate 0 (Text.pieces cs)

/-- The UTF-8 byte offset of a character offset. -/
def byteOffset (cs : List Char) (k : Nat) : Nat :=
  (cs.take k).foldr (fun c n => c.utf8Size + n) 0

/-- A range of a text by character offsets, `start` included and `stop` not. -/
structure Span where
  start : Nat
  stop : Nat
deriving DecidableEq, Repr

/-- The text of a range. -/
def Span.of (s : Span) (cs : List Char) : List Char :=
  (cs.drop s.start).take (s.stop - s.start)

/-- The first line equal to `end` among the lines. -/
def findEnd (stop : List Char) : List Line → Option Line
  | [] => none
  | l :: ls => if l.text = stop then some l else findEnd stop ls

/-- The block from the first line equal to `begin` to the next line after it equal to `stop`. -/
def findMarkers (begin stop : List Char) : List Line → Option Span
  | [] => none
  | l :: ls =>
    if l.text = begin then (findEnd stop ls).map fun e => ⟨l.start, e.stop⟩
    else findMarkers begin stop ls

/-- The first complete outline block of a text, its marker lines included: from the first line
    equal to the opening marker to the next line equal to the closing marker, that line's ending
    left out. -/
def findBlock (cs : List Char) (character : String) : Option Span :=
  findMarkers (Tree.beginMarker character).toList (Tree.endMarker character).toList
    (linesWithOffsets cs)

/-!
### The preamble

Some lines must stay above a new block: a shebang line; in Markdown (without a shebang) a front
matter block from a first line `---` to the next line `---` or `...`; in XML and HTML files the
XML declarations and doctypes at the top; in Python the module docstring that opens on the first
line (after a shebang).
-/

/-- The end of the last of the leading XML declaration and doctype lines, after `found`. -/
def prologEnd (found : Option Nat) : List Line → Option Nat
  | [] => found
  | l :: ls =>
    let t := Text.trimLeft l.text
    if "<?xml".toList.isPrefixOf t || (t.take 9).map Char.toLower = "<!doctype".toList then
      prologEnd (some l.stop) ls
    else found

/-- The index of the first line that holds the pattern. -/
def firstHolding (p : List Char) (ls : List Line) : Option Nat :=
  ls.findIdx? fun l => Text.occursIn p l.text

/-- The line that closes a docstring opening on the first of the lines. -/
def docstringClose (ls : List Line) : Option Line :=
  match ls with
  | [] => none
  | first :: rest =>
    let quotes := ["\"\"\"".toList, "'''".toList]
    (quotes.find? fun q => q.isPrefixOf first.text).bind fun q =>
      if Text.occursIn q (first.text.drop 3) then some first
      else (firstHolding q rest).bind fun i => rest[i]?

/-- The end of a front matter block that opens on the first line. -/
def frontMatterEnd (ls : List Line) : Option Nat :=
  match ls with
  | first :: rest =>
    if first.text = "---".toList then
      (rest.find? fun l => l.text = "---".toList || l.text = "...".toList).map Line.stop
    else none
  | [] => none

/-- The offset right after the preamble that must stay above a new block, or none when the block
    goes at the very top. The extension is compared as given. -/
def preambleEnd (cs : List Char) (extension : String) : Option Nat :=
  let ls := linesWithOffsets cs
  let shebang := match ls with
    | first :: _ => if "#!".toList.isPrefixOf first.text then some first.stop else none
    | [] => none
  let rest := if shebang.isSome then ls.drop 1 else ls
  if extension = "md" || extension = "markdown" then
    if shebang.isSome then shebang else frontMatterEnd ls
  else if extension = "xml" || extension = "svg" || extension = "xhtml" || extension = "html" ||
      extension = "htm" then
    prologEnd shebang rest
  else if extension = "py" then
    match docstringClose rest with
    | some l => some l.stop
    | none => shebang
  else shebang

/-- The line ending a text uses: CRLF when its first line feed follows a carriage return. -/
def lineEnding : List Char → List Char
  | '\r' :: '\n' :: _ => ['\r', '\n']
  | '\n' :: _ => ['\n']
  | [] => ['\n']
  | _ :: cs => lineEnding cs

/-- A text with every line feed written as the given line ending. -/
def withEnding (eol cs : List Char) : List Char :=
  cs.flatMap fun c => if c = '\n' then eol else [c]

example : lineEnding "a\r\nb\n".toList = ['\r', '\n'] := by decide
example : preambleEnd "#!/bin/sh\nx".toList "sh" = some 9 := by decide +kernel

end Block

end Outline
