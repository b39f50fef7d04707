/-
Module: Outline.Heading.Html
Purpose: Headings written as HTML elements `<h1>` to `<h9>`, which may carry attributes, wrap
  inline markup and span several lines.
Main exports: Html.element?, Html.scan, Html.headingText, Html.read
Open obligations: none
-/
import Outline.Text.Blank
import Outline.Text.Affix
import Outline.Heading.Basic

namespace Outline

namespace Html

/-!
### Heading elements

The whole text is scanned from the left. At each position an element may start: `<h` or `<H`, a
digit from 1 to 9, then `>` at once or a white space character and anything up to the first `>`.
Its body is the shortest text up to a closing tag `</h` (either case), a digit from 1 to 9,
optional white space and `>`. Where no element starts the scan moves one character on; after an
element it goes on behind the closing tag. An element whose two digits differ is passed over.
-/

/-- The level of a digit from 1 to 9. -/
def digitLevel (c : Char) : Option Nat :=
  if '1' ≤ c && c ≤ '9' then some (c.toNat - '0'.toNat) else none

/-- What follows the first occurrence of `c`. -/
def after (c : Char) : List Char → Option (List Char)
  | [] => none
  | d :: ds => if d = c then some ds else after c ds

/-- An opening tag at the start: its level and what follows its `>`. -/
def openTag : List Char → Option (Nat × List Char)
  | '<' :: h :: d :: rest =>
    if h = 'h' || h = 'H' then
      (digitLevel d).bind fun level =>
        match rest with
        | '>' :: body => some (level, body)
        | c :: more => if Text.isBlank c then (after '>' more).map fun body => (level, body) else none
        | [] => none
    else none
  | _ => none

/-- A closing tag at the start: its level and what follows its `>`. -/
def closeTag : List Char → Option (Nat × List Char)
  | '<' :: '/' :: h :: d :: rest =>
    if h = 'h' || h = 'H' then
      (digitLevel d).bind fun level =>
        match rest.dropWhile Text.isBlank with
        | '>' :: tail => some (level, tail)
        | _ => none
    else none
  | _ => none

/-- The shortest body before a closing tag: the body, the closing level and what follows. -/
def untilClose : List Char → Option (List Char × Nat × List Char)
  | [] => none
  | c :: cs =>
    match closeTag (c :: cs) with
    | some (level, tail) => some ([], level, tail)
    | none => (untilClose cs).map fun (body, level, tail) => (c :: body, level, tail)

/-- An element found by the scan: the opening and closing levels, the body, and how many
    characters it spans. -/
structure Element where
  opening : Nat
  closing : Nat
  body : List Char
  span : Nat
deriving DecidableEq, Repr

/-- The element that starts the text, if one does. -/
def element? (cs : List Char) : Option Element :=
  (openTag cs).bind fun (opening, rest) =>
    (untilClose rest).map fun (body, closing, tail) =>
      ⟨opening, closing, body, cs.length - tail.length⟩

/-- The elements of a text with the line each starts on. `skip` counts the characters of the last
    element still to be passed over; `line` is the line of the first character of `cs`. -/
def scanFrom : Nat → Nat → List Char → List (Nat × Element)
  | _, _, [] => []
  | skip + 1, line, c :: cs => scanFrom skip (if c = '\n' then line + 1 else line) cs
  | 0, line, c :: cs =>
    let next := if c = '\n' then line + 1 else line
    match element? (c :: cs) with
    | some e => (line, e) :: scanFrom (e.span - 1) next cs
    | none => scanFrom 0 next cs

/-- The elements of a text, each with its starting line. -/
def scan (cs : List Char) : List (Nat × Element) :=
  scanFrom 0 1 cs

/-!
### Heading text

The body loses its tags (each `<` up to the next `>`), seven entities are decoded in a fixed order
with `&amp;` last, runs of white space become one space, and the result is trimmed.
-/

/-- The text without tags. `open` holds the characters of an unfinished tag, reversed: a `<` that
    no `>` follows is kept with all after it. -/
def stripFrom : Option (List Char) → List Char → List Char
  | none, [] => []
  | some pending, [] => '<' :: pending.reverse
  | none, c :: cs => if c = '<' then stripFrom (some []) cs else c :: stripFrom none cs
  | some pending, c :: cs => if c = '>' then stripFrom none cs else stripFrom (some (c :: pending)) cs

/-- The entities decoded, in this order. -/
def entities : List (String × String) :=
  [("&nbsp;", " "), ("&lt;", "<"), ("&gt;", ">"), ("&quot;", "\""), ("&#39;", "'"),
    ("&apos;", "'"), ("&amp;", "&")]

/-- Each entity replaced in turn, every occurrence at once. -/
def decode (cs : List Char) : List Char :=
  entities.foldl (fun acc (e, r) => Text.replaceAll e.toList r.toList acc) cs

/-- Runs of white space as one space; `inRun` when the previous character was white space. -/
def squeeze : Bool → List Char → List Char
  | _, [] => []
  | inRun, c :: cs =>
    if Text.isBlank c then (if inRun then squeeze true cs else ' ' :: squeeze true cs)
    else c :: squeeze false cs

/-- The text of a heading body. -/
def headingText (body : List Char) : List Char :=
  Text.trim (squeeze false (decode (stripFrom none body)))

/-- The heading elements of a text whose two levels agree and whose text is not empty. -/
def read (content : String) : List Heading :=
  (scan content.toList).filterMap fun (line, e) =>
    if e.opening = e.closing then
      let t := headingText e.body
      if t.isEmpty then none else some ⟨e.opening, String.ofList t, line⟩
    else none

example : read "x\n<H2 id=a>\nA &amp; <b>B</b></h2 >" = [⟨2, "A & B", 2⟩] := by decide +kernel

end Html

end Outline
