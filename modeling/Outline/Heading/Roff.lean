/-
Module: Outline.Heading.Roff
Purpose: Headings of manual pages written in roff: `.TH` names the page (level 1), `.SH` opens a
  section (level 2) and `.SS` a subsection (level 3).
Main exports: Roff.macroLevel, Roff.arguments, Roff.read
Open obligations: none
-/
import Outline.Text.Blank
import Outline.Text.Lines
import Outline.Heading.Basic

namespace Outline

namespace Roff

/-!
### Macros

A heading line is a dot, a macro name matched without regard to case, and then either nothing or
white space and the arguments. A macro without arguments takes its title from the next line,
unless that line is missing or is itself a request (starts with a dot). Arguments are separated
by white space outside double quotes, and the quotes are dropped. `.TH` keeps its first argument,
the page title; the section macros keep all their words.
-/

/-- The level of a macro name, matched without regard to ASCII case. -/
def macroLevel (a b : Char) : Option Nat :=
  match a.toUpper, b.toUpper with
  | 'T', 'H' => some 1
  | 'S', 'H' => some 2
  | 'S', 'S' => some 3
  | _, _ => none

/-- The level and raw arguments of a macro line. -/
def matchLine : List Char → Option (Nat × List Char)
  | '.' :: a :: b :: rest =>
    (macroLevel a b).bind fun level =>
      match rest with
      | [] => some (level, [])
      | c :: _ => if Text.isBlank c then some (level, rest.dropWhile Text.isBlank) else none
  | _ => none

/-- The arguments gathered so far (reversed), the current one (reversed), and whether a quote is
    open. -/
def argumentsFrom (done : List (List Char)) (current : List Char) (quoted : Bool) :
    List Char → List (List Char)
  | [] => (if current.isEmpty then done else current.reverse :: done).reverse
  | c :: cs =>
    if c = '"' then argumentsFrom done current (!quoted) cs
    else if Text.isBlank c && !quoted then
      argumentsFrom (if current.isEmpty then done else current.reverse :: done) [] quoted cs
    else argumentsFrom done (c :: current) quoted cs

/-- The arguments of a macro line, split at white space outside double quotes. -/
def arguments (raw : List Char) : List (List Char) :=
  argumentsFrom [] [] false (Text.trim raw)

/-- The title a macro of the given level takes from its arguments. -/
def title (level : Nat) (raw : List Char) : List Char :=
  let args := arguments raw
  if level = 1 then args.headD [] else [' '].intercalate args

/-- The raw arguments of a macro, or the next line when it has none. -/
def effectiveRaw (raw : List Char) (next : Option (List Char)) : List Char :=
  if (Text.trim raw).isEmpty then
    match next with
    | some line => if line.head? = some '.' then [] else line
    | none => []
  else raw

/-- The headings of numbered lines, each line seen with the one after it. -/
def readLines : List (List Char × Nat) → List Heading
  | [] => []
  | (line, n) :: rest =>
    let later := readLines rest
    match matchLine line with
    | some (level, raw) =>
      let t := title level (effectiveRaw raw (rest.head?.map Prod.fst))
      if t.isEmpty then later else ⟨level, String.ofList t, n⟩ :: later
    | none => later

/-- The macro headings of a manual page. -/
def read (content : String) : List Heading :=
  readLines ((Text.lines content.toList).zipIdx 1)

example : read ".TH LS 1\n.SH\nNAME\n.ss \"a b\"  c" =
    [⟨1, "LS", 1⟩, ⟨2, "NAME", 2⟩, ⟨3, "a b c", 4⟩] := by decide +kernel

end Roff

end Outline
