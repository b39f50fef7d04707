/-
Module: Outline.Heading.Pod
Purpose: Headings of Perl documentation, the commands `=head1` to `=head9`.
Main exports: Pod.matchLine, Pod.read
Open obligations: none
-/
import Outline.Text.Blank
import Outline.Text.Lines
import Outline.Heading.Basic

namespace Outline

namespace Pod

/-- The level and trimmed title of a `=headN` line: `=head`, a digit from 1 to 9, white space and
    a title that is not blank. -/
def matchLine (line : List Char) : Option (Nat × List Char) :=
  match line with
  | '=' :: 'h' :: 'e' :: 'a' :: 'd' :: d :: rest@(c :: _) =>
    if '1' ≤ d && d ≤ '9' && Text.isBlank c then
      let t := Text.trim rest
      if t.isEmpty then none else some (d.toNat - '0'.toNat, t)
    else none
  | _ => none

/-- The `=headN` headings of a text. -/
def read (content : String) : List Heading :=
  ((Text.lines content.toList).zipIdx 1).filterMap fun (line, n) =>
    (matchLine line).map fun (level, t) => ⟨level, String.ofList t, n⟩

example : read "=pod\n\n=head1 NAME\n=head2\tMethods\n=head3 " = [⟨1, "NAME", 3⟩, ⟨2, "Methods", 4⟩] := by
  decide +kernel

end Pod

end Outline
