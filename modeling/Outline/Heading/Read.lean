/-
Module: Outline.Heading.Read
Purpose: Reading the headings of a text by the spelling its format uses.
Main exports: Spelling.read
Open obligations: none
-/
import Outline.Format.Registry
import Outline.Heading.Bars
import Outline.Heading.Marker
import Outline.Heading.Html
import Outline.Heading.Underline
import Outline.Heading.Roff
import Outline.Heading.Pod

namespace Outline

namespace Spelling

/-- The headings of a text in order of appearance. Only comment bars need the comment character
    and the lowercase extension; the other spellings ignore them. -/
def read (s : Spelling) (character extension content : String) : List Heading :=
  match s with
  | .bars => Bars.read character extension content
  | .repeated marker => Marker.read marker content
  | .html => Html.read content
  | .underlined => Underline.read content
  | .roff => Roff.read content
  | .pod => Pod.read content

end Spelling

end Outline
