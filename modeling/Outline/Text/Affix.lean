/-
Module: Outline.Text.Affix
Purpose: Prefixes, infixes and replacement on character lists.
Main exports: dropPrefix?, occursIn, replaceAll, spread
Open obligations: none
-/

namespace Outline

namespace Text

/-- What follows `p` in `cs`, when `cs` starts with `p`. -/
def dropPrefix? : List Char → List Char → Option (List Char)
  | [], cs => some cs
  | _ :: _, [] => none
  | p :: ps, c :: cs => if p = c then dropPrefix? ps cs else none

/-- The pattern occurs somewhere in the text (the empty pattern occurs everywhere). -/
def occursIn (p : List Char) : List Char → Bool
  | [] => p.isEmpty
  | c :: cs => (dropPrefix? p (c :: cs)).isSome || occursIn p cs

/-- Replace each occurrence of a non-empty pattern, from the left and without overlaps; `skip`
    counts the characters of the last match still to be passed over. -/
def replaceFrom (p r : List Char) : Nat → List Char → List Char
  | _, [] => []
  | 0, c :: cs =>
    if (dropPrefix? p (c :: cs)).isSome then r ++ replaceFrom p r (p.length - 1) cs
    else c :: replaceFrom p r 0 cs
  | n + 1, _ :: cs => replaceFrom p r n cs

/-- Put `r` before every character and once more at the end. -/
def spread (r : List Char) : List Char → List Char
  | [] => r
  | c :: cs => r ++ c :: spread r cs

/-- Every occurrence of `p` replaced by `r`, scanning from the left without overlaps. The empty
    pattern occurs between every two characters and at both ends. -/
def replaceAll (p r cs : List Char) : List Char :=
  if p.isEmpty then spread r cs else replaceFrom p r 0 cs

theorem dropPrefix?_nil (cs : List Char) : dropPrefix? [] cs = some cs := rfl

example : replaceAll "ab".toList "x".toList "aabab".toList = "axx".toList := by decide
example : replaceAll [] "-".toList "ab".toList = "-a-b-".toList := by decide

end Text

end Outline
