/-
Module: Outline.Proofs.FrameWidth
Purpose: The box of an outline block lines up: its top lines have one width for every comment
  character and file name, so the title's closing side meets the corners.
Main statements: header_lines_share_width
Open obligations: none
-/
import Outline.Tree.Frame

namespace Outline

namespace Tree

/-- The opening marker, the title line and the title rule of a header are each 66 characters
    wider than the comment character, and the closing marker 65. The title shows the name padded
    with blanks, and the name is shown whole up to 46 characters and otherwise as its first 46
    followed by three dots. -/
theorem header_lines_share_width (character name : String) :
    (∀ line ∈ (header character name).take 3, line.length = character.length + 66) ∧
    (endMarker character).length = character.length + 65 ∧
    (∃ padding : String, (∀ c ∈ padding.toList, c = ' ') ∧
      (header character name)[1]? =
        some (character ++ " │ Contents of " ++ displayName name ++ padding ++ "│")) ∧
    (displayName name).toList =
      if name.length ≤ 46 then name.toList else name.toList.take 46 ++ ['.', '.', '.'] := by
  refine ⟨?_, length_endMarker character, ⟨_, ?_, rfl⟩, toList_displayName name⟩
  · intro line h
    simp only [header, List.take_succ_cons, List.take_zero, List.mem_cons, List.not_mem_nil,
      or_false] at h
    rcases h with rfl | rfl | rfl
    · exact length_beginMarker character
    · exact length_titleLine character name
    · exact length_titleRule character
  · intro c h
    simp only [String.toList_ofList, List.mem_replicate] at h
    exact h.2

end Tree

end Outline
