/-
Module: Outline.Proofs.HeadingElements
Purpose: Which written HTML heading elements the reader lists. A heading element is an opening
  tag `<hN>` (the letter in either case, attributes after white space), a body with no closing
  heading tag in it, and a closing tag `</hN>` with the same digit. The scan runs once over the
  whole text from the left, pairing an opening tag with the first closing heading tag of any
  level after it and passing over the pair when the digits differ. So an element is listed, with
  its level, its text and the line it starts on, whenever no match that starts before it runs
  past its start; an earlier opening tag whose match does, such as one left unclosed, swallows it.
Main exports: Html.Written, Html.Written.chars, Html.Written.level
Main statements: Html.element?_written, Html.scanFrom_append, Html.read_lists_written_element,
  Html.unclosed_tag_swallows_heading
Open obligations: none
-/
import Outline.Heading.Html

namespace Outline

namespace Html

/-! ### Written heading elements -/

/-- The start of a closing heading tag: `</`, `h` or `H`, and a digit from 1 to 9. -/
def ClosingStart (cs : List Char) : Prop :=
  ∃ l d, cs = ['<', '/', l, d] ∧ (l = 'h' ∨ l = 'H') ∧ '1' ≤ d ∧ d ≤ '9'

/-- A heading element as written in a text. The opening tag is `<`, a letter `h` or `H`, a digit
    from 1 to 9, attributes that are empty or a white space character followed by anything but
    `>`, and `>`. The body holds no start of a closing heading tag. The closing tag is `</`, a
    letter `h` or `H`, the same digit, white space and `>`. -/
structure Written where
  letter : Char
  digit : Char
  attributes : List Char
  body : List Char
  closingLetter : Char
  space : List Char
  letter_ok : letter = 'h' ∨ letter = 'H'
  digit_ok : '1' ≤ digit ∧ digit ≤ '9'
  attributes_ok : attributes = [] ∨
    ∃ c more, attributes = c :: more ∧ Text.isBlank c = true ∧ '>' ∉ more
  body_ok : ∀ cs, ClosingStart cs → ¬ cs <:+: body
  closingLetter_ok : closingLetter = 'h' ∨ closingLetter = 'H'
  space_ok : ∀ c ∈ space, Text.isBlank c = true

namespace Written

variable (w : Written)

/-- The opening tag of the element. -/
def openingTag : List Char :=
  '<' :: w.letter :: w.digit :: (w.attributes ++ ['>'])

/-- The closing tag of the element. -/
def closingTag : List Char :=
  '<' :: '/' :: w.closingLetter :: w.digit :: (w.space ++ ['>'])

/-- The characters of the element. -/
def chars : List Char :=
  w.openingTag ++ w.body ++ w.closingTag

/-- The level of the element: the value of its digit. -/
def level : Nat :=
  w.digit.toNat - '0'.toNat

theorem digitLevel_digit : digitLevel w.digit = some w.level := by
  simp [digitLevel, level, w.digit_ok.1, w.digit_ok.2]

end Written

/-! ### Reading one element -/

/-- What follows the first occurrence of a character, past a stretch without it. -/
theorem after_append_of_not_mem {c : Char} {more : List Char} (hc : c ∉ more) (rest : List Char) :
    after c (more ++ c :: rest) = some rest := by
  induction more with
  | nil => simp [after]
  | cons d more ih =>
    have hd : d ≠ c := fun h => hc (h ▸ List.mem_cons_self)
    simp only [List.cons_append, after, hd, if_false]
    exact ih (fun h => hc (List.mem_cons_of_mem d h))

theorem openTag_written (w : Written) (rest : List Char) :
    openTag (w.openingTag ++ rest) = some (w.level, rest) := by
  have hletter : (w.letter = 'h' || w.letter = 'H') = true := by
    rcases w.letter_ok with h | h <;> simp [h]
  simp only [Written.openingTag, List.cons_append, List.append_assoc,
    openTag, hletter, if_true, w.digitLevel_digit, Option.bind_some]
  rcases w.attributes_ok with hnil | ⟨c, more, hattr, hblank, hmore⟩
  · rw [hnil]
    rfl
  · -- a white space character, which is no `>`, then anything up to the first `>`
    have hc : c ≠ '>' := by
      rintro rfl
      exact absurd hblank (by decide)
    rw [hattr, List.cons_append]
    simp [hblank, after_append_of_not_mem hmore]

theorem closeTag_written (w : Written) (rest : List Char) :
    closeTag (w.closingTag ++ rest) = some (w.level, rest) := by
  have hletter : (w.closingLetter = 'h' || w.closingLetter = 'H') = true := by
    rcases w.closingLetter_ok with h | h <;> simp [h]
  have hspace : (w.space ++ '>' :: rest).dropWhile Text.isBlank = '>' :: rest := by
    rw [List.dropWhile_append_of_pos w.space_ok, List.dropWhile_cons_of_neg (by decide)]
  simp only [Written.closingTag, List.cons_append, List.append_assoc, List.nil_append,
    closeTag, hletter, if_true, w.digitLevel_digit, Option.bind_some, hspace]

/-- What a closing tag at the start of a text looks like. -/
theorem closingStart_of_closeTag {cs : List Char} {r : Nat × List Char} (h : closeTag cs = some r) :
    ∃ more, ClosingStart (cs.take 4) ∧ cs = cs.take 4 ++ more := by
  unfold closeTag at h
  split at h
  · rename_i l d rest
    split at h
    · rename_i hl
      cases hd : digitLevel d with
      | none => simp [hd] at h
      | some level =>
        have hd' : '1' ≤ d ∧ d ≤ '9' := by
          unfold digitLevel at hd
          split at hd
          · rename_i hdigit
            simpa using hdigit
          · cases hd
        exact ⟨rest, ⟨l, d, rfl, by simpa using hl, hd'⟩, rfl⟩
    · cases h
  · cases h

/-- No closing tag starts inside a stretch that holds no start of one, when what follows the
    stretch begins with `<`: a tag that started in the stretch and ran past its end would need
    `/`, a letter or a digit where that `<` stands. -/
theorem closeTag_straddle {u v : List Char} (hu : ∀ cs, ClosingStart cs → ¬ cs <:+: u)
    (hne : u ≠ []) (hv : v.head? = some '<') : closeTag (u ++ v) = none := by
  cases hclose : closeTag (u ++ v) with
  | none => rfl
  | some r =>
    exfalso
    obtain ⟨more, ⟨l, d, htake, hl, hd1, hd9⟩, -⟩ := closingStart_of_closeTag hclose
    obtain ⟨x, v', rfl⟩ : ∃ x v', v = x :: v' := by
      cases v with
      | nil => simp at hv
      | cons x v' => exact ⟨x, v', rfl⟩
    obtain rfl : x = '<' := by simpa using hv
    match u, hne with
    | [a], _ => simp at htake
    | [a, b], _ =>
      simp only [List.cons_append, List.nil_append, List.take_succ_cons, List.cons.injEq] at htake
      rcases hl with rfl | rfl <;> simp at htake
    | [a, b, c], _ =>
      simp only [List.cons_append, List.nil_append, List.take_succ_cons, List.take_zero,
        List.cons.injEq] at htake
      obtain ⟨-, -, -, rfl, -⟩ := htake
      exact absurd hd9 (by decide)
    | a :: b :: c :: e :: u', _ =>
      simp only [List.cons_append, List.take_succ_cons, List.take_zero] at htake
      exact hu _ ⟨l, d, htake, hl, hd1, hd9⟩ ⟨[], u', rfl⟩

/-- The shortest body before a closing tag runs up to the element's own closing tag. -/
theorem untilClose_written (w : Written) (rest : List Char) :
    untilClose (w.body ++ w.closingTag ++ rest) = some (w.body, w.level, rest) := by
  have hclosing : (w.closingTag ++ rest).head? = some '<' := rfl
  -- the body is read one character at a time; its tails hold no closing tag start either
  suffices h : ∀ body : List Char, (∀ cs, ClosingStart cs → ¬ cs <:+: body) →
      untilClose (body ++ (w.closingTag ++ rest)) = some (body, w.level, rest) by
    rw [List.append_assoc]
    exact h w.body w.body_ok
  intro body hbody
  induction body with
  | nil =>
    -- the closing tag starts the text, so the body is empty
    obtain ⟨c, cs, hcs⟩ : ∃ c cs, w.closingTag ++ rest = c :: cs := ⟨_, _, rfl⟩
    rw [List.nil_append, hcs, untilClose.eq_2, ← hcs, closeTag_written]
  | cons b body ih =>
    have htail : ∀ cs, ClosingStart cs → ¬ cs <:+: body := by
      rintro cs hcs ⟨s, t, hst⟩
      exact hbody cs hcs ⟨b :: s, t, by simp [← hst]⟩
    have hnone := closeTag_straddle hbody (List.cons_ne_nil b body) hclosing
    rw [List.cons_append] at hnone ⊢
    rw [untilClose.eq_2, hnone, ih htail, Option.map_some]

/-- A written element at the start of a text is read as itself: its level on both tags, its
    body, and all its characters spanned. -/
theorem element?_written (w : Written) (rest : List Char) :
    element? (w.chars ++ rest) = some ⟨w.level, w.level, w.body, w.chars.length⟩ := by
  have hsplit : w.chars ++ rest = w.openingTag ++ (w.body ++ w.closingTag ++ rest) := by
    simp [Written.chars]
  rw [element?, hsplit, openTag_written, Option.bind_some]
  dsimp only
  rw [untilClose_written, Option.map_some]
  simp only [Written.chars, List.length_append]
  congr 2
  omega

/-! ### Where the scan goes on -/

/-- The scan passes over a stretch of text and then goes on from its end as a fresh scan, with
    the line feeds of the stretch counted, when no element found in the stretch runs past its
    end. `skip` counts what is left of an element being passed over. -/
theorem scanFrom_append {pre : List Char} (rest : List Char) :
    ∀ skip line, skip ≤ pre.length →
      (∀ p < pre.length, ∀ e ∈ element? ((pre ++ rest).drop p), p + e.span ≤ pre.length) →
      ∃ found, scanFrom skip line (pre ++ rest) =
        found ++ scanFrom 0 (line + pre.count '\n') rest := by
  induction pre with
  | nil =>
    intro skip line hskip _
    obtain rfl : skip = 0 := by simpa using hskip
    exact ⟨[], by simp⟩
  | cons c pre ih =>
    intro skip line hskip hclear
    -- the rest of the stretch meets the same condition, one offset in
    have htail : ∀ p < pre.length, ∀ e ∈ element? ((pre ++ rest).drop p),
        p + e.span ≤ pre.length := by
      intro p hp e he
      have hfit := hclear (p + 1) (by simp; omega) e (by simpa using he)
      simp only [List.length_cons] at hfit
      omega
    have hline : (if c = '\n' then line + 1 else line) + pre.count '\n' =
        line + (c :: pre).count '\n' := by
      rw [List.count_cons]
      by_cases hc : c = '\n'
      · rw [if_pos hc, if_pos (beq_iff_eq.mpr hc)]
        omega
      · rw [if_neg hc, if_neg (by simpa using hc)]
        omega
    cases skip with
    | succ skip =>
      obtain ⟨found, hfound⟩ := ih skip (if c = '\n' then line + 1 else line)
        (by simp only [List.length_cons] at hskip; omega) htail
      exact ⟨found, by rw [List.cons_append, scanFrom.eq_2, hfound, hline]⟩
    | zero =>
      cases he : element? (c :: (pre ++ rest)) with
      | none =>
        obtain ⟨found, hfound⟩ := ih 0 (if c = '\n' then line + 1 else line) (Nat.zero_le _) htail
        exact ⟨found, by rw [List.cons_append, scanFrom.eq_3, he]; rw [hfound, hline]⟩
      | some e =>
        -- the element found at the start of the stretch ends inside it
        have hspan := hclear 0 (by simp) e (by simpa using he)
        obtain ⟨found, hfound⟩ := ih (e.span - 1) (if c = '\n' then line + 1 else line)
          (by simp only [List.length_cons] at hspan; omega) htail
        exact ⟨(line, e) :: found, by
          rw [List.cons_append, scanFrom.eq_3, he]
          dsimp only
          rw [hfound, hline, List.cons_append]⟩

/-! ### Which elements are listed -/

/-- A written heading element with a non-empty text is listed, with its level, its text and one
    more than the line feeds before it as its line, when no match of the scan that starts
    before it runs past its start. -/
theorem read_lists_written_element (w : Written) (pre post : List Char)
    (hclear : ∀ p < pre.length, ∀ e ∈ element? ((pre ++ w.chars ++ post).drop p),
      p + e.span ≤ pre.length)
    (htext : headingText w.body ≠ []) :
    ⟨w.level, String.ofList (headingText w.body), pre.count '\n' + 1⟩ ∈
      read (String.ofList (pre ++ w.chars ++ post)) := by
  obtain ⟨found, hfound⟩ := scanFrom_append (w.chars ++ post) 0 1 (Nat.zero_le _)
    (by simpa only [List.append_assoc] using hclear)
  -- the scan reaches the element and reads it as itself
  have hscan : (pre.count '\n' + 1, ⟨w.level, w.level, w.body, w.chars.length⟩) ∈
      scan (pre ++ w.chars ++ post) := by
    obtain ⟨c, cs, hcs⟩ : ∃ c cs, w.chars ++ post = c :: cs := ⟨_, _, rfl⟩
    rw [scan, List.append_assoc, hfound, hcs, scanFrom.eq_3, ← hcs, element?_written]
    simp [Nat.add_comm]
  simp only [read, String.toList_ofList]
  refine List.mem_filterMap.mpr ⟨_, hscan, ?_⟩
  simp [List.isEmpty_iff, htext]

/-- The element `<h2>Good</h2>`. -/
def goodHeading : Written where
  letter := 'h'
  digit := '2'
  attributes := []
  body := ['G', 'o', 'o', 'd']
  closingLetter := 'h'
  space := []
  letter_ok := .inl rfl
  digit_ok := by decide
  attributes_ok := .inl rfl
  body_ok := by
    rintro _ ⟨l, d, rfl, -⟩ hpart
    exact absurd (hpart.subset List.mem_cons_self) (by decide)
  closingLetter_ok := .inl rfl
  space_ok := by simp

/-- After an element whose two digits differ and that closes before it, `<h2>Good</h2>` is
    listed. -/
theorem good_heading_after_mismatched_pair :
    (∀ p < "<h1>Broken</h2>\n".toList.length,
      ∀ e ∈ element? (("<h1>Broken</h2>\n".toList ++ goodHeading.chars ++ []).drop p),
        p + e.span ≤ "<h1>Broken</h2>\n".toList.length) ∧
    headingText goodHeading.body ≠ [] ∧
    ⟨goodHeading.level, String.ofList (headingText goodHeading.body),
        "<h1>Broken</h2>\n".toList.count '\n' + 1⟩ ∈
      read (String.ofList ("<h1>Broken</h2>\n".toList ++ goodHeading.chars ++ [])) := by
  have hclear : ∀ p < "<h1>Broken</h2>\n".toList.length,
      ∀ e ∈ element? (("<h1>Broken</h2>\n".toList ++ goodHeading.chars ++ []).drop p),
        p + e.span ≤ "<h1>Broken</h2>\n".toList.length := by decide +kernel
  have htext : headingText goodHeading.body ≠ [] := by decide +kernel
  exact ⟨hclear, htext, read_lists_written_element goodHeading _ [] hclear htext⟩

/-- An opening tag left unclosed before `<h2>Good</h2>` runs up to the element's closing tag;
    the two digits differ and the pair is passed over, so the element, whose body holds no tag
    and whose text is not empty, is not listed: nothing is. -/
theorem unclosed_tag_swallows_heading :
    '<' ∉ goodHeading.body ∧ headingText goodHeading.body ≠ [] ∧
      read (String.ofList ("<h1>x\n".toList ++ goodHeading.chars)) = [] := by
  decide +kernel

end Html

end Outline
