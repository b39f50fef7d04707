/-
Module: Outline.Proofs.Lines
Purpose: The two line views of a text on texts that are built from lines. The reading view
  `Text.lines` (what every heading reader walks) and the locating view `Block.linesWithOffsets`
  (what the block finder walks) both split a text that ends a line into the lines of its two
  parts, and lines written one after the other, each followed by a line ending, read back as
  themselves, less carriage returns at their end. A text splits at one of its pieces into the
  lines above, the piece's line and the lines below, and cut after that line's text it keeps its
  line ending, but for one line that ends with two carriage returns.
Main statements: pieces_append, lines_append, linesWithOffsets_append, lines_writeLines,
  texts_linesWithOffsets_writeLines, piece_ending, lines_of_pieces, lineEnding_append,
  lineEnding_writeLine, lineEnding_cut
Open obligations: none
-/
import Mathlib
import Outline.Text.Lines
import Outline.Block.Locate

namespace Outline

namespace Text

/-- A text ends a line: it is empty, or its last character is a line feed. Such a text can be
    followed by any other without the two sharing a line. -/
def EndsLine (cs : List Char) : Prop :=
  cs = [] ∨ cs.getLast? = some '\n'

/-- The two line endings a file can use. -/
def IsEol (eol : List Char) : Prop :=
  eol = ['\n'] ∨ eol = ['\r', '\n']

/-- A line written in a file with a line ending after it: whatever stands after the ending, the
    line is one piece of the text. -/
def writeLines (eol : List Char) (ls : List (List Char)) : List Char :=
  ls.flatMap (· ++ eol)

theorem endsLine_nil : EndsLine [] := Or.inl rfl

theorem endsLine_append_eol {cs eol : List Char} (h : IsEol eol) : EndsLine (cs ++ eol) := by
  right
  rcases h with rfl | rfl <;> simp

theorem EndsLine.append {A B : List Char} (hA : EndsLine A) (hB : EndsLine B) :
    EndsLine (A ++ B) := by
  rcases hB with rfl | hB
  · rwa [List.append_nil]
  · right
    rw [List.getLast?_append, hB]
    rfl

@[simp] theorem writeLines_nil (eol : List Char) : writeLines eol [] = [] := rfl

@[simp] theorem writeLines_cons (eol l : List Char) (ls : List (List Char)) :
    writeLines eol (l :: ls) = l ++ eol ++ writeLines eol ls := by
  simp [writeLines]

theorem writeLines_append (eol : List Char) (ls ms : List (List Char)) :
    writeLines eol (ls ++ ms) = writeLines eol ls ++ writeLines eol ms := by
  simp [writeLines]

/-- Lines joined by a line ending, the last one without it. -/
theorem intercalate_concat (eol : List Char) (ls : List (List Char)) (l : List Char) :
    eol.intercalate (ls ++ [l]) = writeLines eol ls ++ l := by
  induction ls with
  | nil => simp
  | cons a ls ih =>
    rw [List.cons_append, List.intercalate_cons_of_ne_nil (by simp), ih, writeLines_cons]
    simp only [List.append_assoc]

theorem endsLine_writeLines {eol : List Char} (h : IsEol eol) (ls : List (List Char)) :
    EndsLine (writeLines eol ls) := by
  induction ls with
  | nil => exact endsLine_nil
  | cons l ls ih =>
    rw [writeLines_cons]
    rcases ih with hnil | hlast
    · rw [hnil, List.append_nil]
      exact endsLine_append_eol h
    · right
      rw [List.getLast?_append, hlast]
      rfl

theorem isEol_lineEnding (cs : List Char) : IsEol (Block.lineEnding cs) := by
  induction cs using Block.lineEnding.induct with
  | case1 => exact Or.inr (by simp [Block.lineEnding])
  | case2 => exact Or.inl (by simp [Block.lineEnding])
  | case3 => exact Or.inl (by simp [Block.lineEnding])
  | case4 c cs h1 h2 ih =>
    rw [Block.lineEnding.eq_4 c cs h1 h2]
    exact ih

/-! ### Pieces

A text is cut after each line feed. A text that ends a line cuts cleanly: the pieces of a longer
text are its own pieces and then those of what follows.
-/

theorem dropLast?_append_singleton (c : Char) (cs : List Char) :
    dropLast? c (cs ++ [c]) = some cs := by
  simp [dropLast?]

theorem dropLast?_of_getLast?_ne {c : Char} {cs : List Char} (h : cs.getLast? ≠ some c) :
    dropLast? c cs = none := by
  unfold dropLast?
  cases hr : cs.reverse with
  | nil => rfl
  | cons d rest =>
    have hd : cs.getLast? = some d := by
      rw [← List.head?_reverse, hr]
      rfl
    have hne : d ≠ c := fun hdc => h (hdc ▸ hd)
    simp [hne]

theorem eq_of_dropLast? {c : Char} {cs r : List Char} (h : dropLast? c cs = some r) :
    cs = r ++ [c] := by
  unfold dropLast? at h
  cases hr : cs.reverse with
  | nil => simp [hr] at h
  | cons d rest =>
    simp only [hr] at h
    split at h
    · rename_i hd
      cases h
      rw [← List.reverse_reverse cs, hr, hd]
      simp
    · simp at h

/-- Dropping a last character where it stands leaves a text that copies of it follow. -/
theorem exists_eq_getD_dropLast? (c : Char) (cs : List Char) :
    ∃ n, cs = (dropLast? c cs).getD cs ++ List.replicate n c := by
  cases h : dropLast? c cs with
  | none => exact ⟨0, by simp⟩
  | some r => exact ⟨1, by simpa using eq_of_dropLast? h⟩

theorem piecesFrom_line (acc l ds : List Char) (hl : '\n' ∉ l) :
    piecesFrom acc (l ++ '\n' :: ds) = (acc.reverse ++ l ++ ['\n']) :: piecesFrom [] ds := by
  induction l generalizing acc with
  | nil => simp [piecesFrom]
  | cons c l ih =>
    have hc : c ≠ '\n' := fun h => hl (h ▸ List.mem_cons_self)
    have hl' : '\n' ∉ l := fun h => hl (List.mem_cons_of_mem c h)
    rw [List.cons_append, piecesFrom, if_neg hc, ih (c :: acc) hl']
    simp

theorem piecesFrom_append {acc A : List Char} (hA : A.getLast? = some '\n') (B : List Char) :
    piecesFrom acc (A ++ B) = piecesFrom acc A ++ pieces B := by
  induction A generalizing acc with
  | nil => simp at hA
  | cons c A ih =>
    by_cases hnil : A = []
    · subst hnil
      have hc : c = '\n' := by simpa using hA
      subst hc
      simp [piecesFrom, pieces]
    · have hA' : A.getLast? = some '\n' := by rwa [List.getLast?_cons_of_ne_nil hnil] at hA
      by_cases hc : c = '\n'
      · simp only [List.cons_append, piecesFrom, if_pos hc, ih hA', List.cons_append]
      · simp only [List.cons_append, piecesFrom, if_neg hc]
        exact ih hA'

/-- A text that ends a line cuts cleanly in front of any other. -/
theorem pieces_append {A : List Char} (hA : EndsLine A) (B : List Char) :
    pieces (A ++ B) = pieces A ++ pieces B := by
  rcases hA with rfl | hlast
  · simp [pieces, piecesFrom]
  · exact piecesFrom_append hlast B

theorem flatten_piecesFrom (acc cs : List Char) :
    (piecesFrom acc cs).flatten = acc.reverse ++ cs := by
  induction cs generalizing acc with
  | nil =>
    unfold piecesFrom
    split <;> simp_all
  | cons c cs ih =>
    unfold piecesFrom
    split
    · simp_all
    · rw [ih]
      simp

/-- A text without a line feed is one piece, after what was gathered. -/
theorem piecesFrom_of_not_mem (acc : List Char) {cs : List Char} (hne : cs ≠ []) (hcs : '\n' ∉ cs) :
    piecesFrom acc cs = [acc.reverse ++ cs] := by
  induction cs generalizing acc with
  | nil => exact absurd rfl hne
  | cons c cs ih =>
    have hc : c ≠ '\n' := fun h => hcs (h ▸ List.mem_cons_self)
    rw [piecesFrom, if_neg hc]
    cases cs with
    | nil => simp [piecesFrom]
    | cons d ds =>
      rw [ih (c :: acc) (by simp) (fun h => hcs (List.mem_cons_of_mem c h))]
      simp

theorem pieces_of_not_mem {cs : List Char} (hne : cs ≠ []) (hcs : '\n' ∉ cs) : pieces cs = [cs] := by
  simpa [pieces] using piecesFrom_of_not_mem [] hne hcs

/-- A piece holds a line feed at its end at most. -/
theorem piecesFrom_single (acc cs : List Char) (hacc : '\n' ∉ acc) :
    ∀ p ∈ piecesFrom acc cs, '\n' ∉ p ∨ ∃ q, p = q ++ ['\n'] ∧ '\n' ∉ q := by
  induction cs generalizing acc with
  | nil =>
    intro p hp
    unfold piecesFrom at hp
    split at hp
    · simp at hp
    · simp only [List.mem_singleton] at hp
      subst hp
      exact Or.inl (by simpa using hacc)
  | cons c cs ih =>
    intro p hp
    unfold piecesFrom at hp
    split at hp
    · rename_i hc
      subst hc
      rcases List.mem_cons.mp hp with rfl | hp
      · exact Or.inr ⟨acc.reverse, by simp, by simpa using hacc⟩
      · exact ih [] (by simp) p hp
    · rename_i hc
      exact ih (c :: acc) (by simp [hacc, Ne.symm hc]) p hp

theorem ne_nil_of_mem_piecesFrom (acc cs : List Char) : ∀ p ∈ piecesFrom acc cs, p ≠ [] := by
  induction cs generalizing acc with
  | nil =>
    intro p hp
    unfold piecesFrom at hp
    split at hp
    · simp at hp
    · rename_i hacc
      simp only [List.mem_singleton] at hp
      subst hp
      simpa using hacc
  | cons c cs ih =>
    intro p hp
    unfold piecesFrom at hp
    split at hp
    · rcases List.mem_cons.mp hp with rfl | hp
      · simp
      · exact ih [] p hp
    · exact ih (c :: acc) p hp

/-- Every piece but the last ends with its line feed. -/
theorem piecesFrom_dropLast (acc cs : List Char) :
    ∀ p ∈ (piecesFrom acc cs).dropLast, p.getLast? = some '\n' := by
  induction cs generalizing acc with
  | nil =>
    intro p hp
    unfold piecesFrom at hp
    split at hp <;> simp at hp
  | cons c cs ih =>
    intro p hp
    unfold piecesFrom at hp
    split at hp
    · rename_i hc
      cases hrest : piecesFrom [] cs with
      | nil => simp [hrest] at hp
      | cons q qs =>
        rw [hrest, List.dropLast_cons_cons] at hp
        rcases List.mem_cons.mp hp with rfl | hp
        · simp [hc]
        · exact ih [] p (hrest ▸ hp)
    · exact ih (c :: acc) p hp

theorem getLast?_of_pieces {cs : List Char} {A B : List (List Char)} {p : List Char}
    (h : pieces cs = A ++ p :: B) (hB : B ≠ []) : p.getLast? = some '\n' := by
  refine piecesFrom_dropLast [] cs p ?_
  rw [← pieces, h, List.dropLast_append_of_ne_nil (List.cons_ne_nil p B)]
  obtain ⟨b, B', rfl⟩ := List.exists_cons_of_ne_nil hB
  simp

/-- The pieces before a piece that is not the last end with their line feeds. -/
theorem endsLine_flatten_of_pieces {cs : List Char} {A B : List (List Char)} {p : List Char}
    (h : pieces cs = A ++ p :: B) : EndsLine A.flatten := by
  induction A using List.reverseRecOn with
  | nil => exact endsLine_nil
  | append_singleton A q _ =>
    have hq : q.getLast? = some '\n' := getLast?_of_pieces (B := p :: B) (by simpa using h) (by simp)
    right
    rw [List.flatten_append, List.flatten_singleton, List.getLast?_append, hq]
    rfl

/-- The lines of a text hold no line feed. -/
theorem not_mem_lines (cs : List Char) : ∀ l ∈ lines cs, '\n' ∉ l := by
  intro l hl
  obtain ⟨p, hp, rfl⟩ := List.mem_map.mp hl
  rcases piecesFrom_single [] cs (by simp) p hp with hnl | ⟨q, rfl, hq⟩
  · have hlast : p.getLast? ≠ some '\n' := fun h => hnl (List.mem_of_getLast? h)
    rw [lineOf, dropLast?_of_getLast?_ne hlast]
    exact hnl
  · simp only [lineOf, dropLast?_append_singleton]
    cases hr : dropLast? '\r' q with
    | none => exact hq
    | some q' =>
      rw [eq_of_dropLast? hr] at hq
      exact fun h => hq (List.mem_append_left _ h)

/-- The pieces of a text make it up again. -/
theorem flatten_pieces (cs : List Char) : (pieces cs).flatten = cs := by
  simpa [pieces] using flatten_piecesFrom [] cs

/-- A written line is one piece. -/
theorem pieces_writeLine {eol : List Char} (he : IsEol eol) {l : List Char} (hl : '\n' ∉ l)
    (rest : List Char) : pieces (l ++ eol ++ rest) = (l ++ eol) :: pieces rest := by
  rcases he with rfl | rfl
  · simpa [pieces] using piecesFrom_line [] l rest hl
  · have hl' : '\n' ∉ l ++ ['\r'] := by simpa using hl
    simpa [pieces] using piecesFrom_line [] (l ++ ['\r']) rest hl'

/-- A run of a text's first pieces is the pieces of its own text. -/
theorem pieces_flatten_of_pieces {cs : List Char} {A B : List (List Char)}
    (h : pieces cs = A ++ B) : pieces A.flatten = A := by
  induction A generalizing cs with
  | nil => rfl
  | cons a A ih =>
    have hcs : cs = a ++ (A ++ B).flatten := by
      rw [← flatten_pieces cs, h]
      simp
    have ha : a ∈ pieces cs := by
      rw [h]
      exact List.mem_cons_self
    rcases piecesFrom_single [] cs (by simp) a ha with hnl | ⟨q, rfl, hq⟩
    · -- a piece without a line feed is the last one
      have hAB : A ++ B = [] := by
        by_contra hAB
        exact hnl (List.mem_of_getLast? (getLast?_of_pieces (A := []) (by simpa using h) hAB))
      have hA : A = [] := (List.append_eq_nil_iff.mp hAB).1
      subst hA
      simpa using pieces_of_not_mem (ne_nil_of_mem_piecesFrom [] cs a ha) hnl
    · have hrest : pieces (A ++ B).flatten = A ++ B := by
        have hp := pieces_writeLine (Or.inl rfl) hq (A ++ B).flatten
        rw [← hcs, h, List.cons_append, List.cons.injEq] at hp
        exact hp.2.symm
      rw [List.flatten_cons, pieces_writeLine (Or.inl rfl) hq, ih hrest]

/-! ### The reading view -/

/-- A text that ends a line reads as its lines and then those of what follows. -/
theorem lines_append {A : List Char} (hA : EndsLine A) (B : List Char) :
    lines (A ++ B) = lines A ++ lines B := by
  simp [lines, pieces_append hA]

theorem lines_writeLine {eol : List Char} (he : IsEol eol) {l : List Char} (hl : '\n' ∉ l)
    (rest : List Char) : lines (l ++ eol ++ rest) = lineOf (l ++ eol) :: lines rest := by
  rw [lines, pieces_writeLine he hl, List.map_cons]
  rfl

/-- Written lines read back one by one, each as `lineOf` of it with its ending. -/
theorem lines_writeLines {eol : List Char} (he : IsEol eol) {ls : List (List Char)}
    (hls : ∀ l ∈ ls, '\n' ∉ l) (rest : List Char) :
    lines (writeLines eol ls ++ rest) = ls.map (fun l => lineOf (l ++ eol)) ++ lines rest := by
  induction ls with
  | nil => rfl
  | cons l ls ih =>
    have hl : '\n' ∉ l := hls l List.mem_cons_self
    have hw : writeLines eol (l :: ls) ++ rest = l ++ eol ++ (writeLines eol ls ++ rest) := by
      simp
    rw [hw, lines_writeLine he hl, ih (fun m hm => hls m (List.mem_cons_of_mem l hm))]
    rfl

/-- A written line without a line feed of its own reads back as itself, less one carriage
    return at its end when the ending is a bare line feed. -/
theorem lineOf_written {eol : List Char} (he : IsEol eol) (l : List Char) :
    lineOf (l ++ eol) = if eol = ['\n'] then (dropLast? '\r' l).getD l else l := by
  rcases he with rfl | rfl
  · simp [lineOf, dropLast?_append_singleton]
  · have h : l ++ ['\r', '\n'] = (l ++ ['\r']) ++ ['\n'] := by simp
    rw [h]
    unfold lineOf
    simp only [dropLast?_append_singleton, Option.getD_some]
    rfl

/-- A written line that does not end with a carriage return reads back exactly. -/
theorem lineOf_written_of_getLast? {eol : List Char} (he : IsEol eol) {l : List Char}
    (hl : l.getLast? ≠ some '\r') : lineOf (l ++ eol) = l := by
  rw [lineOf_written he, dropLast?_of_getLast?_ne hl]
  split <;> rfl

/-- A written line reads back as itself less carriage returns at its end. -/
theorem exists_eq_lineOf_written {eol : List Char} (he : IsEol eol) (l : List Char) :
    ∃ n, l = lineOf (l ++ eol) ++ List.replicate n '\r' := by
  rw [lineOf_written he]
  split
  · exact exists_eq_getD_dropLast? '\r' l
  · exact ⟨0, by simp⟩

/-- A line ending in front of a text reads as a blank line above the text's own lines. -/
theorem lines_eol_append {eol : List Char} (he : IsEol eol) (rest : List Char) :
    lines (eol ++ rest) = [] :: lines rest := by
  have h := lines_writeLine he (l := []) List.not_mem_nil rest
  rw [lineOf_written_of_getLast? he (by simp), List.nil_append] at h
  exact h

/-- A line and lines each written after a line ending, the last of them followed by an ending
    and more text, read back as themselves and then the lines of that text. -/
theorem lines_after_each {eol eol' : List Char} (he : IsEol eol) (he' : IsEol eol')
    {ls : List (List Char)} (hls : ∀ m ∈ ls, '\n' ∉ m ∧ m.getLast? ≠ some '\r') (rest : List Char) :
    ∀ {l : List Char}, '\n' ∉ l → l.getLast? ≠ some '\r' →
      lines (l ++ ls.flatMap (eol ++ ·) ++ eol' ++ rest) = l :: ls ++ lines rest := by
  induction ls with
  | nil =>
    intro l hl hr
    rw [List.flatMap_nil, List.append_nil, lines_writeLine he' hl, lineOf_written_of_getLast? he' hr]
    rfl
  | cons m ms ih =>
    intro l hl hr
    have hm := hls m List.mem_cons_self
    have hsplit : l ++ (m :: ms).flatMap (eol ++ ·) ++ eol' ++ rest =
        l ++ eol ++ (m ++ ms.flatMap (eol ++ ·) ++ eol' ++ rest) := by
      simp
    rw [hsplit, lines_writeLine he hl, lineOf_written_of_getLast? he hr,
      ih (fun x hx => hls x (List.mem_cons_of_mem m hx)) hm.1 hm.2]
    rfl

/-- A line and lines each written after a line ending, with one carriage return after the last,
    read back as themselves, but the last, which keeps the carriage return. -/
theorem mem_lines_after_each_cr {eol : List Char} (he : IsEol eol) :
    ∀ {ls : List (List Char)} {l : List Char}, (∀ m ∈ l :: ls, '\n' ∉ m ∧ m.getLast? ≠ some '\r') →
      ∀ x ∈ lines (l ++ ls.flatMap (eol ++ ·) ++ ['\r']),
        x ∈ l :: ls ∨ ∃ m ∈ l :: ls, x = m ++ ['\r'] := by
  intro ls
  induction ls with
  | nil =>
    intro l hls x hx
    -- the last line and its carriage return are the last piece
    have hl := hls l List.mem_cons_self
    have hnl : '\n' ∉ l ++ ['\r'] := by simpa using hl.1
    have hlast : (l ++ ['\r']).getLast? ≠ some '\n' := by simp
    rw [List.flatMap_nil, List.append_nil, lines, pieces_of_not_mem (by simp) hnl] at hx
    simp only [List.map_cons, List.map_nil, List.mem_singleton, lineOf,
      dropLast?_of_getLast?_ne hlast] at hx
    exact Or.inr ⟨l, List.mem_cons_self, hx⟩
  | cons m ms ih =>
    intro l hls x hx
    have hl := hls l List.mem_cons_self
    have hsplit : l ++ (m :: ms).flatMap (eol ++ ·) ++ ['\r'] =
        l ++ eol ++ (m ++ ms.flatMap (eol ++ ·) ++ ['\r']) := by
      simp
    rw [hsplit, lines_writeLine he hl.1, lineOf_written_of_getLast? he hl.2, List.mem_cons] at hx
    rcases hx with rfl | hx
    · exact Or.inl List.mem_cons_self
    · rcases ih (fun y hy => hls y (List.mem_cons_of_mem l hy)) x hx with hx | ⟨y, hy, rfl⟩
      · exact Or.inl (List.mem_cons_of_mem l hx)
      · exact Or.inr ⟨y, List.mem_cons_of_mem l hy, rfl⟩

end Text

namespace Block

/-- A line moved `k` characters further into a text. -/
def Line.shift (k : Nat) (l : Line) : Line :=
  ⟨l.start + k, l.text⟩

@[simp] theorem Line.text_shift (k : Nat) (l : Line) : (l.shift k).text = l.text := rfl

@[simp] theorem Line.text_comp_shift (k : Nat) : Line.text ∘ Line.shift k = Line.text := rfl

@[simp] theorem Line.stop_shift (k : Nat) (l : Line) : (l.shift k).stop = l.stop + k := by
  simp [Line.shift, Line.stop]
  omega

/-! ### The locating view -/

theorem locate_shift (k : Nat) (ps : List (List Char)) :
    locate k ps = (locate 0 ps).map (Line.shift k) := by
  induction ps generalizing k with
  | nil => rfl
  | cons p ps ih =>
    simp only [locate, List.map_cons, ih (k + p.length), ih (0 + p.length), List.map_map]
    refine congrArg₂ _ (by simp [Line.shift]) (List.map_congr_left fun l _ => ?_)
    simp [Line.shift]
    omega

theorem locate_append (k : Nat) (ps qs : List (List Char)) :
    locate k (ps ++ qs) = locate k ps ++ locate (k + ps.flatten.length) qs := by
  induction ps generalizing k with
  | nil => rfl
  | cons p ps ih =>
    simp only [List.cons_append, locate, ih, List.flatten_cons, List.length_append]
    rw [Nat.add_assoc]

/-- A text that ends a line is located as its lines, then the lines of what follows moved by its
    length. -/
theorem linesWithOffsets_append {A : List Char} (hA : Text.EndsLine A) (B : List Char) :
    linesWithOffsets (A ++ B) =
      linesWithOffsets A ++ (linesWithOffsets B).map (Line.shift A.length) := by
  simp only [linesWithOffsets, Text.pieces_append hA, locate_append, Text.flatten_pieces,
    Nat.zero_add]
  rw [locate_shift A.length]

/-- A located line is the line of one piece, at the length of the pieces before it. -/
theorem mem_locate_split {k : Nat} {ps : List (List Char)} {l : Line} (hl : l ∈ locate k ps) :
    ∃ A p B, ps = A ++ p :: B ∧ l = ⟨k + A.flatten.length, bareLine p⟩ := by
  induction ps generalizing k with
  | nil => simp [locate] at hl
  | cons q qs ih =>
    rw [locate, List.mem_cons] at hl
    rcases hl with rfl | hl
    · exact ⟨[], q, qs, rfl, by simp⟩
    · obtain ⟨A, p, B, rfl, rfl⟩ := ih hl
      exact ⟨q :: A, p, B, rfl, by simp [Nat.add_assoc]⟩

theorem mem_locate {k : Nat} {ps : List (List Char)} {l : Line} (hl : l ∈ locate k ps) :
    ∃ p ∈ ps, l.text = bareLine p := by
  induction ps generalizing k with
  | nil => simp [locate] at hl
  | cons p ps ih =>
    rw [locate, List.mem_cons] at hl
    rcases hl with rfl | hl
    · exact ⟨p, List.mem_cons_self, rfl⟩
    · obtain ⟨q, hq, hlq⟩ := ih hl
      exact ⟨q, List.mem_cons_of_mem p hq, hlq⟩

theorem isPrefix_dropLast?_getD (c : Char) (cs : List Char) :
    (Text.dropLast? c cs).getD cs <+: cs := by
  cases h : Text.dropLast? c cs with
  | none => exact List.prefix_refl cs
  | some r => exact ⟨[c], (Text.eq_of_dropLast? h).symm⟩

theorem isPrefix_bareLine (p : List Char) : bareLine p <+: p :=
  (isPrefix_dropLast?_getD '\r' _).trans (isPrefix_dropLast?_getD '\n' p)

/-- No located line holds more of a character than the whole text. -/
theorem count_le_of_mem_linesWithOffsets {cs : List Char} {l : Line}
    (hl : l ∈ linesWithOffsets cs) (x : Char) : l.text.count x ≤ cs.count x := by
  obtain ⟨p, hp, hlp⟩ := mem_locate hl
  have hpiece : p.count x ≤ cs.count x := by
    conv_rhs => rw [← Text.flatten_pieces cs]
    rw [List.count_flatten]
    exact List.le_sum_of_mem (List.mem_map_of_mem hp)
  rw [hlp]
  exact ((isPrefix_bareLine p).sublist.count_le x).trans hpiece

/-- The locating view and the reading view agree on a written line. -/
theorem bareLine_written {eol : List Char} (he : Text.IsEol eol) (l : List Char) :
    bareLine (l ++ eol) = Text.lineOf (l ++ eol) := by
  rcases he with rfl | rfl
  · simp [bareLine, Text.lineOf, Text.dropLast?_append_singleton]
  · have h : l ++ ['\r', '\n'] = (l ++ ['\r']) ++ ['\n'] := by simp
    rw [h]
    unfold bareLine Text.lineOf
    simp only [Text.dropLast?_append_singleton, Option.getD_some]

/-- The reading view keeps the carriage return that ends a last piece without a line feed, which
    the locating view drops. -/
theorem exists_lineOf_eq_bareLine_append (p : List Char) :
    ∃ n, Text.lineOf p = bareLine p ++ List.replicate n '\r' := by
  unfold Text.lineOf bareLine
  cases Text.dropLast? '\n' p with
  | some body => exact ⟨0, by simp⟩
  | none => exact Text.exists_eq_getD_dropLast? '\r' p

/-- A piece of a text is its line's text and then its ending: a line ending, whose line feed
    alone never follows a carriage return of the text, or, on the last piece, nothing or one
    carriage return. -/
theorem piece_ending {cs : List Char} {A B : List (List Char)} {p : List Char}
    (h : Text.pieces cs = A ++ p :: B) :
    '\n' ∉ bareLine p ∧ ∃ t, p = bareLine p ++ t ∧
      (((t = [] ∨ t = ['\r']) ∧ B = []) ∨ t = ['\r', '\n'] ∨
        (t = ['\n'] ∧ (bareLine p).getLast? ≠ some '\r')) := by
  have hp : p ∈ Text.pieces cs := by
    rw [h]
    simp
  rcases Text.piecesFrom_single [] cs (by simp) p hp with hnl | ⟨q, rfl, hq⟩
  · -- the last piece: its text leaves a carriage return at most
    have hB : B = [] := by
      by_contra hB
      exact hnl (List.mem_of_getLast? (Text.getLast?_of_pieces h hB))
    have hn : p.getLast? ≠ some '\n' := fun hl => hnl (List.mem_of_getLast? hl)
    by_cases hpr : p.getLast? = some '\r'
    · obtain ⟨p', rfl⟩ := List.getLast?_eq_some_iff.mp hpr
      have hbare : bareLine (p' ++ ['\r']) = p' := by
        simp [bareLine, Text.dropLast?_of_getLast?_ne hn, Text.dropLast?_append_singleton]
      rw [hbare]
      exact ⟨fun hm => hnl (List.mem_append_left _ hm), ['\r'], rfl, Or.inl ⟨Or.inr rfl, hB⟩⟩
    · have hbare : bareLine p = p := by
        simp [bareLine, Text.dropLast?_of_getLast?_ne hn, Text.dropLast?_of_getLast?_ne hpr]
      rw [hbare]
      exact ⟨hnl, [], by simp, Or.inl ⟨Or.inl rfl, hB⟩⟩
  · -- a piece with a line feed: its text leaves the line ending
    by_cases hqr : q.getLast? = some '\r'
    · obtain ⟨q', rfl⟩ := List.getLast?_eq_some_iff.mp hqr
      have hbare : bareLine (q' ++ ['\r'] ++ ['\n']) = q' := by
        unfold bareLine
        rw [Text.dropLast?_append_singleton, Option.getD_some]
        show (Text.dropLast? '\r' (q' ++ ['\r'])).getD _ = q'
        rw [Text.dropLast?_append_singleton, Option.getD_some]
      rw [hbare]
      exact ⟨fun hm => hq (List.mem_append_left _ hm), ['\r', '\n'], by simp, Or.inr (Or.inl rfl)⟩
    · have hbare : bareLine (q ++ ['\n']) = q := by
        simp [bareLine, Text.dropLast?_append_singleton, Text.dropLast?_of_getLast?_ne hqr]
      rw [hbare]
      exact ⟨hq, ['\n'], rfl, Or.inr (Or.inr ⟨rfl, hqr⟩)⟩

theorem eq_flatten_of_pieces {cs : List Char} {A B : List (List Char)} {p : List Char}
    (hps : Text.pieces cs = A ++ p :: B) : cs = A.flatten ++ (p ++ B.flatten) := by
  rw [← Text.flatten_pieces cs, hps]
  simp

/-- A text reads as the lines of the pieces above one of its pieces, that piece's line, and the
    lines of the pieces below it. -/
theorem lines_of_pieces {cs : List Char} {A B : List (List Char)} {p : List Char}
    (hps : Text.pieces cs = A ++ p :: B) :
    Text.lines cs = Text.lines A.flatten ++ Text.lineOf p :: Text.lines B.flatten := by
  obtain ⟨hb, t, ht, hcases⟩ := piece_ending hps
  have hp : p ≠ [] := Text.ne_nil_of_mem_piecesFrom [] cs p (by rw [← Text.pieces, hps]; simp)
  rw [eq_flatten_of_pieces hps, Text.lines_append (Text.endsLine_flatten_of_pieces hps)]
  congr 1
  generalize bareLine p = b at ht hb hcases
  subst ht
  -- the piece is one line, with its ending or, as the last piece, without a line feed
  rcases hcases with ⟨ht, rfl⟩ | rfl | ⟨rfl, -⟩
  · have hnl : '\n' ∉ b ++ t := by rcases ht with rfl | rfl <;> simpa using hb
    rw [List.flatten_nil, List.append_nil, Text.lines, Text.pieces_of_not_mem hp hnl]
    rfl
  · exact Text.lines_writeLine (Or.inr rfl) hb B.flatten
  · exact Text.lines_writeLine (Or.inl rfl) hb B.flatten

/-- Written lines are located one by one: the first at the start, each read back as in the reading
    view. -/
theorem texts_linesWithOffsets_writeLines {eol : List Char} (he : Text.IsEol eol)
    {ls : List (List Char)} (hls : ∀ l ∈ ls, '\n' ∉ l) (rest : List Char) :
    (linesWithOffsets (Text.writeLines eol ls ++ rest)).map Line.text =
      ls.map (fun l => Text.lineOf (l ++ eol)) ++ (linesWithOffsets rest).map Line.text := by
  induction ls with
  | nil => rfl
  | cons l ls ih =>
    have hl : '\n' ∉ l := hls l List.mem_cons_self
    have hw : Text.writeLines eol (l :: ls) ++ rest = (l ++ eol) ++ (Text.writeLines eol ls ++ rest) :=
      by simp
    have hp : Text.pieces (l ++ eol) = [l ++ eol] := by
      simpa [Text.pieces_nil] using Text.pieces_writeLine he hl []
    have h1 : linesWithOffsets (l ++ eol) = [⟨0, bareLine (l ++ eol)⟩] := by
      simp [linesWithOffsets, hp, locate]
    rw [hw, linesWithOffsets_append (Text.endsLine_append_eol he), List.map_append, h1,
      List.map_map, Line.text_comp_shift, ih (fun m hm => hls m (List.mem_cons_of_mem l hm))]
    simp [bareLine_written he]

/-! ### Writing with a line ending -/

theorem withEnding_cons (eol : List Char) (c : Char) (cs : List Char) :
    withEnding eol (c :: cs) = (if c = '\n' then eol else [c]) ++ withEnding eol cs :=
  List.flatMap_cons

theorem withEnding_append (eol A B : List Char) :
    withEnding eol (A ++ B) = withEnding eol A ++ withEnding eol B :=
  List.flatMap_append

/-- A line without a line feed is written as it is. -/
theorem withEnding_of_not_mem (eol : List Char) {l : List Char} (hl : '\n' ∉ l) :
    withEnding eol l = l := by
  induction l with
  | nil => rfl
  | cons c l ih =>
    have hc : c ≠ '\n' := fun h => hl (h ▸ List.mem_cons_self)
    rw [withEnding_cons, if_neg hc, ih (fun h => hl (List.mem_cons_of_mem c h))]
    rfl

@[simp] theorem withEnding_newline (eol : List Char) : withEnding eol ['\n'] = eol := by
  simp [withEnding]

/-- Writing with line feeds changes nothing. -/
theorem withEnding_lf (cs : List Char) : withEnding ['\n'] cs = cs := by
  induction cs with
  | nil => rfl
  | cons c cs ih =>
    rw [withEnding_cons, ih]
    split
    · rename_i hc
      rw [hc]
      rfl
    · rfl

/-- Lines written with line feeds are written again with the ending. -/
theorem withEnding_writeLines (eol : List Char) {ls : List (List Char)}
    (hls : ∀ l ∈ ls, '\n' ∉ l) : withEnding eol (Text.writeLines ['\n'] ls) = Text.writeLines eol ls := by
  induction ls with
  | nil => rfl
  | cons l ls ih =>
    rw [Text.writeLines_cons, Text.writeLines_cons, withEnding_append, withEnding_append,
      withEnding_of_not_mem eol (hls l List.mem_cons_self),
      ih (fun m hm => hls m (List.mem_cons_of_mem l hm))]
    simp [withEnding]

theorem count_withEnding {x : Char} (hx : x ≠ '\n') {eol : List Char} (he : x ∉ eol)
    (cs : List Char) : (withEnding eol cs).count x = cs.count x := by
  induction cs with
  | nil => rfl
  | cons c cs ih =>
    rw [withEnding_cons, List.count_append, ih, List.count_cons]
    by_cases hc : c = '\n'
    · subst hc
      simp [List.count_eq_zero.mpr he, Ne.symm hx]
    · simp [hc, Nat.add_comm, List.count_singleton]

/-! ### Line endings -/

/-- The line ending of a text is decided by its first line feed. -/
theorem lineEnding_append {A : List Char} (hA : '\n' ∈ A) (B : List Char) :
    lineEnding (A ++ B) = lineEnding A := by
  induction A using lineEnding.induct with
  | case1 rest => rfl
  | case2 rest => rfl
  | case3 => simp at hA
  | case4 c cs h1 h2 ih =>
    have hcs : '\n' ∈ cs := by
      rcases List.mem_cons.mp hA with h | h
      · exact absurd h.symm h2
      · exact h
    have h1' : ∀ tail, c = '\r' → cs ++ B = '\n' :: tail → False := by
      intro tail hc hcs'
      cases cs with
      | nil => simp at hcs
      | cons d ds =>
        simp only [List.cons_append, List.cons.injEq] at hcs'
        exact h1 ds hc (by rw [hcs'.1])
    rw [List.cons_append, lineEnding.eq_4 c (cs ++ B) h1' h2, lineEnding.eq_4 c cs h1 h2, ih hcs]

/-- Text without a line feed in front leaves the line ending to what follows it, unless a
    carriage return ending it and a line feed right after make a CRLF. -/
theorem lineEnding_line_append {l : List Char} (hl : '\n' ∉ l) {rest : List Char}
    (hcr : l.getLast? = some '\r' → rest.head? ≠ some '\n') :
    lineEnding (l ++ rest) = lineEnding rest := by
  induction l with
  | nil => rfl
  | cons c l ih =>
    have hc : c ≠ '\n' := fun h => hl (h ▸ List.mem_cons_self)
    have hl' : '\n' ∉ l := fun h => hl (List.mem_cons_of_mem c h)
    -- the carriage return test looks at `c` and the line feed after it
    have hstep : ∀ tail, c = '\r' → l ++ rest = '\n' :: tail → False := by
      intro tail hcr' heq
      cases l with
      | nil =>
        rw [List.nil_append] at heq
        simp [hcr', heq] at hcr
      | cons d ds =>
        simp only [List.cons_append, List.cons.injEq] at heq
        exact hl' (heq.1 ▸ List.mem_cons_self)
    have hcr' : l.getLast? = some '\r' → rest.head? ≠ some '\n' := by
      cases l with
      | nil => simp
      | cons d ds => simpa using hcr
    rw [List.cons_append, lineEnding.eq_4 c _ hstep hc, ih hl' hcr']

/-- A text whose first line is written with an ending, and does not end with a carriage return,
    uses that ending. -/
theorem lineEnding_writeLine {eol : List Char} (he : Text.IsEol eol) {l : List Char}
    (hl : '\n' ∉ l) (hcr : l.getLast? ≠ some '\r') (rest : List Char) :
    lineEnding (l ++ eol ++ rest) = eol := by
  rw [List.append_assoc, lineEnding_line_append hl fun h => absurd h hcr]
  rcases he with rfl | rfl <;> rfl

/-- A text whose first line ends with a carriage return and a line feed uses that ending,
    whatever the line holds before it. -/
theorem lineEnding_crlf {l : List Char} (hl : '\n' ∉ l) (rest : List Char) :
    lineEnding (l ++ '\r' :: '\n' :: rest) = ['\r', '\n'] := by
  rw [lineEnding_line_append hl fun _ => by simp]
  rfl

theorem lineEnding_of_not_mem {cs : List Char} (h : '\n' ∉ cs) : lineEnding cs = ['\n'] := by
  induction cs using lineEnding.induct with
  | case1 rest => simp at h
  | case2 rest => simp at h
  | case3 => rfl
  | case4 c cs h1 h2 ih =>
    rw [lineEnding.eq_4 c cs h1 h2]
    exact ih fun hm => h (List.mem_cons_of_mem c hm)

/-- A text cut at the end of a line's text and ended there with its own line ending keeps that
    ending: a line feed above the cut decides alike, and the line cut keeps the character before
    its line feed. The one exception is a text of one line, without a line feed, that ends with
    two carriage returns: its line's text keeps one of them, which a line feed turns into CRLF. -/
theorem lineEnding_cut {cs : List Char} {A B : List (List Char)} {p : List Char}
    (hps : Text.pieces cs = A ++ p :: B) :
    lineEnding (A.flatten ++ bareLine p ++ lineEnding cs) = lineEnding cs ∨
      (A = [] ∧ B = [] ∧ p = bareLine p ++ ['\r'] ∧ (bareLine p).getLast? = some '\r') := by
  have hcs := eq_flatten_of_pieces hps
  by_cases hA : '\n' ∈ A.flatten
  · -- a line feed above the cut decides both
    left
    rw [List.append_assoc, lineEnding_append hA, hcs, lineEnding_append hA]
  · -- the cut is on the first line, and no piece stands above it
    have hA0 : A = [] := by
      have hnil : A.flatten = [] :=
        (Text.endsLine_flatten_of_pieces hps).resolve_right fun h => hA (List.mem_of_getLast? h)
      cases A with
      | nil => rfl
      | cons a A =>
        have ha := Text.ne_nil_of_mem_piecesFrom [] cs a (by rw [← Text.pieces, hps]; simp)
        exact absurd (List.flatten_eq_nil_iff.mp hnil a List.mem_cons_self) ha
    subst hA0
    obtain ⟨hb, t, ht, hcases⟩ := piece_ending hps
    generalize hbare : bareLine p = b at ht hcases hb ⊢
    subst ht
    rw [List.flatten_nil, List.nil_append] at hcs ⊢
    rcases hcases with ⟨rfl | rfl, rfl⟩ | rfl | ⟨rfl, hbr⟩
    · -- the only line, without an ending: it keeps no carriage return at its end
      have hbr : b.getLast? ≠ some '\r' := by
        intro hlast
        obtain ⟨b', rfl⟩ := List.getLast?_eq_some_iff.mp hlast
        have hn : (b' ++ ['\r']).getLast? ≠ some '\n' := by simp
        rw [List.append_nil] at hbare
        simp [bareLine, Text.dropLast?_of_getLast?_ne hn, Text.dropLast?_append_singleton] at hbare
      left
      rw [hcs, List.append_nil, List.flatten_nil, List.append_nil, lineEnding_of_not_mem hb,
        ← List.append_nil (b ++ ['\n'])]
      exact lineEnding_writeLine (Or.inl rfl) hb hbr []
    · -- the only line, ended by a lone carriage return
      by_cases hbr : b.getLast? = some '\r'
      · exact Or.inr ⟨rfl, rfl, rfl, hbr⟩
      · left
        have hnl : '\n' ∉ b ++ ['\r'] := by simpa using hb
        rw [hcs, List.flatten_nil, List.append_nil, lineEnding_of_not_mem hnl,
          ← List.append_nil (b ++ ['\n'])]
        exact lineEnding_writeLine (Or.inl rfl) hb hbr []
    · -- the first line ends with a carriage return and a line feed
      left
      have hcrlf : lineEnding cs = ['\r', '\n'] := by
        rw [hcs]
        simpa using lineEnding_crlf hb B.flatten
      rw [hcrlf]
      simpa using lineEnding_crlf hb []
    · -- the first line ends with a line feed alone
      left
      have hlf : lineEnding cs = ['\n'] := by
        rw [hcs]
        exact lineEnding_writeLine (Or.inl rfl) hb hbr B.flatten
      rw [hlf, ← List.append_nil (b ++ ['\n'])]
      exact lineEnding_writeLine (Or.inl rfl) hb hbr []

end Block

end Outline
