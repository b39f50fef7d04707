/-
Module: Outline.Proofs.Placement
Purpose: Where a table of contents lands, for every comment character that is one line. Drawn
  for such a character, the body lines keep a glyph right after the character and its space, so
  none is dropped and none reads as the closing marker. Putting a block in then leaves a text in
  which the block finder finds that block again, written with the text's own line ending, and a
  second pass with the same table of contents changes nothing. A replaced block keeps the text
  above and below it byte for byte; a new block stands below the preamble or at the top, between
  text that encloses it. All of this fails in one way only: a line kept above a new block that is
  itself an opening marker, where the finder then starts the block.
Main exports: Block.Encloses, Block.ClearAbove
Main statements: Tree.boxLines_connect_render, Block.findBlock_some, Block.apply_encloses,
  Block.apply_finds_its_block
Open obligations: none
-/
import Mathlib
import Outline.Proofs.Drawing
import Outline.Proofs.Insert

namespace Outline

/-! ### Body lines for any comment character -/

namespace Tree

/-- A line drawn from the bottom up is a placeholder line redrawn with some columns open. -/
theorem exists_of_mem_connectUp {ls : List (List Char)} {l : List Char}
    (hl : l ∈ (connectUp [] ls.reverse).reverse) : ∃ S, ∃ cs ∈ ls, l = (connectLine S cs).2 := by
  obtain ⟨i, hi⟩ := List.mem_iff_getElem?.mp hl
  rw [getElem?_connectUp_reverse] at hi
  obtain ⟨cs, hcs, rfl⟩ := Option.map_eq_some_iff.mp hi
  exact ⟨_, cs, List.mem_of_getElem? hcs, rfl⟩

/-- Redrawing a body line leaves a branch, a fork or the trunk right after the comment character
    and its space, whatever the comment character holds: the connector found may lie inside the
    character, but no column is redrawn with anything else. -/
theorem stem_connectLine {c cs : List Char} (h : Opens IsStem c cs) (S : List Nat) :
    ∃ g, (connectLine S cs).2[c.length + 1]? = some g ∧ (g = '├' ∨ g = '┐' ∨ g = '│') := by
  obtain ⟨g, hg, hstem⟩ := h.getElem?
  cases hk : connectorColumn cs with
  | none =>
    refine ⟨g, by simp [connectLine, hk, hg], ?_⟩
    rcases hstem with rfl | rfl <;> simp
  | some k =>
    rw [getElem?_connectLine hk, hg, Option.map_some]
    refine ⟨_, rfl, ?_⟩
    rcases hstem with rfl | rfl <;> split_ifs <;> simp

/-- Connecting body lines keeps every one of them, whatever the comment character: each keeps a
    glyph after the character and its space, so none is blank. -/
theorem connect_eq_of_opens {c : List Char} {lines : List String}
    (hls : ∀ l ∈ lines, Opens IsStem c l.toList) :
    connect lines = ((connectUp [] (lines.map String.toList).reverse).reverse).map String.ofList := by
  have hkeep : ∀ cs ∈ (connectUp [] (lines.map String.toList).reverse).reverse,
      (!(cs.all Text.isBlank)) = true := by
    intro cs hcs
    obtain ⟨S, m, hm, rfl⟩ := exists_of_mem_connectUp hcs
    obtain ⟨l, hl, rfl⟩ := List.mem_map.mp hm
    obtain ⟨g, hg, hglyph⟩ := stem_connectLine (hls l hl) S
    have hblank : Text.isBlank g = false := by rcases hglyph with rfl | rfl | rfl <;> decide
    simp only [Bool.not_eq_eq_eq_not, Bool.not_true, List.all_eq_false]
    exact ⟨g, List.mem_of_getElem? hg, by simp [hblank]⟩
  rw [connect, List.filter_eq_self.mpr hkeep]

theorem length_connect_of_opens {c : List Char} {lines : List String}
    (hls : ∀ l ∈ lines, Opens IsStem c l.toList) : (connect lines).length = lines.length := by
  rw [connect_eq_of_opens hls, List.length_map, List.length_reverse, length_connectUp,
    List.length_reverse, List.length_map]

/-- The body lines drawn for headings whose texts are one line are lines a box holds, for every
    comment character that is one line. -/
theorem boxLines_connect_render {character : String} (hc : '\n' ∉ character.toList)
    (numbered : Bool) {hs : List Heading} (htexts : ∀ h ∈ hs, '\n' ∉ h.text.toList) :
    BoxLines character (connect (hs.map fun h => h.render character numbered)) := by
  intro l hl
  have hone : '\n' ∉ l.toList :=
    not_mem_body ⟨"", "", character, numbered, 0⟩ (by decide) rfl hc htexts l hl
  rw [connect_eq_of_opens (Heading.opens_render_all hs character numbered)] at hl
  obtain ⟨cs, hcs, rfl⟩ := List.mem_map.mp hl
  obtain ⟨S, m, hm, rfl⟩ := exists_of_mem_connectUp hcs
  obtain ⟨r, hr, rfl⟩ := List.mem_map.mp hm
  obtain ⟨g, hg, hglyph⟩ := stem_connectLine (Heading.opens_render_all hs character numbered r hr) S
  refine ⟨hone, g, by rw [String.toList_ofList]; exact hg, ?_⟩
  rcases hglyph with rfl | rfl | rfl <;> decide

end Tree

/-! ### Tables of contents for any comment character -/

namespace Block

section Generate

variable (r : Registry) (o : Options)

theorem length_bodyOf_any (hs : List Heading) : (bodyOf o hs).length = hs.length := by
  rw [bodyOf, Tree.length_connect_of_opens (Heading.opens_render_all hs _ _), List.length_map]

theorem isEmpty_bodyOf {hs : List Heading} (hne : hs ≠ []) : (bodyOf o hs).isEmpty = false := by
  rw [List.isEmpty_eq_false_iff, ← List.length_pos_iff, length_bodyOf_any]
  exact List.length_pos_iff.mpr hne

/-- The document of some headings frames their body lines inside the delimiters. -/
theorem documentFor_of_ne_nil {hs : List Heading} (hne : hs ≠ []) :
    documentFor r o hs =
      ⟨(r.delimiters o.extension).before, Tree.header o.character o.name, bodyOf o hs,
        Tree.footer o.character, (r.delimiters o.extension).after⟩ := by
  simp only [documentFor, Document.assemble]
  rw [show Tree.connect (hs.map fun h => h.render o.character o.numbered) = bodyOf o hs from rfl,
    isEmpty_bodyOf o hne]
  exact if_neg Bool.false_ne_true

theorem isEmpty_documentFor_of_ne_nil {hs : List Heading} (hne : hs ≠ []) :
    (documentFor r o hs).isEmpty = false := by
  rw [documentFor_of_ne_nil r o hne]
  exact isEmpty_bodyOf o hne

/-- A table of contents is empty exactly when it lists no heading, whatever the comment
    character. -/
theorem isEmpty_generate_eq_false (s : String) :
    (generate r o s).isEmpty = false ↔ headingsOf r o s ≠ [] := by
  constructor
  · intro ht hnil
    simp [generate, Toc.isEmpty, hnil, documentFor_nil, Document.empty, Document.inner,
      Document.isEmpty] at ht
  · intro hne
    simp only [generate, Toc.isEmpty]
    rw [Bool.eq_false_iff, ne_eq, String.isEmpty_iff, ← String.toList_eq_nil_iff,
      Document.toList_inner (isEmpty_documentFor_of_ne_nil r o hne), documentFor_of_ne_nil r o hne]
    exact Tree.innerText_ne_nil _ _ _

/-- The block of a table of contents that lists headings is the framed block of their body
    lines. -/
theorem toList_inner_generate {s : String} (hne : headingsOf r o s ≠ []) :
    (generate r o s).inner.toList =
      Tree.innerText o.character o.name (bodyOf o (headingsOf r o s)) := by
  simp only [generate]
  rw [Document.toList_inner (isEmpty_documentFor_of_ne_nil r o hne), documentFor_of_ne_nil r o hne]
  rfl

/-- A table of contents written with a line ending, delimiters included: the delimiter lines
    before, each followed by the ending, the framed block, and the delimiter lines after, each
    after an ending. -/
theorem withEnding_outer_generate {s : String} (hne : headingsOf Registry.builtin o s ≠ [])
    (eol : List Char) :
    withEnding eol (generate Registry.builtin o s).outer.toList =
      Text.writeLines eol ((Registry.builtin.delimiters o.extension).before.map String.toList) ++
        withEnding eol (generate Registry.builtin o s).inner.toList ++
        ((Registry.builtin.delimiters o.extension).after.map String.toList).flatMap (eol ++ ·) := by
  have hbefore : ∀ l ∈ (Registry.builtin.delimiters o.extension).before.map String.toList,
      '\n' ∉ l := fun l hl => (before_written o.extension o.character l hl).1
  have hafter : ∀ l ∈ (Registry.builtin.delimiters o.extension).after.map String.toList,
      '\n' ∉ l := fun l hl => (after_written o.extension l hl).1
  have houter : (generate Registry.builtin o s).outer.toList =
      ['\n'].intercalate ((Registry.builtin.delimiters o.extension).before.map String.toList ++
        [(generate Registry.builtin o s).inner.toList] ++
        (Registry.builtin.delimiters o.extension).after.map String.toList) := by
    simp only [generate, Document.outer, isEmpty_documentFor_of_ne_nil Registry.builtin o hne,
      Bool.false_eq_true, if_false, String.toList_intercalate, List.map_append, List.map_cons,
      List.map_nil]
    rw [documentFor_of_ne_nil Registry.builtin o hne]
    rfl
  rw [houter, Text.intercalate_around, withEnding_append, withEnding_append,
    withEnding_writeLines eol hbefore, withEnding_flatMap eol hafter]

end Generate

end Block

/-! ### Where the block finder finds a block -/

namespace Block

theorem findEnd_mem {stop : List Char} {L : List Line} {e : Line} (h : findEnd stop L = some e) :
    e ∈ L := by
  induction L with
  | nil => simp [findEnd] at h
  | cons l L ih =>
    rw [findEnd] at h
    split at h
    · cases h
      exact List.mem_cons_self
    · exact List.mem_cons_of_mem l (ih h)

/-- After the text of a line come its ending and the lines below it: what may follow a closing
    marker. -/
theorem endsMarker_drop_bareLine {cs : List Char} {A B : List (List Char)} {p : List Char}
    (h : Text.pieces cs = A ++ p :: B) : EndsMarker (p.drop (bareLine p).length ++ B.flatten) := by
  obtain ⟨-, t, ht, hcases⟩ := piece_ending h
  generalize bareLine p = b at ht hcases ⊢
  subst ht
  rw [List.drop_left' rfl]
  rcases hcases with ⟨rfl | rfl, rfl⟩ | rfl | ⟨rfl, -⟩
  · exact Or.inl rfl
  · exact Or.inr (Or.inl rfl)
  · exact Or.inr (Or.inr (Or.inr ⟨B.flatten, rfl⟩))
  · exact Or.inr (Or.inr (Or.inl ⟨B.flatten, rfl⟩))

/-- A text cut at the end of one of its lines' text: above the cut the lines above and the line's
    text, below it the line's ending and the lines below. -/
theorem take_drop_stop {cs : List Char} {A B : List (List Char)} {p : List Char}
    (hps : Text.pieces cs = A ++ p :: B) :
    cs.take (Line.stop ⟨0 + A.flatten.length, bareLine p⟩) = A.flatten ++ bareLine p ∧
      cs.drop (Line.stop ⟨0 + A.flatten.length, bareLine p⟩) =
        p.drop (bareLine p).length ++ B.flatten := by
  have hcs := eq_flatten_of_pieces hps
  obtain ⟨t, ht⟩ := isPrefix_bareLine p
  generalize bareLine p = b at ht ⊢
  subst ht
  have hsplit : cs = (A.flatten ++ b) ++ (t ++ B.flatten) := by
    rw [hcs]
    simp
  have hstop : Line.stop ⟨0 + A.flatten.length, b⟩ = (A.flatten ++ b).length := by
    simp [Line.stop]
  rw [hstop, hsplit, List.take_left, List.drop_left, List.drop_left]
  exact ⟨rfl, rfl⟩

theorem endsMarker_drop_stop {cs : List Char} {l : Line} (hl : l ∈ linesWithOffsets cs) :
    EndsMarker (cs.drop l.stop) := by
  obtain ⟨A, p, B, hps, rfl⟩ := mem_locate_split hl
  rw [(take_drop_stop hps).2]
  exact endsMarker_drop_bareLine hps

/-- The block finder on located lines: it starts at the first line that is the opening marker and
    stops at the end of a later line's text. -/
theorem findMarkers_locate {begin stop : List Char} {k : Nat} {ps : List (List Char)}
    {span : Span} (h : findMarkers begin stop (locate k ps) = some span) :
    ∃ A p B, ps = A ++ p :: B ∧ (∀ l ∈ locate k A, l.text ≠ begin) ∧
      span.start = k + A.flatten.length ∧ ∃ C q D, B = C ++ q :: D ∧
        span.stop = k + (A.flatten ++ p ++ C.flatten ++ bareLine q).length := by
  induction ps generalizing k with
  | nil => simp [locate, findMarkers] at h
  | cons p ps ih =>
    rw [locate, findMarkers] at h
    split at h
    · -- the block opens on this line and closes on a later one
      obtain ⟨e, he, rfl⟩ := Option.map_eq_some_iff.mp h
      obtain ⟨C, q, D, rfl, rfl⟩ := mem_locate_split (findEnd_mem he)
      refine ⟨[], p, C ++ q :: D, rfl, by simp [locate], by simp, C, q, D, rfl, ?_⟩
      simp [Line.stop]
      omega
    · rename_i hne
      obtain ⟨A, p', B, rfl, hA, hstart, C, q, D, rfl, hstop⟩ := ih h
      refine ⟨p :: A, p', C ++ q :: D, rfl, ?_, by simp [hstart]; omega, C, q, D, rfl,
        by simp [hstop]; omega⟩
      intro l hl
      rw [locate, List.mem_cons] at hl
      rcases hl with rfl | hl
      · exact hne
      · exact hA l hl

/-- Where the block finder finds a block: the text above it ends a line and holds no opening
    marker line, and the block's closing marker is followed by what ends its line. -/
theorem findBlock_some {cs : List Char} {c : String} {span : Span}
    (h : findBlock cs c = some span) :
    ∃ u Y v, cs = u ++ Y ++ v ∧ span = ⟨u.length, u.length + Y.length⟩ ∧ Text.EndsLine u ∧
      Unmarked c u ∧ EndsMarker v := by
  obtain ⟨A, p, B, hps, hA, hstart, C, q, D, rfl, hstop⟩ := findMarkers_locate h
  have hps' : Text.pieces cs = (A ++ p :: C) ++ q :: D := by
    rw [hps]
    simp
  have hE := endsMarker_drop_bareLine hps'
  have hcs : cs = A.flatten ++ p ++ C.flatten ++ q ++ D.flatten := by
    rw [← Text.flatten_pieces cs, hps]
    simp
  obtain ⟨t, ht⟩ := isPrefix_bareLine q
  generalize bareLine q = b at ht hE hstop
  subst ht
  rw [List.drop_left' rfl] at hE
  refine ⟨A.flatten, p ++ C.flatten ++ b, t ++ D.flatten, by rw [hcs]; simp, ?_,
    Text.endsLine_flatten_of_pieces hps, ?_, hE⟩
  · rcases span with ⟨start, stop⟩
    simp only at hstart hstop
    simp only [Span.mk.injEq, hstart, hstop, List.length_append]
    omega
  · intro l hl
    rw [linesWithOffsets, Text.pieces_flatten_of_pieces hps] at hl
    exact hA l hl

end Block

/-! ### Line endings around a cut -/

namespace Block

/-- A text cut at the end of one of its lines' text and ended there with the text's own line
    ending still uses that ending, unless the text ends with a carriage return: a line feed above
    the cut decides alike, and the line cut keeps the character before its line feed. -/
theorem lineEnding_take_stop {cs : List Char} (hcr : cs.getLast? ≠ some '\r') {l : Line}
    (hl : l ∈ linesWithOffsets cs) : lineEnding (cs.take l.stop ++ lineEnding cs) = lineEnding cs := by
  obtain ⟨A, p, B, hps, rfl⟩ := mem_locate_split hl
  rw [(take_drop_stop hps).1]
  rcases lineEnding_cut hps with h | ⟨rfl, rfl, hp, -⟩
  · exact h
  · -- the only line cannot end with a lone carriage return
    refine absurd ?_ hcr
    rw [eq_flatten_of_pieces hps, hp]
    simp

end Block

/-! ### A block between text that keeps it -/

namespace Block

theorem boxLines_bodyOf {o : Options} (hc : '\n' ∉ o.character.toList) (r : Registry) (s : String) :
    Tree.BoxLines o.character (bodyOf o (headingsOf r o s)) :=
  Tree.boxLines_connect_render hc o.numbered (single_headingsOf r o s)

/-- Text `u` above and `v` below a block, for a comment character and a line ending `e`: `u`
    ends a line and holds no opening marker line, `v` is what may follow a closing marker, and a
    text made of them around a block uses `e`. -/
structure Encloses (c : String) (e u v : List Char) : Prop where
  endsLine : Text.EndsLine u
  unmarked : Unmarked c u
  endsMarker : EndsMarker v
  stable : (if u = [] then e else lineEnding u) = e

section Encloses

variable {r : Registry} {o : Options} (hc : '\n' ∉ o.character.toList) {s : String}
  (hne : headingsOf r o s ≠ []) {e u v : List Char} (he : Text.IsEol e)
  (hen : Encloses o.character e u v)
include hc hne he hen

/-- The block of a table of contents, written with the line ending between text that encloses
    it, is the block the finder finds. -/
theorem Encloses.findBlock_generate :
    findBlock (u ++ withEnding e (generate r o s).inner.toList ++ v) o.character =
      some ⟨u.length, u.length + (withEnding e (generate r o s).inner.toList).length⟩ := by
  rw [toList_inner_generate r o hne]
  exact findBlock_framed hc (boxLines_bodyOf hc r s) he hen.endsLine hen.unmarked hen.endsMarker

theorem Encloses.lineEnding_generate :
    lineEnding (u ++ withEnding e (generate r o s).inner.toList ++ v) = e := by
  rw [toList_inner_generate r o hne,
    lineEnding_framed hc o.name (boxLines_bodyOf hc r s) hen.endsLine he v]
  exact hen.stable

/-- Putting a table of contents into a text that holds its block already changes nothing. -/
theorem Encloses.apply_generate :
    apply (String.ofList (u ++ withEnding e (generate r o s).inner.toList ++ v)) (generate r o s) o =
      ⟨String.ofList (u ++ withEnding e (generate r o s).inner.toList ++ v), .unchanged⟩ := by
  rw [apply_framed _ (hen.findBlock_generate hc hne he), hen.lineEnding_generate hc hne he,
    if_pos rfl]

/-- Putting any table of contents into a text that holds a block between text that encloses it
    replaces that block and keeps the text around it. -/
theorem Encloses.content_apply (toc : Toc) :
    (apply (String.ofList (u ++ withEnding e (generate r o s).inner.toList ++ v)) toc o).content =
      String.ofList (u ++ withEnding e toc.inner.toList ++ v) := by
  rw [content_apply_framed toc (hen.findBlock_generate hc hne he),
    hen.lineEnding_generate hc hne he]

end Encloses

/-- No line that a new block leaves above it opens a block: the text up to the end of the
    preamble, its last line ended with the text's line ending, holds no opening marker line. -/
def ClearAbove (o : Options) (cs : List Char) : Prop :=
  ∀ stop, preambleEnd cs o.extension = some stop →
    Unmarked o.character (cs.take stop ++ lineEnding cs)

/-- A found block is replaced between the text above and below it, which enclose it. -/
theorem apply_found {cs : List Char} {o : Options} {span : Span}
    (h : findBlock cs o.character = some span) :
    ∃ u Y v, cs = u ++ Y ++ v ∧ span = ⟨u.length, u.length + Y.length⟩ ∧
      Encloses o.character (lineEnding cs) u v ∧ ∀ toc : Toc,
        (apply (String.ofList cs) toc o).content.toList =
          u ++ withEnding (lineEnding cs) toc.inner.toList ++ v := by
  obtain ⟨u, Y, v, rfl, rfl, hu, hbm, hv⟩ := findBlock_some h
  refine ⟨u, Y, v, rfl, rfl, ⟨hu, hbm, hv, ?_⟩, fun toc => ?_⟩
  · -- a line feed above the block decides the ending
    split
    · rfl
    · rename_i hne
      have hnl : '\n' ∈ u :=
        List.mem_of_getLast? (hu.resolve_left hne)
      rw [List.append_assoc, lineEnding_append hnl]
  · rw [content_apply_framed toc h, String.toList_ofList]

variable {o : Options}

/-- A text without a block or a preamble gets the new block at the top, delimiters and all, and
    a blank line between it and the text. -/
theorem apply_top {cs : List Char} (hnone : findBlock cs o.character = none)
    (hpre : preambleEnd cs o.extension = none) (toc : Toc) :
    (apply (String.ofList cs) toc o).content.toList =
      withEnding (lineEnding cs) toc.outer.toList ++ lineEnding cs ++ (lineEnding cs ++ cs) := by
  simp only [apply, String.toList_ofList, hnone, hpre, List.append_assoc]

/-- A text without a block gets the new one after its preamble, delimiters and all, and a blank
    line between them; the text below the preamble follows the block, or a line ending when
    nothing does. -/
theorem apply_below {cs : List Char} (hnone : findBlock cs o.character = none) {stop : Nat}
    (hpre : preambleEnd cs o.extension = some stop) (toc : Toc) :
    (apply (String.ofList cs) toc o).content.toList =
      (cs.take stop ++ lineEnding cs) ++ lineEnding cs ++ withEnding (lineEnding cs) toc.outer.toList ++
        (if (cs.drop stop).isEmpty then lineEnding cs else cs.drop stop) := by
  simp only [apply, String.toList_ofList, hnone, hpre, List.append_assoc]

/-- At the top, the delimiter lines before the block stand above it, and the delimiter lines
    after it, a blank line and the whole text below it. -/
theorem encloses_top (cs : List Char) :
    Encloses o.character (lineEnding cs)
      (Text.writeLines (lineEnding cs) ((Registry.builtin.delimiters o.extension).before.map String.toList))
      (((Registry.builtin.delimiters o.extension).after.map String.toList).flatMap (lineEnding cs ++ ·) ++
        lineEnding cs ++ (lineEnding cs ++ cs)) := by
  have he := Text.isEol_lineEnding cs
  have hBf := before_written o.extension o.character
  refine ⟨Text.endsLine_writeLines he _, unmarked_writeLines he hBf,
    endsMarker_after he he _ _, ?_⟩
  simpa using lineEnding_written_after Text.endsLine_nil he (by simp)
    (fun w hw => ⟨(hBf w hw).1, (hBf w hw).2.1⟩)

/-- Below a preamble, the preamble with its line ending, a blank line and the delimiter lines
    before the block stand above it, and the delimiter lines after it and the rest of the text
    below it: they enclose the block when no line of the preamble opens a block and the text does
    not end with a carriage return. -/
theorem encloses_below {cs : List Char} (hcr : cs.getLast? ≠ some '\r') {stop : Nat}
    (hpre : preambleEnd cs o.extension = some stop)
    (hclear : Unmarked o.character (cs.take stop ++ lineEnding cs)) :
    Encloses o.character (lineEnding cs)
      ((cs.take stop ++ lineEnding cs) ++ Text.writeLines (lineEnding cs)
        ([] :: (Registry.builtin.delimiters o.extension).before.map String.toList))
      (((Registry.builtin.delimiters o.extension).after.map String.toList).flatMap (lineEnding cs ++ ·) ++
        (if (cs.drop stop).isEmpty then lineEnding cs else cs.drop stop)) := by
  have he := Text.isEol_lineEnding cs
  obtain ⟨l, hl, rfl⟩ := preambleEnd_line hpre
  have hP : Text.EndsLine (cs.take l.stop ++ lineEnding cs) := Text.endsLine_append_eol he
  have hW : ∀ w ∈ [] :: (Registry.builtin.delimiters o.extension).before.map String.toList,
      '\n' ∉ w ∧ w.getLast? ≠ some '\r' ∧ w ≠ (Tree.beginMarker o.character).toList := by
    intro w hw
    rcases List.mem_cons.mp hw with rfl | hw
    · exact blank_written o.character
    · exact before_written o.extension o.character w hw
  have hnl : '\n' ∈ cs.take l.stop ++ lineEnding cs := by
    rcases he with h | h <;> simp [h]
  have hne : (cs.take l.stop ++ lineEnding cs) ++ Text.writeLines (lineEnding cs)
      ([] :: (Registry.builtin.delimiters o.extension).before.map String.toList) ≠ [] := by
    intro h
    rw [(List.append_eq_nil_iff.mp h).1] at hnl
    simp at hnl
  refine ⟨hP.append (Text.endsLine_writeLines he _), (Unmarked.append hP).mpr
    ⟨hclear, unmarked_writeLines he hW⟩, endsMarker_flatMap he _ ?_, ?_⟩
  · split
    · rcases he with h | h <;> rw [h]
      · exact Or.inr (Or.inr (Or.inl ⟨[], rfl⟩))
      · exact Or.inr (Or.inr (Or.inr ⟨[], rfl⟩))
    · exact endsMarker_drop_stop hl
  · rw [if_neg hne, lineEnding_append hnl, lineEnding_take_stop hcr hl]

/-- A new block at the top is the block between the text `encloses_top` puts around it. -/
theorem top_between {s : String} (hne : headingsOf Registry.builtin o s ≠ []) (cs : List Char) :
    withEnding (lineEnding cs) (generate Registry.builtin o s).outer.toList ++ lineEnding cs ++
        (lineEnding cs ++ cs) =
      Text.writeLines (lineEnding cs) ((Registry.builtin.delimiters o.extension).before.map String.toList) ++
        withEnding (lineEnding cs) (generate Registry.builtin o s).inner.toList ++
        (((Registry.builtin.delimiters o.extension).after.map String.toList).flatMap (lineEnding cs ++ ·) ++
          lineEnding cs ++ (lineEnding cs ++ cs)) := by
  rw [withEnding_outer_generate o hne]
  simp only [List.append_assoc]

/-- A new block below a preamble is the block between the text `encloses_below` puts around it. -/
theorem below_between {s : String} (hne : headingsOf Registry.builtin o s ≠ []) (cs : List Char)
    (stop : Nat) :
    (cs.take stop ++ lineEnding cs) ++ lineEnding cs ++
        withEnding (lineEnding cs) (generate Registry.builtin o s).outer.toList ++
        (if (cs.drop stop).isEmpty then lineEnding cs else cs.drop stop) =
      ((cs.take stop ++ lineEnding cs) ++ Text.writeLines (lineEnding cs)
          ([] :: (Registry.builtin.delimiters o.extension).before.map String.toList)) ++
        withEnding (lineEnding cs) (generate Registry.builtin o s).inner.toList ++
        (((Registry.builtin.delimiters o.extension).after.map String.toList).flatMap (lineEnding cs ++ ·) ++
          (if (cs.drop stop).isEmpty then lineEnding cs else cs.drop stop)) := by
  rw [withEnding_outer_generate o hne]
  simp only [Text.writeLines_cons, List.append_assoc, List.nil_append]

end Block

/-! ### A table of contents is found where it was put -/

namespace Block

/-- A text a table of contents was put into holds its block between text that encloses it,
    written with the text's line ending: in place of the old block when there was one, and
    otherwise below the preamble or at the top, when no line kept above the new block opens one
    and the text does not end with a carriage return. -/
theorem apply_encloses {o : Options} {content s : String}
    (hcr : content.toList.getLast? ≠ some '\r') (hne : headingsOf Registry.builtin o s ≠ [])
    (hclear : findBlock content.toList o.character ≠ none ∨ ClearAbove o content.toList) :
    ∃ u v, Encloses o.character (lineEnding content.toList) u v ∧
      (apply content (generate Registry.builtin o s) o).content.toList =
        u ++ withEnding (lineEnding content.toList) (generate Registry.builtin o s).inner.toList ++
          v := by
  have hof : String.ofList content.toList = content := String.ofList_toList
  cases hfind : findBlock content.toList o.character with
  | some span =>
    obtain ⟨u, Y, v, -, -, hen, happly⟩ := apply_found hfind
    refine ⟨u, v, hen, ?_⟩
    rw [← happly, hof]
  | none =>
    have hclear' : ClearAbove o content.toList := hclear.resolve_left fun h => h hfind
    cases hpre : preambleEnd content.toList o.extension with
    | none =>
      refine ⟨_, _, encloses_top content.toList, ?_⟩
      rw [← top_between hne, ← apply_top hfind hpre, hof]
    | some stop =>
      refine ⟨_, _, encloses_below hcr hpre (hclear' stop hpre), ?_⟩
      rw [← below_between hne, ← apply_below hfind hpre, hof]

/-- A table of contents put into a text, for a comment character on one line, is found there
    again as the block it is, written with the text's line ending; the text keeps its line
    ending, and putting the same table of contents in again changes nothing. This holds for every
    text that does not end with a carriage return and whose block the finder finds, or in which
    no line kept above a new block is an opening marker. -/
theorem apply_finds_its_block (o : Options) (hc : '\n' ∉ o.character.toList) (content s : String)
    (hcr : content.toList.getLast? ≠ some '\r')
    (ht : (generate Registry.builtin o s).isEmpty = false)
    (hclear : findBlock content.toList o.character ≠ none ∨ ClearAbove o content.toList) :
    (∃ span, findBlock (apply content (generate Registry.builtin o s) o).content.toList
        o.character = some span ∧
      span.of (apply content (generate Registry.builtin o s) o).content.toList =
        withEnding (lineEnding content.toList) (generate Registry.builtin o s).inner.toList) ∧
    lineEnding (apply content (generate Registry.builtin o s) o).content.toList =
      lineEnding content.toList ∧
    apply (apply content (generate Registry.builtin o s) o).content (generate Registry.builtin o s) o =
      ⟨(apply content (generate Registry.builtin o s) o).content, .unchanged⟩ := by
  have hne := (isEmpty_generate_eq_false Registry.builtin o s).mp ht
  have he := Text.isEol_lineEnding content.toList
  obtain ⟨u, v, hen, happly⟩ := apply_encloses hcr hne hclear
  have hcontent : (apply content (generate Registry.builtin o s) o).content =
      String.ofList (u ++ withEnding (lineEnding content.toList)
        (generate Registry.builtin o s).inner.toList ++ v) := by
    rw [← happly, String.ofList_toList]
  rw [hcontent, String.toList_ofList]
  refine ⟨⟨_, hen.findBlock_generate hc hne he, by simp [Span.of]⟩,
    hen.lineEnding_generate hc hne he, hen.apply_generate hc hne he⟩

theorem markdown_apply_finds_its_block :
    let o := Options.forPath Registry.builtin "a.md"
    ('\n' ∉ o.character.toList ∧ "# A\n".toList.getLast? ≠ some '\r' ∧
      (generate Registry.builtin o "# A\n").isEmpty = false ∧
      (findBlock "# A\n".toList o.character ≠ none ∨ ClearAbove o "# A\n".toList)) ∧
    (∃ span, findBlock (apply "# A\n" (generate Registry.builtin o "# A\n") o).content.toList
        o.character = some span ∧
      span.of (apply "# A\n" (generate Registry.builtin o "# A\n") o).content.toList =
        withEnding (lineEnding "# A\n".toList) (generate Registry.builtin o "# A\n").inner.toList) ∧
    lineEnding (apply "# A\n" (generate Registry.builtin o "# A\n") o).content.toList =
      lineEnding "# A\n".toList ∧
    apply (apply "# A\n" (generate Registry.builtin o "# A\n") o).content
        (generate Registry.builtin o "# A\n") o =
      ⟨(apply "# A\n" (generate Registry.builtin o "# A\n") o).content, .unchanged⟩ := by
  intro o
  have hc : '\n' ∉ o.character.toList := by decide +kernel
  have hcr : "# A\n".toList.getLast? ≠ some '\r' := by decide
  have ht : (generate Registry.builtin o "# A\n").isEmpty = false := by decide +kernel
  -- a Markdown text without front matter keeps no preamble
  have hpre : preambleEnd "# A\n".toList o.extension = none := by decide +kernel
  have hclear : findBlock "# A\n".toList o.character ≠ none ∨ ClearAbove o "# A\n".toList :=
    Or.inr fun stop h => absurd (hpre.symm.trans h) (by simp)
  exact ⟨⟨hc, hcr, ht, hclear⟩, apply_finds_its_block o hc "# A\n" "# A\n" hcr ht hclear⟩

end Block

end Outline
