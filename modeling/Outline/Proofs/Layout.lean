/-
Module: Outline.Proofs.Layout
Purpose: What an update leaves around its block, over all its passes. Every pass after the first
  replaces the block the first put in, so the text above and below it stays as the first pass
  left it. An existing block is replaced between the bytes around it; a new one stands at the top,
  a blank line above the text, or below the preamble's last line, a blank line below it, and read
  as lines the text keeps all of its own. Both hold for every comment character on one line and
  every text that does not end with a carriage return, with one proviso each: with two passes,
  no line kept above a new block opens one; and a preamble whose last line ends with a carriage
  return keeps it only when the text's line ending is CRLF.
Main exports: Block.lastToc, Block.finalToc
Main statements: Block.passesFrom_between, Block.update_between, Block.update_keeps_text_around
Open obligations: none
-/
import Mathlib
import Outline.Proofs.Placement
import Outline.Proofs.Settle

namespace Outline

/-! ### Reading lines back -/

namespace Text

theorem lines_of_not_mem {l : List Char} (h0 : l ≠ []) (hl : '\n' ∉ l) : lines l = [l] := by
  have hn : l.getLast? ≠ some '\n' := fun h => hl (List.mem_of_getLast? h)
  rw [lines, pieces_of_not_mem h0 hl]
  simp [lineOf, dropLast?_of_getLast?_ne hn]

/-- A line written with an ending reads back as itself, unless it ends with a carriage return
    and the ending is a line feed alone. -/
theorem lineOf_written_eq {eol : List Char} (he : IsEol eol) {l : List Char}
    (hl : eol = ['\n'] → l.getLast? ≠ some '\r') : lineOf (l ++ eol) = l := by
  rw [lineOf_written he]
  split
  · rename_i h
    rw [dropLast?_of_getLast?_ne (hl h)]
    rfl
  · rfl

/-- A line and lines each after a line ending, with no ending after the last, read back as
    themselves. -/
theorem lines_join_after {eol : List Char} (he : IsEol eol) {ls : List (List Char)}
    (hls : ∀ m ∈ ls, '\n' ∉ m ∧ m.getLast? ≠ some '\r' ∧ m ≠ []) {l : List Char}
    (hl : '\n' ∉ l) (hr : l.getLast? ≠ some '\r') (hl0 : l ≠ []) :
    lines (l ++ ls.flatMap (eol ++ ·)) = l :: ls := by
  rcases List.eq_nil_or_concat ls with rfl | ⟨ls', m, rfl⟩
  · rw [List.flatMap_nil, List.append_nil, lines_of_not_mem hl0 hl]
  · have hm := hls m (by simp)
    have hls' : ∀ x ∈ ls', '\n' ∉ x ∧ x.getLast? ≠ some '\r' :=
      fun x hx => ⟨(hls x (by simp [hx])).1, (hls x (by simp [hx])).2.1⟩
    have h := lines_after_each he he hls' m hl hr
    have hsplit : l ++ (ls'.concat m).flatMap (eol ++ ·) =
        l ++ ls'.flatMap (eol ++ ·) ++ eol ++ m := by
      simp
    rw [hsplit, h, lines_of_not_mem hm.2.2 hm.1]
    simp

end Text

namespace Block

/-- A line of a text by its index: the pieces above it, its own piece and those below. -/
theorem getElem?_locate {j : Nat} {ps : List (List Char)} {k : Nat} {l : Line}
    (h : (locate j ps)[k]? = some l) :
    ∃ A p B, ps = A ++ p :: B ∧ A.length = k ∧ l = ⟨j + A.flatten.length, bareLine p⟩ := by
  induction ps generalizing j k with
  | nil => simp [locate] at h
  | cons q qs ih =>
    rw [locate] at h
    cases k with
    | zero =>
      simp only [List.getElem?_cons_zero, Option.some.injEq] at h
      exact ⟨[], q, qs, rfl, rfl, by simp [← h]⟩
    | succ k =>
      rw [List.getElem?_cons_succ] at h
      obtain ⟨A, p, B, rfl, rfl, rfl⟩ := ih h
      exact ⟨q :: A, p, B, rfl, rfl, by simp [Nat.add_assoc]⟩

/-- The outer block written with a line ending reads as its own lines; a line ending and any text
    after it read as that text's lines. -/
theorem lines_outer_append {o : Options} (hc : '\n' ∉ o.character.toList) {s : String}
    (hne : headingsOf Registry.builtin o s ≠ []) {eol : List Char} (heol : Text.IsEol eol)
    {e : List Char} (he : Text.IsEol e) (rest : List Char) :
    Text.lines (withEnding eol (generate Registry.builtin o s).outer.toList ++ e ++ rest) =
      Text.lines (withEnding eol (generate Registry.builtin o s).outer.toList) ++
        Text.lines rest := by
  have hafter := after_written o.extension
  have hEM : '\n' ∉ (Tree.endMarker o.character).toList ∧
      (Tree.endMarker o.character).toList.getLast? ≠ some '\r' ∧
      (Tree.endMarker o.character).toList ≠ [] :=
    ⟨Tree.not_mem_endMarker hc, by simp [Tree.getLast?_endMarker], by simp [Tree.endMarker]⟩
  -- everything above the closing marker ends a line
  have hX : Text.EndsLine (Text.writeLines eol
      ((Registry.builtin.delimiters o.extension).before.map String.toList) ++
      Tree.topText o.character o.name eol ++ Text.writeLines eol
        ((Tree.midLines o.character (bodyOf o (headingsOf Registry.builtin o s))).map
          String.toList)) :=
    (Tree.endsLine_topText _ _ _ heol).append (Text.endsLine_writeLines heol _)
  have hW : withEnding eol (generate Registry.builtin o s).outer.toList =
      (Text.writeLines eol ((Registry.builtin.delimiters o.extension).before.map String.toList) ++
        Tree.topText o.character o.name eol ++ Text.writeLines eol
          ((Tree.midLines o.character (bodyOf o (headingsOf Registry.builtin o s))).map
            String.toList)) ++
      ((Tree.endMarker o.character).toList ++
        ((Registry.builtin.delimiters o.extension).after.map String.toList).flatMap (eol ++ ·)) := by
    rw [withEnding_outer_generate o hne, toList_inner_generate _ o hne,
      Tree.withEnding_innerText hc o.name (boxLines_bodyOf hc Registry.builtin s) eol]
    simp only [List.append_assoc]
  have hbelow := Text.lines_after_each heol he
    (fun w hw => ⟨(hafter w hw).1, (hafter w hw).2.1⟩) rest hEM.1 hEM.2.1
  have hjoin := Text.lines_join_after heol hafter hEM.1 hEM.2.1 hEM.2.2
  rw [hW, List.append_assoc _ _ e, List.append_assoc _ _ rest, Text.lines_append hX,
    Text.lines_append hX, hjoin, hbelow]
  simp

/-- A text with a new block below its preamble, read as lines: the lines down to the preamble's
    last, a blank line, the block's lines and the lines below, when the preamble's last line keeps
    its carriage return and the text does not end with one. -/
theorem lines_below {cs : List Char} (hcr : cs.getLast? ≠ some '\r') {k : Nat} {l : Line}
    (hk : (linesWithOffsets cs)[k]? = some l)
    (hline : lineEnding cs = ['\n'] → (cs.take l.stop).getLast? ≠ some '\r') {W : List Char}
    (hW : ∀ e rest, Text.IsEol e → Text.lines (W ++ e ++ rest) = Text.lines W ++ Text.lines rest) :
    Text.lines ((cs.take l.stop ++ lineEnding cs) ++ lineEnding cs ++ W ++
        (if (cs.drop l.stop).isEmpty then lineEnding cs else cs.drop l.stop)) =
      (Text.lines cs).take (k + 1) ++ [[]] ++ Text.lines W ++ (Text.lines cs).drop (k + 1) := by
  have heol := Text.isEol_lineEnding cs
  obtain ⟨A, p, B, hps, rfl, rfl⟩ := getElem?_locate hk
  have hp0 : p ≠ [] := Text.ne_nil_of_mem_piecesFrom [] cs p (by rw [← Text.pieces, hps]; simp)
  have hA := Text.endsLine_flatten_of_pieces hps
  have hlenA : (Text.lines A.flatten).length = A.length := by
    rw [Text.lines, Text.pieces_flatten_of_pieces hps, List.length_map]
  obtain ⟨hb, t, ht, hcases⟩ := piece_ending hps
  have hcs := eq_flatten_of_pieces hps
  obtain ⟨htake, hdrop⟩ := take_drop_stop hps
  generalize bareLine p = b at hb ht hcases hline htake hdrop ⊢
  subst ht
  rw [List.drop_left] at hdrop
  rw [htake] at hline
  rw [htake, hdrop]
  -- the preamble's last line reads back as itself after the new line ending
  have hkeep : Text.lineOf (b ++ lineEnding cs) = b := by
    refine Text.lineOf_written_eq heol fun hlf => ?_
    intro hlast
    have := hline hlf
    rw [List.getLast?_append_of_ne_nil _ (by rintro rfl; simp at hlast), hlast] at this
    exact this rfl
  have hblank : Text.lines ([] ++ lineEnding cs ++ (W ++ (if (t ++ B.flatten).isEmpty then
      lineEnding cs else t ++ B.flatten))) = [] :: Text.lines (W ++
        (if (t ++ B.flatten).isEmpty then lineEnding cs else t ++ B.flatten)) := by
    rw [List.nil_append, Text.lines_eol_append heol]
  have hcontent : (A.flatten ++ b ++ lineEnding cs) ++ lineEnding cs ++ W ++
      (if (t ++ B.flatten).isEmpty then lineEnding cs else t ++ B.flatten) =
      A.flatten ++ (b ++ lineEnding cs ++ ([] ++ lineEnding cs ++ (W ++
        (if (t ++ B.flatten).isEmpty then lineEnding cs else t ++ B.flatten)))) := by
    simp
  rw [hcontent, Text.lines_append hA, Text.lines_writeLine heol hb, hkeep, hblank]
  -- the text's own lines: those above, the preamble's last line, and those below it
  have hsplit : ∀ M, Text.lines cs = Text.lines A.flatten ++ b :: M →
      (Text.lines cs).take (A.length + 1) = Text.lines A.flatten ++ [b] ∧
        (Text.lines cs).drop (A.length + 1) = M := by
    intro M hM
    rw [hM, show Text.lines A.flatten ++ b :: M = (Text.lines A.flatten ++ [b]) ++ M by simp]
    exact ⟨List.take_left' (by simp [hlenA]), List.drop_left' (by simp [hlenA])⟩
  rcases hcases with ⟨rfl | rfl, rfl⟩ | rfl | ⟨rfl, hbr⟩
  · -- the preamble's line is the text's last, without an ending
    have hb0 : b ≠ [] := by simpa using hp0
    obtain ⟨htk, hdr⟩ := hsplit [] (by rw [hcs]; simp [Text.lines_append hA, Text.lines_of_not_mem hb0 hb])
    rw [if_pos (by simp), ← List.append_nil (W ++ lineEnding cs), hW _ _ heol, htk, hdr]
    simp [Text.lines_nil]
  · -- a text ending with a carriage return
    exact absurd (by rw [hcs]; simp) hcr
  · obtain ⟨htk, hdr⟩ := hsplit (Text.lines B.flatten) (by
      rw [hcs, Text.lines_append hA, Text.lines_writeLine (Or.inr rfl) hb,
        Text.lineOf_written_eq (Or.inr rfl) (by simp)])
    rw [if_neg (by simp), ← List.append_assoc W, hW _ _ (Or.inr rfl), htk, hdr]
    simp
  · obtain ⟨htk, hdr⟩ := hsplit (Text.lines B.flatten) (by
      rw [hcs, Text.lines_append hA, Text.lines_writeLine (Or.inl rfl) hb,
        Text.lineOf_written_eq (Or.inl rfl) (fun _ => hbr)])
    rw [if_neg (by simp), ← List.append_assoc W, hW _ _ (Or.inl rfl), htk, hdr]
    simp

end Block

namespace Block

/-- A text with a new block at the top, read as lines: the block's lines, a blank line and the
    text's own lines. -/
theorem lines_top (cs : List Char) {W : List Char}
    (hW : ∀ e rest, Text.IsEol e → Text.lines (W ++ e ++ rest) = Text.lines W ++ Text.lines rest) :
    Text.lines (W ++ lineEnding cs ++ (lineEnding cs ++ cs)) =
      Text.lines W ++ [[]] ++ Text.lines cs := by
  have heol := Text.isEol_lineEnding cs
  rw [hW _ _ heol, Text.lines_eol_append heol]
  simp

end Block

/-! ### The passes of an update -/

namespace Block

/-- The table of contents the last of `n + 1` passes puts in: each pass generates it from the
    text the pass before it wrote. -/
def lastToc (r : Registry) (o : Options) : Nat → String → Toc
  | 0, content => generate r o content
  | n + 1, content => lastToc r o n (apply content (generate r o content) o).content

/-- The table of contents an update puts in last: with numbered lines, the second pass's. -/
def finalToc (r : Registry) (o : Options) (content : String) : Toc :=
  lastToc r o (if o.numbered then 1 else 0) content

theorem exists_lastToc (r : Registry) (o : Options) (n : Nat) (content : String) :
    ∃ s, lastToc r o n content = generate r o s := by
  induction n generalizing content with
  | zero => exact ⟨content, rfl⟩
  | succ n ih => exact ih _

/-- Passes fail at once on a text without headings. -/
theorem headingsOf_of_passesFrom {r : Registry} {o : Options} {n : Nat} {content : String}
    {out : Outcome} {a : Applied} (ha : (passesFrom r o (n + 1) content out).2 = .ok a) :
    headingsOf r o content ≠ [] := by
  rw [passesFrom_succ] at ha
  split at ha
  · cases ha
  · rename_i ht
    exact (isEmpty_generate_eq_false r o content).mp (Bool.eq_false_iff.mpr ht)

/-- Putting any table of contents into a text that holds a block between text that encloses it
    replaces that block. -/
theorem Encloses.apply_of_toList {r : Registry} {o : Options} (hc : '\n' ∉ o.character.toList)
    {s : String} (hne : headingsOf r o s ≠ []) {e u v : List Char} (he : Text.IsEol e)
    (hen : Encloses o.character e u v) {content : String}
    (h : content.toList = u ++ withEnding e (generate r o s).inner.toList ++ v) (toc : Toc) :
    (apply content toc o).content.toList = u ++ withEnding e toc.inner.toList ++ v := by
  have hof : content = String.ofList (u ++ withEnding e (generate r o s).inner.toList ++ v) := by
    rw [← h, String.ofList_toList]
  rw [hof, hen.content_apply hc hne he toc, String.toList_ofList]

section Between

variable {r : Registry} {o : Options} (hc : '\n' ∉ o.character.toList) {e u v : List Char}
  (he : Text.IsEol e)
include hc he

/-- Passes that land between the same text: when the first pass puts its block between `u` and
    `v`, which enclose it whenever another pass follows, each later pass replaces that block, and
    the text ends with the last pass's block between them. -/
theorem passesFrom_between : ∀ (n : Nat) (content : String) (out : Outcome) (a : Applied),
    (0 < n → Encloses o.character e u v) →
    (apply content (generate r o content) o).content.toList =
      u ++ withEnding e (generate r o content).inner.toList ++ v →
    (passesFrom r o (n + 1) content out).2 = .ok a →
    (lastToc r o n content).isEmpty = false ∧
      a.content.toList = u ++ withEnding e (lastToc r o n content).inner.toList ++ v := by
  intro n
  induction n with
  | zero =>
    intro content out a _ hfirst ha
    rw [passesFrom_succ] at ha
    split at ha
    · cases ha
    · rename_i ht
      simp only [passesFrom, Except.ok.injEq] at ha
      subst ha
      exact ⟨Bool.eq_false_iff.mpr ht, hfirst⟩
  | succ n ih =>
    intro content out a hen hfirst ha
    rw [passesFrom_succ] at ha
    split at ha
    · cases ha
    · rename_i ht
      have hne := (isEmpty_generate_eq_false r o content).mp (Bool.eq_false_iff.mpr ht)
      -- the next pass finds the block this one put in, and replaces it
      have hnext := (hen n.succ_pos).apply_of_toList hc hne he hfirst
      exact ih _ _ a (fun _ => hen n.succ_pos) (hnext _) ha

/-- An update ends with its last block where its first pass put the first, when the text around
    it encloses it or the update makes one pass. -/
theorem update_between {content : String} {a : Applied} (ha : update r o content = .ok a)
    (hfirst : (apply content (generate r o content) o).content.toList =
      u ++ withEnding e (generate r o content).inner.toList ++ v)
    (hen : o.numbered = true → Encloses o.character e u v) :
    (finalToc r o content).isEmpty = false ∧
      a.content.toList = u ++ withEnding e (finalToc r o content).inner.toList ++ v := by
  rw [update_eq] at ha
  refine passesFrom_between hc he _ content _ a (fun hpos => hen ?_) hfirst ha
  by_contra hn
  simp [hn] at hpos

end Between

end Block

/-! ### What an update keeps -/

namespace Block

/-- What an update leaves around its block, for a comment character on one line and a text that
    does not end with a carriage return. A block the finder finds is replaced between the bytes
    above and below it. Otherwise, with the text above a second pass's block holding no opening
    marker, the new block's lines stand below the preamble's last line after a blank line, when
    that line keeps a trailing carriage return, or at the top with a blank line below them: the
    text keeps all of its own lines. -/
theorem update_keeps_text_around (o : Options) (hc : '\n' ∉ o.character.toList) (content : String)
    (hcr : content.toList.getLast? ≠ some '\r') {a : Applied}
    (ha : update Registry.builtin o content = .ok a) :
    (∀ span, findBlock content.toList o.character = some span →
      a.content.toList = content.toList.take span.start ++
        withEnding (lineEnding content.toList) (finalToc Registry.builtin o content).inner.toList ++
          content.toList.drop span.stop) ∧
    (findBlock content.toList o.character = none →
      (o.numbered = true → ClearAbove o content.toList) →
      (∀ stop k, preambleEnd content.toList o.extension = some stop →
        (linesWithOffsets content.toList)[k]?.map Line.stop = some stop →
        (lineEnding content.toList = ['\n'] → (content.toList.take stop).getLast? ≠ some '\r') →
        Text.lines a.content.toList =
          (Text.lines content.toList).take (k + 1) ++ [[]] ++
            Text.lines (withEnding (lineEnding content.toList)
              (finalToc Registry.builtin o content).outer.toList) ++
            (Text.lines content.toList).drop (k + 1)) ∧
      (preambleEnd content.toList o.extension = none →
        Text.lines a.content.toList =
          Text.lines (withEnding (lineEnding content.toList)
            (finalToc Registry.builtin o content).outer.toList) ++ [[]] ++
            Text.lines content.toList)) := by
  have he := Text.isEol_lineEnding content.toList
  have hof : String.ofList content.toList = content := String.ofList_toList
  have hne : headingsOf Registry.builtin o content ≠ [] := by
    rw [update_eq] at ha
    exact headingsOf_of_passesFrom ha
  obtain ⟨s, hs⟩ : ∃ s, finalToc Registry.builtin o content = generate Registry.builtin o s :=
    exists_lastToc _ _ _ _
  refine ⟨fun span hfind => ?_, fun hnone hclear => ⟨fun stop k hpre hk hline => ?_, fun hpre => ?_⟩⟩
  · -- the block found is replaced in every pass, between the same text
    obtain ⟨u, Y, v, hcs, rfl, hen, happly⟩ := apply_found hfind
    have hfirst := happly (generate Registry.builtin o content)
    rw [hof] at hfirst
    obtain ⟨-, hfinal⟩ := update_between hc he ha hfirst (fun _ => hen)
    have htake : content.toList.take u.length = u := by
      rw [hcs, List.append_assoc, List.take_left' rfl]
    have hdrop : content.toList.drop (u.length + Y.length) = v := by
      rw [hcs, List.drop_left' (by simp)]
    rw [hfinal, htake, hdrop]
  · -- below the preamble
    obtain ⟨l, hl, rfl⟩ := Option.map_eq_some_iff.mp hk
    have hfirst := apply_below hnone hpre (generate Registry.builtin o content)
    rw [hof, below_between hne] at hfirst
    obtain ⟨hT, hfinal⟩ := update_between hc he ha hfirst
      (fun hn => encloses_below hcr hpre (hclear hn l.stop hpre))
    rw [hs] at hT hfinal ⊢
    have hneT := (isEmpty_generate_eq_false _ o s).mp hT
    rw [hfinal, ← below_between hneT]
    exact lines_below hcr hl hline fun e' rest he' => lines_outer_append hc hneT he he' rest
  · -- at the top
    have hfirst := apply_top hnone hpre (generate Registry.builtin o content)
    rw [hof, top_between hne] at hfirst
    obtain ⟨hT, hfinal⟩ := update_between hc he ha hfirst (fun _ => encloses_top content.toList)
    rw [hs] at hT hfinal ⊢
    have hneT := (isEmpty_generate_eq_false _ o s).mp hT
    rw [hfinal, ← top_between hneT]
    exact lines_top content.toList fun e' rest he' => lines_outer_append hc hneT he he' rest

theorem markdown_update_keeps_text_around :
    let o := Options.forPath Registry.builtin "a.md"
    ('\n' ∉ o.character.toList ∧ "# A\n".toList.getLast? ≠ some '\r') ∧
    match update Registry.builtin o "# A\n" with
    | .ok a =>
      (∀ span, findBlock "# A\n".toList o.character = some span →
        a.content.toList = "# A\n".toList.take span.start ++
          withEnding (lineEnding "# A\n".toList) (finalToc Registry.builtin o "# A\n").inner.toList ++
            "# A\n".toList.drop span.stop) ∧
      (findBlock "# A\n".toList o.character = none →
        (o.numbered = true → ClearAbove o "# A\n".toList) →
        (∀ stop k, preambleEnd "# A\n".toList o.extension = some stop →
          (linesWithOffsets "# A\n".toList)[k]?.map Line.stop = some stop →
          (lineEnding "# A\n".toList = ['\n'] → ("# A\n".toList.take stop).getLast? ≠ some '\r') →
          Text.lines a.content.toList =
            (Text.lines "# A\n".toList).take (k + 1) ++ [[]] ++
              Text.lines (withEnding (lineEnding "# A\n".toList)
                (finalToc Registry.builtin o "# A\n").outer.toList) ++
              (Text.lines "# A\n".toList).drop (k + 1)) ∧
        (preambleEnd "# A\n".toList o.extension = none →
          Text.lines a.content.toList =
            Text.lines (withEnding (lineEnding "# A\n".toList)
              (finalToc Registry.builtin o "# A\n").outer.toList) ++ [[]] ++
              Text.lines "# A\n".toList))
    | .error _ => False := by
  intro o
  have hc : '\n' ∉ o.character.toList := by decide +kernel
  have hcr : "# A\n".toList.getLast? ≠ some '\r' := by decide
  refine ⟨⟨hc, hcr⟩, ?_⟩
  have hok : (update Registry.builtin o "# A\n").isOk = true :=
    (isOk_update_unnumbered (fitCharacter_options rfl) rfl _).mpr (by decide +kernel)
  cases h : update Registry.builtin o "# A\n" with
  | ok a => exact update_keeps_text_around o hc "# A\n" hcr h
  | error err =>
    rw [h] at hok
    exact absurd hok (by simp [Except.isOk, Except.toBool])

end Block

end Outline
