/-
Module: Outline.Proofs.LineNumbers
Purpose: What a heading's line number counts. Every reader numbers a heading by the line its
  source starts on: one more than the line feeds before the offset where the source starts. For a
  line scanner that offset starts the line it reads the heading at, which for an underlined title
  is the title and not its underline, and for a roff macro the macro line even when the title comes
  from the line below; carriage returns, empty lines and a last line without a line feed change
  nothing. For HTML the offset is the `<` of the opening tag: the scan counts line feeds as it
  passes each character, those of elements it passes over included. The offsets increase down the
  list, so line numbers never decrease.
Main exports: Text.lineStart, Spelling.SourceAt
Main statements: forall₂_filterMap, Scanner.scan_sources, Text.count_take_lineStart,
  Text.lines_take_lineStart, Text.lines_drop_lineStart, Scanner.read_sources,
  Html.scanFrom_sources, Html.read_sources, heading_lines_count_feeds
Open obligations: none
-/
import Mathlib
import Outline.Proofs.Readers
import Outline.Proofs.Placement

namespace Outline

/-! ### Offsets paired with what is found there -/

/-- Results kept by a partial map keep their offsets: offsets paired one to one with found items
    give a sublist of them paired one to one with the kept results. -/
theorem forall₂_filterMap {κ α β : Type} {R : κ → α → Prop} {f : α → Option β} :
    ∀ {ks : List κ} {xs : List α}, List.Forall₂ R ks xs →
      ∃ ks', ks'.Sublist ks ∧
        List.Forall₂ (fun k y => ∃ x, R k x ∧ f x = some y) ks' (xs.filterMap f)
  | [], [], .nil => ⟨[], .slnil, .nil⟩
  | k :: _, x :: _, .cons hR hrest => by
    obtain ⟨ks', hsub, hall⟩ := forall₂_filterMap hrest
    cases hf : f x with
    | none => exact ⟨ks', hsub.cons k, by simpa [List.filterMap_cons, hf] using hall⟩
    | some y =>
      refine ⟨k :: ks', hsub.cons_cons k, ?_⟩
      rw [List.filterMap_cons_some hf]
      exact .cons ⟨x, hR, hf⟩ hall

/-- A result paired with an offset has one. -/
theorem exists_of_mem_forall₂_right {κ α : Type} {R : κ → α → Prop} :
    ∀ {ks : List κ} {xs : List α}, List.Forall₂ R ks xs → ∀ x ∈ xs, ∃ k ∈ ks, R k x
  | [], [], .nil => by simp
  | k :: _, _ :: _, .cons hR hrest => by
    intro y hy
    rcases List.mem_cons.mp hy with rfl | hy
    · exact ⟨k, List.mem_cons_self, hR⟩
    · obtain ⟨k', hk', hR'⟩ := exists_of_mem_forall₂_right hrest y hy
      exact ⟨k', List.mem_cons_of_mem k hk', hR'⟩

/-- An offset paired with a result has one. -/
theorem exists_of_mem_forall₂_left {κ α : Type} {R : κ → α → Prop} {ks : List κ} {xs : List α}
    (h : List.Forall₂ R ks xs) : ∀ k ∈ ks, ∃ x ∈ xs, R k x :=
  exists_of_mem_forall₂_right (List.Forall₂.flip (R := flip R) h)

/-- The indices a partial map over `0, 1, …, n - 1` keeps, in order, each paired with what it
    gives there. -/
theorem exists_indices_filterMap_range {β : Type} (f : Nat → Option β) (n : Nat) :
    ∃ idx : List Nat, idx.Pairwise (· < ·) ∧
      List.Forall₂ (fun i y => f i = some y) idx ((List.range n).filterMap f) := by
  have hsame : List.Forall₂ (· = ·) (List.range n) (List.range n) :=
    List.forall₂_same.mpr fun _ _ => rfl
  obtain ⟨idx, hsub, hall⟩ := forall₂_filterMap (f := f) hsame
  exact ⟨idx, List.Pairwise.sublist hsub List.pairwise_lt_range,
    hall.imp fun i y ⟨_, hi, hy⟩ => hi ▸ hy⟩

/-! ### Where a scanner finds its headings -/

namespace Scanner

variable (S : Scanner)

/-- Each heading a scan finds comes from one of its lines, at an index that grows down the list:
    the heading is numbered `n` plus that index, and the scanner gives it reading the line in the
    state the lines above leave, with the line below it. -/
theorem scan_sources (st : S.State) (n : Nat) (ls : List (List Char))
    (below : Option (List Char)) :
    ∃ idx : List Nat, idx.Pairwise (· < ·) ∧
      List.Forall₂ (fun i h => ∃ l, ls[i]? = some l ∧ h.line = n + i ∧
        S.heading (S.after st (ls.take i)) l ((ls.drop (i + 1)).head?.or below) =
          some (h.level, h.text)) idx (S.scan st n ls below) := by
  rw [scan_eq_filterMap_range]
  refine (exists_indices_filterMap_range _ ls.length).imp fun idx ⟨hsort, hall⟩ =>
    ⟨hsort, hall.imp fun i h hi => ?_⟩
  obtain ⟨l, hl, hmap⟩ := Option.bind_eq_some_iff.mp hi
  obtain ⟨p, hhead, rfl⟩ := Option.map_eq_some_iff.mp hmap
  exact ⟨l, hl, rfl, hhead⟩

end Scanner

/-! ### Where the lines of a text start -/

namespace Text

/-- The offset where the `i`-th line of a text starts: the length of the pieces above it. -/
def lineStart (cs : List Char) (i : Nat) : Nat :=
  ((pieces cs).take i).flatten.length

/-- A text is its pieces above the `i`-th line and the pieces from it on. -/
theorem flatten_take_append_drop_pieces (cs : List Char) (i : Nat) :
    ((pieces cs).take i).flatten ++ ((pieces cs).drop i).flatten = cs := by
  rw [← List.flatten_append, List.take_append_drop, flatten_pieces]

theorem take_lineStart (cs : List Char) (i : Nat) :
    cs.take (lineStart cs i) = ((pieces cs).take i).flatten := by
  calc cs.take (lineStart cs i)
      = (((pieces cs).take i).flatten ++ ((pieces cs).drop i).flatten).take (lineStart cs i) := by
        rw [flatten_take_append_drop_pieces]
    _ = ((pieces cs).take i).flatten := List.take_left' rfl

theorem drop_lineStart (cs : List Char) (i : Nat) :
    cs.drop (lineStart cs i) = ((pieces cs).drop i).flatten := by
  calc cs.drop (lineStart cs i)
      = (((pieces cs).take i).flatten ++ ((pieces cs).drop i).flatten).drop (lineStart cs i) := by
        rw [flatten_take_append_drop_pieces]
    _ = ((pieces cs).drop i).flatten := List.drop_left' rfl

theorem pieces_split {cs : List Char} {i : Nat} (hi : i < (pieces cs).length) :
    pieces cs = (pieces cs).take i ++ (pieces cs)[i] :: (pieces cs).drop (i + 1) := by
  rw [← List.drop_eq_getElem_cons hi, List.take_append_drop]

/-- A piece above the last one is a line feed after a text without one. -/
theorem eq_of_mem_take_pieces {cs : List Char} {i : Nat} (hi : i < (pieces cs).length)
    {p : List Char} (hp : p ∈ (pieces cs).take i) : ∃ q, p = q ++ ['\n'] ∧ '\n' ∉ q := by
  have hlast : p.getLast? = some '\n' := by
    refine piecesFrom_dropLast [] cs p ?_
    rw [← pieces, List.dropLast_eq_take]
    exact List.take_subset_take_left _ (by omega) hp
  rcases piecesFrom_single [] cs (by simp) p (List.mem_of_mem_take hp) with hnl | hq
  · exact absurd (List.mem_of_getLast? hlast) hnl
  · exact hq

/-- Above the `i`-th line stand exactly `i` line feeds. -/
theorem count_take_lineStart {cs : List Char} {i : Nat} (hi : i < (pieces cs).length) :
    (cs.take (lineStart cs i)).count '\n' = i := by
  rw [take_lineStart, List.count_flatten]
  have hone : ∀ p ∈ (pieces cs).take i, p.count '\n' = 1 := by
    intro p hp
    obtain ⟨q, rfl, hq⟩ := eq_of_mem_take_pieces hi hp
    simp [List.count_eq_zero_of_not_mem hq]
  rw [List.map_congr_left hone, List.map_const', List.sum_replicate, List.length_take]
  simp only [smul_eq_mul, mul_one]
  omega

/-- The text above the `i`-th line reads as the lines above it. -/
theorem lines_take_lineStart (cs : List Char) (i : Nat) :
    lines (cs.take (lineStart cs i)) = (lines cs).take i := by
  rw [take_lineStart, lines, pieces_flatten_of_pieces (List.take_append_drop i (pieces cs)).symm,
    lines, List.map_take]

/-- The text from the `i`-th line on reads as the lines from it on. -/
theorem lines_drop_lineStart {cs : List Char} {i : Nat} (hi : i < (pieces cs).length) :
    lines (cs.drop (lineStart cs i)) = (lines cs).drop i := by
  have hends : EndsLine ((pieces cs).take i).flatten :=
    endsLine_flatten_of_pieces (pieces_split hi)
  have hsplit := pieces_append hends ((pieces cs).drop i).flatten
  rw [flatten_take_append_drop_pieces,
    pieces_flatten_of_pieces (List.take_append_drop i (pieces cs)).symm] at hsplit
  have hrest : pieces ((pieces cs).drop i).flatten = (pieces cs).drop i := by
    conv_lhs at hsplit => rw [← List.take_append_drop i (pieces cs)]
    exact (List.append_cancel_left hsplit).symm
  rw [drop_lineStart, lines, hrest, lines, List.map_drop]

theorem lineStart_le_succ (cs : List Char) (i : Nat) : lineStart cs i ≤ lineStart cs (i + 1) := by
  simp only [lineStart, List.take_add_one, List.flatten_append, List.length_append]
  omega

theorem lineStart_lt_succ {cs : List Char} {i : Nat} (hi : i < (pieces cs).length) :
    lineStart cs i < lineStart cs (i + 1) := by
  have hne : (pieces cs)[i] ≠ [] := ne_nil_of_mem_piecesFrom [] cs _ (List.getElem_mem hi)
  have hpos := List.length_pos_iff.mpr hne
  simp only [lineStart, List.take_add_one, List.getElem?_eq_getElem hi, Option.toList_some,
    List.flatten_append, List.flatten_cons, List.flatten_nil, List.append_nil, List.length_append]
  omega

/-- Lines further down start further into the text. -/
theorem lineStart_lt {cs : List Char} {i j : Nat} (hi : i < (pieces cs).length) (hij : i < j) :
    lineStart cs i < lineStart cs j :=
  calc lineStart cs i < lineStart cs (i + 1) := lineStart_lt_succ hi
    _ ≤ lineStart cs j := monotone_nat_of_le_succ (lineStart_le_succ cs) hij

/-- A line starts the text or follows a line feed. -/
theorem lineStart_starts {cs : List Char} {i : Nat} (hi : i < (pieces cs).length) :
    lineStart cs i = 0 ∨ cs[lineStart cs i - 1]? = some '\n' := by
  rcases endsLine_flatten_of_pieces (pieces_split hi) with h | h
  · left
    simp [lineStart, h]
  · right
    have hk : min (lineStart cs i) cs.length = lineStart cs i := by
      have hlen := congrArg List.length (take_lineStart cs i)
      rw [List.length_take] at hlen
      exact hlen
    rw [← take_lineStart, List.getLast?_eq_getElem?, List.getElem?_take, List.length_take, hk] at h
    split at h
    · exact h
    · simp at h

end Text

/-! ### Where the HTML scan finds its elements -/

namespace Html

/-- The scan of a text, started on line `line`, finds the element of `p` at offset `k`, numbered
    by the line feeds before it. -/
def FoundAt (cs : List Char) (line k : Nat) (p : Nat × Element) : Prop :=
  element? (cs.drop k) = some p.2 ∧ p.1 = line + (cs.take k).count '\n'

/-- What the scan finds in the rest of a text, it finds one offset further in the whole. -/
theorem FoundAt.cons {c : Char} {cs : List Char} {line k : Nat} {p : Nat × Element}
    (h : FoundAt cs (if c = '\n' then line + 1 else line) k p) :
    FoundAt (c :: cs) line (k + 1) p := by
  obtain ⟨he, hl⟩ := h
  refine ⟨he, ?_⟩
  rw [hl, List.take_succ_cons, List.count_cons]
  split <;> simp_all
  omega

/-- Every element the scan finds opens at its own offset, the offsets growing down the list, and
    is numbered by the line feeds before that offset: the scan counts them as it passes each
    character, those inside elements it passes over included. -/
theorem scanFrom_sources (skip line : Nat) (cs : List Char) :
    ∃ ks : List Nat, ks.Pairwise (· < ·) ∧
      List.Forall₂ (FoundAt cs line) ks (scanFrom skip line cs) := by
  induction cs generalizing skip line with
  | nil => exact ⟨[], .nil, by cases skip <;> exact .nil⟩
  | cons c cs ih =>
    -- what is found past the first character is found one offset further in
    have hrest : ∀ skip', ∃ ks : List Nat, ks.Pairwise (· < ·) ∧ (∀ k ∈ ks, 0 < k) ∧
        List.Forall₂ (FoundAt (c :: cs) line) ks
          (scanFrom skip' (if c = '\n' then line + 1 else line) cs) := by
      intro skip'
      obtain ⟨ks, hsort, hall⟩ := ih skip' (if c = '\n' then line + 1 else line)
      refine ⟨ks.map (· + 1), by simpa [List.pairwise_map] using hsort, by simp, ?_⟩
      exact List.forall₂_map_left_iff.mpr (hall.imp fun _ _ h => h.cons)
    cases skip with
    | succ skip =>
      obtain ⟨ks, hsort, -, hall⟩ := hrest skip
      exact ⟨ks, hsort, by simpa [scanFrom] using hall⟩
    | zero =>
      cases he : element? (c :: cs) with
      | none =>
        obtain ⟨ks, hsort, -, hall⟩ := hrest 0
        exact ⟨ks, hsort, by simpa [scanFrom, he] using hall⟩
      | some e =>
        obtain ⟨ks, hsort, hpos, hall⟩ := hrest (e.span - 1)
        refine ⟨0 :: ks, List.pairwise_cons.mpr ⟨hpos, hsort⟩, ?_⟩
        simp only [scanFrom, he]
        exact .cons ⟨by simpa using he, by simp⟩ hall

/-- Every HTML heading comes from an element that opens at its own offset, the offsets growing
    down the list: its level is the element's, its text the element's text, and its line one more
    than the line feeds before the offset. -/
theorem read_sources (content : String) :
    ∃ ks : List Nat, ks.Pairwise (· < ·) ∧
      List.Forall₂ (fun k h => ∃ e, element? (content.toList.drop k) = some e ∧
        e.opening = h.level ∧ e.closing = h.level ∧ headingText e.body = h.text.toList ∧
        h.line = (content.toList.take k).count '\n' + 1) ks (read content) := by
  obtain ⟨ks, hsort, hall⟩ := scanFrom_sources 0 1 content.toList
  obtain ⟨ks', hsub, hkept⟩ := forall₂_filterMap (f := fun (p : Nat × Element) =>
    if p.2.opening = p.2.closing then
      if (headingText p.2.body).isEmpty then none
      else some (⟨p.2.opening, String.ofList (headingText p.2.body), p.1⟩ : Heading)
    else none) hall
  refine ⟨ks', hsort.sublist hsub, hkept.imp fun k h hk => ?_⟩
  obtain ⟨⟨line, e⟩, ⟨he, hline⟩, hf⟩ := hk
  dsimp only at hf he hline
  split at hf
  · rename_i hoc
    split at hf
    · cases hf
    · cases hf
      exact ⟨e, he, rfl, hoc.symm, by simp, by simp [hline]; omega⟩
  · cases hf

end Html

namespace Scanner

/-- Every heading a scanner reads from a text comes from the line that starts at its own offset,
    the offsets growing down the list: the scanner gives it reading that line in the state the
    lines above leave, with the line below, and its line is one more than the line feeds before
    the offset. -/
theorem read_sources (S : Scanner) (cs : List Char) :
    ∃ ks : List Nat, ks.Pairwise (· < ·) ∧
      List.Forall₂ (fun k h => ((k = 0 ∨ cs[k - 1]? = some '\n') ∧
        ∃ l, (Text.lines (cs.drop k)).head? = some l ∧
          S.heading (S.after S.start (Text.lines (cs.take k))) l (Text.lines (cs.drop k))[1]? =
            some (h.level, h.text)) ∧
        h.line = (cs.take k).count '\n' + 1) ks (S.read (Text.lines cs)) := by
  obtain ⟨idx, hsort, hall⟩ := S.scan_sources S.start 1 (Text.lines cs) none
  -- each line index becomes the offset where that line starts
  have hlen : (Text.lines cs).length = (Text.pieces cs).length := List.length_map _
  have hbound : ∀ i ∈ idx, i < (Text.pieces cs).length := by
    intro i hi
    obtain ⟨h, -, l, hl, -⟩ := exists_of_mem_forall₂_left hall i hi
    exact hlen ▸ (List.getElem?_eq_some_iff.mp hl).1
  refine ⟨idx.map (Text.lineStart cs), ?_, ?_⟩
  · rw [List.pairwise_map]
    exact hsort.imp_of_mem fun hi _ hij => Text.lineStart_lt (hbound _ hi) hij
  · refine List.forall₂_map_left_iff.mpr (hall.imp fun i h hih => ?_)
    obtain ⟨l, hl, hline, hhead⟩ := hih
    have hib : i < (Text.pieces cs).length := hlen ▸ (List.getElem?_eq_some_iff.mp hl).1
    have hdrop := Text.lines_drop_lineStart hib
    refine ⟨⟨Text.lineStart_starts hib, l, ?_, ?_⟩,
      by rw [hline, Text.count_take_lineStart hib]; omega⟩
    · rw [hdrop, List.head?_drop, hl]
    · rw [Text.lines_take_lineStart, hdrop, List.getElem?_drop]
      simpa [List.head?_drop, List.getElem?_drop] using hhead

end Scanner

/-! ### Line numbers count line feeds -/

namespace Spelling

/-- Where the source of a heading starts in a text. A line scanner gives the heading reading the
    line that starts at offset `k`, in the state the lines above leave and with the line below it;
    in HTML an element that gives the heading opens at `k`. -/
def SourceAt (s : Spelling) (character extension : String) (cs : List Char) (k : Nat)
    (h : Heading) : Prop :=
  match s.scanner? character extension with
  | some S => (k = 0 ∨ cs[k - 1]? = some '\n') ∧
      ∃ l, (Text.lines (cs.drop k)).head? = some l ∧
        S.heading (S.after S.start (Text.lines (cs.take k))) l (Text.lines (cs.drop k))[1]? =
          some (h.level, h.text)
  | none => ∃ e, Html.element? (cs.drop k) = some e ∧ e.opening = h.level ∧
      e.closing = h.level ∧ Html.headingText e.body = h.text.toList

end Spelling

/-- Headings at growing offsets have line numbers that never decrease. -/
theorem pairwise_line_of_offsets {cs : List Char} {R : Nat → Heading → Prop} {ks : List Nat}
    {hs : List Heading} (hsort : ks.Pairwise (· < ·))
    (hall : List.Forall₂ (fun k h => R k h ∧ h.line = (cs.take k).count '\n' + 1) ks hs) :
    (hs.map Heading.line).Pairwise (· ≤ ·) := by
  induction hall with
  | nil => exact .nil
  | @cons k h ks hs hkh hrest ih =>
    obtain ⟨hlt, hsort'⟩ := List.pairwise_cons.mp hsort
    refine List.pairwise_cons.mpr ⟨fun l hl => ?_, ih hsort'⟩
    obtain ⟨h', hh', rfl⟩ := List.mem_map.mp hl
    obtain ⟨k', hk', hk'h'⟩ := exists_of_mem_forall₂_right hrest h' hh'
    -- fewer characters hold no more line feeds
    have hcount : (cs.take k).count '\n' ≤ (cs.take k').count '\n' :=
      ((List.take_prefix_take_left (hlt k' hk').le).sublist).count_le _
    rw [hkh.2, hk'h'.2]
    omega

/-- Every reader numbers each heading one more than the line feeds before the offset where its
    source starts, so that the number indexes the text's lines; the offsets grow down the list,
    and the line numbers never decrease. For a line scanner the source starts the line it reads
    the heading at, for HTML it is the `<` of the opening tag. -/
theorem heading_lines_count_feeds (s : Spelling) (character extension content : String) :
    ((s.read character extension content).map Heading.line).Pairwise (· ≤ ·) ∧
    ∃ ks : List Nat, ks.Pairwise (· < ·) ∧
      List.Forall₂ (fun k h => s.SourceAt character extension content.toList k h ∧
        h.line = (content.toList.take k).count '\n' + 1) ks (s.read character extension content) := by
  suffices hsrc : ∃ ks : List Nat, ks.Pairwise (· < ·) ∧
      List.Forall₂ (fun k h => s.SourceAt character extension content.toList k h ∧
        h.line = (content.toList.take k).count '\n' + 1) ks (s.read character extension content) by
    obtain ⟨ks, hsort, hall⟩ := hsrc
    exact ⟨pairwise_line_of_offsets hsort hall, ks, hsort, hall⟩
  cases hS : s.scanner? character extension with
  | none =>
    have hs : s = .html := by cases s <;> simp_all [Spelling.scanner?]
    subst hs
    obtain ⟨ks, hsort, hall⟩ := Html.read_sources content
    refine ⟨ks, hsort, hall.imp fun k h hk => ?_⟩
    obtain ⟨e, he, hopen, hclose, htext, hline⟩ := hk
    exact ⟨by simp only [Spelling.SourceAt, hS]; exact ⟨e, he, hopen, hclose, htext⟩, hline⟩
  | some S =>
    rw [Spelling.read_eq_scan hS]
    obtain ⟨ks, hsort, hall⟩ := S.read_sources content.toList
    refine ⟨ks, hsort, hall.imp fun k h hk => ⟨?_, hk.2⟩⟩
    simp only [Spelling.SourceAt, hS]
    exact hk.1

end Outline
