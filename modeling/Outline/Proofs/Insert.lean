/-
Module: Outline.Proofs.Insert
Purpose: A table of contents put into a text that holds none. The new block goes at the top, or
  after the preamble, inside its delimiters and two line endings away from the text; the result
  is the text framed around the block, and what the text around the block reads to is what the
  old text read to, moved down. The preamble's last line keeps what it holds, carriage returns
  included: every reader reads it alike with them and without them, and a lone carriage return
  that ends the text ends the last delimiter line below the block.
Main exports: KeepsHeadings, Frames
Main statements: withEnding_outer, apply_unmarked_top, apply_unmarked_after, frames_top,
  frames_after, update_unmarked_settles
Open obligations: none
-/
import Mathlib
import Outline.Proofs.Preamble
import Outline.Proofs.Refresh

namespace Outline

/-! ### Lines joined around a middle -/

namespace Text

/-- Lines joined by a separator, around one of them: those before each followed by the separator,
    the middle one, and those after each preceded by it. -/
theorem intercalate_around (sep : List Char) (A : List (List Char)) (m : List Char)
    (C : List (List Char)) :
    sep.intercalate (A ++ [m] ++ C) = writeLines sep A ++ m ++ C.flatMap (sep ++ ·) := by
  induction A with
  | nil =>
    induction C generalizing m with
    | nil => simp
    | cons c C ih =>
      rw [List.nil_append, List.singleton_append, List.intercalate_cons_of_ne_nil (by simp)]
      simpa using ih c
  | cons a A ih =>
    rw [List.cons_append, List.cons_append, List.intercalate_cons_of_ne_nil (by simp), ih,
      writeLines_cons]
    simp only [List.append_assoc]

/-- Lines written after a text that ends a line read back as themselves after its lines. -/
theorem lines_append_writeLines {P : List Char} (hP : EndsLine P) {e : List Char} (he : IsEol e)
    {W : List (List Char)} (hW : ∀ w ∈ W, '\n' ∉ w ∧ w.getLast? ≠ some '\r') :
    lines (P ++ writeLines e W) = lines P ++ W := by
  have h := lines_writeLines he (fun w hw => (hW w hw).1) []
  rw [List.append_nil, lines_nil, List.append_nil] at h
  rw [lines_append hP, h]
  congr 1
  conv_rhs => rw [← List.map_id W]
  exact List.map_congr_left fun w hw => lineOf_written_of_getLast? he (hW w hw).2

end Text

namespace Block

theorem withEnding_flatMap (eol : List Char) {ls : List (List Char)}
    (hls : ∀ l ∈ ls, '\n' ∉ l) :
    withEnding eol (ls.flatMap (['\n'] ++ ·)) = ls.flatMap (eol ++ ·) := by
  induction ls with
  | nil => rfl
  | cons l ls ih =>
    rw [List.flatMap_cons, List.flatMap_cons, withEnding_append, withEnding_append,
      withEnding_newline, withEnding_of_not_mem eol (hls l List.mem_cons_self),
      ih (fun m hm => hls m (List.mem_cons_of_mem l hm))]

/-! ### The block with its delimiters -/

section Outer

open Registry

variable {o : Options} (hc : o.character = builtin.character o.extension)
include hc

/-- A table of contents written with a line ending, delimiters included: the delimiter lines
    before, each followed by the ending, the framed block, and the delimiter lines after, each
    after an ending. -/
theorem withEnding_outer {s : String} (ht : (generate builtin o s).isEmpty = false) (eol : List Char) :
    withEnding eol (generate builtin o s).outer.toList =
      Text.writeLines eol ((builtin.delimiters o.extension).before.map String.toList) ++
        withEnding eol (Tree.innerText o.character o.name (bodyOf o (headingsOf builtin o s))) ++
        ((builtin.delimiters o.extension).after.map String.toList).flatMap (eol ++ ·) := by
  have hfit := fitCharacter_options hc
  have hplain := Tree.plain_of_fitCharacter hfit
  obtain ⟨hne, hinner⟩ := inner_generate hfit ht
  obtain ⟨hb, ha⟩ := delimiters_documentFor builtin o hplain hne
  have hd := builtin_delimiter_lines _ (builtin_delimiters_mem o.extension)
  have hbefore : ∀ l ∈ (builtin.delimiters o.extension).before.map String.toList, '\n' ∉ l := by
    intro l hl
    obtain ⟨m, hm, rfl⟩ := List.mem_map.mp hl
    exact (hd m (List.mem_append_left _ hm)).2
  have hafter : ∀ l ∈ (builtin.delimiters o.extension).after.map String.toList, '\n' ∉ l := by
    intro l hl
    obtain ⟨m, hm, rfl⟩ := List.mem_map.mp hl
    exact (hd m (List.mem_append_right _ hm)).2
  have houter : (generate builtin o s).outer.toList =
      ['\n'].intercalate ((builtin.delimiters o.extension).before.map String.toList ++
        [(generate builtin o s).inner.toList] ++
        (builtin.delimiters o.extension).after.map String.toList) := by
    have hd' : (documentFor builtin o (headingsOf builtin o s)).isEmpty = false :=
      isEmpty_documentFor builtin o hplain hne
    simp only [generate, Document.outer, hd', Bool.false_eq_true, if_false,
      String.toList_intercalate, List.map_append, List.map_cons, List.map_nil, hb, ha]
    rfl
  rw [houter, Text.intercalate_around, hinner, withEnding_append, withEnding_append,
    withEnding_writeLines eol hbefore, withEnding_flatMap eol hafter]

end Outer

/-! ### Putting a block into a text without one -/

theorem findMarkers_none {begin stop : List Char} {L : List Line} (h : ∀ l ∈ L, l.text ≠ begin) :
    findMarkers begin stop L = none := by
  rw [← List.append_nil L, findMarkers_append h []]
  rfl

section Unmarked

variable {o : Options} {cs : List Char} (hbm : Unmarked o.character cs) (toc : Toc)
include hbm

/-- A text without an opening marker line and without a preamble gets the block at the top, two
    line endings above the text. -/
theorem apply_unmarked_top (hpre : preambleEnd cs o.extension = none) :
    (apply (String.ofList cs) toc o).content =
      String.ofList (withEnding (lineEnding cs) toc.outer.toList ++ lineEnding cs ++
        lineEnding cs ++ cs) := by
  have hnone : findBlock cs o.character = none := findMarkers_none hbm
  simp only [apply, String.toList_ofList, hnone, hpre]

/-- A text without an opening marker line gets the block after its preamble, two line endings
    below it, and the line ending again when nothing follows. -/
theorem apply_unmarked_after {stop : Nat} (hpre : preambleEnd cs o.extension = some stop) :
    (apply (String.ofList cs) toc o).content =
      String.ofList (cs.take stop ++ lineEnding cs ++ lineEnding cs ++
        withEnding (lineEnding cs) toc.outer.toList ++
        (if (cs.drop stop).isEmpty then lineEnding cs else cs.drop stop)) := by
  have hnone : findBlock cs o.character = none := findMarkers_none hbm
  simp only [apply, String.toList_ofList, hnone, hpre]

end Unmarked

/-! ### The frame an insertion makes -/

theorem Unmarked.append {c : String} {A B : List Char} (hA : Text.EndsLine A) :
    Unmarked c (A ++ B) ↔ Unmarked c A ∧ Unmarked c B := by
  simp only [Unmarked, linesWithOffsets_append hA, List.mem_append, List.mem_map]
  constructor
  · intro h
    refine ⟨fun l hl => h l (Or.inl hl), fun l hl => ?_⟩
    simpa using h (l.shift A.length) (Or.inr ⟨l, hl, rfl⟩)
  · rintro ⟨hA', hB'⟩ l (hl | ⟨m, hm, rfl⟩)
    · exact hA' l hl
    · simpa using hB' m hm

/-- Lines written with a line ending, none of them read back as the opening marker, hold none. -/
theorem unmarked_writeLines_of_lineOf {c : String} {e : List Char} (he : Text.IsEol e)
    {W : List (List Char)}
    (hW : ∀ w ∈ W, '\n' ∉ w ∧ Text.lineOf (w ++ e) ≠ (Tree.beginMarker c).toList) :
    Unmarked c (Text.writeLines e W) := by
  intro l hl
  have htexts := texts_linesWithOffsets_writeLines he (fun w hw => (hW w hw).1) []
  rw [List.append_nil] at htexts
  have hmem : l.text ∈ W.map fun w => Text.lineOf (w ++ e) := by
    have h : l.text ∈ (linesWithOffsets (Text.writeLines e W)).map Line.text :=
      List.mem_map_of_mem hl
    rw [htexts] at h
    simpa [linesWithOffsets, Text.pieces_nil, locate] using h
  obtain ⟨w, hw, hlw⟩ := List.mem_map.mp hmem
  rw [← hlw]
  exact (hW w hw).2

/-- Lines written with a line ending, none of them the opening marker or ending with a carriage
    return, hold none. -/
theorem unmarked_writeLines {c : String} {e : List Char} (he : Text.IsEol e)
    {W : List (List Char)}
    (hW : ∀ w ∈ W, '\n' ∉ w ∧ w.getLast? ≠ some '\r' ∧ w ≠ (Tree.beginMarker c).toList) :
    Unmarked c (Text.writeLines e W) :=
  unmarked_writeLines_of_lineOf he fun w hw =>
    ⟨(hW w hw).1, by rw [Text.lineOf_written_of_getLast? he (hW w hw).2.1]; exact (hW w hw).2.2⟩

/-- What follows a closing marker when a line ending follows it. -/
theorem endsMarker_eol {eol : List Char} (heol : Text.IsEol eol) (R : List Char) :
    EndsMarker (eol ++ R) := by
  rcases heol with rfl | rfl
  · exact Or.inr (Or.inr (Or.inl ⟨R, rfl⟩))
  · exact Or.inr (Or.inr (Or.inr ⟨R, rfl⟩))

/-- Lines each written after a line ending keep what follows a closing marker. -/
theorem endsMarker_flatMap {e : List Char} (he : Text.IsEol e) (Af : List (List Char))
    {R : List Char} (hR : EndsMarker R) : EndsMarker (Af.flatMap (e ++ ·) ++ R) := by
  cases Af with
  | nil => simpa using hR
  | cons a Af =>
    rw [List.flatMap_cons, List.append_assoc, List.append_assoc]
    exact endsMarker_eol he _

/-- What follows a closing marker that the delimiters after a block and a line ending follow. -/
theorem endsMarker_after {e eol : List Char} (he : Text.IsEol e) (heol : Text.IsEol eol)
    (Af : List (List Char)) (R : List Char) : EndsMarker (Af.flatMap (e ++ ·) ++ eol ++ R) := by
  rw [List.append_assoc]
  exact endsMarker_flatMap he Af (endsMarker_eol heol R)

/-- Lines written after a text that ends a line keep its line ending, and give their own when
    the text is empty. -/
theorem lineEnding_written_after {P : List Char} (hP : Text.EndsLine P) {e : List Char}
    (he : Text.IsEol e) (heP : '\n' ∈ P → lineEnding P = e) {W : List (List Char)}
    (hW : ∀ w ∈ W, '\n' ∉ w ∧ w.getLast? ≠ some '\r') :
    (if P ++ Text.writeLines e W = [] then e else lineEnding (P ++ Text.writeLines e W)) = e := by
  by_cases hnl : '\n' ∈ P
  · have hne : P ++ Text.writeLines e W ≠ [] := by
      intro h
      rw [(List.append_eq_nil_iff.mp h).1] at hnl
      simp at hnl
    rw [if_neg hne, lineEnding_append hnl, heP hnl]
  · -- a text that ends a line without a line feed is empty
    have hP0 : P = [] := hP.resolve_right fun h => hnl (List.mem_of_getLast? h)
    subst hP0
    cases W with
    | nil => simp
    | cons w W =>
      have hne : w ++ e ++ Text.writeLines e W ≠ [] := by
        rcases he with rfl | rfl <;> simp
      rw [List.nil_append, Text.writeLines_cons, if_neg hne,
        lineEnding_writeLine he (hW w List.mem_cons_self).1 (hW w List.mem_cons_self).2]

open Registry in
/-- Text around a block that keeps the headings of a text: whatever block it frames, written with
    any line ending, the framed text reads to headings that list what the text's headings list,
    those below the block moved down by its height. -/
def KeepsHeadings (o : Options) (cs u v : List Char) : Prop :=
  ∃ A B : List Heading,
    (∀ e b, Text.IsEol e → Tree.BodyLines o.character b →
      headingsOf builtin o (framed o u v e b) = A ++ B.map (Heading.shift (b.length + 3))) ∧
    (headingsOf builtin o (String.ofList cs)).map Heading.entry = (A ++ B).map Heading.entry

/-- Text `u` above and `v` below a block that frame it as an update finds and keeps it: `u` ends
    a line and holds no opening marker, `v` starts where the closing marker's line ends, the
    block's line ending is that of the text `cs`, and the frame keeps the headings of `cs`. -/
structure Frames (o : Options) (cs u v : List Char) : Prop where
  endsLine : Text.EndsLine u
  unmarked : Unmarked o.character u
  endsMarker : EndsMarker v
  stable : (if u = [] then lineEnding cs else lineEnding u) = lineEnding cs
  keeps : KeepsHeadings o cs u v

/-- The delimiter lines hold no line feed, end with no carriage return, and are no box line. -/
theorem delimiter_written (extension : String) (c : String) :
    ∀ w ∈ ((Registry.builtin.delimiters extension).before ++
      (Registry.builtin.delimiters extension).after).map String.toList,
      '\n' ∉ w ∧ w.getLast? ≠ some '\r' ∧ w ≠ (Tree.beginMarker c).toList := by
  have hends : ∀ d ∈ Registry.builtinDelimiterValues, ∀ s ∈ d.before ++ d.after,
      s.toList.getLast? ≠ some '┐' := by
    decide
  intro w hw
  obtain ⟨s, hs, rfl⟩ := List.mem_map.mp hw
  have hd := Registry.builtin_delimiters_mem extension
  obtain ⟨hr, hn⟩ := Registry.builtin_delimiter_lines _ hd s hs
  refine ⟨hn, hr, fun heq => hends _ hd s hs ?_⟩
  rw [heq, Tree.getLast?_beginMarker]

/-- The delimiter lines before a block: no line feed, no carriage return at the end, no
    opening marker. -/
theorem before_written (extension c : String) :
    ∀ w ∈ (Registry.builtin.delimiters extension).before.map String.toList,
      '\n' ∉ w ∧ w.getLast? ≠ some '\r' ∧ w ≠ (Tree.beginMarker c).toList := fun w hw =>
  delimiter_written extension c w (by rw [List.map_append]; exact List.mem_append_left _ hw)

/-- The delimiter lines after a block are lines of their own, none of them empty. -/
theorem after_written (extension : String) :
    ∀ w ∈ (Registry.builtin.delimiters extension).after.map String.toList,
      '\n' ∉ w ∧ w.getLast? ≠ some '\r' ∧ w ≠ [] := by
  have hne : ∀ d ∈ Registry.builtinDelimiterValues, ∀ s ∈ d.after, s.toList ≠ [] := by
    decide
  intro w hw
  obtain ⟨s, hs, rfl⟩ := List.mem_map.mp hw
  have hd := Registry.builtin_delimiters_mem extension
  obtain ⟨hr, hn⟩ := Registry.builtin_delimiter_lines _ hd s (List.mem_append_right _ hs)
  exact ⟨hn, hr, hne _ hd s hs⟩

/-- A blank line holds no line feed, does not end with a carriage return and is no opening
    marker. -/
theorem blank_written (c : String) :
    '\n' ∉ ([] : List Char) ∧ ([] : List Char).getLast? ≠ some '\r' ∧
      [] ≠ (Tree.beginMarker c).toList := by
  refine ⟨List.not_mem_nil, by simp, fun h => ?_⟩
  rw [Tree.toList_beginMarker] at h
  simp at h

/-- Below a new block, the closing marker and the delimiters after it read as lines of their own,
    whatever line ending joins them and whatever follows. -/
theorem lines_closing {o : Options} (hc : o.character = Registry.builtin.character o.extension)
    {e E : List Char} (he : Text.IsEol e) (hE : Text.IsEol E) (rest : List Char) :
    Text.lines ((Tree.endMarker o.character).toList ++
      (((Registry.builtin.delimiters o.extension).after.map String.toList).flatMap (e ++ ·) ++
        E ++ rest)) =
      ((Tree.endMarker o.character).toList ::
        (Registry.builtin.delimiters o.extension).after.map String.toList) ++ Text.lines rest := by
  have hAf : ∀ w ∈ (Registry.builtin.delimiters o.extension).after.map String.toList,
      '\n' ∉ w ∧ w.getLast? ≠ some '\r' := fun w hw =>
    (after_written o.extension w hw).imp_right And.left
  have h := Text.lines_after_each he hE hAf rest
    (Tree.not_mem_endMarker (not_mem_character (fitCharacter_options hc)))
    (by simp [Tree.getLast?_endMarker])
  simp only [List.append_assoc] at h ⊢
  exact h

section Keeps

open Registry

variable {o : Options} (hc : o.character = builtin.character o.extension) {S : Scanner}
  (hS : (builtin.spelling o.extension).scanner? o.character o.extension = some S)
  (hscr : Screened S o.character.toList (builtin.delimiters o.extension))
include hc hS hscr

/-- A frame keeps the headings of a text when its lines are the text's lines with quiet lines put
    in where a line ends: those above the block after the lines above, those from the closing
    marker down before the lines below, the lines above reading, as written above the block, as
    they read in the text, and as if the text ended there, and the last line put in below giving
    nothing above the rest. -/
theorem keepsHeadings_of_lines (hname : '\n' ∉ o.name.toList) {cs u v : List Char}
    (hu : Text.EndsLine u) (hv : EndsMarker v) {L₀ L₀' Q M R : List (List Char)}
    (hlu : Text.lines u = L₀' ++ Q)
    (hlv : Text.lines ((Tree.endMarker o.character).toList ++ v) = M ++ R)
    (hcs : Text.lines cs = L₀ ++ R)
    (hsame : S.scan S.start 1 L₀' none = S.scan S.start 1 L₀ none)
    (hafter : S.after S.start L₀' = S.after S.start L₀)
    (hQ : ∀ q ∈ Q, S.Quiet q) (hM : ∀ m ∈ M, S.Quiet m)
    (hend : S.scan S.start 1 L₀ R.head? = S.scan S.start 1 L₀ none)
    (hlast : ∀ m ∈ M.getLast?, S.heading (S.after S.start L₀) m R.head? = none) :
    KeepsHeadings o cs u v := by
  refine ⟨_, _, fun e b he hb => headingsOf_framed_eq hc hv hS hscr hname hu he hb, ?_⟩
  rw [headingsOf, Spelling.read_eq_scan hS, String.toList_ofList, hcs, ← Heading.upTo_append,
    hlu, hlv]
  exact Heading.upTo_entries o.depth
    (Scanner.entries_inserted hQ hM hsame hafter hend hlast _)

omit hc hS in
/-- The delimiters before a block pass quietly. -/
theorem quiet_opening :
    ∀ m ∈ (builtin.delimiters o.extension).before.map String.toList, S.Quiet m := by
  intro m hm
  obtain ⟨d, hd, rfl⟩ := List.mem_map.mp hm
  exact hscr.delimiter d (List.mem_append_left _ hd)

omit hc hS in
/-- The closing marker and the delimiters after it pass quietly. -/
theorem quiet_closing : ∀ m ∈ (Tree.endMarker o.character).toList ::
    (builtin.delimiters o.extension).after.map String.toList, S.Quiet m := by
  intro m hm
  rcases List.mem_cons.mp hm with rfl | hm
  · simpa using hscr.drawn _ (Tree.opens_endMarker o.character
      (P := (· ∈ Tree.openingGlyphs)) (by decide) [])
  · obtain ⟨d, hd, rfl⟩ := List.mem_map.mp hm
    exact hscr.delimiter d (List.mem_append_right _ hd)

/-- Where a new block meets the text below it. Every spelling but roff and underlining reads a
    line without the one below it. Roff reads a macro line with the line below, and underlining a
    title; their preamble is a shebang, which is no macro line, and underlining needs the line
    after the shebang to be no underline, for it would underline the block's last line. HTML has
    no line scanner. -/
theorem junction {bare : List Char} {below : Option (List Char)}
    (hsheb : builtin.spelling o.extension = .roff ∨ builtin.spelling o.extension = .underlined →
      "#!".toList.isPrefixOf bare = true)
    (hrst : builtin.spelling o.extension = .underlined →
      ∀ b ∈ below, Underline.adornment? b = none) :
    (∀ s, S.heading s bare below = S.heading s bare none) ∧
      ∀ m ∈ ((Tree.endMarker o.character).toList ::
        (builtin.delimiters o.extension).after.map String.toList).getLast?,
        ∀ s, S.heading s m below = none := by
  have hquiet := quiet_closing hscr
  have hlocal : S.Local → (∀ s, S.heading s bare below = S.heading s bare none) ∧
      ∀ m ∈ ((Tree.endMarker o.character).toList ::
        (builtin.delimiters o.extension).after.map String.toList).getLast?,
        ∀ s, S.heading s m below = none := fun hl =>
    ⟨fun s => hl s bare below none, fun m hm s =>
      (hl s m below none).trans ((hquiet m (List.mem_of_getLast? hm)).alone s)⟩
  cases hsp' : builtin.spelling o.extension <;>
    simp only [hsp', Spelling.scanner?, Option.some.injEq, reduceCtorEq] at hS <;> subst hS
  case bars => exact hlocal fun _ _ _ _ => rfl
  case repeated => exact hlocal fun _ _ _ _ => rfl
  case pod => exact hlocal fun _ _ _ _ => rfl
  case underlined =>
    -- a line is a title only over an underline
    have hnone : ∀ l s, Underline.scanner.heading s l below = none := by
      intro l s
      cases below with
      | none => rfl
      | some b =>
        simp [Underline.scanner, Underline.titleOf_of_adornment? (hrst hsp' b rfl)]
    refine ⟨fun s => ?_, fun m _ s => hnone m s⟩
    rw [hnone bare s]
    rfl
  case roff =>
    obtain ⟨hchar, hdelim⟩ := builtin_roff hsp'
    -- the shebang and the closing marker are no macro lines
    have hbare : Roff.matchLine bare = none := by
      obtain ⟨t, ht⟩ := List.isPrefixOf_iff_prefix.mp (hsheb (Or.inl hsp'))
      rw [← ht]
      rfl
    have hend : Roff.matchLine (Tree.endMarker o.character).toList = none := by
      obtain ⟨g, rest, heq, -⟩ := Tree.opens_endMarker o.character (P := fun _ => True) trivial []
      rw [List.append_nil] at heq
      rw [heq, hc, hchar]
      rfl
    refine ⟨fun s => by simp [Roff.scanner, hbare], fun m hm s => ?_⟩
    simp only [hdelim, Delimiters.none, List.map_nil, List.getLast?_singleton,
      Option.mem_def, Option.some.injEq] at hm
    subst hm
    simp [Roff.scanner, hend]

omit hc hscr in
/-- The line a preamble ends on reads alike with carriage returns after it and without them. The
    bar and marker readers ignore them; in roff, underlined and POD texts the preamble is a
    shebang on the first line, which is no heading either way. -/
theorem reads_alike {P : List (List Char)} {l : List Char} (k : Nat)
    (hsheb : builtin.spelling o.extension = .roff ∨ builtin.spelling o.extension = .underlined ∨
      builtin.spelling o.extension = .pod → P = [] ∧ "#!".toList <+: l) :
    S.scan S.start 1 (P ++ [l]) none = S.scan S.start 1 (P ++ [l ++ List.replicate k '\r']) none ∧
      S.after S.start (P ++ [l]) = S.after S.start (P ++ [l ++ List.replicate k '\r']) := by
  cases hsp' : builtin.spelling o.extension <;>
    simp only [hsp', Spelling.scanner?, Option.some.injEq, reduceCtorEq] at hS <;> subst hS
  case bars =>
    have h := Bars.scanner_crBlind o.character.toList (o.extension == "r" || o.extension == "rpres")
    exact ⟨(h.scan_concat (fun _ _ _ _ => rfl) _ _ _ _ _ _).symm, (h.after_concat _ _ _ _).symm⟩
  case repeated m =>
    have h := Marker.scanner_crBlind m (m == '#')
    exact ⟨(h.scan_concat (fun _ _ _ _ => rfl) _ _ _ _ _ _).symm, (h.after_concat _ _ _ _).symm⟩
  case underlined =>
    -- a line is a title only over a line below it
    obtain ⟨rfl, -⟩ := hsheb (Or.inr (Or.inl hsp'))
    exact ⟨rfl, rfl⟩
  case roff =>
    obtain ⟨rfl, t, rfl⟩ := hsheb (Or.inl hsp')
    have hnone : ∀ z, Roff.matchLine ('#' :: '!' :: z) = none := fun _ => rfl
    refine ⟨?_, rfl⟩
    simp [Scanner.scan_cons, Roff.scanner, hnone]
  case pod =>
    obtain ⟨rfl, t, rfl⟩ := hsheb (Or.inr (Or.inr hsp'))
    have hnone : ∀ z, Pod.matchLine ('#' :: '!' :: z) = none := fun _ => rfl
    refine ⟨?_, rfl⟩
    simp [Scanner.scan_cons, Pod.scanner, hnone]

omit hc in
/-- A delimiter after a block passes quietly with a carriage return after it too. -/
theorem quiet_after_cr :
    ∀ m ∈ (builtin.delimiters o.extension).after.map String.toList, S.Quiet (m ++ ['\r']) := by
  have hd := builtin_delimiters_mem o.extension
  intro m hm
  obtain ⟨d, hd', rfl⟩ := List.mem_map.mp hm
  have hq := hscr.delimiter d (List.mem_append_right _ hd')
  cases hsp' : builtin.spelling o.extension <;>
    simp only [hsp', Spelling.scanner?, Option.some.injEq, reduceCtorEq] at hS <;> subst hS
  case bars => exact (Bars.scanner_crBlind _ _).quiet (fun _ _ _ _ => rfl) hq
  case repeated => exact (Marker.scanner_crBlind _ _).quiet (fun _ _ _ _ => rfl) hq
  case underlined =>
    -- no delimiter line is an underline, nor is one with a carriage return after it
    have hadorn : ∀ x ∈ builtinDelimiterValues, ∀ s ∈ x.after,
        Underline.adornment? (s.toList ++ ['\r']) = none := by
      decide
    refine ⟨fun _ => rfl, fun _ => rfl, fun s a => ?_⟩
    simp [Underline.scanner, Underline.titleOf_of_adornment? (hadorn _ hd d hd')]
  case roff =>
    simp [(builtin_roff hsp').2, Delimiters.none] at hd'
  case pod =>
    have hpod : ∀ x ∈ builtinDelimiterValues, ∀ s ∈ x.after,
        Pod.matchLine (s.toList ++ ['\r']) = none := by
      decide
    exact ⟨fun _ => by simp [Pod.scanner, hpod _ hd d hd'], fun _ => rfl, fun _ _ => rfl⟩

/-- Below a new block: the closing marker and the delimiters after it, then the text below the
    preamble's last line, after that line's ending, or the lone carriage return that ends the
    text. The lines put in pass quietly, and the last of them gives nothing above the text
    below when the last delimiter line gives nothing above it. -/
theorem closing_lines {e E R : List Char} (he : Text.IsEol e)
    (hE : Text.IsEol E ∨ (E = ['\r'] ∧ R = []))
    (hJ : ∀ m ∈ ((Tree.endMarker o.character).toList ::
      (builtin.delimiters o.extension).after.map String.toList).getLast?, ∀ s,
      S.heading s m (Text.lines R).head? = none) :
    ∃ M, Text.lines ((Tree.endMarker o.character).toList ++
        (((builtin.delimiters o.extension).after.map String.toList).flatMap (e ++ ·) ++ E ++ R)) =
        M ++ Text.lines R ∧ (∀ m ∈ M, S.Quiet m) ∧
        ∀ m ∈ M.getLast?, ∀ s, S.heading s m (Text.lines R).head? = none := by
  rcases hE with hE | ⟨rfl, rfl⟩
  · exact ⟨_, lines_closing hc he hE R, quiet_closing hscr, hJ⟩
  · -- the text ends with the carriage return, which stays on the last line put in
    have hls : ∀ m ∈ (Tree.endMarker o.character).toList ::
        (builtin.delimiters o.extension).after.map String.toList,
        '\n' ∉ m ∧ m.getLast? ≠ some '\r' := by
      intro m hm
      rcases List.mem_cons.mp hm with rfl | hm
      · exact ⟨Tree.not_mem_endMarker (not_mem_character (fitCharacter_options hc)),
          by simp [Tree.getLast?_endMarker]⟩
      · exact (after_written o.extension m hm).imp_right And.left
    have hquiet : ∀ m ∈ Text.lines ((Tree.endMarker o.character).toList ++
        (((builtin.delimiters o.extension).after.map String.toList).flatMap (e ++ ·) ++ ['\r'])),
        S.Quiet m := by
      intro m hm
      rw [← List.append_assoc] at hm
      rcases Text.mem_lines_after_each_cr he hls m hm with hm | ⟨x, hx, rfl⟩
      · exact quiet_closing hscr m hm
      rcases List.mem_cons.mp hx with rfl | hx
      · exact hscr.drawn _ (Tree.opens_endMarker o.character
          (P := (· ∈ Tree.openingGlyphs)) (by decide) ['\r'])
      · exact quiet_after_cr hS hscr x hx
    refine ⟨Text.lines ((Tree.endMarker o.character).toList ++
        (((builtin.delimiters o.extension).after.map String.toList).flatMap (e ++ ·) ++ ['\r'])),
      by simp only [Text.lines_nil, List.append_nil], hquiet,
      fun m hm s => (hquiet m (List.mem_of_getLast? hm)).alone s⟩

end Keeps

section Insertion

open Registry

variable {o : Options} (hc : o.character = builtin.character o.extension)
  (hsp : builtin.spelling o.extension ≠ .html) (hname : '\n' ∉ o.name.toList) {cs : List Char}
  (hbm : Unmarked o.character cs)
include hc hsp hname hbm

omit hname hbm in
/-- A text of one line that opens a preamble and ends with a carriage return has no heading. -/
theorem headingsOf_opening_cr {t : List Char} (hop : Opening t)
    (hl : Text.lines cs = [t ++ ['\r']]) : headingsOf builtin o (String.ofList cs) = [] := by
  obtain ⟨S, hS, -⟩ := builtin_screened hsp o.extension
  have hS' : (builtin.spelling o.extension).scanner? o.character o.extension = some S := by
    rw [hc]
    exact hS
  rw [headingsOf, Spelling.read_eq_scan hS', String.toList_ofList, hl, Scanner.read,
    Scanner.scan_cons]
  simp [Opening.heading_cr hS hop, Heading.upTo_nil]

omit hname hbm in
/-- The text down to the preamble's last line, with the text's line ending after it, keeps that
    line ending. The one text it would change, a single line without a line feed that ends with
    two carriage returns, opens with its preamble line and so holds no heading. -/
theorem lineEnding_above_preamble (ht : (generate builtin o (String.ofList cs)).isEmpty = false)
    {A B : List (List Char)} {p : List Char} (hps : Text.pieces cs = A ++ p :: B)
    (hop : A = [] → Opening (bareLine p)) :
    lineEnding (A.flatten ++ bareLine p ++ lineEnding cs) = lineEnding cs := by
  rcases lineEnding_cut hps with h | ⟨rfl, rfl, hp, -⟩
  · exact h
  · have hlast : (bareLine p ++ ['\r']).getLast? ≠ some '\n' := by simp
    have hl1 : Text.lines cs = [bareLine p ++ ['\r']] := by
      rw [lines_of_pieces hps]
      conv_lhs => rw [hp]
      simp [Text.lineOf, Text.dropLast?_of_getLast?_ne hlast, Text.lines_nil]
    exact absurd (headingsOf_opening_cr hc hsp (hop rfl) hl1)
      ((isEmpty_generate (fitCharacter_options hc) builtin _).mp ht)

/-- A text without a preamble gets its block at the top: the delimiters before the block stand
    above it, and the delimiters after it, a blank line and the whole text below it. -/
theorem frames_top (ht : (generate builtin o (String.ofList cs)).isEmpty = false)
    (hpre : preambleEnd cs o.extension = none) :
    ∃ u v, Frames o cs u v ∧
      (apply (String.ofList cs) (generate builtin o (String.ofList cs)) o).content =
        framed o u v (lineEnding cs) (bodyOf o (headingsOf builtin o (String.ofList cs))) := by
  obtain ⟨S, hS, hscr⟩ := builtin_screened hsp o.extension
  rw [← hc] at hS hscr
  have he := Text.isEol_lineEnding cs
  have hBf := before_written o.extension o.character
  have hu := Text.endsLine_writeLines he ((builtin.delimiters o.extension).before.map String.toList)
  have hv := endsMarker_after he he ((builtin.delimiters o.extension).after.map String.toList)
    (lineEnding cs ++ cs)
  have hlu : Text.lines (Text.writeLines (lineEnding cs)
      ((builtin.delimiters o.extension).before.map String.toList)) =
      [] ++ (builtin.delimiters o.extension).before.map String.toList := by
    simpa [Text.lines_nil] using Text.lines_append_writeLines Text.endsLine_nil he
      (fun w hw => ⟨(hBf w hw).1, (hBf w hw).2.1⟩)
  -- below the closing marker: the delimiters after it, a blank line, and the text
  have hlv : Text.lines ((Tree.endMarker o.character).toList ++
      (((builtin.delimiters o.extension).after.map String.toList).flatMap (lineEnding cs ++ ·) ++
        lineEnding cs ++ (lineEnding cs ++ cs))) =
      ((Tree.endMarker o.character).toList ::
        ((builtin.delimiters o.extension).after.map String.toList ++ [[]])) ++ Text.lines cs := by
    rw [lines_closing hc he he, Text.lines_eol_append he]
    simp
  have hM : ∀ m ∈ (Tree.endMarker o.character).toList ::
      ((builtin.delimiters o.extension).after.map String.toList ++ [[]]), S.Quiet m := by
    intro m hm
    rw [← List.cons_append, List.mem_append] at hm
    rcases hm with hm | hm
    · exact quiet_closing hscr m hm
    · rw [List.mem_singleton.mp hm]
      exact hscr.blank
  refine ⟨Text.writeLines (lineEnding cs) ((builtin.delimiters o.extension).before.map String.toList),
    ((builtin.delimiters o.extension).after.map String.toList).flatMap (lineEnding cs ++ ·) ++
      lineEnding cs ++ (lineEnding cs ++ cs), ⟨hu, ?_, hv, ?_, ?_⟩, ?_⟩
  · exact unmarked_writeLines he hBf
  · simpa using lineEnding_written_after Text.endsLine_nil he (by simp)
      (fun w hw => ⟨(hBf w hw).1, (hBf w hw).2.1⟩)
  · refine keepsHeadings_of_lines hc hS hscr hname hu hv hlu hlv (List.nil_append _).symm rfl rfl
      (quiet_opening hscr) hM rfl ?_
    -- the last line put in below the block is the blank line
    intro m hm
    simp only [List.getLast?_cons, List.getLast?_append, Option.some_or, Option.getD_some,
      Option.mem_def, Option.some.injEq] at hm
    rw [← hm]
    exact hscr.blank_silent _ _
  · rw [apply_unmarked_top hbm _ hpre, withEnding_outer hc ht, framed]
    simp only [List.append_assoc]

/-- A text with a preamble gets its block below the line the preamble ends on: that line, a
    blank line and the delimiters before the block stand above it, and the delimiters after it
    and the rest of the text below it. -/
theorem frames_after (ht : (generate builtin o (String.ofList cs)).isEmpty = false)
    (hrst : builtin.spelling o.extension = .underlined → ShebangClear cs)
    {stop : Nat} (hpre : preambleEnd cs o.extension = some stop) :
    ∃ u v, Frames o cs u v ∧
      (apply (String.ofList cs) (generate builtin o (String.ofList cs)) o).content =
        framed o u v (lineEnding cs) (bodyOf o (headingsOf builtin o (String.ofList cs))) := by
  obtain ⟨S, hS, hscr⟩ := builtin_screened hsp o.extension
  rw [← hc] at hS hscr
  have he := Text.isEol_lineEnding cs
  have hBf := before_written o.extension o.character
  -- the line the preamble ends on: its text `b` and the ending `t` of its piece
  obtain ⟨l, hl, hstop, hpl⟩ := preambleEnd_spec hpre
  obtain ⟨A, p, B, hpieces, rfl⟩ := mem_locate_split hl
  obtain ⟨hnl, t, hpt, hcases⟩ := piece_ending hpieces
  obtain ⟨i, hxi⟩ := exists_lineOf_eq_bareLine_append p
  have hcut := lineEnding_above_preamble hc hsp ht hpieces fun hA => hpl.opening (by simp [hA])
  have hlines₀ := lines_of_pieces hpieces
  have hcs := eq_flatten_of_pieces hpieces
  have hP := Text.endsLine_flatten_of_pieces hpieces
  clear hl
  generalize bareLine p = b at hpl hnl hpt hcases hxi hcut hstop
  subst hpt
  -- written above the block, the line reads back as `x'`, less carriage returns at its end
  obtain ⟨j, hbj⟩ := Text.exists_eq_lineOf_written he b
  generalize hx' : Text.lineOf (b ++ lineEnding cs) = x' at hbj
  have hlines : Text.lines cs =
      Text.lines A.flatten ++ (x' ++ List.replicate (j + i) '\r') :: Text.lines B.flatten := by
    rw [hlines₀, hxi, hbj, List.append_assoc, ← List.replicate_add]
  -- for roff, underlining and POD the preamble is a shebang that opens the text
  have hsheb : builtin.spelling o.extension = .roff ∨
      builtin.spelling o.extension = .underlined ∨ builtin.spelling o.extension = .pod →
      A.flatten = [] ∧ "#!".toList <+: x' := by
    intro h
    obtain ⟨h0, hs⟩ := hpl.shebang (shebang_only h)
    rw [hbj] at hs
    exact ⟨List.eq_nil_of_length_eq_zero (by simpa using h0),
      (Text.prefix_append_replicate_iff (by decide) j).mp hs⟩
  -- the ending after the block: the line's own, or the text's when nothing follows the line
  have hE : Text.IsEol (if t = [] then lineEnding cs else t) ∨
      ((if t = [] then lineEnding cs else t) = ['\r'] ∧ B.flatten = []) := by
    rcases hcases with ⟨rfl | rfl, rfl⟩ | rfl | ⟨rfl, -⟩
    · exact Or.inl (by simpa using he)
    · exact Or.inr ⟨by simp, rfl⟩
    · exact Or.inl (by rw [if_neg (by simp)]; exact Or.inr rfl)
    · exact Or.inl (by rw [if_neg (by simp)]; exact Or.inl rfl)
  have hrest : (if (t ++ B.flatten).isEmpty then lineEnding cs else t ++ B.flatten) =
      (if t = [] then lineEnding cs else t) ++ B.flatten := by
    rcases hcases with ⟨rfl | rfl, rfl⟩ | rfl | ⟨rfl, -⟩ <;> simp
  have hcs' : cs = (A.flatten ++ b) ++ (t ++ B.flatten) := by
    rw [hcs]
    simp only [List.append_assoc]
  have hstop' : stop = (A.flatten ++ b).length := by
    rw [← hstop, Line.stop, List.length_append, Nat.zero_add]
  have hQw : ∀ w ∈ [] :: (builtin.delimiters o.extension).before.map String.toList,
      '\n' ∉ w ∧ w.getLast? ≠ some '\r' ∧ w ≠ (Tree.beginMarker o.character).toList := by
    intro w hw
    rcases List.mem_cons.mp hw with rfl | hw
    · exact blank_written o.character
    · exact hBf w hw
  have hu := hP.append (Text.endsLine_writeLines he
    (b :: [] :: (builtin.delimiters o.extension).before.map String.toList))
  have hv : EndsMarker
      (((builtin.delimiters o.extension).after.map String.toList).flatMap (lineEnding cs ++ ·) ++
        (if t = [] then lineEnding cs else t) ++ B.flatten) := by
    rw [List.append_assoc]
    refine endsMarker_flatMap he _ ?_
    rcases hE with hE | ⟨hcr, hB⟩
    · exact endsMarker_eol hE _
    · rw [hcr, hB]
      exact Or.inr (Or.inl rfl)
  refine ⟨A.flatten ++ Text.writeLines (lineEnding cs)
      (b :: [] :: (builtin.delimiters o.extension).before.map String.toList),
    ((builtin.delimiters o.extension).after.map String.toList).flatMap (lineEnding cs ++ ·) ++
      (if t = [] then lineEnding cs else t) ++ B.flatten, ⟨hu, ?_, hv, ?_, ?_⟩, ?_⟩
  · -- the line is no opening marker, whatever carriage returns it loses
    have hbm' := hbm
    rw [hcs, Unmarked.append hP] at hbm'
    refine (Unmarked.append hP).mpr ⟨hbm'.1, unmarked_writeLines_of_lineOf he fun w hw => ?_⟩
    rcases List.mem_cons.mp hw with rfl | hw
    · refine ⟨hnl, fun h => hpl.ne_beginMarker j (hbj.trans ?_)⟩
      rw [← hx', h, hc]
    · exact ⟨(hQw w hw).1, by
        rw [Text.lineOf_written_of_getLast? he (hQw w hw).2.1]; exact (hQw w hw).2.2⟩
  · -- the text above the block keeps the line ending
    have hnl' : '\n' ∈ A.flatten ++ b ++ lineEnding cs := by
      rcases he with h | h <;> rw [h] <;> simp
    have hsplit : A.flatten ++ Text.writeLines (lineEnding cs)
        (b :: [] :: (builtin.delimiters o.extension).before.map String.toList) =
        (A.flatten ++ b ++ lineEnding cs) ++ Text.writeLines (lineEnding cs)
          ([] :: (builtin.delimiters o.extension).before.map String.toList) := by
      rw [Text.writeLines_cons]
      simp only [List.append_assoc]
    rw [hsplit, if_neg (List.ne_nil_of_mem (List.mem_append_left _ hnl')),
      lineEnding_append hnl', hcut]
  · -- the lines above the block after the preamble's line are quiet, and so are those below it
    have hlu : Text.lines (A.flatten ++ Text.writeLines (lineEnding cs)
        (b :: [] :: (builtin.delimiters o.extension).before.map String.toList)) =
        (Text.lines A.flatten ++ [x']) ++
          ([] :: (builtin.delimiters o.extension).before.map String.toList) := by
      have hW := Text.lines_append_writeLines Text.endsLine_nil he
        (fun w hw => ⟨(hQw w hw).1, (hQw w hw).2.1⟩)
      rw [List.nil_append, Text.lines_nil, List.nil_append] at hW
      rw [Text.writeLines_cons, Text.lines_append hP, Text.lines_writeLine he hnl, hx', hW]
      simp
    have hQ : ∀ q ∈ [] :: (builtin.delimiters o.extension).before.map String.toList,
        S.Quiet q := by
      intro q hq
      rcases List.mem_cons.mp hq with rfl | hq
      · exact hscr.blank
      · exact quiet_opening hscr q hq
    -- the line reads alike in the text and above the block
    obtain ⟨hsame, hafter⟩ := reads_alike hS (P := Text.lines A.flatten) (l := x') (j + i)
      fun h => ⟨by rw [(hsheb h).1, Text.lines_nil], (hsheb h).2⟩
    -- where the block meets the text below it: a shebang over no underline, for underlining
    have hsheb' : builtin.spelling o.extension = .roff ∨
        builtin.spelling o.extension = .underlined →
        "#!".toList.isPrefixOf (x' ++ List.replicate (j + i) '\r') = true := fun h =>
      List.isPrefixOf_iff_prefix.mpr ((hsheb (h.imp_right Or.inl)).2.trans (List.prefix_append _ _))
    have hclear : builtin.spelling o.extension = .underlined →
        ∀ b' ∈ (Text.lines B.flatten).head?, Underline.adornment? b' = none := by
      intro hu b' hb'
      have h0 := (hsheb (Or.inr (Or.inl hu))).1
      obtain ⟨rest, hB'⟩ := List.head?_eq_some_iff.mp hb'
      refine hrst hu _ b' rest ?_ (hsheb' (Or.inr hu))
      rw [hlines, h0, hB']
      rfl
    obtain ⟨hJ1, hJ2⟩ := junction hc hS hscr hsheb' hclear
    obtain ⟨M, hlv, hM, hlast⟩ := closing_lines hc hS hscr he hE hJ2
    refine keepsHeadings_of_lines hc hS hscr hname hu hv hlu hlv (by rw [hlines]; simp) hsame
      hafter hQ hM (Scanner.scan_concat_below _ _ _ (hJ1 _))
      (fun m hm => hlast m hm _)
  · rw [apply_unmarked_after hbm _ hpre, hstop', hcs', List.take_left' rfl,
      List.drop_left' rfl, ← hcs', hrest, withEnding_outer hc ht, framed]
    simp only [Text.writeLines_cons, List.append_assoc, List.nil_append]

/-- An update of a text without a block, whose shebang, when it is underlined, stands over no
    underline, writes a text that the next update leaves as it is. -/
theorem update_unmarked_settles
    (hrst : builtin.spelling o.extension = .underlined → ShebangClear cs) {a : Applied}
    (ha : update builtin o (String.ofList cs) = .ok a) :
    update builtin o a.content = .ok ⟨a.content, .unchanged⟩ := by
  have hfit := fitCharacter_options hc
  have hcontent := congrArg (Except.map Applied.content) ha
  rw [update_eq, passesFrom_succ] at hcontent
  -- the first pass puts a block in, since the update did not fail
  have ht : (generate builtin o (String.ofList cs)).isEmpty = false := by
    by_contra ht
    rw [if_pos (by simpa using ht)] at hcontent
    exact absurd hcontent (by simp [Except.map])
  rw [if_neg (by simp [ht])] at hcontent
  have hne := (isEmpty_generate hfit builtin (String.ofList cs)).mp ht
  obtain ⟨u, v, hfr, happly⟩ : ∃ u v, Frames o cs u v ∧
      (apply (String.ofList cs) (generate builtin o (String.ofList cs)) o).content =
        framed o u v (lineEnding cs) (bodyOf o (headingsOf builtin o (String.ofList cs))) := by
    cases hpre : preambleEnd cs o.extension with
    | none => exact frames_top hc hsp hname hbm ht hpre
    | some stop => exact frames_after hc hsp hname hbm ht hrst hpre
  -- the passes still to go settle the framed text
  obtain ⟨A, B, hAB, hlist⟩ := hfr.keeps
  obtain ⟨X, hX, hsettled⟩ := settles_framed hc hfr.endsMarker hfr.endsLine hfr.unmarked hAB
    (Text.isEol_lineEnding cs) hfr.stable hne (single_headingsOf builtin o _) hlist
  rw [happly, hX] at hcontent
  have hXa : X = a.content := by simpa [Except.map] using hcontent
  rw [← hXa]
  exact hsettled

end Insertion

end Block

end Outline
