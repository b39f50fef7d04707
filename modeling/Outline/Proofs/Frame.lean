/-
Module: Outline.Proofs.Frame
Purpose: A block in the text around it. A text is framed when some text stands above a block,
  the block is written with one line ending, and the closing marker is the whole of its line.
  The block finder then finds that block and no other, when no line above it is an opening
  marker; a reader that passes over drawn lines finds in the text what it finds above and below
  the block, the part below moved down by the block's height, whatever the block lists; and
  putting a table of contents in replaces the block and leaves the text around it as it was.
Main exports: Tree.innerText, Tree.BodyLines, Tree.BoxLines, Tree.midLines, Tree.topText,
  Block.Unmarked, Block.EndsMarker
Main statements: withEnding_innerText, findBlock_framed, Screened.read_framed, apply_framed,
  lineEnding_framed
Open obligations: none
-/
import Mathlib
import Outline.Block.Splice
import Outline.Proofs.BlockText

namespace Outline

/-! ### The text of a block -/

namespace Text

/-- A glyph other than a carriage return stays where it stands when its line is written and read
    back. -/
theorem getElem?_lineOf_written {l : List Char} {p : Nat} {g : Char} (hg : l[p]? = some g)
    (hr : g ≠ '\r') {eol : List Char} (he : IsEol eol) : (lineOf (l ++ eol))[p]? = some g := by
  rw [lineOf_written he]
  split
  · rcases List.eq_nil_or_concat l with rfl | ⟨l', x, rfl⟩
    · simp at hg
    · rw [List.concat_eq_append] at hg ⊢
      by_cases hx : x = '\r'
      · -- the carriage return dropped stood after the glyph
        subst hx
        have hp : p < l'.length := by
          by_contra hp
          have hpl : p = l'.length := by
            have := (List.getElem?_eq_some_iff.mp hg).1
            simp at this
            omega
          subst hpl
          simp at hg
          exact hr hg.symm
        rw [dropLast?_append_singleton, Option.getD_some]
        rwa [List.getElem?_append_left hp] at hg
      · rw [dropLast?_of_getLast?_ne (by simpa using hx)]
        exact hg
  · exact hg

end Text

namespace Tree

/-- The framed block of some body lines: header, body and footer joined by line feeds. -/
def innerText (character name : String) (body : List String) : List Char :=
  ['\n'].intercalate ((header character name ++ body ++ footer character).map String.toList)

/-- Lines fit for the body of a box: each hangs off the trunk and holds no line feed. -/
def BodyLines (character : String) (body : List String) : Prop :=
  ∀ l ∈ body, Opens IsStem character.toList l.toList ∧ '\n' ∉ l.toList

/-- Lines a box holds below its title whatever its comment character: each is one line, and right
    after the comment character and its space it has a glyph other than the closing marker's
    corner and a carriage return. -/
def BoxLines (character : String) (body : List String) : Prop :=
  ∀ l ∈ body, '\n' ∉ l.toList ∧
    ∃ g, l.toList[character.toList.length + 1]? = some g ∧ g ≠ '└' ∧ g ≠ '\r'

/-- The lines between the title and the closing marker. -/
def midLines (character : String) (body : List String) : List String :=
  [titleRule character, character ++ " │"] ++ body ++ [character ++ " │"]

/-- The opening marker and the title of a block, each followed by the line ending. -/
def topText (character name : String) (eol : List Char) : List Char :=
  (beginMarker character).toList ++ eol ++ Block.withEnding eol (titleLine character name).toList ++
    eol

/-- A block is never empty: its opening marker leads it. -/
theorem innerText_ne_nil (character name : String) (body : List String) :
    innerText character name body ≠ [] := by
  intro h
  rw [innerText, header, List.cons_append, List.cons_append, List.map_cons,
    List.intercalate_cons_of_ne_nil (by simp), toList_beginMarker] at h
  simp only [List.append_eq_nil_iff, reduceCtorEq, and_false, false_and] at h

theorem length_midLines (character : String) (body : List String) :
    (midLines character body).length = body.length + 3 := by
  simp [midLines]

theorem getLast?_toList_append (s : String) {t : String} (ht : t.toList ≠ []) :
    (s ++ t).toList.getLast? = t.toList.getLast? := by
  rw [String.toList_append, List.getLast?_append_of_ne_nil _ ht]

theorem getLast?_beginMarker (character : String) :
    (beginMarker character).toList.getLast? = some '┐' := by
  rw [beginMarker, getLast?_toList_append _ (by decide)]
  decide

theorem getLast?_titleLine (character name : String) :
    (titleLine character name).toList.getLast? = some '│' := by
  rw [titleLine, getLast?_toList_append _ (by decide)]
  decide

theorem getLast?_titleRule (character : String) :
    (titleRule character).toList.getLast? = some '┘' := by
  rw [titleRule, getLast?_toList_append _ (by decide)]
  decide

theorem getLast?_endMarker (character : String) :
    (endMarker character).toList.getLast? = some '─' := by
  rw [toList_endMarker, toList_rule]
  simp [boxWidth, List.getLast?_append]

theorem opens_endMarker (character : String) {P : Char → Prop} (hP : P '└') (rest : List Char) :
    Opens P character.toList ((endMarker character).toList ++ rest) :=
  ⟨'└', rule.toList ++ rest,
    by rw [toList_endMarker, List.append_assoc, List.cons_append, List.cons_append], hP⟩

/-- A line that opens with a glyph shows it right after the comment character and its space. -/
theorem Opens.getElem? {P : Char → Prop} {c l : List Char} (h : Opens P c l) :
    ∃ g, l[c.length + 1]? = some g ∧ P g := by
  obtain ⟨g, rest, rfl, hg⟩ := h
  exact ⟨g, by simp, hg⟩

theorem BodyLines.boxLines {character : String} {body : List String}
    (hb : BodyLines character body) : BoxLines character body := by
  intro l hl
  obtain ⟨g, hg, hstem⟩ := (hb l hl).1.getElem?
  have hne : g ≠ '└' ∧ g ≠ '\r' := by rcases hstem with rfl | rfl <;> decide
  exact ⟨(hb l hl).2, g, hg, hne⟩

theorem getElem?_endMarker (character : String) :
    (endMarker character).toList[character.toList.length + 1]? = some '└' := by
  rw [toList_endMarker, List.getElem?_append_right (Nat.le_add_right _ 1), Nat.add_sub_cancel_left]
  rfl

section Text

variable {character : String} (hc : '\n' ∉ character.toList)
include hc

theorem not_mem_beginMarker : '\n' ∉ (beginMarker character).toList := by
  rw [toList_beginMarker, toList_rule]
  simp [hc]

theorem not_mem_endMarker : '\n' ∉ (endMarker character).toList := by
  rw [toList_endMarker, toList_rule]
  simp [hc]

theorem not_mem_titleRule : '\n' ∉ (titleRule character).toList := by
  rw [toList_titleRule, toList_rule]
  simp [hc]

theorem bodyLines_midLines {body : List String} (hb : BodyLines character body) :
    BodyLines character (midLines character body) := by
  intro l hl
  simp only [midLines, List.cons_append, List.nil_append, List.mem_cons, List.mem_append,
    List.not_mem_nil, or_false] at hl
  rcases hl with rfl | rfl | hl | rfl
  · exact ⟨⟨'├', rule.toList ++ ['┘'], toList_titleRule character, Or.inl rfl⟩,
      not_mem_titleRule hc⟩
  · exact ⟨⟨'│', [], by simp, Or.inr rfl⟩, by simp [hc]⟩
  · exact hb l hl
  · exact ⟨⟨'│', [], by simp, Or.inr rfl⟩, by simp [hc]⟩

theorem boxLines_midLines {body : List String} (hb : BoxLines character body) :
    BoxLines character (midLines character body) := by
  intro l hl
  simp only [midLines, List.cons_append, List.nil_append, List.mem_cons, List.mem_append,
    List.not_mem_nil, or_false] at hl
  have htrunk : BoxLines character [character ++ " │"] := by
    intro l hl
    rw [List.mem_singleton.mp hl]
    exact ⟨by simp [hc], '│', by simp, by decide, by decide⟩
  rcases hl with rfl | rfl | hl | rfl
  · refine ⟨not_mem_titleRule hc, '├', ?_, by decide, by decide⟩
    rw [toList_titleRule, List.getElem?_append_right (Nat.le_add_right _ 1),
      Nat.add_sub_cancel_left]
    rfl
  · exact htrunk _ List.mem_cons_self
  · exact hb l hl
  · exact htrunk _ List.mem_cons_self

/-- A block written with a line ending: its top, the lines between, each with the ending, and
    the closing marker. -/
theorem withEnding_innerText (name : String) {body : List String} (hb : BoxLines character body)
    (eol : List Char) :
    Block.withEnding eol (innerText character name body) =
      topText character name eol ++
        Text.writeLines eol ((midLines character body).map String.toList) ++
        (endMarker character).toList := by
  have hlist : (header character name ++ body ++ footer character).map String.toList =
      (beginMarker character).toList :: (titleLine character name).toList ::
        ((midLines character body).map String.toList ++ [(endMarker character).toList]) := by
    simp [header, footer, midLines]
  have hmid : ∀ l ∈ (midLines character body).map String.toList, '\n' ∉ l := by
    intro l hl
    obtain ⟨m, hm, rfl⟩ := List.mem_map.mp hl
    exact (boxLines_midLines hc hb m hm).1
  rw [innerText, hlist, List.intercalate_cons_of_ne_nil (by simp),
    List.intercalate_cons_of_ne_nil (by simp), Text.intercalate_concat]
  simp only [Block.withEnding_append, Block.withEnding_of_not_mem eol (not_mem_beginMarker hc),
    Block.withEnding_writeLines eol hmid, Block.withEnding_of_not_mem eol (not_mem_endMarker hc),
    Block.withEnding_newline, topText, List.append_assoc]

/-- With a name on one line, the top of a block reads as the opening marker and the title,
    whatever the line ending. -/
theorem lines_topText {u : List Char} (hu : Text.EndsLine u) {name : String}
    (hn : '\n' ∉ name.toList) {eol : List Char} (he : Text.IsEol eol) :
    Text.lines (u ++ topText character name eol) =
      Text.lines u ++ [(beginMarker character).toList, (titleLine character name).toList] := by
  have ht : '\n' ∉ (titleLine character name).toList :=
    not_mem_header (by decide) hc hn _ (by simp [header])
  have htop : topText character name eol =
      (beginMarker character).toList ++ eol ++ ((titleLine character name).toList ++ eol ++ []) := by
    simp [topText, Block.withEnding_of_not_mem eol ht]
  rw [Text.lines_append hu, htop, Text.lines_writeLine he (not_mem_beginMarker hc),
    Text.lines_writeLine he ht,
    Text.lineOf_written_of_getLast? he (by simp [getLast?_beginMarker]),
    Text.lineOf_written_of_getLast? he (by simp [getLast?_titleLine])]
  rfl

end Text

theorem endsLine_topText (u : List Char) (character name : String) {eol : List Char}
    (he : Text.IsEol eol) : Text.EndsLine (u ++ topText character name eol) := by
  have h : u ++ topText character name eol =
      (u ++ (beginMarker character).toList ++ eol ++
        Block.withEnding eol (titleLine character name).toList) ++ eol := by
    simp [topText]
  rw [h]
  exact Text.endsLine_append_eol he

end Tree

/-! ### Finding a framed block -/

namespace Block

/-- No line of the text is an opening marker: nothing in it starts a block. -/
def Unmarked (character : String) (cs : List Char) : Prop :=
  ∀ l ∈ linesWithOffsets cs, l.text ≠ (Tree.beginMarker character).toList

/-- What may follow a closing marker for the marker to be the whole of its line: nothing, a line
    ending, or one carriage return that ends the text. -/
def EndsMarker (v : List Char) : Prop :=
  v = [] ∨ v = ['\r'] ∨ (∃ w, v = '\n' :: w) ∨ ∃ w, v = '\r' :: '\n' :: w

/-- After a line that ends a marker, the first piece is the line with at most its ending. -/
theorem EndsMarker.pieces {v : List Char} (hv : EndsMarker v) {m : List Char} (hm0 : m ≠ [])
    (hm : '\n' ∉ m) :
    ∃ e ps, Text.pieces (m ++ v) = (m ++ e) :: ps ∧ (e = [] ∨ e = ['\r'] ∨ Text.IsEol e) := by
  rcases hv with rfl | rfl | ⟨w, rfl⟩ | ⟨w, rfl⟩
  · exact ⟨[], [], by simpa using Text.pieces_of_not_mem hm0 hm, Or.inl rfl⟩
  · exact ⟨['\r'], [], Text.pieces_of_not_mem (by simp) (by simpa using hm), Or.inr (Or.inl rfl)⟩
  · refine ⟨['\n'], Text.pieces w, ?_, Or.inr (Or.inr (Or.inl rfl))⟩
    simpa using Text.pieces_writeLine (Or.inl rfl) hm w
  · refine ⟨['\r', '\n'], Text.pieces w, ?_, Or.inr (Or.inr (Or.inr rfl))⟩
    simpa using Text.pieces_writeLine (Or.inr rfl) hm w

section Marker

variable {m : List Char} (hm : '\n' ∉ m) (hr : m.getLast? ≠ some '\r')
include hm hr

theorem bareLine_ending {e : List Char} (he : e = [] ∨ e = ['\r'] ∨ Text.IsEol e) :
    bareLine (m ++ e) = m := by
  have hn : m.getLast? ≠ some '\n' := fun h => hm (List.mem_of_getLast? h)
  rcases he with rfl | rfl | he
  · simp [bareLine, Text.dropLast?_of_getLast?_ne hn, Text.dropLast?_of_getLast?_ne hr]
  · simp [bareLine, Text.dropLast?_of_getLast?_ne (by simp : (m ++ ['\r']).getLast? ≠ some '\n'),
      Text.dropLast?_append_singleton]
  · rw [bareLine_written he, Text.lineOf_written_of_getLast? he hr]

/-- The closing marker is located as its line at the start. -/
theorem EndsMarker.linesWithOffsets {v : List Char} (hv : EndsMarker v) (hm0 : m ≠ []) :
    ∃ rest, Block.linesWithOffsets (m ++ v) = ⟨0, m⟩ :: rest := by
  obtain ⟨e, ps, hp, he⟩ := hv.pieces hm0 hm
  refine ⟨locate (m ++ e).length ps, ?_⟩
  simp [Block.linesWithOffsets, hp, locate, bareLine_ending hm hr he]

/-- The closing marker is read as its line, with the carriage return of a text that ends on
    one. -/
theorem EndsMarker.lines {v : List Char} (hv : EndsMarker v) (hm0 : m ≠ []) :
    ∃ q Q, Text.lines (m ++ v) = q :: Q ∧ (q = m ∨ q = m ++ ['\r']) := by
  obtain ⟨e, ps, hp, he⟩ := hv.pieces hm0 hm
  have hn : m.getLast? ≠ some '\n' := fun h => hm (List.mem_of_getLast? h)
  refine ⟨Text.lineOf (m ++ e), ps.map Text.lineOf, by simp [Text.lines, hp], ?_⟩
  rcases he with rfl | rfl | he
  · left
    simp [Text.lineOf, Text.dropLast?_of_getLast?_ne hn]
  · right
    simp [Text.lineOf, Text.dropLast?_of_getLast?_ne (by simp : (m ++ ['\r']).getLast? ≠ some '\n')]
  · exact Or.inl (Text.lineOf_written_of_getLast? he hr)

/-- A written line is located as itself at the start. -/
theorem linesWithOffsets_written {eol : List Char} (he : Text.IsEol eol) :
    Block.linesWithOffsets (m ++ eol) = [⟨0, m⟩] := by
  have hp : Text.pieces (m ++ eol) = [m ++ eol] := by
    simpa [Text.pieces_nil] using Text.pieces_writeLine he hm []
  simp [Block.linesWithOffsets, hp, locate, bareLine_written he, Text.lineOf_written_of_getLast? he hr]

end Marker

theorem findEnd_append {stop : List Char} {L₁ : List Line} (h : ∀ l ∈ L₁, l.text ≠ stop)
    (L₂ : List Line) : findEnd stop (L₁ ++ L₂) = findEnd stop L₂ := by
  induction L₁ with
  | nil => rfl
  | cons l L₁ ih =>
    rw [List.cons_append, findEnd, if_neg (h l List.mem_cons_self)]
    exact ih (fun m hm => h m (List.mem_cons_of_mem l hm))

theorem findMarkers_append {begin stop : List Char} {L₁ : List Line}
    (h : ∀ l ∈ L₁, l.text ≠ begin) (L₂ : List Line) :
    findMarkers begin stop (L₁ ++ L₂) = findMarkers begin stop L₂ := by
  induction L₁ with
  | nil => rfl
  | cons l L₁ ih =>
    rw [List.cons_append, findMarkers, if_neg (h l List.mem_cons_self)]
    exact ih (fun m hm => h m (List.mem_cons_of_mem l hm))

theorem findEnd_map_shift (stop : List Char) (k : Nat) (L : List Line) :
    findEnd stop (L.map (Line.shift k)) = (findEnd stop L).map (Line.shift k) := by
  induction L with
  | nil => rfl
  | cons l L ih =>
    rw [List.map_cons, findEnd, findEnd, Line.text_shift]
    split
    · rfl
    · exact ih

theorem not_mem_character {c : String} (hfit : Tree.fitCharacter c.toList = true) :
    '\n' ∉ c.toList :=
  fun h => (Tree.fitCharacter_mem hfit '\n' h).2.1 rfl

section Framed

variable {c : String} (hc : '\n' ∉ c.toList) {name : String}
  {body : List String} (hb : Tree.BoxLines c body) {e : List Char} (he : Text.IsEol e)
include hc hb he

/-- Below the opening marker the first line that is a closing marker is the block's own: the
    title holds too few rules to be one, and the lines below it open with other glyphs. -/
theorem findEnd_below_top (v : List Char) (hv : EndsMarker v) :
    findEnd (Tree.endMarker c).toList (linesWithOffsets
      ((withEnding e (Tree.titleLine c name).toList ++ e) ++
        (Text.writeLines e ((Tree.midLines c body).map String.toList) ++
          ((Tree.endMarker c).toList ++ v)))) =
      some ⟨(withEnding e (Tree.titleLine c name).toList ++ e).length +
        (Text.writeLines e ((Tree.midLines c body).map String.toList)).length,
        (Tree.endMarker c).toList⟩ := by
  have hmid := Tree.boxLines_midLines hc hb
  have hmid' : ∀ l ∈ (Tree.midLines c body).map String.toList, '\n' ∉ l := by
    intro l hl
    obtain ⟨m, hm, rfl⟩ := List.mem_map.mp hl
    exact (hmid m hm).1
  -- the title line holds at most 49 rules more than the comment character, the marker 63
  have htitle : ∀ l ∈ linesWithOffsets (withEnding e (Tree.titleLine c name).toList ++ e),
      l.text ≠ (Tree.endMarker c).toList := by
    intro l hl heq
    have hle := count_le_of_mem_linesWithOffsets hl '─'
    have hne : '─' ∉ e := by rcases he with rfl | rfl <;> decide
    rw [heq, Tree.count_rule_endMarker, List.count_append, count_withEnding (by decide) hne,
      List.count_eq_zero.mpr hne] at hle
    have := Tree.count_rule_titleLine c name
    omega
  have hdrawn : ∀ l ∈ linesWithOffsets (Text.writeLines e ((Tree.midLines c body).map String.toList)),
      l.text ≠ (Tree.endMarker c).toList := by
    intro l hl
    have hlt : l.text ∈ (linesWithOffsets (Text.writeLines e
        ((Tree.midLines c body).map String.toList) ++ [])).map Line.text := by
      rw [List.append_nil]
      exact List.mem_map_of_mem hl
    rw [texts_linesWithOffsets_writeLines he hmid' []] at hlt
    simp only [linesWithOffsets, Text.pieces_nil, locate, List.map_nil, List.append_nil] at hlt
    obtain ⟨m, hm, hml⟩ := List.mem_map.mp hlt
    obtain ⟨m', hm', rfl⟩ := List.mem_map.mp hm
    -- where the closing marker has its corner, a middle line has another glyph
    obtain ⟨-, g, hg, hcorner, hr⟩ := hmid m' hm'
    intro heq
    have hglyph := Text.getElem?_lineOf_written hg hr he
    rw [hml, heq, Tree.getElem?_endMarker] at hglyph
    exact hcorner (Option.some.inj hglyph).symm
  obtain ⟨rest, hrest⟩ := hv.linesWithOffsets (Tree.not_mem_endMarker hc)
    (by simp [Tree.getLast?_endMarker]) (by simp [Tree.endMarker])
  rw [linesWithOffsets_append (Text.endsLine_append_eol he), findEnd_append htitle,
    findEnd_map_shift, linesWithOffsets_append (Text.endsLine_writeLines he _),
    findEnd_append hdrawn, findEnd_map_shift, hrest, findEnd, if_pos rfl]
  simp [Line.shift, Nat.add_comm]

/-- A block below text without an opening marker line, its closing marker ending its line, is the
    block the finder finds. -/
theorem findBlock_framed {u v : List Char} (hu : Text.EndsLine u) (hbm : Unmarked c u)
    (hv : EndsMarker v) :
    findBlock (u ++ withEnding e (Tree.innerText c name body) ++ v) c =
      some ⟨u.length, u.length + (withEnding e (Tree.innerText c name body)).length⟩ := by
  have hY := Tree.withEnding_innerText hc name hb e
  have hsplit : u ++ withEnding e (Tree.innerText c name body) ++ v =
      u ++ (((Tree.beginMarker c).toList ++ e) ++
        ((withEnding e (Tree.titleLine c name).toList ++ e) ++
          (Text.writeLines e ((Tree.midLines c body).map String.toList) ++
            ((Tree.endMarker c).toList ++ v)))) := by
    simp [hY, Tree.topText]
  have hbegin := linesWithOffsets_written (Tree.not_mem_beginMarker hc)
    (by simp [Tree.getLast?_beginMarker]) he
  unfold findBlock
  rw [hsplit, linesWithOffsets_append hu, findMarkers_append hbm,
    linesWithOffsets_append (Text.endsLine_append_eol he), hbegin, List.singleton_append,
    List.map_cons, findMarkers, if_pos (Line.text_shift _ _), findEnd_map_shift, findEnd_map_shift,
    findEnd_below_top hc hb he v hv]
  simp only [Option.map_some, Line.shift, Line.stop, hY, List.length_append, Tree.topText,
    Option.some.injEq, Span.mk.injEq]
  constructor <;> omega

end Framed

/-! ### Reading a framed block -/

section Read

variable {S : Scanner} {c : String} {d : Delimiters} (hS : Screened S c.toList d)
  (hfit : Tree.fitCharacter c.toList = true) {name : String} {body : List String}
  (hb : Tree.BodyLines c body) {e : List Char} (he : Text.IsEol e)
include hS hfit hb he

/-- A reader that passes over drawn lines finds in a framed block what it finds above the block,
    with the title rule below it, and what it finds from the closing marker down, moved down by
    the height of the block's middle: what the block lists changes nothing else. -/
theorem Screened.read_framed (u : List Char) {v : List Char} (hv : EndsMarker v) :
    S.read (Text.lines (u ++ withEnding e (Tree.innerText c name body) ++ v)) =
      S.scan S.start 1 (Text.lines (u ++ Tree.topText c name e)) (some (Tree.titleRule c).toList) ++
        (S.scan (S.after S.start (Text.lines (u ++ Tree.topText c name e)))
          (1 + (Text.lines (u ++ Tree.topText c name e)).length)
          (Text.lines ((Tree.endMarker c).toList ++ v)) none).map (Heading.shift (body.length + 3)) := by
  have hc := not_mem_character hfit
  have hmid := Tree.bodyLines_midLines hc hb
  have hmid' : ∀ l ∈ (Tree.midLines c body).map String.toList, '\n' ∉ l := by
    intro l hl
    obtain ⟨m, hm, rfl⟩ := List.mem_map.mp hl
    exact (hmid m hm).2
  have hsplit : u ++ withEnding e (Tree.innerText c name body) ++ v =
      (u ++ Tree.topText c name e) ++
        (Text.writeLines e ((Tree.midLines c body).map String.toList) ++
          ((Tree.endMarker c).toList ++ v)) := by
    simp [Tree.withEnding_innerText hc name hb.boxLines e]
  obtain ⟨q, Q, hq, hqm⟩ := hv.lines (Tree.not_mem_endMarker hc)
    (by simp [Tree.getLast?_endMarker]) (by simp [Tree.endMarker])
  -- the middle lines are drawn, and so is the closing marker's line
  have hquiet : ∀ l ∈ ((Tree.midLines c body).map String.toList).map
      (fun l => Text.lineOf (l ++ e)), S.Quiet l := by
    intro l hl
    obtain ⟨m, hm, rfl⟩ := List.mem_map.mp hl
    obtain ⟨m', hm', rfl⟩ := List.mem_map.mp hm
    refine hS.drawn _ (((hmid m' hm').1.lineOf_written ?_ he).mono ?_)
    · intro g hg
      rcases hg with rfl | rfl <;> decide
    · intro g hg
      rcases hg with rfl | rfl <;> decide
  have hqq : S.Quiet q := by
    refine hS.drawn q ?_
    rcases hqm with rfl | rfl
    · simpa using Tree.opens_endMarker c (P := (· ∈ Tree.openingGlyphs)) (by decide) []
    · exact Tree.opens_endMarker c (by decide) ['\r']
  have hhead : (((Tree.midLines c body).map String.toList).map
      (fun l => Text.lineOf (l ++ e)) ++ q :: Q).head? = some (Tree.titleRule c).toList := by
    simp [Tree.midLines, Text.lineOf_written_of_getLast? he (by simp [Tree.getLast?_titleRule] :
      (Tree.titleRule c).toList.getLast? ≠ some '\r')]
  unfold Scanner.read
  rw [hsplit, Text.lines_append (Tree.endsLine_topText u c name he), Text.lines_writeLines he hmid',
    hq, Scanner.scan_append, hhead, Option.some_or, Scanner.scan_quiet_append hquiet _ _ hqq]
  simp [Tree.length_midLines]

end Read

/-! ### Putting a table of contents into a framed text -/

/-- A found block is replaced by the new one, written with the text's line ending, unless it is
    the same already. -/
theorem apply_framed {u Y v : List Char} {o : Options} (toc : Toc)
    (hfind : findBlock (u ++ Y ++ v) o.character = some ⟨u.length, u.length + Y.length⟩) :
    apply (String.ofList (u ++ Y ++ v)) toc o =
      if Y = withEnding (lineEnding (u ++ Y ++ v)) toc.inner.toList then
        ⟨String.ofList (u ++ Y ++ v), .unchanged⟩
      else ⟨String.ofList (u ++ withEnding (lineEnding (u ++ Y ++ v)) toc.inner.toList ++ v),
        .updated⟩ := by
  have hof : Span.of ⟨u.length, u.length + Y.length⟩ (u ++ Y ++ v) = Y := by
    simp [Span.of]
  have htake : (u ++ Y ++ v).take u.length = u := by simp
  have hdrop : (u ++ Y ++ v).drop (u.length + Y.length) = v := by
    simp [List.drop_append, List.append_assoc]
  simp only [apply, String.toList_ofList, hfind, hof, htake, hdrop]

theorem content_apply_framed {u Y v : List Char} {o : Options} (toc : Toc)
    (hfind : findBlock (u ++ Y ++ v) o.character = some ⟨u.length, u.length + Y.length⟩) :
    (apply (String.ofList (u ++ Y ++ v)) toc o).content =
      String.ofList (u ++ withEnding (lineEnding (u ++ Y ++ v)) toc.inner.toList ++ v) := by
  rw [apply_framed toc hfind]
  split
  · rename_i hY
    rw [← hY]
  · rfl

/-- A framed text uses the line ending of the text above the block, or the block's own when
    nothing stands above it. -/
theorem lineEnding_framed {c : String} (hc : '\n' ∉ c.toList) (name : String) {body : List String}
    (hb : Tree.BoxLines c body) {u : List Char} (hu : Text.EndsLine u) {e : List Char}
    (he : Text.IsEol e) (v : List Char) :
    lineEnding (u ++ withEnding e (Tree.innerText c name body) ++ v) =
      if u = [] then e else lineEnding u := by
  rcases hu with rfl | hlast
  · have h : [] ++ withEnding e (Tree.innerText c name body) ++ v =
        (Tree.beginMarker c).toList ++ e ++
          (withEnding e (Tree.titleLine c name).toList ++ e ++
            Text.writeLines e ((Tree.midLines c body).map String.toList) ++
            (Tree.endMarker c).toList ++ v) := by
      simp [Tree.withEnding_innerText hc name hb e, Tree.topText]
    rw [if_pos rfl, h, lineEnding_writeLine he (Tree.not_mem_beginMarker hc)
      (by simp [Tree.getLast?_beginMarker])]
  · have hne : u ≠ [] := by
      rintro rfl
      simp at hlast
    rw [if_neg hne, List.append_assoc, lineEnding_append (List.mem_of_getLast? hlast)]

end Block

end Outline
