/-
Module: Outline.Proofs.BlockText
Purpose: The text of a generated block and what a reader finds in it. A block's text is its lines
  joined by line feeds: the delimiters, the header, the connected body and the footer. When the
  name and the heading texts hold no line feed, every line of that text is a line of the box or a
  delimiter line, and so the reader of every built-in profile but HTML finds no heading in it. In
  HTML the only `<` of the text opens its comment unless the name or a heading text brings one.
Main exports: Document.lines, BlockLine
Main statements: Document.toList_inner, Document.toList_outer, blockLine_documentFor,
  not_mem_documentFor, Screened.quiet_read, generated_block_has_no_headings
Open obligations: none
-/
import Mathlib
import Outline.Proofs.Quiet

namespace Outline

/-! ### Lines joined by a separator -/

namespace Text

theorem intercalate_append (sep : List Char) {A B : List (List Char)} (hA : A ≠ [])
    (hB : B ≠ []) : sep.intercalate (A ++ B) = sep.intercalate A ++ sep ++ sep.intercalate B := by
  induction A with
  | nil => exact absurd rfl hA
  | cons a A ih =>
    cases A with
    | nil => simpa using List.intercalate_cons_of_ne_nil hB
    | cons a' A =>
      rw [List.cons_append, List.intercalate_cons_of_ne_nil (by simp), ih (by simp),
        List.intercalate_cons_cons]
      simp only [List.append_assoc]

/-- Lines joined inside a list of lines joined by the same separator are joined with them. -/
theorem intercalate_splice (sep : List Char) (A : List (List Char)) {B : List (List Char)}
    (hB : B ≠ []) (C : List (List Char)) :
    sep.intercalate (A ++ [sep.intercalate B] ++ C) = sep.intercalate (A ++ B ++ C) := by
  have hmid : ∀ C : List (List Char), sep.intercalate ([sep.intercalate B] ++ C) =
      sep.intercalate (B ++ C) := by
    intro C
    cases C with
    | nil => simp
    | cons c C =>
      rw [intercalate_append sep (by simp) (by simp), intercalate_append sep hB (by simp)]
      simp
  cases A with
  | nil => simpa using hmid C
  | cons a A =>
    have hBC : B ++ C ≠ [] := by simp [hB]
    rw [List.append_assoc, intercalate_append sep (List.cons_ne_nil a A) (by simp), hmid,
      List.append_assoc (a :: A) B C, intercalate_append sep (List.cons_ne_nil a A) hBC]

theorem not_mem_intercalate {x : Char} {sep : List Char} (hsep : x ∉ sep) :
    ∀ {L : List (List Char)}, (∀ l ∈ L, x ∉ l) → x ∉ sep.intercalate L
  | [], _ => by simp
  | [l], hL => by simpa using hL l (by simp)
  | l :: l' :: L, hL => by
    rw [List.intercalate_cons_cons]
    simp only [List.mem_append, not_or]
    exact ⟨⟨hL l (by simp), hsep⟩,
      not_mem_intercalate hsep (fun m hm => hL m (List.mem_cons_of_mem l hm))⟩

theorem mem_piecesFrom_single {acc cs p : List Char} (hcs : '\n' ∉ cs)
    (hp : p ∈ piecesFrom acc cs) : p = acc.reverse ++ cs := by
  induction cs generalizing acc with
  | nil =>
    unfold piecesFrom at hp
    split at hp
    · simp at hp
    · simpa using hp
  | cons c cs ih =>
    have hc : c ≠ '\n' := fun h => hcs (h ▸ List.mem_cons_self)
    rw [piecesFrom, if_neg hc] at hp
    rw [ih (fun h => hcs (List.mem_cons_of_mem c h)) hp]
    simp

/-- A text without a line feed is one line at most. -/
theorem mem_lines_single {cs m : List Char} (hcs : '\n' ∉ cs) (hm : m ∈ lines cs) : m = cs := by
  obtain ⟨p, hp, rfl⟩ := List.mem_map.mp hm
  have hpcs : p = cs := by simpa using mem_piecesFrom_single hcs hp
  subst hpcs
  have hlast : p.getLast? ≠ some '\n' := fun h => hcs (List.mem_of_getLast? h)
  rw [lineOf, dropLast?_of_getLast?_ne hlast]

/-- Every line read from lines joined by line feeds is one of them, written and read back, or
    the last one as it is. -/
theorem mem_lines_intercalate {L : List (List Char)} (hL : ∀ l ∈ L, '\n' ∉ l) {m : List Char}
    (hm : m ∈ lines (['\n'].intercalate L)) : ∃ l ∈ L, m = l ∨ m = lineOf (l ++ ['\n']) := by
  rcases List.eq_nil_or_concat L with rfl | ⟨L', z, rfl⟩
  · simp [lines_nil] at hm
  · have hL' : ∀ l ∈ L', '\n' ∉ l := fun l hl => hL l (by simp [hl])
    rw [List.concat_eq_append, intercalate_concat,
      lines_writeLines (Or.inl rfl) hL', List.mem_append] at hm
    rcases hm with hm | hm
    · obtain ⟨l, hl, rfl⟩ := List.mem_map.mp hm
      exact ⟨l, by simp [hl], Or.inr rfl⟩
    · exact ⟨z, by simp, Or.inl (mem_lines_single (hL z (by simp)) hm)⟩

end Text

/-! ### The lines of a document -/

namespace Document

/-- All lines of a document, top to bottom. -/
def lines (d : Document) : List String :=
  d.before ++ d.header ++ d.body ++ d.footer ++ d.after

theorem toList_inner {d : Document} (hd : d.isEmpty = false) :
    d.inner.toList = ['\n'].intercalate ((d.header ++ d.body ++ d.footer).map String.toList) := by
  simp [inner, hd, String.toList_intercalate]

theorem toList_outer {d : Document} (hd : d.isEmpty = false)
    (hne : d.header ++ d.body ++ d.footer ≠ []) :
    d.outer.toList = ['\n'].intercalate (d.lines.map String.toList) := by
  have hinner := toList_inner hd
  simp only [outer, hd, Bool.false_eq_true, if_false, String.toList_intercalate, List.map_append,
    List.map_cons, List.map_nil] at hinner ⊢
  have hnl : "\n".toList = ['\n'] := rfl
  have hne' : List.map String.toList d.header ++ List.map String.toList d.body ++
      List.map String.toList d.footer ≠ [] := by simpa using hne
  rw [hnl, hinner, Text.intercalate_splice _ _ hne']
  simp [lines]

end Document

/-! ### The lines of a generated block -/

/-- A line of a block: a line of the box or a delimiter line. -/
def BlockLine (character : List Char) (delimiters : Delimiters) (l : List Char) : Prop :=
  Tree.Opens (· ∈ Tree.openingGlyphs) character l ∨
    l ∈ (delimiters.before ++ delimiters.after).map String.toList

namespace Tree

/-- The characters the frame writes itself: the box glyphs, the space, the dots that cut a long
    name and the letters of the title. -/
def frameChars : List Char :=
  boxGlyphs ++ " .Contentsof".toList

theorem opens_header (character name : String) :
    ∀ l ∈ header character name ++ footer character,
      Opens (· ∈ openingGlyphs) character.toList l.toList := by
  intro l hl
  simp only [header, footer, List.cons_append, List.nil_append, List.mem_cons, List.not_mem_nil,
    or_false] at hl
  rcases hl with rfl | rfl | rfl | rfl | rfl | rfl
  · exact ⟨'┌', rule.toList ++ ['┐'], toList_beginMarker character, by decide⟩
  · exact ⟨'│', (" Contents of " ++ displayName name ++
      String.ofList (List.replicate (nameField - (displayName name).length) ' ') ++ "│").toList,
      by simp [titleLine], by decide⟩
  · exact ⟨'├', rule.toList ++ ['┘'], toList_titleRule character, by decide⟩
  · exact ⟨'│', [], by simp, by decide⟩
  · exact ⟨'│', [], by simp, by decide⟩
  · exact ⟨'└', rule.toList, toList_endMarker character, by decide⟩

/-- A character that is none of the box's own stands in a header line only where it stands in
    the comment character or the name. -/
theorem not_mem_header {x : Char} (hx : x ∉ frameChars) {character name : String}
    (hc : x ∉ character.toList) (hn : x ∉ name.toList) :
    ∀ l ∈ header character name ++ footer character, x ∉ l.toList := by
  simp only [frameChars, boxGlyphs, List.cons_append, List.mem_cons] at hx
  have hrule : x ∉ rule.toList := by
    simp only [rule, String.toList_ofList, List.mem_replicate]
    simp_all
  have hshown : x ∉ (displayName name).toList := by
    rw [toList_displayName]
    split
    · exact hn
    · simp only [List.mem_append]
      exact fun h => h.elim (fun h => hn (List.mem_of_mem_take h)) (by simp_all)
  intro l hl
  simp only [header, footer, List.cons_append, List.nil_append, List.mem_cons, List.not_mem_nil,
    or_false] at hl
  rcases hl with rfl | rfl | rfl | rfl | rfl | rfl
  · rw [toList_beginMarker]
    simp_all
  · simp_all [titleLine]
  · rw [toList_titleRule]
    simp_all
  · simp_all
  · simp_all
  · rw [toList_endMarker]
    simp_all

end Tree

section Generated

variable (r : Registry) (o : Options) {hs : List Heading}

/-- Every line of the document of some headings is a line of the box or a delimiter line. -/
theorem blockLine_documentFor (hne : hs ≠ []) (hc : Tree.Plain o.character.toList) :
    ∀ l ∈ (documentFor r o hs).lines,
      BlockLine o.character.toList (r.delimiters o.extension) l.toList := by
  intro l hl
  rw [documentFor_eq r o hne hc] at hl
  simp only [Document.lines, List.mem_append] at hl
  rcases hl with (((hl | hl) | hl) | hl) | hl
  · exact Or.inr (List.mem_map_of_mem (List.mem_append_left _ hl))
  · exact Or.inl (Tree.opens_header o.character o.name l (List.mem_append_left _ hl))
  · exact Or.inl ((Tree.opens_connect hc (Heading.opens_render_all hs _ _) l hl).mono
      (fun g hg => by rcases hg with rfl | rfl <;> decide))
  · exact Or.inl (Tree.opens_header o.character o.name l (List.mem_append_right _ hl))
  · exact Or.inr (List.mem_map_of_mem (List.mem_append_right _ hl))

/-- A character that is no box glyph, blank or digit stands in a connected body line only where it
    stands in the comment character or a heading text. -/
theorem not_mem_body {x : Char} (hx : x ∉ Tree.frameChars) (hdigit : x.isDigit = false)
    (hc : x ∉ o.character.toList) (htexts : ∀ h ∈ hs, x ∉ h.text.toList) :
    ∀ l ∈ Tree.connect (hs.map fun h => h.render o.character o.numbered), x ∉ l.toList := by
  intro l hl hxl
  have hg : x ∉ boxGlyphs := fun h => hx (List.mem_append_left _ h)
  have hs : x ≠ ' ' := fun h => hx (List.mem_append_right _ (h ▸ by decide))
  rcases Tree.mem_connect hl hxl with hxg | ⟨m, hm, hxm⟩
  · exact hg hxg
  · obtain ⟨h, hh, rfl⟩ := List.mem_map.mp hm
    exact Heading.not_mem_render h _ _ hs hdigit hg hc (htexts h hh) hxm

/-- A character that neither the frame, the comment character, the name nor a heading text
    brings stands in no line of the box. -/
theorem not_mem_documentFor (hplain : Tree.Plain o.character.toList) (hne : hs ≠ []) {x : Char}
    (hx : x ∉ Tree.frameChars) (hdigit : x.isDigit = false) (hc : x ∉ o.character.toList)
    (hn : x ∉ o.name.toList) (htexts : ∀ h ∈ hs, x ∉ h.text.toList) :
    ∀ l ∈ (documentFor r o hs).header ++ (documentFor r o hs).body ++ (documentFor r o hs).footer,
      x ∉ l.toList := by
  intro l hl
  rw [documentFor_eq r o hne hplain] at hl
  simp only [List.mem_append] at hl
  rcases hl with (hl | hl) | hl
  · exact Tree.not_mem_header hx hc hn l (List.mem_append_left _ hl)
  · exact not_mem_body o hx hdigit hc htexts l hl
  · exact Tree.not_mem_header hx hc hn l (List.mem_append_right _ hl)

theorem isEmpty_documentFor (hplain : Tree.Plain o.character.toList) (hne : hs ≠ []) :
    (documentFor r o hs).isEmpty = false := by
  rw [documentFor_eq r o hne hplain, Document.isEmpty, List.isEmpty_eq_false_iff,
    ← List.length_pos_iff, Tree.length_connect hplain (Heading.opens_render_all hs _ _),
    List.length_map]
  exact List.length_pos_iff.mpr hne

theorem delimiters_documentFor (hplain : Tree.Plain o.character.toList) (hne : hs ≠ []) :
    (documentFor r o hs).before = (r.delimiters o.extension).before ∧
      (documentFor r o hs).after = (r.delimiters o.extension).after := by
  rw [documentFor_eq r o hne hplain]
  exact ⟨rfl, rfl⟩

/-- The lines of a document of headings, without a line feed in any of them. -/
theorem single_documentFor (hplain : Tree.Plain o.character.toList) (hne : hs ≠ [])
    (hc : '\n' ∉ o.character.toList) (hn : '\n' ∉ o.name.toList)
    (htexts : ∀ h ∈ hs, '\n' ∉ h.text.toList)
    (hdelim : ∀ l ∈ (r.delimiters o.extension).before ++ (r.delimiters o.extension).after,
      '\n' ∉ l.toList) :
    ∀ l ∈ (documentFor r o hs).lines, '\n' ∉ l.toList := by
  intro l hl
  obtain ⟨hb, ha⟩ := delimiters_documentFor r o hplain hne
  simp only [Document.lines, List.mem_append] at hl
  rcases hl with (((hl | hl) | hl) | hl) | hl
  · exact hdelim l (List.mem_append_left _ (hb ▸ hl))
  · exact not_mem_documentFor r o hplain hne (by decide) rfl hc hn htexts l (by simp [hl])
  · exact not_mem_documentFor r o hplain hne (by decide) rfl hc hn htexts l (by simp [hl])
  · exact not_mem_documentFor r o hplain hne (by decide) rfl hc hn htexts l (by simp [hl])
  · exact hdelim l (List.mem_append_right _ (ha ▸ hl))

end Generated

/-! ### What a reader finds in a block -/

section Read

variable {S : Scanner} {c : List Char} {d : Delimiters}

theorem BlockLine.quiet (hS : Screened S c d) {l : List Char} (h : BlockLine c d l) :
    S.Quiet l := by
  rcases h with h | h
  · exact hS.drawn l h
  · obtain ⟨s, hs, rfl⟩ := List.mem_map.mp h
    exact hS.delimiter s hs

/-- A line of a block, written with a line ending and read back, is still one, when no delimiter
    line ends with a carriage return. -/
theorem BlockLine.lineOf_written
    (hd : ∀ s ∈ d.before ++ d.after, s.toList.getLast? ≠ some '\r') {eol : List Char}
    (he : Text.IsEol eol) {l : List Char} (h : BlockLine c d l) :
    BlockLine c d (Text.lineOf (l ++ eol)) := by
  rcases h with h | h
  · refine Or.inl (h.lineOf_written (fun g hg => ?_) he)
    simp only [Tree.openingGlyphs, List.mem_cons, List.not_mem_nil, or_false] at hg
    rcases hg with rfl | rfl | rfl | rfl <;> decide
  · obtain ⟨s, hs, rfl⟩ := List.mem_map.mp h
    rw [Text.lineOf_written_of_getLast? he (hd s hs)]
    exact Or.inr (List.mem_map_of_mem hs)

/-- A screening reader finds nothing in lines of a block joined by line feeds. -/
theorem Screened.read_block (hS : Screened S c d)
    (hd : ∀ s ∈ d.before ++ d.after, s.toList.getLast? ≠ some '\r') {L : List (List Char)}
    (hL : ∀ l ∈ L, BlockLine c d l) (hnl : ∀ l ∈ L, '\n' ∉ l) :
    S.read (Text.lines (['\n'].intercalate L)) = [] := by
  unfold Scanner.read
  refine Scanner.scan_quiet (fun m hm => ?_) _ _ (by simp)
  obtain ⟨l, hl, hml | hml⟩ := Text.mem_lines_intercalate hnl hm
  · exact hml ▸ (hL l hl).quiet hS
  · exact hml ▸ ((hL l hl).lineOf_written hd (Or.inl rfl)).quiet hS

end Read

/-! ### A generated block has no headings of its own -/

namespace Registry

theorem builtin_delimiter_lines : ∀ d ∈ builtinDelimiterValues, ∀ s ∈ d.before ++ d.after,
    s.toList.getLast? ≠ some '\r' ∧ '\n' ∉ s.toList := by
  decide

end Registry

section OwnHeadings

open Registry

variable {o : Options} (hc : o.character = builtin.character o.extension)
include hc

theorem fitCharacter_options : Tree.fitCharacter o.character.toList = true :=
  hc ▸ fitCharacter_builtin_character o.extension

/-- The block of headings with one-line texts reads to no heading for every built-in profile
    but HTML. -/
theorem read_outer_screened (hsp : builtin.spelling o.extension ≠ .html)
    (hn : '\n' ∉ o.name.toList) {hs : List Heading} (htexts : ∀ h ∈ hs, '\n' ∉ h.text.toList) :
    (builtin.spelling o.extension).read o.character o.extension (documentFor builtin o hs).outer =
      [] := by
  obtain ⟨S, hS, hscr⟩ := builtin_screened hsp o.extension
  rw [← hc] at hS hscr
  rw [Spelling.read_eq_scan hS]
  have hfit := fitCharacter_options hc
  have hplain := Tree.plain_of_fitCharacter hfit
  by_cases hne : hs = []
  · subst hne
    rw [documentFor_nil]
    rfl
  have hd := builtin_delimiter_lines _ (builtin_delimiters_mem o.extension)
  rw [Document.toList_outer (isEmpty_documentFor builtin o hplain hne) (by simp [documentFor_eq
    builtin o hne hplain, Tree.header])]
  refine hscr.read_block (fun s hs => (hd s hs).1) (fun l hl => ?_) (fun l hl => ?_)
  · obtain ⟨m, hm, rfl⟩ := List.mem_map.mp hl
    exact blockLine_documentFor builtin o hne hplain m hm
  · obtain ⟨m, hm, rfl⟩ := List.mem_map.mp hl
    exact single_documentFor builtin o hplain hne (Tree.fitCharacter_mem hfit '\n' · |>.2.1 rfl)
      hn htexts (fun s hs => (hd s hs).2) m hm

/-- In HTML the block reads to no heading when neither the name nor a heading text brings a
    `<`: the only one opens the comment around the block. -/
theorem read_outer_html (hsp : builtin.spelling o.extension = .html) (hlt : '<' ∉ o.name.toList) {hs : List Heading}
    (htexts : ∀ h ∈ hs, '<' ∉ h.text.toList) :
    Html.read (documentFor builtin o hs).outer = [] := by
  obtain ⟨hch, hdl⟩ := builtin_html hsp
  have hplain := Tree.plain_of_fitCharacter (fitCharacter_options hc)
  by_cases hne : hs = []
  · subst hne
    rw [documentFor_nil]
    rfl
  obtain ⟨hb, ha⟩ := delimiters_documentFor builtin o hplain hne
  rw [hdl] at hb ha
  have hrest : '<' ∉ ['-', '-', '\n'] ++ ['\n'].intercalate
      (((documentFor builtin o hs).header ++ (documentFor builtin o hs).body ++
        (documentFor builtin o hs).footer ++ ["-->"]).map String.toList) := by
    refine List.not_mem_append (by decide) (Text.not_mem_intercalate (by decide) ?_)
    intro l hl
    obtain ⟨m, hm, rfl⟩ := List.mem_map.mp hl
    rcases List.mem_append.mp hm with hm | hm
    · exact not_mem_documentFor builtin o hplain hne (by decide) rfl (by rw [hc, hch]; decide)
        hlt htexts m hm
    · simp only [List.mem_singleton] at hm
      subst hm
      decide
  have htext : (documentFor builtin o hs).outer =
      String.ofList ('<' :: '!' :: (['-', '-', '\n'] ++ ['\n'].intercalate
        (((documentFor builtin o hs).header ++ (documentFor builtin o hs).body ++
          (documentFor builtin o hs).footer ++ ["-->"]).map String.toList))) := by
    have hne' : (documentFor builtin o hs).header ++ (documentFor builtin o hs).body ++
        (documentFor builtin o hs).footer ≠ [] := by
      simp [documentFor_eq builtin o hne hplain, Tree.header]
    have htoList := Document.toList_outer (isEmpty_documentFor builtin o hplain hne) hne'
    simp only [Document.lines, hb, ha, List.map_append, List.map_cons, List.map_nil,
      List.nil_append, List.cons_append, List.append_assoc] at htoList
    rw [List.intercalate_cons_of_ne_nil (by simp)] at htoList
    rw [← String.toList_inj, String.toList_ofList, htoList]
    simp only [List.map_append, List.map_cons, List.map_nil, List.append_assoc]
    rfl
  rw [htext]
  exact Html.read_comment hrest

end OwnHeadings

open Registry in
/-- No line of a generated block is taken for a heading by the reader the registry gives its
    file, when the comment character is the registry's, the name holds no line feed and, in HTML,
    neither the name nor a listed heading holds a `<`. -/
theorem generated_block_has_no_headings (o : Options) (content : String)
    (hc : o.character = builtin.character o.extension) (hname : '\n' ∉ o.name.toList)
    (hhtml : builtin.spelling o.extension = .html →
      '<' ∉ o.name.toList ∧ ∀ h ∈ headingsOf builtin o content, '<' ∉ h.text.toList) :
    headingsOf builtin o (generate builtin o content).outer = [] := by
  suffices h : (builtin.spelling o.extension).read o.character o.extension
      (generate builtin o content).outer = [] by
    rw [headingsOf, h]
    exact Heading.upTo_nil o.depth
  by_cases hsp : builtin.spelling o.extension = .html
  · rw [hsp]
    exact read_outer_html hc hsp (hhtml hsp).1 (hhtml hsp).2
  · refine read_outer_screened hc hsp hname (fun h hh => ?_)
    exact Spelling.single_read _ _ _ _ h (Heading.mem_of_mem_upTo hh)

open Registry in
theorem markdown_block_has_no_headings :
    let o := Options.forPath builtin "notes/a.md"
    (o.character = builtin.character o.extension ∧ '\n' ∉ o.name.toList ∧
      (builtin.spelling o.extension = .html →
        '<' ∉ o.name.toList ∧ ∀ h ∈ headingsOf builtin o "# A\n", '<' ∉ h.text.toList)) ∧
    headingsOf builtin o (generate builtin o "# A\n").outer = [] := by
  intro o
  have hc : o.character = builtin.character o.extension := rfl
  have hname : '\n' ∉ o.name.toList := by decide +kernel
  have hhtml : builtin.spelling o.extension = .html →
      '<' ∉ o.name.toList ∧ ∀ h ∈ headingsOf builtin o "# A\n", '<' ∉ h.text.toList :=
    fun h => absurd h (by decide +kernel)
  exact ⟨⟨hc, hname, hhtml⟩, generated_block_has_no_headings o "# A\n" hc hname hhtml⟩

end Outline
