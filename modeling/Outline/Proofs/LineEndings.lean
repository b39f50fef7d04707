/-
Module: Outline.Proofs.LineEndings
Purpose: The line endings an update writes. Each line feed of a text has something before it: a
  carriage return, another character, or nothing at the start. A text whose line feeds all end a
  CRLF keeps them so: the block is written with the text's own ending, and neither cut around it
  falls between a carriage return and its line feed. A text without a CRLF keeps none as long as
  no line the update writes ends with a carriage return. The lines of the block end with box
  glyphs, delimiters or the labels of the headings, so a heading text that ends with a carriage
  return and is listed without its line number puts a CRLF into the block. A new block after a
  preamble whose last line is the last of a text ending with two carriage returns puts one after
  that line, which keeps the first of them.
Main exports: Text.Feeds, Text.CrlfOnly, Text.NoCrlf, Text.LfClean
Main statements: Text.Feeds.append, Block.apply_keeps_crlf, Block.apply_keeps_lf,
  Block.update_keeps_line_endings
Open obligations: none
-/
import Mathlib
import Outline.Proofs.Outcome

namespace Outline

namespace Text

/-! ### What stands before a line feed -/

/-- What stands before each line feed of a text satisfies `before`: the character right before
    it, or `none` when the line feed starts the text. -/
def Feeds (before : Option Char → Prop) (cs : List Char) : Prop :=
  ∀ pre post, cs = pre ++ '\n' :: post → before pre.getLast?

/-- Every line feed of the text ends a CRLF. -/
abbrev CrlfOnly : List Char → Prop := Feeds (· = some '\r')

/-- No line feed of the text ends a CRLF. -/
abbrev NoCrlf : List Char → Prop := Feeds (· ≠ some '\r')

namespace Feeds

variable {p : Option Char → Prop}

theorem of_not_mem {cs : List Char} (h : '\n' ∉ cs) : Feeds p cs := by
  rintro pre post rfl
  simp at h

/-- Two texts joined: each line feed stands in one of them, or starts the second right after the
    first. -/
theorem append {a b : List Char} (ha : Feeds p a) (hb : Feeds p b)
    (hj : b.head? = some '\n' → p a.getLast?) : Feeds p (a ++ b) := by
  intro pre post h
  rcases List.append_eq_append_iff.mp h with ⟨a', rfl, hb'⟩ | ⟨c', rfl, hc'⟩
  · cases a' with
    | nil =>
      rw [List.append_nil]
      exact hj (by simp [hb'])
    | cons x a' =>
      rw [List.getLast?_append_of_ne_nil _ (List.cons_ne_nil x a')]
      exact hb _ _ hb'
  · cases c' with
    | nil =>
      simp only [List.nil_append] at hc'
      subst hc'
      simpa using hj rfl
    | cons x c' =>
      obtain ⟨rfl, rfl⟩ := List.cons_eq_cons.mp hc'
      exact ha pre c' rfl

theorem of_append_left {a b : List Char} (h : Feeds p (a ++ b)) : Feeds p a := by
  rintro pre post rfl
  exact h pre (post ++ b) (by simp)

theorem of_append_right {a b : List Char} (h : Feeds p (a ++ b))
    (hj : b.head? = some '\n' → p none) : Feeds p b := by
  intro pre post hb
  cases pre with
  | nil => exact hj (by simp [hb])
  | cons x pre =>
    have := h (a ++ x :: pre) post (by simp [hb])
    rwa [List.getLast?_append_of_ne_nil _ (List.cons_ne_nil x pre)] at this

end Feeds

/-! ### Texts with CRLF line endings -/

theorem CrlfOnly.head? {cs : List Char} (h : CrlfOnly cs) : cs.head? ≠ some '\n' := by
  intro hhead
  obtain ⟨post, rfl⟩ := List.head?_eq_some_iff.mp hhead
  simpa using h [] post rfl

/-- A CRLF-only text joined to one that does not start with a line feed. -/
theorem CrlfOnly.append {a b : List Char} (ha : CrlfOnly a) (hb : CrlfOnly b) :
    CrlfOnly (a ++ b) :=
  Feeds.append ha hb fun h => absurd h hb.head?

theorem CrlfOnly.of_append_right {a b : List Char} (h : CrlfOnly (a ++ b))
    (hj : b.head? ≠ some '\n') : CrlfOnly b :=
  Feeds.of_append_right h fun h => absurd h hj

/-- Written with CRLF endings, every line feed of a text ends a CRLF. -/
theorem crlfOnly_withEnding (cs : List Char) : CrlfOnly (Block.withEnding ['\r', '\n'] cs) := by
  induction cs with
  | nil => exact Feeds.of_not_mem (by simp [Block.withEnding])
  | cons c cs ih =>
    rw [Block.withEnding_cons]
    refine CrlfOnly.append ?_ ih
    split
    · rintro pre post h
      rcases pre with _ | ⟨x, _ | ⟨y, pre⟩⟩ <;> simp at h
      simp [← h.1]
    · rename_i hc
      exact Feeds.of_not_mem (by simp [Ne.symm hc])

/-- The ending of a text whose line feeds all end a CRLF, when it has one. -/
theorem lineEnding_of_crlfOnly {cs : List Char} (h : CrlfOnly cs) (hnl : '\n' ∈ cs) :
    Block.lineEnding cs = ['\r', '\n'] := by
  induction cs using Block.lineEnding.induct with
  | case1 rest => rfl
  | case2 rest => exact absurd rfl h.head?
  | case3 => simp at hnl
  | case4 c cs h1 h2 ih =>
    rw [Block.lineEnding.eq_4 c cs h1 h2]
    refine ih ?_ (by simpa [Ne.symm h2] using hnl)
    -- the text below the first character starts with no line feed, since no CRLF starts here
    refine Feeds.of_append_right (a := [c]) h fun hhead => ?_
    obtain ⟨post, rfl⟩ := List.head?_eq_some_iff.mp hhead
    have hcr := h [c] post rfl
    simp only [List.getLast?_singleton, Option.some.injEq] at hcr
    exact (h1 post hcr rfl).elim

/-! ### Texts without a CRLF -/

/-- The ending of a text without a CRLF is the line feed. -/
theorem lineEnding_of_noCrlf {cs : List Char} (h : NoCrlf cs) : Block.lineEnding cs = ['\n'] := by
  induction cs using Block.lineEnding.induct with
  | case1 rest => exact absurd (h ['\r'] rest rfl) (by simp)
  | case2 rest => rfl
  | case3 => rfl
  | case4 c cs h1 h2 ih =>
    rw [Block.lineEnding.eq_4 c cs h1 h2]
    exact ih (Feeds.of_append_right (a := [c]) h fun _ => by simp)

/-- A text a line feed may follow without making a CRLF: it holds none, and it does not end
    with a carriage return. -/
def LfClean (cs : List Char) : Prop :=
  NoCrlf cs ∧ cs.getLast? ≠ some '\r'

theorem lfClean_nil : LfClean [] :=
  ⟨Feeds.of_not_mem (by simp), by simp⟩

theorem lfClean_of_line {l : List Char} (hl : '\n' ∉ l) (hr : l.getLast? ≠ some '\r') :
    LfClean l :=
  ⟨Feeds.of_not_mem hl, hr⟩

theorem lfClean_newline : LfClean ['\n'] :=
  ⟨fun pre post h => by rcases pre with _ | ⟨x, pre⟩ <;> simp_all, by simp⟩

theorem LfClean.append {a b : List Char} (ha : LfClean a) (hb : LfClean b) : LfClean (a ++ b) := by
  refine ⟨Feeds.append ha.1 hb.1 fun _ => ha.2, ?_⟩
  rw [List.getLast?_append]
  cases hlast : b.getLast? with
  | none => simpa using ha.2
  | some x => simpa [hlast] using hb.2

theorem LfClean.of_append_right {a b : List Char} (h : LfClean (a ++ b)) : LfClean b := by
  refine ⟨Feeds.of_append_right h.1 fun _ => by simp, ?_⟩
  cases hb : b.getLast? with
  | none => simp
  | some x =>
    have := h.2
    rw [List.getLast?_append, hb] at this
    simpa using this

/-- Lines joined by line feeds, none of which ends with a carriage return. -/
theorem lfClean_intercalate {ls : List (List Char)} (h : ∀ l ∈ ls, LfClean l) :
    LfClean (['\n'].intercalate ls) := by
  induction ls with
  | nil => exact lfClean_nil
  | cons l ls ih =>
    cases ls with
    | nil => simpa using h l (by simp)
    | cons m ms =>
      rw [List.intercalate_cons_cons]
      exact ((h l (by simp)).append lfClean_newline).append
        (ih fun x hx => h x (List.mem_cons_of_mem l hx))

end Text

namespace Block

open Text

/-! ### The cuts an update makes -/

/-- A text ending a line followed by a line that does not end with a carriage return does not
    end with one. -/
theorem getLast?_append_line {u x : List Char} (hu : EndsLine u) (hx : x.getLast? ≠ some '\r') :
    (u ++ x).getLast? ≠ some '\r' := by
  rw [List.getLast?_append]
  cases hlast : x.getLast? with
  | none => rcases hu with rfl | hu <;> simp_all
  | some y => simpa [hlast] using hx

/-- Where a line's text stops: the text above the line ends a line, and what follows the line's
    text is its ending and the text below, as `piece_ending` allows. -/
theorem split_at_stop {cs : List Char} {l : Line} (hl : l ∈ linesWithOffsets cs) :
    ∃ u t w, cs.take l.stop = u ++ l.text ∧ cs.drop l.stop = t ++ w ∧ EndsLine u ∧
      (((t = [] ∨ t = ['\r']) ∧ w = []) ∨ t = ['\r', '\n'] ∨
        (t = ['\n'] ∧ l.text.getLast? ≠ some '\r')) := by
  obtain ⟨A, p, B, hps, rfl⟩ := mem_locate_split hl
  obtain ⟨-, t, ht, hcases⟩ := piece_ending hps
  refine ⟨A.flatten, t, B.flatten, (take_drop_stop hps).1, ?_, endsLine_flatten_of_pieces hps, ?_⟩
  · have hdropt : p.drop (bareLine p).length = t := by
      calc p.drop (bareLine p).length = (bareLine p ++ t).drop (bareLine p).length := by rw [← ht]
        _ = t := List.drop_left' rfl
    rw [(take_drop_stop hps).2, hdropt]
  · rcases hcases with ⟨ht0, rfl⟩ | h | h
    · exact Or.inl ⟨ht0, rfl⟩
    · exact Or.inr (Or.inl h)
    · exact Or.inr (Or.inr h)

/-- In a text whose line feeds all end a CRLF, what follows a line's text never starts with a
    line feed. -/
theorem head?_drop_stop_of_crlfOnly {cs : List Char} (h : CrlfOnly cs) {l : Line}
    (hl : l ∈ linesWithOffsets cs) : (cs.drop l.stop).head? ≠ some '\n' := by
  obtain ⟨u, t, w, htake, hdrop, hu, hcases⟩ := split_at_stop hl
  rw [hdrop]
  rcases hcases with ⟨rfl | rfl, rfl⟩ | rfl | ⟨rfl, hlast⟩
  · simp
  · simp
  · simp
  · -- a lone line feed after the line would have the line's last character before it
    intro _
    have hcs : cs = (u ++ l.text) ++ '\n' :: w := by
      rw [← List.take_append_drop l.stop cs, htake, hdrop]
      simp
    exact getLast?_append_line hu hlast (h _ w hcs)

/-- In a text without a CRLF that does not end with a carriage return, the text up to the end of a
    line's text does not end with one either. -/
theorem getLast?_take_stop_of_noCrlf {cs : List Char} (h : LfClean cs) {l : Line}
    (hl : l ∈ linesWithOffsets cs) : (cs.take l.stop).getLast? ≠ some '\r' := by
  obtain ⟨u, t, w, htake, hdrop, hu, hcases⟩ := split_at_stop hl
  have hcs : cs = cs.take l.stop ++ (t ++ w) := by rw [← hdrop, List.take_append_drop]
  rcases hcases with ⟨rfl | rfl, rfl⟩ | rfl | ⟨rfl, hlast⟩
  · have htake_eq : cs.take l.stop = cs := by simpa using hcs.symm
    rw [htake_eq]
    exact h.2
  · -- the text would end with the carriage return after the line
    exact absurd (by rw [hcs]; simp) h.2
  · -- the line's carriage return would start a CRLF
    have hcrlf : cs = (cs.take l.stop ++ ['\r']) ++ '\n' :: w := by
      conv_lhs => rw [hcs]
      simp
    exact absurd (h.1 _ w hcrlf) (by simp)
  · rw [htake]
    exact getLast?_append_line hu hlast

theorem findMarkers_stop {begin stop : List Char} :
    ∀ {ls : List Line} {span : Span}, findMarkers begin stop ls = some span →
      ∃ e ∈ ls, e.stop = span.stop
  | [], _, h => by simp [findMarkers] at h
  | l :: ls, span, h => by
    rw [findMarkers] at h
    split at h
    · obtain ⟨e, he, rfl⟩ := Option.map_eq_some_iff.mp h
      exact ⟨e, List.mem_cons_of_mem l (findEnd_mem he), rfl⟩
    · obtain ⟨e, he, hstop⟩ := findMarkers_stop h
      exact ⟨e, List.mem_cons_of_mem l he, hstop⟩

/-- A block the finder finds stops where a line's text stops. -/
theorem findBlock_stop {cs : List Char} {c : String} {span : Span}
    (h : findBlock cs c = some span) : ∃ l ∈ linesWithOffsets cs, l.stop = span.stop :=
  findMarkers_stop h

/-! ### One pass -/

theorem mem_withEnding {eol x : List Char} (hx : '\n' ∈ x) (he : '\n' ∈ eol) :
    '\n' ∈ withEnding eol x :=
  List.mem_flatMap.mpr ⟨'\n', hx, by simpa using he⟩

/-- Put into a text whose line feeds all end a CRLF, a table of contents whose block holds a line
    feed leaves a text whose line feeds all end a CRLF, and that has one: every part of the new
    text is such a text, and none starts with a line feed. -/
theorem apply_keeps_crlf {cs : List Char} (h : CrlfOnly cs) (hnl : '\n' ∈ cs) (toc : Toc)
    (o : Options) (hinner : '\n' ∈ toc.inner.toList) :
    CrlfOnly (apply (String.ofList cs) toc o).content.toList ∧
      '\n' ∈ (apply (String.ofList cs) toc o).content.toList := by
  have he := lineEnding_of_crlfOnly h hnl
  have hw : ∀ x, CrlfOnly (withEnding (lineEnding cs) x) := fun x => he ▸ crlfOnly_withEnding x
  have heol : CrlfOnly (lineEnding cs) := by simpa [withEnding] using hw ['\n']
  have hnl_eol : '\n' ∈ lineEnding cs := by simp [he]
  cases hb : findBlock cs o.character with
  | some span =>
    obtain ⟨u, Y, v, hcs, rfl, -, happly⟩ := apply_found hb
    obtain ⟨l, hl, hstop⟩ := findBlock_stop hb
    -- the block stops where its closing marker's text does, so no line feed follows it at once
    have hv : cs.drop l.stop = v := by
      rw [hstop, hcs]
      exact List.drop_left' (by simp)
    have hvh : v.head? ≠ some '\n' := hv ▸ head?_drop_stop_of_crlfOnly h hl
    have h' : CrlfOnly (u ++ Y ++ v) := hcs ▸ h
    rw [happly toc]
    have hu : CrlfOnly u := Feeds.of_append_left (Feeds.of_append_left h')
    exact ⟨CrlfOnly.append (CrlfOnly.append hu (hw _)) (CrlfOnly.of_append_right h' hvh),
      by simp [mem_withEnding hinner hnl_eol]⟩
  | none =>
    cases hp : preambleEnd cs o.extension with
    | some stop =>
      obtain ⟨l, hl, rfl⟩ := preambleEnd_line hp
      have h' : CrlfOnly (cs.take l.stop ++ cs.drop l.stop) := by rwa [List.take_append_drop]
      rw [apply_below hb hp toc]
      have htake : CrlfOnly (cs.take l.stop) := Feeds.of_append_left h'
      have htail :
          CrlfOnly (if (cs.drop l.stop).isEmpty then lineEnding cs else cs.drop l.stop) := by
        split
        · exact heol
        · exact CrlfOnly.of_append_right h' (head?_drop_stop_of_crlfOnly h hl)
      exact ⟨CrlfOnly.append (CrlfOnly.append (CrlfOnly.append (CrlfOnly.append htake heol) heol)
        (hw _)) htail, by simp [hnl_eol]⟩
    | none =>
      rw [apply_top hb hp toc]
      exact ⟨CrlfOnly.append (CrlfOnly.append (hw _) heol) (CrlfOnly.append heol h),
        by simp [hnl_eol]⟩

/-- Put into a text that a line feed may follow, a table of contents whose block and whole
    written form a line feed may follow leaves such a text: the text above the cut ends a line or
    the preamble's last line, and neither ends with a carriage return. -/
theorem apply_keeps_lf {cs : List Char} (h : LfClean cs) (toc : Toc) (o : Options)
    (hinner : LfClean toc.inner.toList) (houter : LfClean toc.outer.toList) :
    LfClean (apply (String.ofList cs) toc o).content.toList := by
  have he := lineEnding_of_noCrlf h.1
  cases hb : findBlock cs o.character with
  | some span =>
    obtain ⟨u, Y, v, hcs, -, hen, happly⟩ := apply_found hb
    have h' : LfClean (u ++ Y ++ v) := hcs ▸ h
    have hu : LfClean u := by
      refine ⟨Feeds.of_append_left (Feeds.of_append_left h'.1), ?_⟩
      rcases hen.endsLine with rfl | hlast
      · simp
      · simp [hlast]
    rw [happly toc, he, withEnding_lf]
    exact (hu.append hinner).append h'.of_append_right
  | none =>
    cases hp : preambleEnd cs o.extension with
    | some stop =>
      obtain ⟨l, hl, rfl⟩ := preambleEnd_line hp
      have h' : LfClean (cs.take l.stop ++ cs.drop l.stop) := by rwa [List.take_append_drop]
      have htake : LfClean (cs.take l.stop) :=
        ⟨Feeds.of_append_left h'.1, getLast?_take_stop_of_noCrlf h hl⟩
      rw [apply_below hb hp toc, he, withEnding_lf]
      refine (((htake.append lfClean_newline).append lfClean_newline).append houter).append ?_
      split
      · exact lfClean_newline
      · exact h'.of_append_right
    | none =>
      rw [apply_top hb hp toc, he, withEnding_lf]
      exact (houter.append lfClean_newline).append (lfClean_newline.append h)

/-! ### The lines of a block -/

theorem length_foldl_trunk (S cols : List Nat) (l : List Char) :
    (cols.foldl (fun acc a => if a ∈ S then acc.set a '│' else acc) l).length = l.length := by
  induction cols generalizing l with
  | nil => rfl
  | cons a cols ih =>
    rw [List.foldl_cons, ih]
    split <;> simp

theorem length_connectLine (S : List Nat) (cs : List Char) :
    (Tree.connectLine S cs).2.length = cs.length := by
  unfold Tree.connectLine
  split
  · rfl
  · simp only [length_foldl_trunk]
    split <;> split <;> simp

/-- Redrawing a line writes box glyphs only: a last character that is none was there before. -/
theorem getLast?_connectLine {S : List Nat} {cs : List Char} {x : Char} (hx : x ∉ boxGlyphs)
    (h : (Tree.connectLine S cs).2.getLast? = some x) : cs.getLast? = some x := by
  cases hk : Tree.connectorColumn cs with
  | none => simpa [Tree.connectLine, hk] using h
  | some k =>
    rw [List.getLast?_eq_getElem?, length_connectLine, Tree.getElem?_connectLine hk] at h
    obtain ⟨y, hy, hxy⟩ := Option.map_eq_some_iff.mp h
    rw [List.getLast?_eq_getElem?, hy]
    split_ifs at hxy
    · exact absurd (hxy ▸ (by decide : '├' ∈ boxGlyphs)) hx
    · exact absurd (hxy ▸ (by decide : '┐' ∈ boxGlyphs)) hx
    · exact absurd (hxy ▸ (by decide : '│' ∈ boxGlyphs)) hx
    · exact congrArg some hxy

/-- A placeholder line ends with its label, or with the blank before it when the label is
    empty. -/
theorem getLast?_render (h : Heading) (character : String) (numbered : Bool) :
    (h.render character numbered).toList.getLast? =
      some ((h.label numbered).toList.getLast?.getD ' ') := by
  unfold Heading.render
  split <;> simp [String.toList_append, List.getLast?_append, List.getLast?_cons]

/-- A label ends with a carriage return only when it shows no line number and the heading's text
    ends with one. -/
theorem getLast?_label_eq_cr {h : Heading} {numbered : Bool}
    (hl : (h.label numbered).toList.getLast? = some '\r') :
    numbered = false ∧ h.text.toList.getLast? = some '\r' := by
  unfold Heading.label at hl
  cases numbered with
  | false => exact ⟨rfl, by simpa using hl⟩
  | true =>
    -- the last character of a numbered label is a digit of the line number
    have hmem : '\r' ∈ Nat.toDigits 10 h.line ∨ ('\r' = ' ' ∧ Nat.toDigits 10 h.line = []) := by
      simp only [if_true, String.toList_append] at hl
      rw [List.getLast?_append] at hl
      cases hd : (toString h.line).toList.getLast? with
      | none => simp_all
      | some d =>
        rw [hd] at hl
        simp only [Option.some_or, Option.some.injEq] at hl
        subst hl
        exact Or.inl (by simpa using List.mem_of_getLast? hd)
    rcases hmem with hmem | ⟨hsp, -⟩
    · simpa using Nat.isDigit_of_mem_toDigits (by decide) (by decide) hmem
    · exact absurd hsp (by decide)

section Lines

variable {o : Options} (hc : '\n' ∉ o.character.toList)
include hc

/-- Body lines a line feed may follow, for headings on one line whose labels do not end with a
    carriage return. -/
theorem lfClean_body {hs : List Heading} (htexts : ∀ h ∈ hs, '\n' ∉ h.text.toList)
    (hlabels : ∀ h ∈ hs, (h.label o.numbered).toList.getLast? ≠ some '\r') :
    ∀ l ∈ bodyOf o hs, LfClean l.toList := by
  intro l hl
  refine lfClean_of_line (not_mem_body o (by decide) rfl hc htexts l hl) fun hlast => ?_
  rw [bodyOf, Tree.connect_eq_of_opens (Heading.opens_render_all hs _ _)] at hl
  obtain ⟨cs, hcs, rfl⟩ := List.mem_map.mp hl
  obtain ⟨S, m, hm, rfl⟩ := Tree.exists_of_mem_connectUp hcs
  obtain ⟨x, hx, rfl⟩ := List.mem_map.mp hm
  obtain ⟨h, hh, rfl⟩ := List.mem_map.mp hx
  rw [String.toList_ofList] at hlast
  have hrender := getLast?_connectLine (by decide) hlast
  rw [getLast?_render] at hrender
  cases hlab : (h.label o.numbered).toList.getLast? with
  | none => simp [hlab] at hrender
  | some y => exact hlabels h hh (by simpa [hlab] using hrender)

/-- The lines of a document a line feed may follow: the delimiters, the frame with a name on one
    line, and the body lines. -/
theorem lfClean_lines_documentFor (hn : '\n' ∉ o.name.toList) {hs : List Heading} (hne : hs ≠ [])
    (htexts : ∀ h ∈ hs, '\n' ∉ h.text.toList)
    (hlabels : ∀ h ∈ hs, (h.label o.numbered).toList.getLast? ≠ some '\r') :
    ∀ l ∈ (documentFor Registry.builtin o hs).lines, LfClean l.toList := by
  have hframe : ∀ l ∈ Tree.header o.character o.name ++ Tree.footer o.character,
      LfClean l.toList := by
    intro l hl
    refine lfClean_of_line (Tree.not_mem_header (by decide) hc hn l hl) ?_
    simp only [Tree.header, Tree.footer, List.cons_append, List.nil_append, List.mem_cons,
      List.not_mem_nil, or_false] at hl
    rcases hl with rfl | rfl | rfl | rfl | rfl | rfl <;>
      simp [Tree.getLast?_beginMarker, Tree.getLast?_titleLine, Tree.getLast?_titleRule,
        Tree.getLast?_endMarker]
  intro l hl
  rw [documentFor_of_ne_nil Registry.builtin o hne] at hl
  simp only [Document.lines, List.mem_append] at hl
  rcases hl with (((hl | hl) | hl) | hl) | hl
  · obtain ⟨hl1, hl2, -⟩ := delimiter_written o.extension o.character l.toList
      (List.mem_map_of_mem (List.mem_append_left _ hl))
    exact lfClean_of_line hl1 hl2
  · exact hframe l (List.mem_append_left _ hl)
  · exact lfClean_body hc htexts hlabels l hl
  · exact hframe l (List.mem_append_right _ hl)
  · obtain ⟨hl1, hl2, -⟩ := delimiter_written o.extension o.character l.toList
      (List.mem_map_of_mem (List.mem_append_right _ hl))
    exact lfClean_of_line hl1 hl2

/-- The block and the whole written table of contents of a text with headings, when neither the
    comment character nor the name holds a line feed and no label ends with a carriage return. -/
theorem lfClean_generate (hn : '\n' ∉ o.name.toList) {s : String}
    (hne : headingsOf Registry.builtin o s ≠ [])
    (hlabels : ∀ h ∈ headingsOf Registry.builtin o s,
      (h.label o.numbered).toList.getLast? ≠ some '\r') :
    LfClean (generate Registry.builtin o s).inner.toList ∧
      LfClean (generate Registry.builtin o s).outer.toList := by
  have hlines := lfClean_lines_documentFor hc hn hne (single_headingsOf _ o s) hlabels
  have hd := isEmpty_documentFor_of_ne_nil Registry.builtin o hne
  simp only [generate]
  constructor
  · -- the block is the document's lines but its delimiters
    rw [Document.toList_inner hd]
    refine lfClean_intercalate fun l hl => ?_
    obtain ⟨x, hx, rfl⟩ := List.mem_map.mp hl
    refine hlines x ?_
    simp only [Document.lines, List.mem_append] at hx ⊢
    rcases hx with (hx | hx) | hx
    · exact Or.inl (Or.inl (Or.inl (Or.inr hx)))
    · exact Or.inl (Or.inl (Or.inr hx))
    · exact Or.inl (Or.inr hx)
  · rw [Document.toList_outer hd
      (by simp [documentFor_of_ne_nil Registry.builtin o hne, Tree.header])]
    refine lfClean_intercalate fun l hl => ?_
    obtain ⟨x, hx, rfl⟩ := List.mem_map.mp hl
    exact hlines x hx

end Lines

/-! ### An update -/

/-- The block of a table of contents that lists headings holds a line feed: its frame has more
    than one line. -/
theorem newline_mem_inner_generate {r : Registry} {o : Options} {s : String}
    (hne : headingsOf r o s ≠ []) : '\n' ∈ (generate r o s).inner.toList := by
  rw [toList_inner_generate r o hne]
  simp [Tree.innerText, Tree.header, List.intercalate_cons_cons]

/-- One pass over a text whose line feeds all end a CRLF keeps them so. -/
theorem pass_keeps_crlf {r : Registry} {o : Options} {s : String} (h : CrlfOnly s.toList)
    (hnl : '\n' ∈ s.toList) (hne : headingsOf r o s ≠ []) :
    CrlfOnly (pass r o s).content.toList ∧ '\n' ∈ (pass r o s).content.toList := by
  have hstep := apply_keeps_crlf h hnl (generate r o s) o (newline_mem_inner_generate hne)
  rwa [String.ofList_toList] at hstep

/-- One pass over a text that a line feed may follow, when no label ends with a carriage
    return. -/
theorem pass_keeps_lf {o : Options} (hc : '\n' ∉ o.character.toList) (hn : '\n' ∉ o.name.toList)
    {s : String} (h : LfClean s.toList) (hne : headingsOf Registry.builtin o s ≠ [])
    (hlabels : ∀ h ∈ headingsOf Registry.builtin o s,
      (h.label o.numbered).toList.getLast? ≠ some '\r') :
    LfClean (pass Registry.builtin o s).content.toList := by
  obtain ⟨hin, hout⟩ := lfClean_generate hc hn hne hlabels
  have hstep := apply_keeps_lf h (generate Registry.builtin o s) o hin hout
  rwa [String.ofList_toList] at hstep

/-- An update keeps a text's line endings, for a comment character and a name on one line. A text
    whose line feeds all end a CRLF keeps them so. A text without a CRLF gets none, when it does not
    end with a carriage return and, without line numbers, no listed heading's text ends with one. -/
theorem update_keeps_line_endings (o : Options) (hc : '\n' ∉ o.character.toList)
    (hn : '\n' ∉ o.name.toList) (content : String) {a : Applied}
    (ha : update Registry.builtin o content = .ok a) :
    (CrlfOnly content.toList → '\n' ∈ content.toList → CrlfOnly a.content.toList) ∧
    (NoCrlf content.toList → content.toList.getLast? ≠ some '\r' →
      (o.numbered = true ∨
        ∀ h ∈ headingsOf Registry.builtin o content, h.text.toList.getLast? ≠ some '\r') →
      NoCrlf a.content.toList) := by
  -- with numbers every label ends with a digit of its line number
  have hnumbered : o.numbered = true → ∀ s, ∀ h ∈ headingsOf Registry.builtin o s,
      (h.label o.numbered).toList.getLast? ≠ some '\r' := fun hnum _ h _ hl => by
    simpa [hnum] using (getLast?_label_eq_cr hl).1
  obtain ⟨h0, ⟨hnum, rfl⟩ | ⟨hnum, h1, rfl⟩⟩ := update_ok ha
  · -- one pass
    refine ⟨fun hcr hnl => (pass_keeps_crlf hcr hnl h0).1, fun hno hlast htexts => ?_⟩
    refine (pass_keeps_lf hc hn ⟨hno, hlast⟩ h0 fun h hh hl => ?_).1
    rcases htexts with hnum' | htexts
    · simp [hnum] at hnum'
    · exact htexts h hh (getLast?_label_eq_cr hl).2
  · -- two passes, the second over what the first wrote
    dsimp only
    refine ⟨fun hcr hnl => ?_, fun hno hlast _ => ?_⟩
    · obtain ⟨h1c, h1n⟩ := pass_keeps_crlf hcr hnl h0
      exact (pass_keeps_crlf h1c h1n h1).1
    · have hfirst := pass_keeps_lf hc hn ⟨hno, hlast⟩ h0 (hnumbered hnum content)
      exact (pass_keeps_lf hc hn hfirst h1 (hnumbered hnum _)).1

theorem markdown_update_keeps_line_endings :
    let o := Options.forPath Registry.builtin "a.md"
    ('\n' ∉ o.character.toList ∧ '\n' ∉ o.name.toList) ∧
    match update Registry.builtin o "# A\r\n" with
    | .ok a =>
      (CrlfOnly "# A\r\n".toList → '\n' ∈ "# A\r\n".toList → CrlfOnly a.content.toList) ∧
      (NoCrlf "# A\r\n".toList → "# A\r\n".toList.getLast? ≠ some '\r' →
        (o.numbered = true ∨
          ∀ h ∈ headingsOf Registry.builtin o "# A\r\n", h.text.toList.getLast? ≠ some '\r') →
        NoCrlf a.content.toList)
    | .error _ => False := by
  intro o
  have hc : '\n' ∉ o.character.toList := by decide +kernel
  have hn : '\n' ∉ o.name.toList := by decide +kernel
  refine ⟨⟨hc, hn⟩, ?_⟩
  have hok : (update Registry.builtin o "# A\r\n").isOk = true :=
    (isOk_update_unnumbered (fitCharacter_options rfl) rfl _).mpr (by decide +kernel)
  cases h : update Registry.builtin o "# A\r\n" with
  | ok a => exact update_keeps_line_endings o hc hn "# A\r\n" h
  | error err =>
    rw [h] at hok
    exact absurd hok (by simp [Except.isOk, Except.toBool])

end Block

end Outline
