/-
Module: Outline.Proofs.Preamble
Purpose: Where a preamble ends, and what the line it ends on holds. Every kind of preamble ends
  where a line of the text ends: a shebang that opens the text, the line that closes Markdown
  front matter, the line of a Python module docstring that holds its closing quotes, or the last
  of the XML declarations and doctypes at the top. None of these lines is an opening marker, with
  or without carriage returns after it, and none that opens the text reads as a heading.
Main exports: Block.PrologLine, Block.PreambleLine, Block.Opening, Block.ShebangClear
Main statements: preambleEnd_spec, preambleEnd_line, PreambleLine.shebang,
  PreambleLine.ne_beginMarker, Opening.heading_cr
Open obligations: none
-/
import Mathlib
import Outline.Proofs.MarkerLines

namespace Outline

namespace Text

theorem occursIn_of_prefix {p t : List Char} (h : p <+: t) : occursIn p t = true := by
  obtain ⟨r, rfl⟩ := h
  cases hpr : p ++ r with
  | nil =>
    obtain ⟨rfl, -⟩ := List.append_eq_nil_iff.mp hpr
    rfl
  | cons c cs =>
    unfold occursIn
    rw [← hpr, dropPrefix?_append]
    rfl

/-- Only `<` lowers to `<`. -/
theorem eq_of_toLower_eq_angle {x : Char} (h : Char.toLower x = '<') : x = '<' := by
  unfold Char.toLower at h
  split at h
  · -- an upper case letter lowers to a lower case letter
    rename_i hup
    exfalso
    have hv := congrArg (fun c : Char => c.val.toNat) h
    dsimp only at hv
    obtain ⟨h1, h2⟩ := hup
    rw [UInt32.toNat_add] at hv
    rw [ge_iff_le, UInt32.le_iff_toNat_le] at h1
    rw [UInt32.le_iff_toNat_le] at h2
    have ha : ('a'.val - 'A'.val).toNat = 32 := rfl
    have hl : ('<' : Char).val.toNat = 60 := rfl
    have hA : ('A' : Char).val.toNat = 65 := rfl
    have hZ : ('Z' : Char).val.toNat = 90 := rfl
    omega
  · exact h

/-- A pattern occurs only where its first character does. -/
theorem mem_of_occursIn {x : Char} {p t : List Char} (h : occursIn (x :: p) t = true) : x ∈ t := by
  induction t with
  | nil => simp [occursIn] at h
  | cons c cs ih =>
    unfold occursIn at h
    rcases Bool.or_eq_true_iff.mp h with h | h
    · unfold dropPrefix? at h
      split at h
      · rename_i hxc
        rw [hxc]
        exact List.mem_cons_self
      · simp at h
    · exact List.mem_cons_of_mem c (ih h)

end Text

namespace Block

/-! ### The line a preamble ends on -/

/-- An XML declaration or a doctype: after its leading white space the line opens with `<?xml`,
    or with `<!doctype` in any case. -/
def PrologLine (t : List Char) : Prop :=
  "<?xml".toList <+: Text.trimLeft t ∨
    ((Text.trimLeft t).take 9).map Char.toLower = "<!doctype".toList

/-- The line a preamble ends on, with where it starts: a shebang that opens the text, the line
    that closes Markdown front matter, a line of a Python docstring that holds its quotes (one
    that opens the text starts with them), or an XML declaration or doctype. -/
def PreambleLine (extension : String) (l : Line) : Prop :=
  (l.start = 0 ∧ "#!".toList <+: l.text) ∨
    (extension ∈ ["md", "markdown"] ∧ 0 < l.start ∧
      (l.text = "---".toList ∨ l.text = "...".toList)) ∨
    (extension = "py" ∧ ∃ q ∈ ["\"\"\"".toList, "'''".toList],
      Text.occursIn q l.text = true ∧ (l.start = 0 → q <+: l.text)) ∨
    (extension ∈ ["xml", "svg", "xhtml", "html", "htm"] ∧ PrologLine l.text)

theorem prologEnd_spec {found : Option Nat} {ls : List Line} {stop : Nat}
    (h : prologEnd found ls = some stop) :
    found = some stop ∨ ∃ l ∈ ls, l.stop = stop ∧ PrologLine l.text := by
  induction ls generalizing found with
  | nil => exact Or.inl h
  | cons l ls ih =>
    unfold prologEnd at h
    dsimp only at h
    split at h
    · rename_i hprolog
      have hl : PrologLine l.text := by
        simpa [PrologLine, List.isPrefixOf_iff_prefix] using hprolog
      rcases ih h with h' | ⟨m, hm, hms, hpm⟩
      · exact Or.inr ⟨l, List.mem_cons_self, Option.some.inj h', hl⟩
      · exact Or.inr ⟨m, List.mem_cons_of_mem l hm, hms, hpm⟩
    · exact Or.inl h

/-- A docstring that opens on the first of some lines closes on that line, or on a later one
    that holds its quotes. -/
theorem docstringClose_spec {ls : List Line} {l : Line} (h : docstringClose ls = some l) :
    ∃ first rest, ls = first :: rest ∧ ∃ q ∈ ["\"\"\"".toList, "'''".toList],
      q <+: first.text ∧ (l = first ∨ (l ∈ rest ∧ Text.occursIn q l.text = true)) := by
  unfold docstringClose at h
  split at h
  · simp at h
  · rename_i first rest
    dsimp only at h
    obtain ⟨q, hq, hl⟩ := Option.bind_eq_some_iff.mp h
    have hpre := List.find?_some hq
    refine ⟨first, rest, rfl, q, List.mem_of_find?_eq_some hq,
      List.isPrefixOf_iff_prefix.mp hpre, ?_⟩
    split at hl
    · exact Or.inl (Option.some.inj hl).symm
    · obtain ⟨i, hi, hil⟩ := Option.bind_eq_some_iff.mp hl
      obtain ⟨hlt, hhold, -⟩ := List.findIdx?_eq_some_iff_getElem.mp hi
      have hli : rest[i] = l := by simpa [List.getElem?_eq_getElem hlt] using hil
      rw [← hli]
      exact Or.inr ⟨List.getElem_mem hlt, hhold⟩

/-- A docstring closes on a line a Python preamble ends on: the first line searched, which starts
    with the quotes, or a later line, which starts below the text's first line. -/
theorem docstringClose_preambleLine {ls : List Line} {l : Line} (h : docstringClose ls = some l)
    (hpos : ∀ m ∈ ls.tail, 0 < m.start) : l ∈ ls ∧ PreambleLine "py" l := by
  obtain ⟨first, rest, rfl, q, hq, hpre, hl⟩ := docstringClose_spec h
  rcases hl with rfl | ⟨hl, hocc⟩
  · exact ⟨List.mem_cons_self,
      Or.inr (Or.inr (Or.inl ⟨rfl, q, hq, Text.occursIn_of_prefix hpre, fun _ => hpre⟩))⟩
  · refine ⟨List.mem_cons_of_mem _ hl, Or.inr (Or.inr (Or.inl ⟨rfl, q, hq, hocc, ?_⟩))⟩
    exact fun hl0 => absurd hl0 (Nat.pos_iff_ne_zero.mp (hpos l hl))

/-- Front matter opening on the first of some lines closes on a later `---` or `...` line. -/
theorem frontMatterEnd_spec {ls : List Line} {stop : Nat} (h : frontMatterEnd ls = some stop) :
    ∃ first rest, ls = first :: rest ∧ ∃ l ∈ rest, l.stop = stop ∧
      (l.text = "---".toList ∨ l.text = "...".toList) := by
  unfold frontMatterEnd at h
  split at h
  · rename_i first rest
    split at h
    · obtain ⟨l, hl, rfl⟩ := Option.map_eq_some_iff.mp h
      refine ⟨first, rest, rfl, l, List.mem_of_find?_eq_some hl, rfl, ?_⟩
      simpa using List.find?_some hl
    · simp at h
  · simp at h

theorem start_of_linesWithOffsets {cs : List Char} {first : Line} {rest : List Line}
    (h : linesWithOffsets cs = first :: rest) : first.start = 0 := by
  unfold linesWithOffsets at h
  cases hp : Text.pieces cs with
  | nil => simp [hp, locate] at h
  | cons p ps =>
    rw [hp, locate] at h
    rw [← (List.cons.inj h).1]

/-- Every line but the first starts after the first line's piece, which is not empty. -/
theorem start_pos_of_mem_tail {cs : List Char} {first : Line} {rest : List Line}
    (h : linesWithOffsets cs = first :: rest) {l : Line} (hl : l ∈ rest) : 0 < l.start := by
  unfold linesWithOffsets at h
  cases hp : Text.pieces cs with
  | nil => simp [hp, locate] at h
  | cons p ps =>
    rw [hp, locate] at h
    obtain ⟨-, rfl⟩ := List.cons.inj h
    obtain ⟨A, q, B, -, rfl⟩ := mem_locate_split hl
    have hne : p ≠ [] :=
      Text.ne_nil_of_mem_piecesFrom [] cs p (by rw [← Text.pieces, hp]; exact List.mem_cons_self)
    have hpos : 0 < p.length := List.length_pos_of_ne_nil hne
    simp only
    omega

/-- A preamble ends where a line of the text ends, and that line is one a preamble ends on. -/
theorem preambleEnd_spec {cs : List Char} {extension : String} {stop : Nat}
    (h : preambleEnd cs extension = some stop) :
    ∃ l ∈ linesWithOffsets cs, l.stop = stop ∧ PreambleLine extension l := by
  unfold preambleEnd at h
  dsimp only at h
  cases hls : linesWithOffsets cs with
  | nil => simp [hls, frontMatterEnd, prologEnd, docstringClose] at h
  | cons first rest =>
    have h0 : first.start = 0 := start_of_linesWithOffsets hls
    have hpos : ∀ l ∈ rest, 0 < l.start := fun l hl => start_pos_of_mem_tail hls hl
    have hline : ∀ l ∈ rest, l ∈ first :: rest := fun l hl => List.mem_cons_of_mem first hl
    simp only [hls] at h
    by_cases hsb : "#!".toList.isPrefixOf first.text = true
    · -- after a shebang every kind of preamble ends on it or on a line of the rest
      have hshebang : ∀ {x}, some first.stop = some x →
          ∃ l ∈ first :: rest, l.stop = x ∧ PreambleLine extension l := fun hx =>
        ⟨first, List.mem_cons_self, Option.some.inj hx,
          Or.inl ⟨h0, List.isPrefixOf_iff_prefix.mp hsb⟩⟩
      simp only [hsb, if_true, Option.isSome_some, List.drop_succ_cons, List.drop_zero] at h
      split at h
      · exact hshebang h
      · split at h
        next hxml =>
          rcases prologEnd_spec h with h' | ⟨l, hl, hls', hpro⟩
          · exact hshebang h'
          · exact ⟨l, hline l hl, hls', Or.inr (Or.inr (Or.inr ⟨by simpa [or_assoc] using hxml, hpro⟩))⟩
        · split at h
          next hpy =>
            split at h
            next l hl =>
              cases h
              obtain rfl : extension = "py" := by simpa using hpy
              obtain ⟨hmem, hpl⟩ := docstringClose_preambleLine hl
                fun m hm => hpos m (List.mem_of_mem_tail hm)
              exact ⟨l, hline l hmem, rfl, hpl⟩
            · exact hshebang h
          · exact hshebang h
    · simp only [hsb, Bool.false_eq_true, if_false, Option.isSome_none] at h
      split at h
      next hmd =>
        obtain ⟨f', r', hfr, l, hl, hls', htext⟩ := frontMatterEnd_spec h
        obtain ⟨rfl, rfl⟩ := List.cons.inj hfr
        exact ⟨l, hline l hl, hls', Or.inr (Or.inl ⟨by simpa using hmd, hpos l hl, htext⟩)⟩
      · split at h
        next hxml =>
          rcases prologEnd_spec h with h' | ⟨l, hl, hls', hpro⟩
          · simp at h'
          · exact ⟨l, hl, hls', Or.inr (Or.inr (Or.inr ⟨by simpa [or_assoc] using hxml, hpro⟩))⟩
        · split at h
          next hpy =>
            split at h
            next l hl =>
              cases h
              obtain rfl : extension = "py" := by simpa using hpy
              obtain ⟨hmem, hpl⟩ := docstringClose_preambleLine hl hpos
              exact ⟨l, hmem, rfl, hpl⟩
            · simp at h
          · simp at h

/-- A preamble ends where a line of the text ends. -/
theorem preambleEnd_line {cs : List Char} {extension : String} {stop : Nat}
    (h : preambleEnd cs extension = some stop) : ∃ l ∈ linesWithOffsets cs, l.stop = stop := by
  obtain ⟨l, hl, hstop, -⟩ := preambleEnd_spec h
  exact ⟨l, hl, hstop⟩

/-- Roff, underlined and POD texts keep no preamble but a shebang. -/
theorem shebang_only {extension : String}
    (h : Registry.builtin.spelling extension = .roff ∨
      Registry.builtin.spelling extension = .underlined ∨ Registry.builtin.spelling extension = .pod) :
    extension ∉ ["md", "markdown", "xml", "svg", "xhtml", "html", "htm", "py"] := by
  intro hmem
  simp only [List.mem_cons, List.not_mem_nil, or_false] at hmem
  rcases hmem with rfl | rfl | rfl | rfl | rfl | rfl | rfl | rfl <;> revert h <;> decide +kernel

/-- Outside Markdown, XML and Python a preamble ends on a shebang that opens the text. -/
theorem PreambleLine.shebang {extension : String} {l : Line} (h : PreambleLine extension l)
    (hext : extension ∉ ["md", "markdown", "xml", "svg", "xhtml", "html", "htm", "py"]) :
    l.start = 0 ∧ "#!".toList <+: l.text := by
  rcases h with hs | ⟨hmd, -⟩ | ⟨rfl, -⟩ | ⟨hxml, -⟩
  · exact hs
  · exact absurd ((by decide : ["md", "markdown"] ⊆ _) hmd) hext
  · exact absurd (by decide) hext
  · exact absurd ((by decide : ["xml", "svg", "xhtml", "html", "htm"] ⊆ _) hxml) hext

/-! ### No opening marker, and no heading

A comment line opens with its character and a space where a shebang, a docstring's quotes or an
XML declaration would stand, and no docstring quote stands in the opening marker of a Python text.
A line that opens a preamble starts with `#`, a quote or, after white space, `<`, where no reader
finds a heading.
-/

/-- An XML declaration or doctype opens with `<` after its white space. -/
theorem PrologLine.trimLeft {t : List Char} (h : PrologLine t) :
    ∃ z, Text.trimLeft t = '<' :: z := by
  have hxml : "<?xml".toList = '<' :: "?xml".toList := by decide
  have hdoc : "<!doctype".toList = '<' :: "!doctype".toList := by decide
  unfold PrologLine at h
  cases ht : Text.trimLeft t with
  | nil =>
    rw [ht, hxml, hdoc] at h
    simp at h
  | cons y z =>
    refine ⟨z, ?_⟩
    rw [ht, hxml, hdoc, List.cons_prefix_cons] at h
    rcases h with h | h
    · rw [h.1]
    · simp at h
      rw [Text.eq_of_toLower_eq_angle h.1]

/-- How a line that a preamble ends on starts when it opens the text: with a shebang, with a
    docstring's quotes, or as an XML declaration or doctype. -/
def Opening (t : List Char) : Prop :=
  "#!".toList <+: t ∨ "\"\"\"".toList <+: t ∨ "'''".toList <+: t ∨ PrologLine t

theorem PreambleLine.opening {extension : String} {l : Line} (h : PreambleLine extension l)
    (h0 : l.start = 0) : Opening l.text := by
  rcases h with ⟨-, hs⟩ | ⟨-, hpos, -⟩ | ⟨-, q, hq, -, hpre⟩ | ⟨-, hpro⟩
  · exact Or.inl hs
  · omega
  · simp only [List.mem_cons, List.not_mem_nil, or_false] at hq
    rcases hq with rfl | rfl
    · exact Or.inr (Or.inl (hpre h0))
    · exact Or.inr (Or.inr (Or.inl (hpre h0)))
  · exact Or.inr (Or.inr (Or.inr hpro))

/-- A line that opens a preamble starts with a character that opens no roff request and no POD
    command. -/
theorem Opening.head {t : List Char} (h : Opening t) : ∃ x z, t = x :: z ∧ x ≠ '.' ∧ x ≠ '=' := by
  have hsheb : "#!".toList = ['#', '!'] := by decide
  have hq2 : "\"\"\"".toList = ['"', '"', '"'] := by decide
  have hq1 : "'''".toList = ['\'', '\'', '\''] := by decide
  cases t with
  | nil =>
    exfalso
    rcases h with h | h | h | h
    · rw [hsheb] at h; simp at h
    · rw [hq2] at h; simp at h
    · rw [hq1] at h; simp at h
    · obtain ⟨z, hz⟩ := h.trimLeft
      simp [Text.trimLeft] at hz
  | cons x z =>
    refine ⟨x, z, rfl, ?_⟩
    rcases h with h | h | h | h
    · rw [hsheb, List.cons_prefix_cons] at h
      rw [← h.1]
      decide
    · rw [hq2, List.cons_prefix_cons] at h
      rw [← h.1]
      decide
    · rw [hq1, List.cons_prefix_cons] at h
      rw [← h.1]
      decide
    · -- white space, or the `<` of the declaration
      by_cases hx : Text.isBlank x = true
      · constructor <;> rintro rfl <;> revert hx <;> decide
      · obtain ⟨y, hy⟩ := h.trimLeft
        simp only [Text.trimLeft, List.dropWhile_cons, hx, Bool.false_eq_true, if_false,
          List.cons.injEq] at hy
        rw [hy.1]
        decide

section Character

open Registry

/-- No comment character followed by a space starts like a shebang, a docstring's quotes or an
    XML declaration. -/
theorem not_opener_character {c : String} (hc : c ∈ builtinCharacterValues) {p : List Char}
    (hp : p ∈ ["#!".toList, "\"\"\"".toList, "'''".toList, "<?xml".toList]) (z : List Char) :
    ¬ p <+: c.toList ++ ' ' :: z := by
  have hall : ∀ c ∈ builtinCharacterValues, ∀ p ∈ ["#!".toList, "\"\"\"".toList, "'''".toList,
      "<?xml".toList], ¬ p <+: c.toList ++ [' '] ∧ ¬ c.toList ++ [' '] <+: p := by
    decide
  intro h
  have hcs : c.toList ++ [' '] <+: c.toList ++ ' ' :: z := ⟨z, by simp⟩
  rcases List.prefix_or_prefix_of_prefix h hcs with h' | h'
  · exact (hall c hc p hp).1 h'
  · exact (hall c hc p hp).2 h'

/-- A comment line, after white space, is no XML declaration or doctype. -/
theorem not_prologLine_character {c : String} (hc : c ∈ builtinCharacterValues) {w : List Char}
    (hw : ∀ x ∈ w, Text.isBlank x = true) (z : List Char) :
    ¬ PrologLine (w ++ (c.toList ++ ' ' :: z)) := by
  obtain ⟨x, xs, hx, hxb, -⟩ := Tree.fitCharacter_head (fitCharacter_of_mem hc)
  have hangle : ∀ c ∈ builtinCharacterValues, c.toList.head? ≠ some '<' := by decide
  intro h
  obtain ⟨y, hy⟩ := h.trimLeft
  have htrim : Text.trimLeft (w ++ (c.toList ++ ' ' :: z)) = c.toList ++ ' ' :: z := by
    unfold Text.trimLeft
    rw [List.dropWhile_append, if_pos (by simpa [List.dropWhile_eq_nil_iff] using hw), hx]
    simp [hxb]
  rw [htrim, hx] at hy
  exact hangle c hc (by rw [hx, (List.cons.inj hy).1]; rfl)

/-- A line that opens a preamble is no comment bar line. -/
theorem Bars.matchLine_opening {c : String} (hc : c ∈ builtinCharacterValues) {t : List Char}
    (ht : Opening t) : Bars.matchLine c.toList t = none := by
  cases h : Bars.matchLine c.toList t with
  | none => rfl
  | some p =>
    exfalso
    obtain ⟨level, rest⟩ := p
    obtain ⟨w, width, hw, -, -, rfl⟩ := Bars.matchLine_eq_some_iff.mp h
    -- a prefix that opens with no white space starts after the line's white space
    have hstart : ∀ (y : Char) (ys : List Char), Text.isBlank y = false →
        y :: ys ∈ ["#!".toList, "\"\"\"".toList, "'''".toList] →
        y :: ys <+: w ++ (c.toList ++ ' ' :: (List.replicate width '#' ++ ' ' :: rest)) →
        False := by
      intro y ys hy hmem hpre
      cases w with
      | nil =>
        exact not_opener_character hc (p := y :: ys) (List.mem_append_left _ hmem) _
          (by simpa using hpre)
      | cons a w' =>
        rw [List.cons_append, List.cons_prefix_cons] at hpre
        have ha := hw a List.mem_cons_self
        rw [← hpre.1, hy] at ha
        exact Bool.false_ne_true ha
    rcases ht with h | h | h | h
    · exact hstart '#' ['!'] (by decide) (by simp) (by simpa using h)
    · exact hstart '"' ['"', '"'] (by decide) (by simp) (by simpa using h)
    · exact hstart '\'' ['\'', '\''] (by decide) (by simp) (by simpa using h)
    · exact not_prologLine_character hc hw _ h

end Character

/-- A line that opens a preamble is no line of repeated markers. -/
theorem Marker.matchLine_opening {m : Char} (hm : m = '#' ∨ m = '=' ∨ m = '*') {t : List Char}
    (ht : Opening t) : Marker.matchLine m t = none := by
  cases h : Marker.matchLine m t with
  | none => rfl
  | some p =>
    exfalso
    obtain ⟨k, rest⟩ := p
    obtain ⟨hk, rfl, -⟩ := Marker.matchLine_eq_some_iff.mp h
    -- the line opens with the marker, and the marker or a space follows it
    obtain ⟨j, rfl⟩ : ∃ j, k = j + 1 := ⟨k - 1, by omega⟩
    rw [List.replicate_succ, List.cons_append] at ht
    have hnext : ∀ y ∈ (List.replicate j m ++ ' ' :: rest).head?, y = m ∨ y = ' ' := by
      cases j with
      | zero => simp
      | succ j => simp [List.replicate_succ]
    have hmb : Text.isBlank m = false := by rcases hm with rfl | rfl | rfl <;> decide
    rcases ht with h | h | h | h
    · rw [show "#!".toList = ['#', '!'] by decide, List.cons_prefix_cons] at h
      obtain ⟨rfl, r, hr⟩ := h
      rcases hnext '!' (by rw [← hr]; simp) with h' | h' <;> revert h' <;> decide
    · rw [show "\"\"\"".toList = ['"', '"', '"'] by decide, List.cons_prefix_cons] at h
      rcases hm with rfl | rfl | rfl <;> simp at h
    · rw [show "'''".toList = ['\'', '\'', '\''] by decide, List.cons_prefix_cons] at h
      rcases hm with rfl | rfl | rfl <;> simp at h
    · obtain ⟨z, hz⟩ := h.trimLeft
      simp only [Text.trimLeft, List.dropWhile_cons, hmb, Bool.false_eq_true, if_false,
        List.cons.injEq] at hz
      rcases hm with rfl | rfl | rfl <;> simp at hz

open Registry in
/-- A line that opens a preamble is no heading, with a carriage return after it or without. -/
theorem Opening.heading_cr {e : String} {S : Scanner}
    (hS : (builtin.spelling e).scanner? (builtin.character e) e = some S) {t : List Char}
    (ht : Opening t) (s : S.State) : S.heading s (t ++ ['\r']) none = none := by
  cases hsp : builtin.spelling e <;>
    simp only [hsp, Spelling.scanner?, Option.some.injEq, reduceCtorEq] at hS <;> subst hS
  case bars =>
    rw [(Bars.scanner_crBlind _ _).heading]
    simp [Bars.scanner, Bars.matchLine_opening (builtin_character_mem e) ht]
  case repeated m =>
    rw [(Marker.scanner_crBlind _ _).heading]
    revert s
    intro (s : Bool)
    rw [Marker.heading_scanner, Marker.matchLine_opening (builtin_repeated hsp) ht]
    simp
  case underlined => rfl
  case roff =>
    obtain ⟨x, z, rfl, hx, -⟩ := ht.head
    simp [Roff.scanner, Roff.matchLine_of_head (l := x :: (z ++ ['\r'])) (by simpa using hx)]
  case pod =>
    obtain ⟨x, z, rfl, -, hx⟩ := ht.head
    simp [Pod.scanner, Pod.matchLine_of_head (l := x :: (z ++ ['\r'])) (by simpa using hx)]

open Registry in
/-- No line a preamble ends on is an opening marker, whatever carriage returns follow the
    marker. -/
theorem PreambleLine.ne_beginMarker {e : String} {l : Line} (h : PreambleLine e l) (n : Nat) :
    l.text ≠ (Tree.beginMarker (builtin.character e)).toList ++ List.replicate n '\r' := by
  intro heq
  have hc := builtin_character_mem e
  -- the opening marker is the comment character and a space, then the corner and the rule
  have hbm : (Tree.beginMarker (builtin.character e)).toList ++ List.replicate n '\r' =
      (builtin.character e).toList ++
        ' ' :: ('┌' :: (Tree.rule.toList ++ ['┐'] ++ List.replicate n '\r')) := by
    rw [Tree.toList_beginMarker]
    simp
  rw [hbm] at heq
  rcases h with ⟨-, hs⟩ | ⟨-, -, htext⟩ | ⟨rfl, q, hq, hocc, -⟩ | ⟨-, hpro⟩
  · rw [heq] at hs
    exact not_opener_character hc (by simp) _ hs
  · -- front matter lines are three characters long
    have hlen := congrArg List.length heq
    rcases htext with h | h <;> rw [h] at hlen <;> simp [Tree.toList_rule, Tree.boxWidth] at hlen <;>
      omega
  · -- the quotes of a Python docstring stand nowhere in its opening marker
    have hpy : builtin.character "py" = "#" := by decide +kernel
    rw [heq, hpy] at hocc
    simp only [List.mem_cons, List.not_mem_nil, or_false] at hq
    rcases hq with rfl | rfl
    · have hx := Text.mem_of_occursIn (x := '"') (p := ['"', '"'])
        (by rw [show ['"', '"', '"'] = "\"\"\"".toList by decide]; exact hocc)
      simp [Tree.toList_rule, List.mem_replicate] at hx
    · have hx := Text.mem_of_occursIn (x := '\'') (p := ['\'', '\''])
        (by rw [show ['\'', '\'', '\''] = "'''".toList by decide]; exact hocc)
      simp [Tree.toList_rule, List.mem_replicate] at hx
  · rw [heq] at hpro
    exact not_prologLine_character hc (w := []) (by simp) _ (by simpa using hpro)

/-- A text whose shebang line does not stand over an underline. A new block goes right below a
    shebang, where such a line would underline the block's closing marker. -/
def ShebangClear (cs : List Char) : Prop :=
  ∀ first second rest, Text.lines cs = first :: second :: rest →
    "#!".toList.isPrefixOf first = true → Underline.adornment? second = none

end Block

end Outline
