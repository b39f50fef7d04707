/-
Module: Outline.Proofs.TocLines
Purpose: The lines an outline block is made of. Every line of the box is the comment character, a
  space and a box glyph, then anything. Connecting the outline redraws only columns right of that
  space, and right after it puts a branch or the trunk at most, so a body line keeps its shape and
  stays one line; none is blank, so none is dropped and a block has one body line per heading. The
  closing marker is told apart from the trunk, the rules and the body by the glyph after its
  space, and from anything the title line holds by its count of rules.
Main exports: Tree.Opens, Tree.openingGlyphs, Tree.IsStem, Tree.Plain
Main statements: opens_connect, length_connect, mem_connect, Heading.opens_render,
  Heading.not_mem_render, documentFor_eq,
  count_rule_titleLine, count_rule_endMarker
Open obligations: none
-/
import Mathlib
import Outline.Toc
import Outline.Proofs.Lines

namespace Outline

namespace Tree

/-! ### Drawn lines -/

/-- A line that opens, after the comment character and one space, with a glyph `P` admits. -/
def Opens (P : Char → Prop) (character l : List Char) : Prop :=
  ∃ g rest, l = character ++ ' ' :: g :: rest ∧ P g

/-- The glyphs a line of the box opens with. -/
def openingGlyphs : List Char := ['┌', '│', '├', '└']

/-- The glyphs a body line opens with: a branch or the trunk. -/
def IsStem (g : Char) : Prop := g = '├' ∨ g = '│'

/-- A comment character that holds neither connector, so that the connector of a line is never
    looked for inside it. -/
def Plain (character : List Char) : Prop :=
  ∀ x ∈ character, x ≠ '├' ∧ x ≠ '└'

instance (character : List Char) : Decidable (Plain character) :=
  decidable_of_iff (character.all fun x => x != '├' && x != '└') (by simp [Plain])

section Opens

variable {P Q : Char → Prop} {c l : List Char}

theorem Opens.mono (h : Opens P c l) (hPQ : ∀ g, P g → Q g) : Opens Q c l := by
  obtain ⟨g, rest, rfl, hg⟩ := h
  exact ⟨g, rest, rfl, hPQ g hg⟩

/-- Redrawing a column right of the space keeps the line open, given what lands right after it. -/
theorem Opens.set (h : Opens P c l) {i : Nat} {x : Char} (hi : c.length + 1 ≤ i)
    (hx : i = c.length + 1 → P x) : Opens P c (l.set i x) := by
  obtain ⟨g, rest, rfl, hg⟩ := h
  rw [List.set_append_right _ _ (by omega)]
  rcases Nat.lt_or_ge (c.length + 1) i with hlt | hle
  · obtain ⟨j, hj⟩ : ∃ j, i - c.length = j + 2 := ⟨i - c.length - 2, by omega⟩
    exact ⟨g, rest.set j x, by rw [hj]; rfl, hg⟩
  · have hi' : i - c.length = 1 := by omega
    exact ⟨x, rest, by rw [hi']; rfl, hx (by omega)⟩

/-- A line that opens with a glyph other than a carriage return still opens so after it is
    written and read back. -/
theorem Opens.lineOf_written (h : Opens P c l) (hP : ∀ g, P g → g ≠ '\r') {eol : List Char}
    (he : Text.IsEol eol) : Opens P c (Text.lineOf (l ++ eol)) := by
  rw [Text.lineOf_written he]
  split
  · obtain ⟨g, rest, rfl, hg⟩ := h
    rcases List.eq_nil_or_concat rest with rfl | ⟨rest', x, rfl⟩
    · have hlast : (c ++ [' ', g]).getLast? ≠ some '\r' := by
        simpa using hP g hg
      rw [Text.dropLast?_of_getLast?_ne hlast]
      exact ⟨g, [], rfl, hg⟩
    · have hsplit : c ++ ' ' :: g :: rest'.concat x = (c ++ ' ' :: g :: rest') ++ [x] := by
        simp
      rw [hsplit]
      by_cases hx : x = '\r'
      · subst hx
        rw [Text.dropLast?_append_singleton]
        exact ⟨g, rest', rfl, hg⟩
      · have hlast : ((c ++ ' ' :: g :: rest') ++ [x]).getLast? ≠ some '\r' := by
          rw [List.getLast?_append]
          simpa using hx
        rw [Text.dropLast?_of_getLast?_ne hlast]
        exact ⟨g, rest' ++ [x], by simp, hg⟩
  · exact ⟨_, _, h.choose_spec.choose_spec.1, h.choose_spec.choose_spec.2⟩

/-- The connector of a line that opens after a plain comment character is right of the space. -/
theorem Opens.le_connectorColumn (h : Opens P c l) (hc : Plain c) {k : Nat}
    (hk : connectorColumn l = some k) : c.length + 1 ≤ k := by
  obtain ⟨g, rest, rfl, -⟩ := h
  unfold connectorColumn at hk
  obtain ⟨hlt, hp, -⟩ := List.findIdx?_eq_some_iff_getElem.mp hk
  by_contra hk'
  rcases Nat.lt_or_ge k c.length with h1 | h1
  · rw [List.getElem_append_left h1] at hp
    have hmem := hc _ (List.getElem_mem h1)
    simp_all
  · have hkc : k = c.length := by omega
    subst hkc
    rw [List.getElem_append_right (le_refl _)] at hp
    simp at hp

end Opens

/-! ### Body lines through the connectors

Connecting walks the body lines from the bottom up. Each line is redrawn at its connector, three
columns further in, and at open ancestor columns; every such column is a connector column of a
line below, so all of them are right of the space after the comment character, and the only glyphs
that land right after that space are the branch and the trunk.
-/

section Connect

variable {c : List Char}

/-- Drawing the trunk at open ancestor columns keeps a body line, when every open column is
    right of the space. -/
theorem Opens.foldl_trunk {openCols : List Nat} (hopen : ∀ a ∈ openCols, c.length + 1 ≤ a)
    (cols : List Nat) {l : List Char} (h : Opens IsStem c l) :
    Opens IsStem c (cols.foldl (fun acc a => if a ∈ openCols then acc.set a '│' else acc) l) := by
  induction cols generalizing l with
  | nil => exact h
  | cons a cols ih =>
    rw [List.foldl_cons]
    apply ih
    split
    · exact h.set (hopen a ‹_›) (fun _ => Or.inr rfl)
    · exact h

/-- One redrawn line: a body line stays one, and the columns left open are right of the space. -/
theorem opens_connectLine (hc : Plain c) {openCols : List Nat}
    (hopen : ∀ a ∈ openCols, c.length + 1 ≤ a) {l : List Char} (h : Opens IsStem c l) :
    Opens IsStem c (connectLine openCols l).2 ∧
      ∀ a ∈ (connectLine openCols l).1, c.length + 1 ≤ a := by
  unfold connectLine
  cases hk : connectorColumn l with
  | none => exact ⟨h, hopen⟩
  | some k =>
    have hk1 := h.le_connectorColumn hc hk
    have h1 : Opens IsStem c (if k ∈ openCols then l.set k '├' else l) := by
      split
      · exact h.set hk1 (fun _ => Or.inl rfl)
      · exact h
    -- the child column is three further in, so it never lands right after the space
    have h2 : Opens IsStem c (if k + indentWidth ∈ openCols then
        (if k ∈ openCols then l.set k '├' else l).set (k + indentWidth) '┐'
        else if k ∈ openCols then l.set k '├' else l) := by
      split
      · exact h1.set (by simp only [indentWidth]; omega)
          (fun hi => by simp only [indentWidth] at hi; omega)
      · exact h1
    refine ⟨Opens.foldl_trunk hopen _ h2, ?_⟩
    intro a ha
    simp only [List.mem_cons, List.mem_filter] at ha
    rcases ha with rfl | ⟨ha, -⟩
    · exact hk1
    · exact hopen a ha

theorem opens_connectUp (hc : Plain c) {ls : List (List Char)} (hls : ∀ l ∈ ls, Opens IsStem c l) :
    ∀ {openCols : List Nat}, (∀ a ∈ openCols, c.length + 1 ≤ a) →
      ∀ l ∈ connectUp openCols ls, Opens IsStem c l := by
  induction ls with
  | nil => intro _ _ l hl; simp [connectUp] at hl
  | cons m ls ih =>
    intro openCols hopen l hl
    obtain ⟨hm, hopen'⟩ := opens_connectLine hc hopen (hls m List.mem_cons_self)
    rcases hcl : connectLine openCols m with ⟨openCols', drawn⟩
    rw [hcl] at hm hopen'
    simp only [connectUp, hcl, List.mem_cons] at hl
    rcases hl with rfl | hl
    · exact hm
    · exact ih (fun x hx => hls x (List.mem_cons_of_mem m hx)) hopen' l hl

theorem length_connectUp (openCols : List Nat) (ls : List (List Char)) :
    (connectUp openCols ls).length = ls.length := by
  induction ls generalizing openCols with
  | nil => rfl
  | cons m ls ih =>
    rcases hcl : connectLine openCols m with ⟨openCols', drawn⟩
    simp only [connectUp, hcl, List.length_cons, ih]

theorem Opens.not_all_blank {l : List Char} (h : Opens IsStem c l) : ¬ l.all Text.isBlank := by
  obtain ⟨g, rest, rfl, hg⟩ := h
  have hblank : Text.isBlank g = false := by rcases hg with rfl | rfl <;> decide
  simp [hblank]

/-- The placeholder lines bottom first, as `connect` walks them. -/
theorem opens_of_mem_reverse {lines : List String} (hls : ∀ l ∈ lines, Opens IsStem c l.toList) :
    ∀ m ∈ (lines.map String.toList).reverse, Opens IsStem c m := by
  intro m hm
  simp only [List.mem_reverse, List.mem_map] at hm
  obtain ⟨s, hs, rfl⟩ := hm
  exact hls s hs

/-- Connecting body lines gives body lines. -/
theorem opens_connect (hc : Plain c) {lines : List String}
    (hls : ∀ l ∈ lines, Opens IsStem c l.toList) :
    ∀ l ∈ connect lines, Opens IsStem c l.toList := by
  intro l hl
  simp only [connect, List.mem_map, List.mem_filter, List.mem_reverse] at hl
  obtain ⟨cs, ⟨hcs, -⟩, rfl⟩ := hl
  rw [String.toList_ofList]
  exact opens_connectUp hc (opens_of_mem_reverse hls) (fun _ h => absurd h List.not_mem_nil) cs hcs

/-- Connecting body lines drops none of them: none is blank. -/
theorem connect_eq_of_stems (hc : Plain c) {lines : List String}
    (hls : ∀ l ∈ lines, Opens IsStem c l.toList) :
    connect lines = ((connectUp [] (lines.map String.toList).reverse).reverse).map String.ofList := by
  have hkeep : ∀ cs ∈ (connectUp [] (lines.map String.toList).reverse).reverse,
      (!(cs.all Text.isBlank)) = true := by
    intro cs hcs
    rw [List.mem_reverse] at hcs
    have hb := opens_connectUp hc (opens_of_mem_reverse hls)
      (fun _ h => absurd h List.not_mem_nil) cs hcs
    simpa using hb.not_all_blank
  rw [connect, List.filter_eq_self.mpr hkeep]

/-- Connecting keeps every body line. -/
theorem length_connect (hc : Plain c) {lines : List String}
    (hls : ∀ l ∈ lines, Opens IsStem c l.toList) : (connect lines).length = lines.length := by
  rw [connect_eq_of_stems hc hls, List.length_map, List.length_reverse, length_connectUp,
    List.length_reverse, List.length_map]

end Connect

/-! ### What connecting writes

Connecting writes box glyphs and nothing else: every other character of a drawn body line stood in
one of the placeholder lines.
-/

theorem mem_foldl_trunk {openCols cols : List Nat} {l : List Char} {x : Char}
    (h : x ∈ cols.foldl (fun acc a => if a ∈ openCols then acc.set a '│' else acc) l) :
    x ∈ l ∨ x = '│' := by
  induction cols generalizing l with
  | nil => exact Or.inl h
  | cons a cols ih =>
    rw [List.foldl_cons] at h
    rcases ih h with h | h
    · split at h
      · exact List.mem_or_eq_of_mem_set h
      · exact Or.inl h
    · exact Or.inr h

theorem mem_connectLine {openCols : List Nat} {l : List Char} {x : Char}
    (h : x ∈ (connectLine openCols l).2) : x ∈ l ∨ x ∈ boxGlyphs := by
  unfold connectLine at h
  split at h
  · exact Or.inl h
  · rcases mem_foldl_trunk h with h | h
    · split at h
      · rcases List.mem_or_eq_of_mem_set h with h | h
        · split at h
          · rcases List.mem_or_eq_of_mem_set h with h | h
            · exact Or.inl h
            · exact Or.inr (by simp [h, boxGlyphs])
          · exact Or.inl h
        · exact Or.inr (by simp [h, boxGlyphs])
      · split at h
        · rcases List.mem_or_eq_of_mem_set h with h | h
          · exact Or.inl h
          · exact Or.inr (by simp [h, boxGlyphs])
        · exact Or.inl h
    · exact Or.inr (by simp [h, boxGlyphs])

theorem mem_connectUp {x : Char} {ls : List (List Char)} :
    ∀ {openCols : List Nat}, ∀ l ∈ connectUp openCols ls, x ∈ l →
      x ∈ boxGlyphs ∨ ∃ m ∈ ls, x ∈ m := by
  induction ls with
  | nil => intro _ l hl; simp [connectUp] at hl
  | cons m ls ih =>
    intro openCols l hl hx
    rcases hcl : connectLine openCols m with ⟨openCols', drawn⟩
    simp only [connectUp, hcl, List.mem_cons] at hl
    rcases hl with rfl | hl
    · have hm : x ∈ (connectLine openCols m).2 := by rw [hcl]; exact hx
      rcases mem_connectLine hm with h | h
      · exact Or.inr ⟨m, List.mem_cons_self, h⟩
      · exact Or.inl h
    · rcases ih l hl hx with h | ⟨m', hm', h⟩
      · exact Or.inl h
      · exact Or.inr ⟨m', List.mem_cons_of_mem m hm', h⟩

/-- Every character of a connected line is a box glyph or a character of a placeholder line. -/
theorem mem_connect {lines : List String} {l : String} (hl : l ∈ connect lines) {x : Char}
    (hx : x ∈ l.toList) : x ∈ boxGlyphs ∨ ∃ m ∈ lines, x ∈ m.toList := by
  simp only [connect, List.mem_map, List.mem_filter, List.mem_reverse] at hl
  obtain ⟨cs, ⟨hcs, -⟩, rfl⟩ := hl
  rw [String.toList_ofList] at hx
  rcases mem_connectUp cs hcs hx with h | ⟨m, hm, h⟩
  · exact Or.inl h
  · simp only [List.mem_reverse, List.mem_map] at hm
    obtain ⟨s, hs, rfl⟩ := hm
    exact Or.inr ⟨s, hs, h⟩

end Tree

namespace Heading

/-- A heading's placeholder line is a body line. -/
theorem opens_render (h : Heading) (character : String) (numbered : Bool) :
    Tree.Opens Tree.IsStem character.toList (h.render character numbered).toList := by
  unfold render
  split
  · exact ⟨'├', ("── " ++ h.label numbered).toList, by simp, Or.inl rfl⟩
  · exact ⟨'│', ("  " ++ indent h.level ++ "└── " ++ h.label numbered).toList, by simp, Or.inr rfl⟩

theorem opens_render_all (hs : List Heading) (character : String) (numbered : Bool) :
    ∀ l ∈ hs.map (fun h => h.render character numbered), Tree.Opens Tree.IsStem character.toList l.toList := by
  intro l hl
  obtain ⟨h, -, rfl⟩ := List.mem_map.mp hl
  exact h.opens_render character numbered

/-- A character that is no space, digit or box glyph stands in a placeholder line only where it
    stands in the comment character or the heading's text. -/
theorem not_mem_render (h : Heading) (character : String) (numbered : Bool) {x : Char}
    (hs : x ≠ ' ') (hd : x.isDigit = false) (hg : x ∉ boxGlyphs) (hc : x ∉ character.toList)
    (ht : x ∉ h.text.toList) : x ∉ (h.render character numbered).toList := by
  have hdigits : x ∉ Nat.toDigits 10 h.line := fun hm => by
    simpa [hd] using Nat.isDigit_of_mem_toDigits (by decide) (by decide) hm
  simp only [boxGlyphs, List.mem_cons, List.not_mem_nil, or_false] at hg
  unfold render label indent
  split <;> split <;> simp_all [String.toList_join]

end Heading

/-! ### The document of some headings -/

section Document

variable (r : Registry) (o : Options)

/-- The document of headings that are there: the delimiters, the header, one connected body line
    per heading, the footer. -/
theorem documentFor_eq {hs : List Heading} (hne : hs ≠ []) (hc : Tree.Plain o.character.toList) :
    documentFor r o hs =
      ⟨(r.delimiters o.extension).before, Tree.header o.character o.name,
        Tree.connect (hs.map fun h => h.render o.character o.numbered), Tree.footer o.character,
        (r.delimiters o.extension).after⟩ := by
  have hlen := Tree.length_connect hc (Heading.opens_render_all hs o.character o.numbered)
  have hne' : (Tree.connect (hs.map fun h => h.render o.character o.numbered)).isEmpty = false := by
    rw [List.isEmpty_eq_false_iff, ← List.length_pos_iff, hlen, List.length_map]
    exact List.length_pos_iff.mpr hne
  simp only [documentFor, Document.assemble, hne', Bool.false_eq_true, if_false]

theorem documentFor_nil : documentFor r o [] = Document.empty := by
  simp [documentFor, Document.assemble, Tree.connect, Tree.connectUp]

end Document

/-! ### The closing marker among the lines of the box -/

namespace Tree

/-- The title line holds at most 49 rules beyond those of the comment character: all of them
    come from the name as shown. -/
theorem count_rule_titleLine (character name : String) :
    (titleLine character name).toList.count '─' ≤ character.toList.count '─' + 49 := by
  have hshown : (displayName name).toList.count '─' ≤ 49 := by
    have hlen := length_displayName_le name
    simp only [nameField] at hlen
    calc (displayName name).toList.count '─'
        ≤ (displayName name).toList.length := List.count_le_length
      _ = (displayName name).length := String.length_toList
      _ ≤ 49 := hlen
  have hpad : ∀ n, (List.replicate n ' ').count '─' = 0 := fun n => by
    simp [List.count_replicate]
  simp only [titleLine, String.toList_append, String.toList_ofList, List.count_append, hpad]
  have h1 : " │ Contents of ".toList.count '─' = 0 := by decide
  have h2 : "│".toList.count '─' = 0 := by decide
  omega

theorem count_rule_endMarker (character : String) :
    (endMarker character).toList.count '─' = character.toList.count '─' + 63 := by
  rw [toList_endMarker, toList_rule, List.count_append, List.count_cons, List.count_cons,
    List.count_replicate_self]
  simp [boxWidth]

end Tree

end Outline
