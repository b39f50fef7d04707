/-
Module: Outline.Proofs.Offsets
Purpose: The offsets that locating lines, finding a block and ending a preamble give are byte
  offsets at character boundaries of the text. A text is located as one line per piece cut after
  each line feed: a line starts where the pieces before it end, so right after a line feed, and its
  text, the piece less one line feed and then one carriage return, stands in the text at that
  offset. A block the finder finds therefore runs from the first byte of an opening marker to the
  last byte of a closing marker, and a preamble ends at a boundary that a line ending or the end
  of the text follows.
Main exports: Block.Excerpt
Main statements: Block.excerpt_of_split, Block.getElem?_linesWithOffsets_excerpt,
  Block.findBlock_excerpts, Block.preambleEnd_boundary, Block.offsets_fall_on_boundaries
Open obligations: none
-/
import Mathlib
import Outline.Proofs.Layout

namespace Outline

namespace Block

/-! ### Excerpts at byte offsets -/

/-- `t` is the part of `s` from byte `j` to byte `k`: `s` is `pre ++ t ++ post` where `pre` takes
    `j` bytes and `pre ++ t` takes `k`. Both offsets then fall on character boundaries. -/
def Excerpt (s : String) (j k : Nat) (t : String) : Prop :=
  ∃ pre post, s = pre ++ t ++ post ∧ pre.utf8ByteSize = j ∧ (pre ++ t).utf8ByteSize = k

section Excerpt

variable {s t : String} {j k : Nat}

theorem Excerpt.isValid_start (h : Excerpt s j k t) : String.Pos.Raw.IsValid s ⟨j⟩ := by
  obtain ⟨pre, post, rfl, rfl, -⟩ := h
  exact String.Pos.Raw.isValid_iff_exists_append.mpr
    ⟨pre, t ++ post, String.append_assoc .., String.Pos.Raw.ext rfl⟩

theorem Excerpt.isValid_stop (h : Excerpt s j k t) : String.Pos.Raw.IsValid s ⟨k⟩ := by
  obtain ⟨pre, post, rfl, -, rfl⟩ := h
  exact String.Pos.Raw.isValid_iff_exists_append.mpr ⟨pre ++ t, post, rfl, String.Pos.Raw.ext rfl⟩

theorem Excerpt.stop_eq (h : Excerpt s j k t) : k = j + t.utf8ByteSize := by
  obtain ⟨pre, post, -, rfl, rfl⟩ := h
  exact String.utf8ByteSize_append

theorem Excerpt.stop_le (h : Excerpt s j k t) : k ≤ s.utf8ByteSize := by
  obtain ⟨pre, post, rfl, -, rfl⟩ := h
  simp only [String.utf8ByteSize_append]
  omega

end Excerpt

/-- The bytes of a text are those of its characters. -/
theorem utf8ByteSize_ofList (cs : List Char) :
    (String.ofList cs).utf8ByteSize = cs.foldr (fun c n => c.utf8Size + n) 0 := by
  induction cs with
  | nil => simp
  | cons c cs ih =>
    rw [show c :: cs = [c] ++ cs from rfl, String.ofList_append, String.utf8ByteSize_append, ih]
    simp

theorem byteOffset_eq (cs : List Char) (k : Nat) :
    byteOffset cs k = (String.ofList (cs.take k)).utf8ByteSize := by
  rw [byteOffset, utf8ByteSize_ofList]

/-- Characters of a text cut in three: the middle part is the excerpt between the byte offsets of
    the two cuts. -/
theorem excerpt_of_split {s : String} {u t w : List Char} (h : s.toList = u ++ t ++ w) :
    Excerpt s (byteOffset s.toList u.length) (byteOffset s.toList (u.length + t.length))
      (String.ofList t) := by
  refine ⟨String.ofList u, String.ofList w, ?_, ?_, ?_⟩
  · rw [← String.ofList_append, ← String.ofList_append, ← h, String.ofList_toList]
  · rw [byteOffset_eq, h, List.append_assoc, List.take_left]
  · rw [byteOffset_eq, h, ← List.length_append, List.take_left, String.ofList_append]

/-- Characters from offset `k` on: the excerpt from the byte offset of `k`. -/
theorem excerpt_of_drop {s : String} {k : Nat} {t w : List Char} (hk : k ≤ s.toList.length)
    (h : s.toList.drop k = t ++ w) :
    Excerpt s (byteOffset s.toList k) (byteOffset s.toList (k + t.length)) (String.ofList t) := by
  have hsplit : s.toList = s.toList.take k ++ t ++ w := by
    rw [List.append_assoc, ← h, List.take_append_drop]
  have hlen : (s.toList.take k).length = k := List.length_take_of_le hk
  have := excerpt_of_split hsplit
  rwa [hlen] at this

/-! ### Located lines -/

/-- A piece of a text is its line's text and then what ends the line: the text is the pieces
    before it, the line, and the line's ending followed by the pieces after it. -/
theorem split_of_pieces {cs : List Char} {A B : List (List Char)} {p : List Char}
    (hps : Text.pieces cs = A ++ p :: B) :
    ∃ t, cs = A.flatten ++ bareLine p ++ (t ++ B.flatten) := by
  obtain ⟨t, ht⟩ := isPrefix_bareLine p
  have hcs := eq_flatten_of_pieces hps
  generalize bareLine p = b at ht ⊢
  subst ht
  exact ⟨t, by rw [hcs]; simp⟩

/-- The pieces before a later one make a text that ends with a line feed. -/
theorem flatten_eq_concat_newline {cs : List Char} {A B : List (List Char)} {p : List Char}
    (hps : Text.pieces cs = A ++ p :: B) (hA : A ≠ []) : ∃ u, A.flatten = u ++ ['\n'] := by
  have hne : A.flatten ≠ [] := by
    obtain ⟨a, A', rfl⟩ := List.exists_cons_of_ne_nil hA
    have ha : a ∈ Text.pieces cs := by
      rw [hps]
      exact List.mem_append_left _ List.mem_cons_self
    intro hnil
    rw [List.flatten_cons] at hnil
    exact Text.ne_nil_of_mem_piecesFrom [] cs a ha (List.append_eq_nil_iff.mp hnil).1
  rcases Text.endsLine_flatten_of_pieces hps with h | h
  · exact absurd h hne
  · obtain ⟨u, hu⟩ := List.getLast?_eq_some_iff.mp h
    exact ⟨u, hu⟩

/-- The line at index `i` is the line of the piece at index `i`. It starts at the byte length of
    the pieces before it, right after a line feed unless it is the first, and its text stands in
    the text from there, between character boundaries. -/
theorem getElem?_linesWithOffsets_excerpt {s : String} {i : Nat} {l : Line}
    (h : (linesWithOffsets s.toList)[i]? = some l) :
    ∃ p, (Text.pieces s.toList)[i]? = some p ∧ l.text = bareLine p ∧
      byteOffset s.toList l.start =
        (String.ofList ((Text.pieces s.toList).take i).flatten).utf8ByteSize ∧
      (0 < i → Excerpt s (byteOffset s.toList l.start - 1) (byteOffset s.toList l.start) "\n") ∧
      Excerpt s (byteOffset s.toList l.start) (byteOffset s.toList l.stop)
        (String.ofList l.text) := by
  obtain ⟨A, p, B, hps, rfl, rfl⟩ := getElem?_locate h
  obtain ⟨t, hcs⟩ := split_of_pieces hps
  have htake : (Text.pieces s.toList).take A.length = A := by
    rw [hps, List.take_left]
  refine ⟨p, by simp [hps], rfl, ?_, ?_, ?_⟩
  · rw [htake, byteOffset_eq, Nat.zero_add, hcs, List.append_assoc, List.take_left]
  · -- the pieces above end with a line feed, the byte right before the line
    intro hi
    obtain ⟨u, hu⟩ := flatten_eq_concat_newline hps (List.ne_nil_of_length_pos hi)
    have hex := excerpt_of_split (u := u) (t := ['\n']) (w := bareLine p ++ (t ++ B.flatten))
      (by rw [hcs, hu]; simp)
    have hstart : u.length + ['\n'].length = 0 + A.flatten.length := by
      rw [hu]
      simp
    have hnl : String.ofList ['\n'] = "\n" := rfl
    have hstop := hex.stop_eq
    rw [hstart, hnl] at hex hstop
    rw [show "\n".utf8ByteSize = 1 from rfl] at hstop
    dsimp only
    rw [hstop, Nat.add_sub_cancel]
    rwa [hstop] at hex
  · simpa [Line.stop] using excerpt_of_split (u := A.flatten) (t := bareLine p)
      (w := t ++ B.flatten) hcs

/-- A located line's text stands in the text at its offsets. -/
theorem line_excerpt {s : String} {l : Line} (hl : l ∈ linesWithOffsets s.toList) :
    Excerpt s (byteOffset s.toList l.start) (byteOffset s.toList l.stop)
      (String.ofList l.text) := by
  obtain ⟨i, hi⟩ := List.mem_iff_getElem?.mp hl
  obtain ⟨-, -, -, -, -, hex⟩ := getElem?_linesWithOffsets_excerpt hi
  exact hex

/-- Characters from offset `k` on that start with `c`: `c` is the excerpt right after the byte
    offset of `k`. -/
theorem excerpt_of_drop_eq_cons {s : String} {k : Nat} {c : Char} {w : List Char}
    (h : s.toList.drop k = c :: w) :
    Excerpt s (byteOffset s.toList k) (byteOffset s.toList k + (String.singleton c).utf8ByteSize)
      (String.singleton c) := by
  have hk : k ≤ s.toList.length := by
    by_contra hk
    rw [List.drop_eq_nil_of_le (by omega)] at h
    exact List.cons_ne_nil c w h.symm
  have hex := excerpt_of_drop (t := [c]) (w := w) hk h
  rw [← String.singleton_eq_ofList] at hex
  rwa [← hex.stop_eq]

theorem excerpt_of_drop_eq_return {s : String} {k : Nat} {w : List Char}
    (h : s.toList.drop k = '\r' :: w) :
    Excerpt s (byteOffset s.toList k) (byteOffset s.toList k + 1) "\r" := by
  have hex := excerpt_of_drop_eq_cons h
  rwa [show String.singleton '\r' = "\r" from rfl, show "\r".utf8ByteSize = 1 from rfl] at hex

theorem excerpt_of_drop_eq_feed {s : String} {k : Nat} {w : List Char}
    (h : s.toList.drop k = '\n' :: w) :
    Excerpt s (byteOffset s.toList k) (byteOffset s.toList k + 1) "\n" := by
  have hex := excerpt_of_drop_eq_cons h
  rwa [show String.singleton '\n' = "\n" from rfl, show "\n".utf8ByteSize = 1 from rfl] at hex

theorem length_locate (k : Nat) (ps : List (List Char)) : (locate k ps).length = ps.length := by
  induction ps generalizing k with
  | nil => rfl
  | cons p ps ih => simp [locate, ih]

theorem findEnd_text {stop : List Char} {L : List Line} {e : Line} (h : findEnd stop L = some e) :
    e.text = stop := by
  induction L with
  | nil => simp [findEnd] at h
  | cons l L ih =>
    rw [findEnd] at h
    split at h
    · rename_i hl
      cases h
      exact hl
    · exact ih h

/-- The block finder answers with the start of a line that is the opening marker and the end of
    the text of a line that is the closing marker. -/
theorem findMarkers_ends {begin stop : List Char} {L : List Line} {span : Span}
    (h : findMarkers begin stop L = some span) :
    ∃ lb ∈ L, ∃ le ∈ L, lb.text = begin ∧ le.text = stop ∧ span = ⟨lb.start, le.stop⟩ := by
  induction L with
  | nil => simp [findMarkers] at h
  | cons l L ih =>
    rw [findMarkers] at h
    split at h
    · rename_i hl
      obtain ⟨e, he, rfl⟩ := Option.map_eq_some_iff.mp h
      exact ⟨l, List.mem_cons_self, e, List.mem_cons_of_mem l (findEnd_mem he), hl,
        findEnd_text he, rfl⟩
    · obtain ⟨lb, hlb, le, hle, hbegin, hstop, hspan⟩ := ih h
      exact ⟨lb, List.mem_cons_of_mem l hlb, le, List.mem_cons_of_mem l hle, hbegin, hstop, hspan⟩

/-! ### The block and the preamble -/

/-- A block the finder finds runs, in bytes, from where an opening marker starts to where a
    closing marker ends, both at character boundaries. -/
theorem findBlock_excerpts {s ch : String} {a b : Nat} (h : findBlock s.toList ch = some ⟨a, b⟩) :
    byteOffset s.toList a ≤ byteOffset s.toList b ∧
      Excerpt s (byteOffset s.toList a) (byteOffset s.toList a + (Tree.beginMarker ch).utf8ByteSize)
        (Tree.beginMarker ch) ∧
      Excerpt s (byteOffset s.toList b - (Tree.endMarker ch).utf8ByteSize) (byteOffset s.toList b)
        (Tree.endMarker ch) := by
  -- the block's first line is an opening marker and its last line's text a closing one
  obtain ⟨lb, hlb, le, hle, hbegin, hstop, hends⟩ := findMarkers_ends (findBlock.eq_def _ _ ▸ h)
  rw [Span.mk.injEq] at hends
  obtain ⟨rfl, rfl⟩ := hends
  -- the whole block is an excerpt, so its byte offsets are in order
  obtain ⟨u, Y, v, hcs, hspan, -⟩ := findBlock_some h
  have hblock := excerpt_of_split hcs
  rw [Span.mk.injEq] at hspan
  rw [← hspan.2, ← hspan.1] at hblock
  have hexb := line_excerpt hlb
  have hexe := line_excerpt hle
  rw [hbegin, String.ofList_toList] at hexb
  rw [hstop, String.ofList_toList] at hexe
  refine ⟨hblock.stop_eq ▸ Nat.le_add_right _ _, hexb.stop_eq ▸ hexb, ?_⟩
  have hend := hexe.stop_eq
  rw [hend, Nat.add_sub_cancel]
  rwa [hend] at hexe

/-- A preamble ends at a character boundary followed by a line ending or by nothing. -/
theorem preambleEnd_boundary {s extension : String} {e : Nat}
    (h : preambleEnd s.toList extension = some e) :
    String.Pos.Raw.IsValid s ⟨byteOffset s.toList e⟩ ∧ byteOffset s.toList e ≤ s.utf8ByteSize ∧
      (byteOffset s.toList e = s.utf8ByteSize ∨
        Excerpt s (byteOffset s.toList e) (byteOffset s.toList e + 1) "\r" ∨
        Excerpt s (byteOffset s.toList e) (byteOffset s.toList e + 1) "\n") := by
  obtain ⟨l, hl, rfl⟩ := preambleEnd_line h
  have hex := line_excerpt hl
  refine ⟨hex.isValid_stop, hex.stop_le, ?_⟩
  -- what follows the end of a line's text
  rcases endsMarker_drop_stop hl with hw | hw | ⟨w, hw⟩ | ⟨w, hw⟩
  · left
    rw [byteOffset_eq, List.take_of_length_le (List.drop_eq_nil_iff.mp hw), String.ofList_toList]
  · exact Or.inr (Or.inl (excerpt_of_drop_eq_return hw))
  · exact Or.inr (Or.inr (excerpt_of_drop_eq_feed hw))
  · exact Or.inr (Or.inl (excerpt_of_drop_eq_return hw))

/-- The offsets of located lines, of a found block and of the end of a preamble, in bytes. A text
    is located as one line per piece cut after each line feed, in order. Each line starts at the
    byte length of the pieces before it, so at 0 first and right after a line feed later on; its
    text is its piece less one line feed and then one carriage return, and it stands in the text
    between character boundaries at its start and its start plus its byte length. A found block
    runs between character boundaries from the first byte of an opening marker to the last byte of
    a closing marker, and a preamble ends at a character boundary that a line ending or the end of
    the text follows. -/
theorem offsets_fall_on_boundaries (s character extension : String) :
    (linesWithOffsets s.toList).length = (Text.pieces s.toList).length ∧
      (∀ i l, (linesWithOffsets s.toList)[i]? = some l →
        ∃ p, (Text.pieces s.toList)[i]? = some p ∧ l.text = bareLine p ∧
          byteOffset s.toList l.start =
            (String.ofList ((Text.pieces s.toList).take i).flatten).utf8ByteSize ∧
          (0 < i →
            Excerpt s (byteOffset s.toList l.start - 1) (byteOffset s.toList l.start) "\n") ∧
          String.Pos.Raw.IsValid s ⟨byteOffset s.toList l.start⟩ ∧
          String.Pos.Raw.IsValid s
            ⟨byteOffset s.toList l.start + (String.ofList l.text).utf8ByteSize⟩ ∧
          Excerpt s (byteOffset s.toList l.start)
            (byteOffset s.toList l.start + (String.ofList l.text).utf8ByteSize)
            (String.ofList l.text)) ∧
      (∀ a b, findBlock s.toList character = some ⟨a, b⟩ →
        byteOffset s.toList a ≤ byteOffset s.toList b ∧ byteOffset s.toList b ≤ s.utf8ByteSize ∧
          String.Pos.Raw.IsValid s ⟨byteOffset s.toList a⟩ ∧
          String.Pos.Raw.IsValid s ⟨byteOffset s.toList b⟩ ∧
          Excerpt s (byteOffset s.toList a)
            (byteOffset s.toList a + (Tree.beginMarker character).utf8ByteSize)
            (Tree.beginMarker character) ∧
          Excerpt s (byteOffset s.toList b - (Tree.endMarker character).utf8ByteSize)
            (byteOffset s.toList b) (Tree.endMarker character)) ∧
      ∀ e, preambleEnd s.toList extension = some e →
        String.Pos.Raw.IsValid s ⟨byteOffset s.toList e⟩ ∧ byteOffset s.toList e ≤ s.utf8ByteSize ∧
          (byteOffset s.toList e = s.utf8ByteSize ∨
            Excerpt s (byteOffset s.toList e) (byteOffset s.toList e + 1) "\r" ∨
            Excerpt s (byteOffset s.toList e) (byteOffset s.toList e + 1) "\n") := by
  refine ⟨length_locate 0 _, ?_, ?_, fun _ => preambleEnd_boundary⟩
  · intro i l h
    obtain ⟨p, hp, htext, hstart, hfeed, hex⟩ := getElem?_linesWithOffsets_excerpt h
    rw [hex.stop_eq] at hex
    exact ⟨p, hp, htext, hstart, hfeed, hex.isValid_start, hex.isValid_stop, hex⟩
  · intro a b h
    obtain ⟨hle, hbegin, hend⟩ := findBlock_excerpts h
    exact ⟨hle, hend.stop_le, hbegin.isValid_start, hend.isValid_stop, hbegin, hend⟩

/- Offsets count characters and `byteOffset` turns them into bytes: after a two-byte character
   and a CRLF, the second line starts at character 3 and byte 4. -/
example : (linesWithOffsets "é\r\nx".toList).map
    (fun l => (l.start, byteOffset "é\r\nx".toList l.start, l.text)) =
      [(0, 0, ['é']), (3, 4, ['x'])] := by
  decide

end Block

end Outline
