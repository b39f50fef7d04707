/-
Module: Outline.Proofs.MarkerLines
Purpose: Which lines are headings of a repeated marker, and which lines fences hide. A marker line
  is `k ≥ 1` markers, a space and a rest whose first character is neither the marker nor one of the
  tree glyphs `│ ├ └ ┌`. The rest can start only after the whole run of markers, or after all of it
  but one when the marker is the space itself, so a line is a marker line in one way at most and
  the reader's search, longest run first, finds that way. With the marker `#` every fence line,
  one whose text after its leading white space starts with three backticks or three tildes, flips
  whether the lines below it are hidden: a line is read when an even number of fence lines stand
  above it and it is none itself. A fence remembers neither its character nor its length, so in a
  fence of four backticks a line of three closes it, and what follows is read.
Main exports: Marker.MarkerLine, Marker.FenceLine, Marker.MarkerHeading
Main statements: Marker.matchLine_eq_some_iff, Marker.isFence_iff, Marker.after_scanner,
  Marker.heading_scanner_eq_some_iff, Marker.read_lists_marker_headings
Open obligations: none
-/
import Mathlib
import Outline.Proofs.BarLines

namespace Outline

namespace Marker

/-! ### Marker lines -/

/-- A line of repeated markers: `k ≥ 1` markers, a space and a rest whose first character is
    neither the marker nor one of the tree glyphs. -/
def MarkerLine (m : Char) (line : List Char) (k : Nat) (rest : List Char) : Prop :=
  1 ≤ k ∧ line = List.replicate k m ++ ' ' :: rest ∧
    ∃ c cs, rest = c :: cs ∧ c ≠ m ∧ c ≠ '│' ∧ c ≠ '├' ∧ c ≠ '└' ∧ c ≠ '┌'

theorem barred_eq_false_iff {m c : Char} :
    barred m c = false ↔ c ≠ m ∧ c ≠ '│' ∧ c ≠ '├' ∧ c ≠ '└' ∧ c ≠ '┌' := by
  simp [barred, and_assoc]

theorem titleAt_eq_some_iff {m : Char} {line : List Char} {k : Nat} {rest : List Char} :
    titleAt m line k = some rest ↔
      line.drop k = ' ' :: rest ∧ ∃ c cs, rest = c :: cs ∧ barred m c = false := by
  unfold titleAt
  split
  · rename_i title c tail hdrop
    by_cases hb : barred m c = true
    · simp only [hb, if_true, reduceCtorEq, false_iff, not_and]
      intro heq
      rw [hdrop] at heq
      cases heq
      rintro ⟨c', cs', hc', hb'⟩
      cases hc'
      simp_all
    · simp only [hb, Bool.false_eq_true, if_false, Option.some.injEq]
      constructor
      · rintro rfl
        exact ⟨hdrop, c, tail, rfl, by simpa using hb⟩
      · rintro ⟨heq, -⟩
        rw [hdrop] at heq
        cases heq
        rfl
  · rename_i hnot
    simp only [reduceCtorEq, false_iff, not_and]
    rintro hdrop ⟨c, cs, rfl, -⟩
    exact hnot c cs hdrop

/-- The run of markers at the start of a marker line: all its markers, and the space after them
    when the marker is the space. -/
theorem length_takeWhile_markerLine {m c : Char} (k : Nat) (cs : List Char) (hc : c ≠ m) :
    ((List.replicate k m ++ ' ' :: c :: cs).takeWhile (· = m)).length =
      k + if m = ' ' then 1 else 0 := by
  rw [List.takeWhile_append_of_pos (by simp), List.length_append, List.length_replicate]
  by_cases hm : m = ' '
  · subst hm
    simp [hc]
  · simp [Ne.symm hm, hm]

/-- The reader finds a heading line exactly at the marker lines: its search over the run of
    markers, longest first, meets the one split there is. -/
theorem matchLine_eq_some_iff {m : Char} {line rest : List Char} {k : Nat} :
    matchLine m line = some (k, rest) ↔ MarkerLine m line k rest := by
  constructor
  · intro h
    obtain ⟨k', hk', hf⟩ := List.exists_of_findSome?_eq_some h
    obtain ⟨t, ht, hkt⟩ := Option.map_eq_some_iff.mp hf
    cases hkt
    simp only [List.mem_map, List.mem_reverse, List.mem_range] at hk'
    obtain ⟨j, hj, rfl⟩ := hk'
    obtain ⟨hdrop, c, cs, rfl, hb⟩ := titleAt_eq_some_iff.mp ht
    refine ⟨by omega, ?_, c, cs, rfl, barred_eq_false_iff.mp hb⟩
    rw [← List.take_append_drop (j + 1) line,
      Text.take_eq_replicate (m := m) line (j + 1) (by omega), hdrop]
  · rintro ⟨hk, rfl, c, cs, rfl, hc⟩
    have hrun := length_takeWhile_markerLine k cs hc.1
    unfold matchLine
    dsimp only
    refine findSome?_of_unique (f := fun j => (titleAt m (List.replicate k m ++ ' ' :: c :: cs)
      j).map fun t => (j, t)) (a := k) ?_ ?_ ?_
    · rw [titleAt_eq_some_iff.mpr ⟨List.drop_left' List.length_replicate, c, cs, rfl,
        barred_eq_false_iff.mpr hc⟩]
      rfl
    · simp only [List.mem_map, List.mem_reverse, List.mem_range]
      exact ⟨k - 1, by rw [hrun]; omega, by omega⟩
    · -- any other run length the search succeeds on splits the line the same way
      intro k' hk' hsome
      simp only [List.mem_map, List.mem_reverse, List.mem_range] at hk'
      obtain ⟨j, hj, rfl⟩ := hk'
      obtain ⟨t, ht⟩ := Option.isSome_iff_exists.mp (by simpa using hsome)
      obtain ⟨hdrop, c', cs', rfl, hb⟩ := titleAt_eq_some_iff.mp ht
      have hsplit : List.replicate k m ++ ' ' :: c :: cs =
          List.replicate (j + 1) m ++ ' ' :: c' :: cs' := by
        rw [← Text.take_eq_replicate (List.replicate k m ++ ' ' :: c :: cs) (j + 1)
          (by omega), ← hdrop, List.take_append_drop]
      have hrun' := length_takeWhile_markerLine (j + 1) cs'
        (barred_eq_false_iff.mp hb).1
      rw [← hsplit, hrun] at hrun'
      omega

/-! ### Fences -/

/-- A fence line: after its leading white space it starts with three backticks or three tildes. -/
def FenceLine (line : List Char) : Prop :=
  "```".toList <+: Text.trimLeft line ∨ "~~~".toList <+: Text.trimLeft line

theorem isFence_iff {line : List Char} : isFence line = true ↔ FenceLine line := by
  simp [isFence, FenceLine, List.isPrefixOf_iff_prefix]

instance : DecidablePred FenceLine := fun _ => decidable_of_iff _ isFence_iff

theorem decide_fenceLine (line : List Char) : decide (FenceLine line) = isFence line :=
  Bool.eq_iff_iff.mpr (by rw [decide_eq_true_iff, isFence_iff])

/-! ### A carriage return after a line

A carriage return ends the rest of a marker line, which trimming drops; after a line that is no
marker line it can only make a rest of its own, which trims to nothing. A fence line opens with
its backticks or tildes, which the carriage return does not reach.
-/

theorem MarkerLine.append_cr {m : Char} {line rest : List Char} {k : Nat}
    (h : MarkerLine m line k rest) : MarkerLine m (line ++ ['\r']) k (rest ++ ['\r']) := by
  obtain ⟨hk, rfl, c, cs, rfl, hc⟩ := h
  exact ⟨hk, by simp, c, cs ++ ['\r'], rfl, hc⟩

theorem markerLine_append_cr {m : Char} {line rest : List Char} {k : Nat}
    (h : MarkerLine m (line ++ ['\r']) k rest) :
    ∃ r, rest = r ++ ['\r'] ∧ (r = [] ∨ MarkerLine m line k r) := by
  obtain ⟨hk, heq, c, cs, hrest, hc⟩ := h
  obtain ⟨r, rfl, hline⟩ := Text.exists_of_concat_eq_append (by simp [hrest])
    (heq.trans (by simp) : line ++ ['\r'] = (List.replicate k m ++ [' ']) ++ rest)
  refine ⟨r, rfl, ?_⟩
  cases r with
  | nil => exact Or.inl rfl
  | cons c' cs' =>
    -- the rest keeps its first character
    obtain ⟨rfl, -⟩ := List.cons.inj hrest
    exact Or.inr ⟨hk, by simp [hline], c', cs', rfl, hc⟩

theorem isFence_append_cr (line : List Char) : isFence (line ++ ['\r']) = isFence line := by
  have hprefix : ∀ p : List Char, '\r' ∉ p →
      (p <+: Text.trimLeft (line ++ ['\r']) ↔ p <+: Text.trimLeft line) := by
    intro p hp
    rw [Text.trimLeft_append_blank line (by decide)]
    split
    · rename_i h
      rw [h]
    · exact Text.prefix_concat_iff_of_not_mem hp
  rw [Bool.eq_iff_iff, isFence_iff, isFence_iff, FenceLine, FenceLine, hprefix _ (by decide),
    hprefix _ (by decide)]

/-- The marker reader reads a line the same with a carriage return after it. -/
theorem scanner_crBlind (m : Char) (fences : Bool) : (scanner m fences).CrBlind where
  heading := fun (fenced : Bool) line below => by
    rw [heading_scanner, heading_scanner, isFence_append_cr]
    split
    · rfl
    split
    · rfl
    refine bind_append_cr (fun p hp => ?_) (fun p hp => ?_) (fun k r => ?_) (fun k => ?_)
    · exact matchLine_eq_some_iff.mpr (matchLine_eq_some_iff.mp hp).append_cr
    · obtain ⟨r, hr, h⟩ := markerLine_append_cr (matchLine_eq_some_iff.mp hp)
      exact ⟨r, hr, h.imp_right matchLine_eq_some_iff.mpr⟩
    · simp only [Text.trim_append_blank r (by decide : Text.isBlank '\r' = true)]
    · have htrim : Text.trim ['\r'] = [] := by decide
      simp [htrim]
  step := fun (fenced : Bool) line => by rw [step_scanner, step_scanner, isFence_append_cr]

/-- With fences tracked, the state after some lines is flipped exactly when an odd number of them
    are fence lines. -/
theorem after_scanner (m : Char) (fences fenced : Bool) (ls : List (List Char)) :
    (scanner m fences).after fenced ls =
      (fenced ^^ (fences && decide (Odd (ls.countP fun l => decide (FenceLine l))))) := by
  change ls.foldl (fun (b : Bool) l => if fences && isFence l then !b else b) fenced = _
  induction ls generalizing fenced with
  | nil => simp
  | cons l ls ih =>
    rw [List.foldl_cons, ih, List.countP_cons, decide_fenceLine]
    -- a fence line flips both the flag and the parity of the count
    cases fences <;> cases isFence l <;> cases fenced <;>
      simp [Nat.odd_add_one, ← Nat.not_even_iff_odd]

/-- The scanner gives a line a heading exactly when the line is no fence line it tracks, no fence
    is open, and the line is a marker line whose trimmed rest is the heading's text. -/
theorem heading_scanner_eq_some_iff {m : Char} {fences fenced : Bool} {l : List Char}
    {below : Option (List Char)} {level : Nat} {text : String} :
    (scanner m fences).heading fenced l below = some (level, text) ↔
      ¬ (fences = true ∧ FenceLine l) ∧ fenced = false ∧
        ∃ rest, MarkerLine m l level rest ∧ Text.trim rest ≠ [] ∧
          text = String.ofList (Text.trim rest) := by
  rw [heading_scanner]
  by_cases hf : (fences && isFence l) = true
  · have hyes : fences = true ∧ FenceLine l := by simpa [← isFence_iff] using hf
    simp only [hf, if_true, reduceCtorEq, false_iff, not_and]
    exact fun hno => absurd hyes.2 (hno hyes.1)
  · have hno : ¬ (fences = true ∧ FenceLine l) := by simpa [← isFence_iff] using hf
    simp only [hf, Bool.false_eq_true, if_false, hno, not_false_eq_true, true_and]
    cases fenced
    · simp only [Bool.false_eq_true, if_false, Option.bind_eq_some_iff, Prod.exists, true_and]
      constructor
      · rintro ⟨k, raw, hm, ht⟩
        by_cases he : Text.trim raw = []
        · simp [he] at ht
        · simp only [List.isEmpty_iff, he, if_false, Option.some.injEq, Prod.mk.injEq] at ht
          obtain ⟨rfl, rfl⟩ := ht
          exact ⟨raw, matchLine_eq_some_iff.mp hm, he, rfl⟩
      · rintro ⟨rest, hml, he, rfl⟩
        exact ⟨level, rest, matchLine_eq_some_iff.mpr hml, by simp [he]⟩
    · simp

/-! ### The headings of a text -/

/-- The line at index `i` of some lines gives the heading `h`, reading the marker `m`, with fences
    when `m` is `#`: the line is a marker line at `h`'s level whose rest, trimmed, is `h`'s text and
    not empty; `h` is numbered `i + 1`; and with `#` the line is no fence line and an even number
    of the lines above it are. -/
def MarkerHeading (m : Char) (ls : List (List Char)) (i : Nat) (h : Heading) : Prop :=
  ∃ line rest, ls[i]? = some line ∧ MarkerLine m line h.level rest ∧ Text.trim rest ≠ [] ∧
    h.text = String.ofList (Text.trim rest) ∧ h.line = i + 1 ∧
    (m = '#' → ¬ FenceLine line ∧ Even ((ls.take i).countP fun l => decide (FenceLine l)))

/-- What the scan makes of the line at index `i` is a heading exactly as `MarkerHeading` says. -/
theorem scanLine_eq_some_iff (m : Char) (ls : List (List Char)) (i : Nat)
    (below : Option (List Char)) (h : Heading) :
    (ls[i]?.bind fun l => ((scanner m (m == '#')).heading
      ((scanner m (m == '#')).after false (ls.take i)) l below).map
        fun p => (⟨p.1, p.2, 1 + i⟩ : Heading)) = some h ↔ MarkerHeading m ls i h := by
  obtain ⟨level, text, n⟩ := h
  simp only [Option.bind_eq_some_iff, Option.map_eq_some_iff, Prod.exists,
    heading_scanner_eq_some_iff, after_scanner, MarkerHeading, beq_iff_eq]
  constructor
  · rintro ⟨l, hl, level', text', ⟨hnf, hfenced, rest, hml, he, rfl⟩, heq⟩
    simp only [Heading.mk.injEq] at heq
    obtain ⟨rfl, rfl, rfl⟩ := heq
    refine ⟨l, rest, hl, hml, he, rfl, Nat.add_comm 1 i, fun hm => ⟨fun hfl => hnf ⟨hm, hfl⟩, ?_⟩⟩
    simpa [hm] using hfenced
  · rintro ⟨l, rest, hl, hml, he, htext, hline, hfence⟩
    refine ⟨l, hl, level, text, ⟨fun hfl => (hfence hfl.1).1 hfl.2, ?_, rest, hml, he, htext⟩,
      by simp only [Heading.mk.injEq, true_and] at hline ⊢; omega⟩
    by_cases hm : m = '#'
    · simpa [hm] using (hfence hm).2
    · simp [hm]

/-- The marker reader lists, in order of their lines, exactly the headings `MarkerHeading` gives
    the lines of the text. A fence is one flag that every fence line flips, whatever its character
    and its length. -/
theorem read_lists_marker_headings (m : Char) (content : String) :
    ∃ f : Nat → Option Heading,
      (∀ i h, f i = some h ↔ MarkerHeading m (Text.lines content.toList) i h) ∧
      read m content = (List.range (Text.lines content.toList).length).filterMap f :=
  ⟨_, fun i h => scanLine_eq_some_iff m _ i
    (((Text.lines content.toList).drop (i + 1)).head?.or none) h,
    by rw [read_eq, Scanner.read, Scanner.scan_eq_filterMap_range]; rfl⟩

-- a fence of four backticks is closed by a line of three, and the line below that is read
example : read '#' "````\n```\n# a\n````" = [⟨1, "a", 3⟩] := by decide +kernel

end Marker

end Outline
