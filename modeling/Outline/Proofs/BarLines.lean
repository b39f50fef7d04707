/-
Module: Outline.Proofs.BarLines
Purpose: Which lines are comment bar headings, said as the format says it rather than as the
  reader searches for them. A bar line is white space, the comment character, a space, a bar of 64,
  32, 16, 8, 4 or 2 hashes, a space and a rest that is not empty. A line splits that way at most
  once, whatever the comment character: its leading white space is the split's white space and
  then that of the character and its space, which the bar's first hash ends. So the reader's
  search over the leading white space, longest first, finds the one split. A heading's text is the rest trimmed and, in R files, without a trailing
  run of at least four `#`, `=` or `-` and the white space before it, trimmed again; a text that is
  empty or holds one of the outline's glyphs gives no heading.
Main exports: Bars.BarLine, Bars.Undecorated, Bars.TitleOf, Bars.BarHeading
Main statements: findSome?_of_unique, Bars.afterBar_eq_some_iff, Bars.mem_skips,
  Bars.matchLine_eq_some_iff, Bars.undecorate_eq_iff,
  Bars.readLine_eq_some_iff, Bars.read_lists_bar_headings
Open obligations: none
-/
import Mathlib
import Outline.Proofs.Readers
import Outline.Proofs.Quiet

namespace Outline

/-- A search over a list finds the one element it succeeds on. -/
theorem findSome?_of_unique {α β : Type} {f : α → Option β} {a : α} {b : β} (hf : f a = some b) :
    ∀ {l : List α}, a ∈ l → (∀ x ∈ l, (f x).isSome → x = a) → l.findSome? f = some b
  | [], ha, _ => absurd ha List.not_mem_nil
  | y :: ys, ha, huniq => by
    rw [List.findSome?_cons]
    cases hy : f y with
    | some c =>
      have hya : y = a := huniq y List.mem_cons_self (by simp [hy])
      subst hya
      rw [hf] at hy
      exact hy.symm
    | none =>
      have hay : a ≠ y := fun h => by subst h; simp [hf] at hy
      exact findSome?_of_unique hf (List.mem_of_ne_of_mem hay ha)
        (fun x hx => huniq x (List.mem_cons_of_mem y hx))

/-- A reader that splits a line into a level and a rest, and reads the rest, reads a line with a
    carriage return after it as the line: when the carriage return only lengthens the rest, or
    makes a rest of its own, the rest reads alike and a rest that is the carriage return alone
    reads to nothing. -/
theorem bind_append_cr {β : Type} {f : List Char → Option (Nat × List Char)}
    {g : Nat × List Char → Option β} {line : List Char}
    (hsome : ∀ p, f line = some p → f (line ++ ['\r']) = some (p.1, p.2 ++ ['\r']))
    (hnew : ∀ p, f (line ++ ['\r']) = some p →
      ∃ r, p.2 = r ++ ['\r'] ∧ (r = [] ∨ f line = some (p.1, r)))
    (hg : ∀ k r, g (k, r ++ ['\r']) = g (k, r)) (hg0 : ∀ k, g (k, ['\r']) = none) :
    (f (line ++ ['\r'])).bind g = (f line).bind g := by
  cases h : f line with
  | some p => rw [hsome p h, Option.bind_some, Option.bind_some, hg]
  | none =>
    cases h' : f (line ++ ['\r']) with
    | none => rfl
    | some p =>
      obtain ⟨r, hr, rfl | hl⟩ := hnew p h'
      · obtain ⟨k, r'⟩ := p
        simp only at hr
        simp [hr, hg0]
      · rw [h] at hl
        cases hl

namespace Text

/-- White space in front of a text lengthens its leading white space by its own length. -/
theorem length_takeWhile_blank_append {w : List Char} (hw : ∀ x ∈ w, isBlank x = true)
    (rest : List Char) :
    ((w ++ rest).takeWhile isBlank).length = w.length + (rest.takeWhile isBlank).length := by
  rw [List.takeWhile_append_of_pos hw, List.length_append]

/-- The leading white space of a text ends at its first character that is none. -/
theorem takeWhile_blank_append_solid (A : List Char) {x : Char} (hx : isBlank x = false)
    (B : List Char) : (A ++ x :: B).takeWhile isBlank = (A ++ [x]).takeWhile isBlank := by
  rw [List.takeWhile_append, List.takeWhile_append]
  simp [hx]

/-- Dropping the leading run of a text is dropping as many characters as the run holds. -/
theorem drop_length_takeWhile {α : Type} (p : α → Bool) (l : List α) :
    l.drop (l.takeWhile p).length = l.dropWhile p := by
  rw [List.dropWhile_eq_drop_findIdx_not, List.takeWhile_eq_take_findIdx_not, List.length_take,
    Nat.min_eq_left List.findIdx_le_length]

/-- The first `k` characters of a list are `m` when they lie within its leading run of `m`. -/
theorem take_eq_replicate {m : Char} (line : List Char) (k : Nat)
    (hk : k ≤ (line.takeWhile (· = m)).length) : line.take k = List.replicate k m := by
  have hpre : line.take k = (line.takeWhile (· = m)).take k := by
    conv_lhs => rw [← List.takeWhile_append_dropWhile (p := (· = m)) (l := line)]
    exact List.take_append_of_le_length hk
  rw [hpre]
  refine List.eq_replicate_iff.mpr ⟨by simp [List.length_take]; omega, fun x hx => ?_⟩
  simpa using List.mem_takeWhile_imp (List.mem_of_mem_take hx)

end Text

namespace Bars

/-! ### Bar lines -/

/-- A comment bar line of a level: white space, the comment character, a space, a bar of the
    level's width, a space and a rest that is not empty. -/
def BarLine (character line : List Char) (level : Nat) (rest : List Char) : Prop :=
  ∃ w width, (∀ x ∈ w, Text.isBlank x = true) ∧ barLevel width = some level ∧ rest ≠ [] ∧
    line = w ++ (character ++ ' ' :: (List.replicate width '#' ++ ' ' :: rest))

theorem pos_of_barLevel {width level : Nat} (h : barLevel width = some level) : 0 < width := by
  rcases Nat.eq_zero_or_pos width with rfl | hpos
  · simp [barLevel] at h
  · exact hpos

/-- What follows a comment character and its space reads as a bar exactly when it is a bar of
    one of the six widths, a space and a title that is not empty. -/
theorem afterBar_eq_some_iff {rest title : List Char} {level : Nat} :
    afterBar rest = some (level, title) ↔
      ∃ width, barLevel width = some level ∧ title ≠ [] ∧
        rest = List.replicate width '#' ++ ' ' :: title := by
  constructor
  · intro h
    unfold afterBar at h
    dsimp only at h
    split at h
    · rename_i lv t hlevel hdrop
      cases h
      -- the bar is the run of hashes the reader measured
      refine ⟨_, hlevel, List.cons_ne_nil _ _, ?_⟩
      rw [← hdrop, ← Text.take_eq_replicate rest _ le_rfl, List.take_append_drop]
    · simp at h
  · rintro ⟨width, hlevel, htitle, rfl⟩
    obtain ⟨t, ts, rfl⟩ := List.exists_cons_of_ne_nil htitle
    have hrun : (List.replicate width '#' ++ ' ' :: t :: ts).takeWhile (· = '#') =
        List.replicate width '#' := by
      rw [List.takeWhile_append_of_pos (by simp)]
      simp
    simp [afterBar, hrun, hlevel]

/-- The comment character, its space and a bar after it, with the title: what the reader looks for
    after the white space. -/
theorem attempt_eq_some_iff {character rest title : List Char} {level : Nat} :
    (Text.dropPrefix? (character ++ [' ']) rest).bind afterBar = some (level, title) ↔
      ∃ width, barLevel width = some level ∧ title ≠ [] ∧
        rest = character ++ ' ' :: (List.replicate width '#' ++ ' ' :: title) := by
  constructor
  · intro h
    obtain ⟨r, hr, hbar⟩ := Option.bind_eq_some_iff.mp h
    obtain ⟨width, hlevel, htitle, rfl⟩ := afterBar_eq_some_iff.mp hbar
    exact ⟨width, hlevel, htitle, by simpa using Text.eq_append_of_dropPrefix? hr⟩
  · rintro ⟨width, hlevel, htitle, rfl⟩
    have hdrop := Text.dropPrefix?_append (character ++ [' '])
      (List.replicate width '#' ++ ' ' :: title)
    rw [List.append_assoc, List.singleton_append] at hdrop
    rw [hdrop, Option.bind_some]
    exact afterBar_eq_some_iff.mpr ⟨width, hlevel, htitle, rfl⟩

/-- The reader tries the line after each stretch of its leading white space: exactly the rests
    that white space stands in front of. -/
theorem mem_skips {line rest : List Char} :
    rest ∈ skips line ↔ ∃ w, (∀ x ∈ w, Text.isBlank x = true) ∧ line = w ++ rest := by
  simp only [skips, List.mem_map, List.mem_reverse, List.mem_range]
  constructor
  · rintro ⟨k, hk, rfl⟩
    refine ⟨line.take k, fun x hx => ?_, (List.take_append_drop k line).symm⟩
    -- the first `k` characters lie within the leading white space
    have hpre : line.take k = (line.takeWhile Text.isBlank).take k := by
      conv_lhs => rw [← List.takeWhile_append_dropWhile (p := Text.isBlank) (l := line)]
      exact List.take_append_of_le_length (by omega)
    rw [hpre] at hx
    exact List.mem_takeWhile_imp (List.mem_of_mem_take hx)
  · rintro ⟨w, hw, rfl⟩
    refine ⟨w.length, ?_, List.drop_left' rfl⟩
    rw [Text.length_takeWhile_blank_append hw]
    omega

/-- The leading white space of a bar line: the split's white space and then that of the comment
    character and its space, ended by the bar's first hash. -/
theorem length_takeWhile_barLine {character w title : List Char} {width : Nat}
    (hw : ∀ x ∈ w, Text.isBlank x = true) (hpos : 0 < width) :
    ((w ++ (character ++ ' ' :: (List.replicate width '#' ++ ' ' :: title))).takeWhile
        Text.isBlank).length =
      w.length + ((character ++ [' ', '#']).takeWhile Text.isBlank).length := by
  obtain ⟨k, rfl⟩ : ∃ k, width = k + 1 := ⟨width - 1, by omega⟩
  have hsolid := Text.takeWhile_blank_append_solid (character ++ [' ']) (x := '#') (by decide)
    (List.replicate k '#' ++ ' ' :: title)
  simp only [List.append_assoc, List.cons_append, List.nil_append] at hsolid
  rw [Text.length_takeWhile_blank_append hw, List.replicate_succ, List.cons_append, hsolid]

/-- A line splits as a bar line in one way at most: two splits have white space of one length. -/
theorem length_blank_eq {character w w' title title' : List Char} {width width' : Nat}
    (hw : ∀ x ∈ w, Text.isBlank x = true) (hw' : ∀ x ∈ w', Text.isBlank x = true)
    (hpos : 0 < width) (hpos' : 0 < width')
    (h : w ++ (character ++ ' ' :: (List.replicate width '#' ++ ' ' :: title)) =
      w' ++ (character ++ ' ' :: (List.replicate width' '#' ++ ' ' :: title'))) :
    w.length = w'.length := by
  have hlen := congrArg (fun l => (l.takeWhile Text.isBlank).length) h
  simp only [length_takeWhile_barLine hw hpos, length_takeWhile_barLine hw' hpos'] at hlen
  omega

/-- The reader finds a heading line exactly at the bar lines: the search over the leading white
    space, longest first, meets the one split there is. -/
theorem matchLine_eq_some_iff {character line rest : List Char} {level : Nat} :
    matchLine character line = some (level, rest) ↔ BarLine character line level rest := by
  constructor
  · intro h
    obtain ⟨r, hr, hf⟩ := List.exists_of_findSome?_eq_some h
    obtain ⟨w, hw, rfl⟩ := mem_skips.mp hr
    obtain ⟨width, hlevel, hrest, rfl⟩ := attempt_eq_some_iff.mp hf
    exact ⟨w, width, hw, hlevel, hrest, rfl⟩
  · rintro ⟨w, width, hw, hlevel, hrest, rfl⟩
    refine findSome?_of_unique
      (f := fun r => (Text.dropPrefix? (character ++ [' ']) r).bind afterBar)
      (attempt_eq_some_iff.mpr ⟨width, hlevel, hrest, rfl⟩)
      (mem_skips.mpr ⟨w, hw, rfl⟩) fun x hx hsome => ?_
    -- any other rest the search succeeds on starts after white space of the same length
    obtain ⟨w', hw', hsplit⟩ := mem_skips.mp hx
    obtain ⟨p, hp⟩ := Option.isSome_iff_exists.mp hsome
    obtain ⟨width', hlevel', -, rfl⟩ := attempt_eq_some_iff.mp hp
    have hlen := length_blank_eq hw hw' (pos_of_barLevel hlevel) (pos_of_barLevel hlevel') hsplit
    have hx' := congrArg (List.drop w'.length) hsplit
    rw [List.drop_left' hlen, List.drop_left' rfl] at hx'
    exact hx'.symm

/-! ### Titles -/

/-- `t'` is the title `t` without its R decoration: when `t` ends with a run of at least four `#`,
    `=` or `-`, the whole run and all the white space before it go and what is left is trimmed;
    otherwise `t` stays as it is. -/
def Undecorated (t t' : List Char) : Prop :=
  (∃ u s d, t = u ++ s ++ d ∧ (∀ x ∈ s, Text.isBlank x = true) ∧
      (∀ x ∈ d, isDecoration x = true) ∧ 4 ≤ d.length ∧
      (∀ x ∈ u.getLast?, Text.isBlank x = false) ∧
      (∀ x ∈ (u ++ s).getLast?, isDecoration x = false) ∧ t' = Text.trim u) ∨
    ((∀ u d, t = u ++ d → (∀ x ∈ d, isDecoration x = true) → d.length < 4) ∧ t' = t)

/-- A title ending with a whole run of decoration after all its white space loses both. -/
theorem undecorate_of_split {u s d : List Char} (hs : ∀ x ∈ s, Text.isBlank x = true)
    (hd : ∀ x ∈ d, isDecoration x = true) (h4 : 4 ≤ d.length)
    (hu : ∀ x ∈ u.getLast?, Text.isBlank x = false)
    (hus : ∀ x ∈ (u ++ s).getLast?, isDecoration x = false) :
    undecorate (u ++ s ++ d) = Text.trim u := by
  -- read backwards, the title is the run, then the white space, then the rest
  have hrev : (u ++ s ++ d).reverse = d.reverse ++ (u ++ s).reverse := by simp
  have hrun : (d.reverse ++ (u ++ s).reverse).takeWhile isDecoration = d.reverse := by
    rw [List.takeWhile_append_of_pos (by simpa using hd)]
    cases hlast : (u ++ s).getLast? with
    | none => simp [List.getLast?_eq_none_iff.mp hlast]
    | some x =>
      obtain ⟨ys, hys⟩ := List.getLast?_eq_some_iff.mp hlast
      rw [hys, List.reverse_append]
      simp [hus x hlast]
  have hrest : (u ++ s).reverse.dropWhile Text.isBlank = u.reverse := by
    rw [List.reverse_append, List.dropWhile_append_of_pos (by simpa using hs)]
    cases hlast : u.getLast? with
    | none => simp [List.getLast?_eq_none_iff.mp hlast]
    | some x =>
      obtain ⟨ys, hys⟩ := List.getLast?_eq_some_iff.mp hlast
      rw [hys, List.reverse_append]
      simp [hu x hlast]
  unfold undecorate
  simp only [hrev, hrun, List.length_reverse, if_pos h4]
  rw [List.drop_left' (List.length_reverse), hrest, List.reverse_reverse]

/-- A title without a trailing run of four decoration characters stays as it is. -/
theorem undecorate_of_short {t : List Char}
    (h : ∀ u d, t = u ++ d → (∀ x ∈ d, isDecoration x = true) → d.length < 4) :
    undecorate t = t := by
  have hsplit : t = (t.reverse.dropWhile isDecoration).reverse ++
      (t.reverse.takeWhile isDecoration).reverse := by
    rw [← List.reverse_append, List.takeWhile_append_dropWhile, List.reverse_reverse]
  have hshort := h _ _ hsplit (fun x hx => List.mem_takeWhile_imp (List.mem_reverse.mp hx))
  rw [List.length_reverse] at hshort
  unfold undecorate
  simp only [if_neg (by omega : ¬ 4 ≤ (t.reverse.takeWhile isDecoration).length)]

/-- What the reader makes of a title is the title without its decoration. -/
theorem undecorated_undecorate (t : List Char) : Undecorated t (undecorate t) := by
  by_cases h4 : 4 ≤ (t.reverse.takeWhile isDecoration).length
  · left
    -- read backwards: the run, then the white space before it, then the rest
    refine ⟨((t.reverse.dropWhile isDecoration).dropWhile Text.isBlank).reverse,
      ((t.reverse.dropWhile isDecoration).takeWhile Text.isBlank).reverse,
      (t.reverse.takeWhile isDecoration).reverse, ?_, ?_, ?_, ?_, ?_, ?_, ?_⟩
    · rw [← List.reverse_append, List.takeWhile_append_dropWhile, ← List.reverse_append,
        List.takeWhile_append_dropWhile, List.reverse_reverse]
    · intro x hx
      exact List.mem_takeWhile_imp (List.mem_reverse.mp hx)
    · intro x hx
      exact List.mem_takeWhile_imp (List.mem_reverse.mp hx)
    · rwa [List.length_reverse]
    · intro x hx
      have hnot := List.head?_dropWhile_not Text.isBlank (t.reverse.dropWhile isDecoration)
      rw [List.getLast?_reverse] at hx
      rw [hx] at hnot
      exact hnot
    · intro x hx
      have hnot := List.head?_dropWhile_not isDecoration t.reverse
      rw [← List.reverse_append, List.takeWhile_append_dropWhile, List.getLast?_reverse] at hx
      rw [hx] at hnot
      exact hnot
    · unfold undecorate
      rw [if_pos h4, Text.drop_length_takeWhile]
  · right
    refine ⟨fun u d ht hd => ?_, by unfold undecorate; rw [if_neg h4]⟩
    -- a run of decoration at the end lies within the trailing run
    have hle : d.length ≤ (t.reverse.takeWhile isDecoration).length := by
      rw [ht, List.reverse_append, List.takeWhile_append_of_pos (by simpa using hd),
        List.length_append, List.length_reverse]
      omega
    omega

/-- The reader's undecorated title is the only one. -/
theorem undecorate_eq_iff {t t' : List Char} : undecorate t = t' ↔ Undecorated t t' := by
  constructor
  · rintro rfl
    exact undecorated_undecorate t
  · rintro (⟨u, s, d, rfl, hs, hd, h4, hu, hus, rfl⟩ | ⟨hshort, rfl⟩)
    · exact undecorate_of_split hs hd h4 hu hus
    · exact undecorate_of_short hshort

/-- The text of a bar heading as the format says it: the rest trimmed and, in R files, without its
    decoration; a text that is empty or holds one of the outline's glyphs is none. -/
def TitleOf (decorated : Bool) (rest t : List Char) : Prop :=
  (if decorated then Undecorated (Text.trim rest) t else t = Text.trim rest) ∧ t ≠ [] ∧
    ∀ x ∈ t, isBoxGlyph x = false

theorem title_eq_some_iff {decorated : Bool} {rest t : List Char} :
    title decorated rest = some t ↔ TitleOf decorated rest t := by
  have hform : (if decorated then Undecorated (Text.trim rest) t else t = Text.trim rest) ↔
      t = if decorated then undecorate (Text.trim rest) else Text.trim rest := by
    cases decorated
    · simp
    · simp [← undecorate_eq_iff, eq_comm]
  rw [TitleOf, hform]
  unfold title
  simp only
  generalize (if decorated = true then undecorate (Text.trim rest) else Text.trim rest) = u
  by_cases hbad : (u.isEmpty || u.any isBoxGlyph) = true
  · rw [if_pos hbad]
    simp only [reduceCtorEq, false_iff, not_and]
    rintro rfl hne hglyph
    simp only [Bool.or_eq_true, List.isEmpty_iff, List.any_eq_true] at hbad
    rcases hbad with hnil | ⟨x, hx, hg⟩
    · exact hne hnil
    · exact absurd (hglyph x hx) (by simp [hg])
  · rw [if_neg hbad]
    simp only [Bool.or_eq_true, List.isEmpty_iff, List.any_eq_true, not_or, not_exists,
      not_and] at hbad
    simp only [Option.some.injEq]
    constructor
    · rintro rfl
      exact ⟨rfl, hbad.1, fun x hx => by simpa using hbad.2 x hx⟩
    · rintro ⟨rfl, -⟩
      rfl

/-! ### A carriage return after a line

A carriage return ends the rest of a bar line, and trimming drops it with the rest's white space;
after a line that is no bar line it can only make a rest of its own, which trims to nothing.
-/

theorem BarLine.append_cr {character line rest : List Char} {level : Nat}
    (h : BarLine character line level rest) :
    BarLine character (line ++ ['\r']) level (rest ++ ['\r']) := by
  obtain ⟨w, width, hw, hlevel, -, rfl⟩ := h
  exact ⟨w, width, hw, hlevel, by simp, by simp⟩

theorem barLine_append_cr {character line rest : List Char} {level : Nat}
    (h : BarLine character (line ++ ['\r']) level rest) :
    ∃ r, rest = r ++ ['\r'] ∧ (r = [] ∨ BarLine character line level r) := by
  obtain ⟨w, width, hw, hlevel, hrest, heq⟩ := h
  obtain ⟨r, rfl, hline⟩ := Text.exists_of_concat_eq_append hrest
    (heq.trans (by simp) :
      line ++ ['\r'] = (w ++ (character ++ ' ' :: (List.replicate width '#' ++ [' ']))) ++ rest)
  refine ⟨r, rfl, ?_⟩
  by_cases hr : r = []
  · exact Or.inl hr
  · exact Or.inr ⟨w, width, hw, hlevel, hr, by simp [hline]⟩

theorem title_append_cr (decorated : Bool) (raw : List Char) :
    title decorated (raw ++ ['\r']) = title decorated raw := by
  unfold title
  rw [Text.trim_append_blank raw (by decide)]

/-- The bar reader reads a line the same with a carriage return after it. -/
theorem scanner_crBlind (character : List Char) (decorated : Bool) :
    (scanner character decorated).CrBlind where
  heading _ line _ := by
    refine bind_append_cr (fun p hp => ?_) (fun p hp => ?_) (fun k r => ?_) (fun k => ?_)
    · exact matchLine_eq_some_iff.mpr (matchLine_eq_some_iff.mp hp).append_cr
    · obtain ⟨r, hr, h⟩ := barLine_append_cr (matchLine_eq_some_iff.mp hp)
      exact ⟨r, hr, h.imp_right matchLine_eq_some_iff.mpr⟩
    · simp only [title_append_cr]
    · cases decorated <;> rfl
  step _ _ := rfl

/-! ### Bar headings -/

/-- A numbered line gives the heading `h`, as the format says it: the line is a bar line of `h`'s
    level whose rest has `h`'s text as its title, and `h` carries the line's number. -/
def BarHeading (character : List Char) (decorated : Bool) (line : List Char) (n : Nat)
    (h : Heading) : Prop :=
  ∃ rest t, BarLine character line h.level rest ∧ TitleOf decorated rest t ∧
    h.text = String.ofList t ∧ h.line = n

theorem readLine_eq_some_iff {character : List Char} {decorated : Bool} {n : Nat}
    {line : List Char} {h : Heading} :
    readLine character decorated n line = some h ↔ BarHeading character decorated line n h := by
  constructor
  · intro hr
    obtain ⟨⟨level, raw⟩, hm, ht⟩ := Option.bind_eq_some_iff.mp hr
    obtain ⟨t, htitle, rfl⟩ := Option.map_eq_some_iff.mp ht
    exact ⟨raw, t, matchLine_eq_some_iff.mp hm, title_eq_some_iff.mp htitle, rfl, rfl⟩
  · rintro ⟨rest, t, hbar, htitle, htext, hline⟩
    rw [readLine, matchLine_eq_some_iff.mpr hbar, Option.bind_some]
    simp only [title_eq_some_iff.mpr htitle, Option.map_some, Option.some.injEq]
    cases h
    simp_all

/-- The comment bar reader lists, in line order, one heading for each numbered line the format
    makes a heading: a bar line, white space, the comment character, a space, a bar of 64, 32,
    16, 8, 4 or 2 hashes for levels 1 to 6, a space and a rest, whose title, the rest trimmed and
    in R files undecorated, is not empty and holds none of the outline's glyphs. -/
theorem read_lists_bar_headings (character extension content : String) :
    ∃ f : List Char → Nat → Option Heading,
      (∀ line n h, f line n = some h ↔
        BarHeading character.toList (extension == "r" || extension == "rpres") line n h) ∧
      read character extension content =
        ((Text.lines content.toList).zipIdx 1).filterMap fun p => f p.1 p.2 :=
  ⟨fun line n => readLine character.toList (extension == "r" || extension == "rpres") n line,
    fun _ _ _ => readLine_eq_some_iff, rfl⟩

/-- With the empty comment character the white space before a bar line need not be all of the
    line's leading white space: the line ` ## x` is a heading, though after its leading space no
    space follows. -/
theorem empty_character_bar_after_inner_space :
    read "" "" " ## x" = [⟨6, "x", 1⟩] ∧
      ¬ ∃ width rest, " ## x".toList = " ## x".toList.takeWhile Text.isBlank ++
        ("".toList ++ ' ' :: (List.replicate width '#' ++ ' ' :: rest)) := by
  refine ⟨by decide +kernel, ?_⟩
  rintro ⟨width, rest, h⟩
  have hline : " ## x".toList = [' ', '#', '#', ' ', 'x'] := by decide
  have hlead : " ## x".toList.takeWhile Text.isBlank = [' '] := by decide
  rw [hlead, hline] at h
  simp at h

end Bars

end Outline
