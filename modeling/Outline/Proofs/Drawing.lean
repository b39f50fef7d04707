/-
Module: Outline.Proofs.Drawing
Purpose: What connecting draws on the placeholder lines of some headings. The lines are walked
  from the bottom up; a column is open when a line below has its connector there and no line in
  between has its connector three columns further left, at the column of a parent. A heading's
  line then shows `├` at its connector when its own column is open, `┐` three columns further in
  when that column is open, and `│` at every open ancestor column; nothing else changes. In
  levels: a level stays open below a heading until a heading one level up comes. That is the
  level going on in the tree, a heading of it coming before any shallower heading, exactly when
  no heading is more than one level deeper than the heading above it; a heading that skips
  levels leaves the deeper column open past shallower headings.
Main exports: Tree.column, Tree.staysOpen, Tree.continues, Tree.openColumns, Tree.DrawnAs
Main statements: getElem?_connectLine, getElem?_connectUp_reverse, column_mem_openColumns,
  drawnAs_connectLine, connect_draws_open_levels, staysOpen_eq_continues, connect_draws_tree
Open obligations: none
-/
import Mathlib
import Outline.Proofs.TocLines

namespace Outline

namespace Tree

/-! ### Columns and levels -/

/-- The column of the connector of a heading of level `m ≥ 1`: right of the comment character
    and a space, three columns further in for each level below the top. -/
def column (character : String) (m : Nat) : Nat :=
  character.length + 1 + indentWidth * (m - 1)

/-- Level `m` stays open below a heading, the levels of the headings below it given from the
    top: a heading of level `m` comes before any heading of level `m - 1`. -/
def staysOpen (m : Nat) : List Nat → Bool
  | [] => false
  | l :: ls => l == m || (l + 1 != m && staysOpen m ls)

/-- Level `m` goes on below a heading, the levels of the headings below it given from the top:
    a heading of level `m` comes, and every heading before it is deeper than `m`. -/
def continues (m : Nat) : List Nat → Bool
  | [] => false
  | l :: ls => l == m || (decide (m < l) && continues m ls)

section Columns

variable {character : String} {m l : Nat}

theorem column_inj (hm : 1 ≤ m) (hl : 1 ≤ l) : column character m = column character l ↔ m = l := by
  simp only [column, indentWidth]
  omega

/-- Three columns in from a connector is the connector column of the next level. -/
theorem column_succ (hm : 1 ≤ m) : column character m + indentWidth = column character (m + 1) := by
  simp only [column, indentWidth]
  omega

end Columns

/-! ### Levels that skip none

When no heading is more than one level deeper than the heading above it, a level that stays open
below a heading is a level that goes on in the tree, and the level below a heading stays open
exactly when the next heading is deeper.
-/

section Nested

/-- Below a heading, no heading more than one level deeper than the one above it: a level more
    than one deeper than the heading never stays open, as its parent level comes first. -/
theorem staysOpen_eq_false_of_lt {l m : Nat} {ls : List Nat}
    (hnest : (l :: ls).IsChain fun a b => b ≤ a + 1) (hlm : l + 1 < m) : staysOpen m ls = false := by
  induction ls generalizing l with
  | nil => rfl
  | cons k ls ih =>
    obtain ⟨hk, hrest⟩ := List.isChain_cons_cons.mp hnest
    by_cases hkm : k + 1 = m
    · simp [staysOpen, hkm]
      omega
    · simp only [staysOpen, ih hrest (by omega)]
      simp
      omega

/-- In a list of levels that skips none, a level stays open exactly when it goes on. -/
theorem staysOpen_eq_continues {ls : List Nat} (hnest : ls.IsChain fun a b => b ≤ a + 1) (m : Nat) :
    staysOpen m ls = continues m ls := by
  induction ls with
  | nil => rfl
  | cons l ls ih =>
    rw [staysOpen, continues, ih hnest.tail]
    rcases Nat.lt_trichotomy l m with hlt | rfl | hgt
    · -- a shallower heading ends the level: at once if it is the parent level, else its parent
      -- level comes first further down
      by_cases hl : l + 1 = m
      · simp [hl, Nat.not_lt_of_gt hlt]
      · rw [← ih hnest.tail, staysOpen_eq_false_of_lt hnest (by omega)]
        simp [Nat.not_lt_of_gt hlt]
    · simp
    · have hne : (l + 1 != m) = true := bne_iff_ne.mpr (by omega)
      simp [hne, hgt]

/-- In a list of levels that skips none, the level below a heading stays open exactly when the
    next heading is deeper. -/
theorem staysOpen_succ_eq {l : Nat} {ls : List Nat} (hnest : (l :: ls).IsChain fun a b => b ≤ a + 1) :
    staysOpen (l + 1) ls = decide (l < ls.headD 0) := by
  cases ls with
  | nil => simp [staysOpen]
  | cons k ls =>
    obtain ⟨hk, hrest⟩ := List.isChain_cons_cons.mp hnest
    rcases Nat.lt_or_ge l k with hlk | hkl
    · have hk1 : k = l + 1 := by omega
      simp [staysOpen, hk1]
    · by_cases hkl' : k = l
      · subst hkl'
        simp [staysOpen]
      · have hfalse : staysOpen (l + 1) ls = false := staysOpen_eq_false_of_lt hrest (by omega)
        have hk1 : (k == l + 1) = false := beq_false_of_ne (by omega)
        have hlk : decide (l < k) = false := decide_eq_false (by omega)
        simp [staysOpen, hfalse, hk1, hlk]

end Nested

/-! ### Redrawing one line -/

/-- The columns of the ancestors of a connector are the columns at least three to its left, a
    multiple of three away. -/
theorem mem_ancestorColumns {p k : Nat} :
    p ∈ ancestorColumns k ↔ p + indentWidth ≤ k ∧ (k - p) % indentWidth = 0 := by
  simp only [ancestorColumns, List.mem_map, List.mem_range, indentWidth]
  constructor
  · rintro ⟨j, hj, rfl⟩
    omega
  · rintro ⟨hle, hmod⟩
    exact ⟨(k - p) / 3 - 1, by omega, by omega⟩

theorem mem_ancestorColumns_column {character : String} {m l : Nat} (hm : 1 ≤ m) (hl : 1 ≤ l) :
    column character m ∈ ancestorColumns (column character l) ↔ m < l := by
  rw [mem_ancestorColumns]
  simp only [column, indentWidth]
  omega

/-- One character written into a line, read back at any column. -/
theorem getElem?_set_map {l : List Char} {i : Nat} {a : Char} (j : Nat) :
    (l.set i a)[j]? = l[j]?.map fun x => if j = i then a else x := by
  rw [List.getElem?_set]
  by_cases hij : i = j
  · subst hij
    rcases Nat.lt_or_ge i l.length with h | h
    · simp [h]
    · simp [h]
  · rw [if_neg hij]
    cases l[j]? <;> simp [Ne.symm hij]

/-- One character written into a line when a condition holds, read back at any column. -/
theorem getElem?_set_if {l : List Char} {i : Nat} {a : Char} (c : Prop) [Decidable c] (j : Nat) :
    (if c then l.set i a else l)[j]? = l[j]?.map fun x => if j = i ∧ c then a else x := by
  by_cases hc : c
  · simp only [if_pos hc, getElem?_set_map, and_iff_left hc]
  · simp [hc]

/-- Drawing the trunk at the open ancestor columns, read back at any column. -/
theorem getElem?_foldl_trunk (S cols : List Nat) (l : List Char) (p : Nat) :
    (cols.foldl (fun acc a => if a ∈ S then acc.set a '│' else acc) l)[p]? =
      l[p]?.map fun x => if p ∈ cols ∧ p ∈ S then '│' else x := by
  induction cols generalizing l with
  | nil => simp
  | cons a cols ih =>
    rw [List.foldl_cons, ih, getElem?_set_if, Option.map_map]
    congr 1
    funext x
    by_cases hpa : p = a <;> by_cases hpc : p ∈ cols <;> simp_all

/-- The columns open after a line with its connector at `k`: its own column opens, and the
    column of its children closes. -/
theorem fst_connectLine {S : List Nat} {cs : List Char} {k : Nat} (hk : connectorColumn cs = some k) :
    (connectLine S cs).1 = k :: S.filter (fun c => c ≠ k && c ≠ k + indentWidth) := by
  simp only [connectLine, hk]

/-- A redrawn line, read at any column: the connector becomes `├` when its column is open, the
    column three further in becomes `┐` when open, an open ancestor column becomes `│`, and
    every other character stays. -/
theorem getElem?_connectLine {S : List Nat} {cs : List Char} {k : Nat}
    (hk : connectorColumn cs = some k) (p : Nat) :
    (connectLine S cs).2[p]? = cs[p]?.map fun x =>
      if p = k ∧ k ∈ S then '├'
      else if p = k + indentWidth ∧ p ∈ S then '┐'
      else if p ∈ ancestorColumns k ∧ p ∈ S then '│'
      else x := by
  simp only [connectLine, hk]
  rw [getElem?_foldl_trunk, getElem?_set_if, getElem?_set_if, Option.map_map, Option.map_map]
  congr 1
  funext x
  -- the three writes land on distinct columns: the ancestors lie left of the connector
  by_cases hpa : p ∈ ancestorColumns k
  · have hlt : p + 3 ≤ k := (mem_ancestorColumns.mp hpa).1
    have hpk : p ≠ k := by omega
    have hpc : p ≠ k + indentWidth := by simp only [indentWidth]; omega
    simp [hpk, hpc, hpa]
  · have hkc : k ≠ k + indentWidth := by simp [indentWidth]
    by_cases hpk : p = k <;> by_cases hpc : p = k + indentWidth <;> simp_all

/-! ### The pass from the bottom up, read from the top -/

/-- The columns left open by some lines, given from the top, once they are drawn from the bottom
    up. -/
def openColumns (ls : List (List Char)) : List Nat :=
  ls.foldr (fun cs S => (connectLine S cs).1) []

theorem connectUp_append (S : List Nat) (xs ys : List (List Char)) :
    connectUp S (xs ++ ys) =
      connectUp S xs ++ connectUp (xs.foldl (fun S cs => (connectLine S cs).1) S) ys := by
  induction xs generalizing S with
  | nil => rfl
  | cons x xs ih =>
    rcases hcl : connectLine S x with ⟨S', drawn⟩
    simp only [List.cons_append, connectUp, hcl, ih, List.foldl_cons]

/-- The topmost line is drawn last, with the columns that the lines below it left open. -/
theorem connectUp_reverse_cons (cs : List Char) (ls : List (List Char)) :
    (connectUp [] (cs :: ls).reverse).reverse =
      (connectLine (openColumns ls) cs).2 :: (connectUp [] ls.reverse).reverse := by
  have hopen : ls.foldr (fun cs S => (connectLine S cs).1) [] = openColumns ls := rfl
  rw [List.reverse_cons, connectUp_append, List.reverse_append, List.foldl_reverse, hopen]
  rcases hcl : connectLine (openColumns ls) cs with ⟨S', drawn⟩
  simp [connectUp, hcl]

/-- The `i`-th line from the top is drawn with the columns that the lines below it left open. -/
theorem getElem?_connectUp_reverse (ls : List (List Char)) (i : Nat) :
    (connectUp [] ls.reverse).reverse[i]? =
      ls[i]?.map fun cs => (connectLine (openColumns (ls.drop (i + 1))) cs).2 := by
  induction ls generalizing i with
  | nil => simp [connectUp]
  | cons cs ls ih =>
    rw [connectUp_reverse_cons]
    cases i with
    | zero => simp
    | succ i => simp [ih]

end Tree

/-! ### Placeholder lines at the connector columns -/

namespace Heading

variable (character : String) (numbered : Bool)

theorem toList_indent (level : Nat) :
    (indent level).toList = List.replicate (Tree.indentWidth * (level - 2)) ' ' := by
  rw [indent, String.toList_join, List.flatMap_replicate,
    show "   ".toList = List.replicate 3 ' ' from rfl, List.flatten_replicate_replicate,
    Tree.indentWidth, Nat.mul_comm]

/-- A top-level placeholder line: the comment character, a space, a branch, and the label. -/
theorem toList_render_top {h : Heading} (hl : h.level ≤ 1) :
    (h.render character numbered).toList =
      character.toList ++ [' '] ++ ('├' :: "── ".toList ++ (h.label numbered).toList) := by
  simp [render, hl, String.toList_append]

/-- A nested placeholder line: the comment character, a space, the trunk, a blank for each
    level between, and the connector `└` with the label. -/
theorem toList_render_nested {h : Heading} (hl : 2 ≤ h.level) :
    (h.render character numbered).toList =
      character.toList ++ [' '] ++ ("│  ".toList ++ List.replicate (Tree.indentWidth * (h.level - 2)) ' ' ++
        ('└' :: "── ".toList ++ (h.label numbered).toList)) := by
  have hnot : ¬ h.level ≤ 1 := by omega
  simp [render, hnot, String.toList_append, toList_indent]

/-- Past the comment character and the space, a top-level placeholder line is its branch and
    its label. -/
theorem drop_render_top {h : Heading} (hl : h.level ≤ 1) :
    (h.render character numbered).toList.drop (character.length + 1) =
      '├' :: "── ".toList ++ (h.label numbered).toList := by
  have hlen : character.length + 1 = (character.toList ++ [' ']).length := by
    rw [List.length_append, String.length_toList]
    rfl
  rw [toList_render_top character numbered hl, hlen, List.drop_left]

/-- Past the comment character and the space, a nested placeholder line is its trunk, the
    blanks of the levels between, and its connector with the label. -/
theorem drop_render_nested {h : Heading} (hl : 2 ≤ h.level) :
    (h.render character numbered).toList.drop (character.length + 1) =
      "│  ".toList ++ List.replicate (Tree.indentWidth * (h.level - 2)) ' ' ++
        ('└' :: "── ".toList ++ (h.label numbered).toList) := by
  have hlen : character.length + 1 = (character.toList ++ [' ']).length := by
    rw [List.length_append, String.length_toList]
    rfl
  rw [toList_render_nested character numbered hl, hlen, List.drop_left]

/-- Reading a placeholder line at a connector column skips the comment character and the space. -/
theorem getElem?_render_column (h : Heading) (m : Nat) :
    (h.render character numbered).toList[Tree.column character m]? =
      ((h.render character numbered).toList.drop (character.length + 1))[Tree.indentWidth * (m - 1)]? := by
  rw [List.getElem?_drop, Tree.column]

/-- The margin of a nested placeholder line, from its trunk to its connector. -/
theorem length_margin {level : Nat} (hl : 2 ≤ level) :
    ("│  ".toList ++ List.replicate (Tree.indentWidth * (level - 2)) ' ').length =
      Tree.indentWidth * (level - 1) := by
  have h3 : "│  ".toList.length = 3 := rfl
  simp only [List.length_append, List.length_replicate, h3, Tree.indentWidth]
  omega

/-- At its own column a placeholder line has its connector: a branch on the top level, `└`
    deeper down. -/
theorem render_connector {h : Heading} (hl : 1 ≤ h.level) :
    (h.render character numbered).toList[Tree.column character h.level]? =
      some (if h.level = 1 then '├' else '└') := by
  rw [getElem?_render_column]
  by_cases h1 : h.level = 1
  · rw [drop_render_top character numbered (by omega), h1]
    rfl
  · rw [drop_render_nested character numbered (by omega), if_neg h1, ← length_margin (by omega),
      List.getElem?_append_right (le_refl _), Nat.sub_self]
    rfl

/-- Three columns in from its connector a placeholder line has a blank. -/
theorem render_fork {h : Heading} (hl : 1 ≤ h.level) :
    (h.render character numbered).toList[Tree.column character h.level + Tree.indentWidth]? =
      some ' ' := by
  rw [Tree.column_succ hl, getElem?_render_column, Nat.add_sub_cancel]
  by_cases h1 : h.level = 1
  · rw [drop_render_top character numbered (by omega), h1]
    rfl
  · have hidx : Tree.indentWidth * h.level = Tree.indentWidth * (h.level - 1) + 3 := by
      simp only [Tree.indentWidth]
      omega
    rw [drop_render_nested character numbered (by omega), hidx, ← length_margin (by omega),
      List.getElem?_append_right (by omega), Nat.add_sub_cancel_left]
    rfl

/-- At the column of a level between the top and its own, a placeholder line has a blank. -/
theorem render_between {h : Heading} {m : Nat} (hm : 1 < m) (hml : m < h.level) :
    (h.render character numbered).toList[Tree.column character m]? = some ' ' := by
  have hlen := length_margin (show 2 ≤ h.level by omega)
  have hidx : Tree.indentWidth * (m - 1) = 3 + Tree.indentWidth * (m - 2) := by
    simp only [Tree.indentWidth]
    omega
  have h3 : "│  ".toList.length = 3 := rfl
  rw [getElem?_render_column, drop_render_nested character numbered (by omega),
    List.getElem?_append_left (by rw [hlen]; simp only [Tree.indentWidth]; omega), hidx,
    List.getElem?_append_right (by omega), h3, Nat.add_sub_cancel_left]
  apply List.getElem?_replicate_of_lt
  simp only [Tree.indentWidth]
  omega

/-- At the top column a nested placeholder line has the trunk. -/
theorem render_trunk {h : Heading} (hl : 1 < h.level) :
    (h.render character numbered).toList[Tree.column character 1]? = some '│' := by
  rw [getElem?_render_column, drop_render_nested character numbered (by omega)]
  rfl

/-- The connector of a placeholder line after a plain comment character stands at the column of
    its level. -/
theorem connectorColumn_render (hc : Tree.Plain character.toList) {h : Heading}
    (hl : 1 ≤ h.level) :
    Tree.connectorColumn (h.render character numbered).toList =
      some (Tree.column character h.level) := by
  have hnone : (character.toList ++ [' ']).findIdx? (fun c => c = '├' || c = '└') = none := by
    rw [List.findIdx?_eq_none_iff]
    intro x hx
    rcases List.mem_append.mp hx with hx | hx
    · simpa using hc x hx
    · simp_all
  have hlen : (character.toList ++ [' ']).length = character.length + 1 := by
    rw [List.length_append, String.length_toList]
    rfl
  by_cases h1 : h.level = 1
  · rw [Tree.connectorColumn, toList_render_top character numbered (by omega), List.findIdx?_append,
      hnone, hlen, Tree.column, h1]
    simp [List.findIdx?_cons]
  · have hmargin : ("│  ".toList ++ List.replicate (Tree.indentWidth * (h.level - 2)) ' ').findIdx?
        (fun c => c = '├' || c = '└') = none := by
      rw [List.findIdx?_eq_none_iff]
      intro x hx
      have hx' : x = '│' ∨ x = ' ' := by
        rcases List.mem_append.mp hx with hx | hx
        · simp only [show "│  ".toList = ['│', ' ', ' '] from rfl, List.mem_cons,
            List.not_mem_nil, or_false] at hx
          rcases hx with rfl | rfl | rfl <;> simp
        · exact Or.inr (List.eq_of_mem_replicate hx)
      rcases hx' with rfl | rfl <;> rfl
    rw [Tree.connectorColumn, toList_render_nested character numbered (by omega),
      List.findIdx?_append, hnone, List.findIdx?_append, hmargin, length_margin (by omega), hlen,
      Tree.column]
    simp [List.findIdx?_cons, Tree.indentWidth]
    omega

end Heading

/-! ### The columns open below a heading -/

namespace Tree

section Rendered

variable {character : String} {numbered : Bool}

/-- Drawing a heading's line opens the column of its level and closes the column of the level
    below it. -/
theorem openColumns_render (hc : Plain character.toList) {h : Heading} (hl : 1 ≤ h.level)
    (ls : List (List Char)) :
    openColumns ((h.render character numbered).toList :: ls) =
      column character h.level :: (openColumns ls).filter
        (fun c => c ≠ column character h.level && c ≠ column character h.level + indentWidth) :=
  fst_connectLine (Heading.connectorColumn_render character numbered hc hl)

/-- Every column left open by some headings' lines is the column of a level. -/
theorem exists_column_of_mem_openColumns (hc : Plain character.toList) {hs : List Heading}
    (hlev : ∀ h ∈ hs, 1 ≤ h.level) {x : Nat}
    (hx : x ∈ openColumns (hs.map fun h => (h.render character numbered).toList)) :
    ∃ m, 1 ≤ m ∧ x = column character m := by
  induction hs with
  | nil => simp [openColumns] at hx
  | cons h hs ih =>
    have hl := hlev h List.mem_cons_self
    rw [List.map_cons, openColumns_render hc hl, List.mem_cons, List.mem_filter] at hx
    rcases hx with rfl | ⟨hx, -⟩
    · exact ⟨h.level, hl, rfl⟩
    · exact ih (fun k hk => hlev k (List.mem_cons_of_mem h hk)) hx

/-- The column of a level is open below some headings exactly when the level stays open below
    them: the run invariant of the pass, carried from the bottom line up. -/
theorem column_mem_openColumns (hc : Plain character.toList) {hs : List Heading}
    (hlev : ∀ h ∈ hs, 1 ≤ h.level) {m : Nat} (hm : 1 ≤ m) :
    column character m ∈ openColumns (hs.map fun h => (h.render character numbered).toList) ↔
      staysOpen m (hs.map Heading.level) = true := by
  induction hs with
  | nil => simp [openColumns, staysOpen]
  | cons h hs ih =>
    have hl := hlev h List.mem_cons_self
    rw [List.map_cons, openColumns_render hc hl, List.mem_cons, List.mem_filter,
      ih (fun k hk => hlev k (List.mem_cons_of_mem h hk)), List.map_cons, staysOpen,
      column_succ hl]
    have h1 : column character m = column character h.level ↔ m = h.level := column_inj hm hl
    have h2 : column character m = column character (h.level + 1) ↔ m = h.level + 1 :=
      column_inj hm (by omega)
    simp only [ne_eq, h1, h2, Bool.and_eq_true, decide_eq_true_eq, Bool.or_eq_true, beq_iff_eq,
      bne_iff_ne]
    -- the level opens at its own heading and closes at a heading one level up
    by_cases hS : staysOpen m (hs.map Heading.level) = true <;> simp [hS] <;> omega

/-! ### The lines of an outline -/

/-- A heading's line as an outline draws it, given which levels go on below the heading and
    whether it has children. Its connector is `├` on the top level or when its own level goes on,
    and `└` otherwise; three columns further in stands `┐` when it has children; at the column of
    each level strictly between the top and its own stands `│` when that level goes on; every
    other character is the placeholder line's: blanks where nothing is drawn, the trunk at the
    top column of a nested line, the label. -/
structure DrawnAs (character : String) (numbered : Bool) (h : Heading) (goesOn : Nat → Bool)
    (children : Bool) (line : String) : Prop where
  connector : line.toList[column character h.level]? =
    some (if h.level == 1 || goesOn h.level then '├' else '└')
  fork : line.toList[column character h.level + indentWidth]? =
    some (if children then '┐' else ' ')
  trunks : ∀ m, 1 < m → m < h.level →
    line.toList[column character m]? = some (if goesOn m then '│' else ' ')
  rest : ∀ p, p ≠ column character h.level → p ≠ column character h.level + indentWidth →
    (∀ m, 1 < m → m < h.level → p ≠ column character m) →
    line.toList[p]? = (h.render character numbered).toList[p]?

/-- A heading's placeholder line, redrawn with the columns that the lines of the headings below
    it left open, is drawn by the levels that stay open below it. -/
theorem drawnAs_connectLine (hc : Plain character.toList) {h : Heading} (hl : 1 ≤ h.level)
    {below : List Heading} (hlev : ∀ k ∈ below, 1 ≤ k.level) :
    DrawnAs character numbered h (fun m => staysOpen m (below.map Heading.level))
      (staysOpen (h.level + 1) (below.map Heading.level))
      (String.ofList (connectLine (openColumns (below.map fun k => (k.render character numbered).toList))
        (h.render character numbered).toList).2) := by
  have hk := Heading.connectorColumn_render character numbered hc hl
  have hopen : ∀ {m}, 1 ≤ m → (column character m ∈ openColumns
      (below.map fun k => (k.render character numbered).toList) ↔
        staysOpen m (below.map Heading.level) = true) := fun hm => column_mem_openColumns hc hlev hm
  constructor
  · -- the connector: `├` when its own column is open; the placeholder's glyph otherwise
    rw [String.toList_ofList, getElem?_connectLine hk, Heading.render_connector character numbered hl,
      Option.map_some]
    have hnot : column character h.level ∉ ancestorColumns (column character h.level) := fun h' => by
      have := (mem_ancestorColumns.mp h').1
      simp [indentWidth] at this
    by_cases hkS : column character h.level ∈
        openColumns (below.map fun k => (k.render character numbered).toList)
    · simp [hkS, (hopen hl).mp hkS]
    · simp [hkS, hnot, mt (hopen hl).mpr hkS]
  · -- three columns in: `┐` when the column of the next level is open
    rw [String.toList_ofList, getElem?_connectLine hk, Heading.render_fork character numbered hl,
      Option.map_some]
    have hnot : column character h.level + indentWidth ∉ ancestorColumns (column character h.level) :=
      fun h' => by
        have := (mem_ancestorColumns.mp h').1
        simp only [indentWidth] at this
        omega
    have hw : indentWidth ≠ 0 := by decide
    have hS := hopen (show 1 ≤ h.level + 1 by omega)
    rw [← column_succ hl] at hS
    by_cases hkS : column character h.level + indentWidth ∈
        openColumns (below.map fun k => (k.render character numbered).toList)
    · simp [hkS, hS.mp hkS, hw]
    · simp [hkS, hnot, hw, mt hS.mpr hkS]
  · -- an ancestor column: `│` when open
    intro m hm hml
    rw [String.toList_ofList, getElem?_connectLine hk, Heading.render_between character numbered hm hml]
    have hne : column character m ≠ column character h.level := by
      rw [Ne, column_inj (by omega) hl]; omega
    have hne' : column character m ≠ column character h.level + indentWidth := by
      rw [Ne, column_succ hl, column_inj (by omega) (by omega)]; omega
    have hanc := (@mem_ancestorColumns_column character m h.level (by omega) hl).mpr hml
    by_cases hS : staysOpen m (below.map Heading.level) = true <;>
      simp [hS, hopen (show 1 ≤ m by omega), hne, hne', hanc]
  · -- every other column keeps its character; an open ancestor there is the top column, whose
    -- trunk is already drawn
    intro p hpk hpc hpm
    rw [String.toList_ofList, getElem?_connectLine hk]
    by_cases hp : p ∈ ancestorColumns (column character h.level) ∧
        p ∈ openColumns (below.map fun k => (k.render character numbered).toList)
    · obtain ⟨m, hm, rfl⟩ := exists_column_of_mem_openColumns hc hlev hp.2
      have hml := (mem_ancestorColumns_column hm hl).mp hp.1
      have hm1 : m = 1 := by
        by_contra hm1
        exact hpm m (by omega) hml rfl
      subst hm1
      rw [Heading.render_trunk character numbered hml]
      simp [hpk, hpc, hp]
    · simp [hpk, hpc, hp]

/-- The outline of some headings has one line per heading. -/
theorem length_connect_render (hc : Plain character.toList) (hs : List Heading) :
    (connect (hs.map fun h => h.render character numbered)).length = hs.length := by
  rw [length_connect hc (Heading.opens_render_all hs character numbered), List.length_map]

/-- The `i`-th line of the outline of some headings is the `i`-th placeholder line redrawn with
    the columns that the lines below it left open. -/
theorem getD_connect_render (hc : Plain character.toList) (hs : List Heading) {i : Nat}
    (hi : i < hs.length) :
    (connect (hs.map fun h => h.render character numbered)).getD i "" =
      String.ofList (connectLine
        (openColumns ((hs.drop (i + 1)).map fun h => (h.render character numbered).toList))
        (hs[i].render character numbered).toList).2 := by
  rw [connect_eq_of_stems hc (Heading.opens_render_all hs character numbered),
    List.getD_eq_getElem?_getD, List.getElem?_map, getElem?_connectUp_reverse, List.map_map,
    ← List.map_drop]
  simp [hi, Function.comp_def]

/-- The outline of some headings has one line per heading, and each heading's line is drawn by
    the levels that stay open below it. -/
theorem connect_draws_open_levels (hc : Plain character.toList) (numbered : Bool)
    {hs : List Heading} (hlev : ∀ h ∈ hs, 1 ≤ h.level) :
    (connect (hs.map fun h => h.render character numbered)).length = hs.length ∧
      ∀ i (hi : i < hs.length),
        DrawnAs character numbered hs[i]
          (fun m => staysOpen m ((hs.drop (i + 1)).map Heading.level))
          (staysOpen (hs[i].level + 1) ((hs.drop (i + 1)).map Heading.level))
          ((connect (hs.map fun h => h.render character numbered)).getD i "") := by
  refine ⟨length_connect_render hc hs, fun i hi => ?_⟩
  rw [getD_connect_render hc hs hi]
  exact drawnAs_connectLine hc (hlev _ (List.getElem_mem hi))
    (fun k hk => hlev k (List.mem_of_mem_drop hk))

/-- An A, two levels down a B, then a C and two levels down a D: each deeper heading skips a
    level. -/
def skippingHeadings : List Heading :=
  [Heading.mk 1 "A" 1, Heading.mk 3 "B" 2, Heading.mk 1 "C" 3, Heading.mk 3 "D" 4]

/-- The outline of the headings that skip levels: the column that B's line leaves open stays
    open past C, so B's connector is drawn as a branch. -/
theorem skipped_levels_draw_open_levels :
    Plain "#".toList ∧ (∀ h ∈ skippingHeadings, 1 ≤ h.level) ∧
      ((connect (skippingHeadings.map fun h => h.render "#" false)).length =
          skippingHeadings.length ∧
        ∀ i (hi : i < skippingHeadings.length),
          DrawnAs "#" false skippingHeadings[i]
            (fun m => staysOpen m ((skippingHeadings.drop (i + 1)).map Heading.level))
            (staysOpen (skippingHeadings[i].level + 1)
              ((skippingHeadings.drop (i + 1)).map Heading.level))
            ((connect (skippingHeadings.map fun h => h.render "#" false)).getD i "")) :=
  ⟨by decide, by decide, connect_draws_open_levels (by decide) false (by decide)⟩

/-- An outline of headings that skip no level is drawn as their tree: one line per heading, the
    connector a branch when the heading's level goes on below it, `┐` when the next heading is
    deeper, and `│` at the columns of the levels that go on. -/
theorem connect_draws_tree (hc : Plain character.toList) (numbered : Bool) {hs : List Heading}
    (hlev : ∀ h ∈ hs, 1 ≤ h.level) (hnest : (hs.map Heading.level).IsChain fun a b => b ≤ a + 1) :
    (connect (hs.map fun h => h.render character numbered)).length = hs.length ∧
      ∀ i (hi : i < hs.length),
        DrawnAs character numbered hs[i]
          (fun m => continues m ((hs.drop (i + 1)).map Heading.level))
          (decide (hs[i].level < ((hs.drop (i + 1)).map Heading.level).headD 0))
          ((connect (hs.map fun h => h.render character numbered)).getD i "") := by
  refine ⟨length_connect_render hc hs, fun i hi => ?_⟩
  -- the levels from the heading down skip none
  have hfrom : (hs[i].level :: (hs.drop (i + 1)).map Heading.level).IsChain
      fun a b => b ≤ a + 1 := by
    have h := hnest.drop i
    rwa [← List.map_drop, List.drop_eq_getElem_cons hi, List.map_cons] at h
  have hgo : (fun m => staysOpen m ((hs.drop (i + 1)).map Heading.level)) =
      fun m => continues m ((hs.drop (i + 1)).map Heading.level) :=
    funext (staysOpen_eq_continues hfrom.tail)
  have hdrawn := @drawnAs_connectLine character numbered hc hs[i] (hlev _ (List.getElem_mem hi))
    (hs.drop (i + 1)) (fun k hk => hlev k (List.mem_of_mem_drop hk))
  rw [hgo, staysOpen_succ_eq hfrom] at hdrawn
  rw [getD_connect_render hc hs hi]
  exact hdrawn

end Rendered

end Tree

end Outline
