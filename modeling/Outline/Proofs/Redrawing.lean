/-
Module: Outline.Proofs.Redrawing
Purpose: What connecting does to lines of any kind, not only to the placeholder lines of
  headings. The columns left open are shared by all lines, so a line may be redrawn at columns
  that lines of other shapes opened; still every write lands inside its own line and on a glyph
  of its own connector pattern. The blank lines are dropped; every other line comes out once, in
  order and as long as it went in; a line without a connector comes out as it went in, and a
  line whose first connector stands at column `k` changes only at `k`, at `k + 3` and at the
  columns a multiple of three left of `k`.
Main exports: Tree.FirstConnector, Tree.Redraws
Main statements: Text.trim_eq_nil_iff, Tree.connectorColumn_eq_some_iff,
  Tree.redraws_connectLine, Tree.connect_redraws_lines
Open obligations: none
-/
import Outline.Proofs.LineEndings

namespace Outline

namespace Text

theorem trimLeft_eq_nil_iff {cs : List Char} : trimLeft cs = [] ↔ ∀ c ∈ cs, isBlank c :=
  List.dropWhile_eq_nil_iff

/-- A text trims to nothing exactly when it is white space only. -/
theorem trim_eq_nil_iff {cs : List Char} : trim cs = [] ↔ ∀ c ∈ cs, isBlank c := by
  rw [← trimLeft_eq_nil_iff, trim, trimRight, List.reverse_eq_nil_iff, List.dropWhile_eq_nil_iff]
  constructor
  · -- what trimming from the left leaves starts with a character that is no white space
    intro hall
    by_contra hne
    have hhead := List.head_dropWhile_not isBlank hne
    have hmem : (cs.dropWhile isBlank).head hne ∈ (trimLeft cs).reverse :=
      List.mem_reverse.mpr (List.head_mem hne)
    simp [hall _ hmem] at hhead
  · intro h
    simp [h]

end Text

namespace Tree

/-- The first `├` or `└` of a line stands at column `k`. -/
def FirstConnector (cs : List Char) (k : Nat) : Prop :=
  (cs[k]? = some '├' ∨ cs[k]? = some '└') ∧ ∀ i < k, cs[i]? ≠ some '├' ∧ cs[i]? ≠ some '└'

/-- A line `y` drawn from a line `x`: as long as `x`; equal to `x` when `x` holds no connector;
    and when the first connector of `x` stands at column `k`, equal to `x` at every column but
    `k` (then `├`), `k + 3` (then `┐`) and `k - 3j` for `j ≥ 1` (then `│`). -/
structure Redraws (x y : List Char) : Prop where
  length_eq : y.length = x.length
  plain : (∀ c ∈ x, c ≠ '├' ∧ c ≠ '└') → y = x
  cells : ∀ k, FirstConnector x k → ∀ p,
    y[p]? = x[p]? ∨ (p = k ∧ y[p]? = some '├') ∨ (p = k + indentWidth ∧ y[p]? = some '┐') ∨
      ∃ j, 1 ≤ j ∧ p + indentWidth * j = k ∧ y[p]? = some '│'

theorem connectorColumn_eq_some_iff {cs : List Char} {k : Nat} :
    connectorColumn cs = some k ↔ FirstConnector cs k := by
  rw [connectorColumn, List.findIdx?_eq_some_iff_getElem, FirstConnector]
  constructor
  · rintro ⟨hk, hfound, hbefore⟩
    refine ⟨by simpa [List.getElem?_eq_getElem hk] using hfound, fun i hi => ?_⟩
    have := hbefore i hi
    simp_all [List.getElem?_eq_getElem (Nat.lt_trans hi hk)]
  · rintro ⟨hfound, hbefore⟩
    have hk : k < cs.length := by
      rcases hfound with h | h <;> exact (List.getElem?_eq_some_iff.mp h).1
    refine ⟨hk, by rcases hfound with h | h <;> simp_all, ?_⟩
    intro j hj
    have := hbefore j hj
    simp_all [List.getElem?_eq_getElem (Nat.lt_trans hj hk)]

theorem connectorColumn_eq_none_iff {cs : List Char} :
    connectorColumn cs = none ↔ ∀ c ∈ cs, c ≠ '├' ∧ c ≠ '└' := by
  simp [connectorColumn, List.findIdx?_eq_none_iff]

/-- Redrawing a line, whatever columns are open, draws it from the line. -/
theorem redraws_connectLine (S : List Nat) (cs : List Char) : Redraws cs (connectLine S cs).2 := by
  refine ⟨Block.length_connectLine S cs, fun hplain => ?_, fun k hfirst p => ?_⟩
  · simp only [connectLine, connectorColumn_eq_none_iff.mpr hplain]
  · -- the first connector is the one the redrawing finds
    rw [getElem?_connectLine (connectorColumn_eq_some_iff.mpr hfirst) p]
    cases hx : cs[p]? with
    | none => exact .inl rfl
    | some c =>
      simp only [Option.map_some]
      by_cases hb : p = k ∧ k ∈ S
      · exact .inr (.inl ⟨hb.1, by rw [if_pos hb]⟩)
      by_cases hc : p = k + indentWidth ∧ p ∈ S
      · exact .inr (.inr (.inl ⟨hc.1, by rw [if_neg hb, if_pos hc]⟩))
      by_cases ha : p ∈ ancestorColumns k ∧ p ∈ S
      · obtain ⟨hle, hmod⟩ := mem_ancestorColumns.mp ha.1
        refine .inr (.inr (.inr ⟨(k - p) / indentWidth, ?_, ?_,
          by rw [if_neg hb, if_neg hc, if_pos ha]⟩)) <;>
          simp only [indentWidth] at hle hmod ⊢ <;> omega
      · exact .inl (by rw [if_neg hb, if_neg hc, if_neg ha])

/-- A line holding a connector is not blank. -/
theorem all_isBlank_of_connector {l : List Char} {k : Nat}
    (hk : l[k]? = some '├' ∨ l[k]? = some '└') : l.all Text.isBlank = false := by
  rw [List.all_eq_false]
  rcases hk with hk | hk
  · exact ⟨'├', List.mem_of_getElem? hk, by decide⟩
  · exact ⟨'└', List.mem_of_getElem? hk, by decide⟩

/-- A drawn line is blank exactly when the line it is drawn from is: the column of the first
    connector holds a connector before and after. -/
theorem Redraws.all_isBlank_eq {x y : List Char} (h : Redraws x y) :
    y.all Text.isBlank = x.all Text.isBlank := by
  cases hk : connectorColumn x with
  | none => rw [h.plain (connectorColumn_eq_none_iff.mp hk)]
  | some k =>
    have hfirst := connectorColumn_eq_some_iff.mp hk
    have hyk : y[k]? = some '├' ∨ y[k]? = some '└' := by
      rcases h.cells k hfirst k with hc | ⟨-, hc⟩ | ⟨hkk, -⟩ | ⟨j, hj, hkj, -⟩
      · rw [hc]
        exact hfirst.1
      · exact .inl hc
      · simp [indentWidth] at hkk
      · simp only [indentWidth] at hkj
        omega
    rw [all_isBlank_of_connector hyk, all_isBlank_of_connector hfirst.1]

/-- Drawing the lines from the bottom up draws each line from itself, whatever columns the lines
    below it left open. -/
theorem forall₂_redraws_connectUp (S : List Nat) (ls : List (List Char)) :
    List.Forall₂ Redraws ls (connectUp S ls) := by
  induction ls generalizing S with
  | nil => exact .nil
  | cons cs ls ih => exact .cons (redraws_connectLine S cs) (ih _)

/-- Connecting lines of any kind drops the blank ones, those that trim to nothing, and draws
    every other line, once and in order, from itself: as long as it, unchanged when it holds no
    connector, and otherwise changed only at its first connector (to `├`), three columns further
    in (to `┐`) and at the columns a multiple of three to its left (to `│`). -/
theorem connect_redraws_lines (lines : List String) :
    List.Forall₂ (fun x y => Redraws x.toList y.toList)
      (lines.filter fun x => !(Text.trim x.toList).isEmpty) (connect lines) := by
  have hdrawn : List.Forall₂ Redraws (lines.map String.toList)
      (connectUp [] (lines.map String.toList).reverse).reverse := by
    rw [← List.forall₂_reverse_iff, List.reverse_reverse]
    exact forall₂_redraws_connectUp [] _
  -- a line and its drawing are both blank or both not, so the two filters keep matching lines
  have hkept := List.rel_filter (p := fun cs => !(cs.all Text.isBlank))
    (q := fun cs => !(cs.all Text.isBlank)) (by intro x y hxy; simp [hxy.all_isBlank_eq]) hdrawn
  have hblank : (fun x : String => !(Text.trim x.toList).isEmpty) =
      (fun cs => !(cs.all Text.isBlank)) ∘ String.toList := by
    funext x
    show (!(Text.trim x.toList).isEmpty) = !(x.toList.all Text.isBlank)
    congr 1
    rw [Bool.eq_iff_iff, List.isEmpty_iff, Text.trim_eq_nil_iff, List.all_eq_true]
  rw [List.filter_map, List.forall₂_map_left_iff] at hkept
  rw [connect, List.forall₂_map_right_iff, hblank]
  simpa only [String.toList_ofList] using hkept

end Tree

end Outline
