/-
Module: Outline.Tree.Connect
Purpose: Drawing the connectors of an outline. Heading lines arrive as placeholders, `├` for the
  top level and `└` deeper down; whether a heading has a later sibling, children, or ancestors
  whose line runs past it depends on the lines below, so the lines are walked from the bottom up
  while the columns still open are remembered.
Main exports: connectorColumn, connectLine, connect
Open obligations: none
-/
import Outline.Text.Blank

namespace Outline

namespace Tree

/-- Columns between two nesting levels. -/
def indentWidth : Nat := 3

/-- The index of the first `├` or `└` of a line, counted in characters. -/
def connectorColumn (cs : List Char) : Option Nat :=
  cs.findIdx? fun c => c = '├' || c = '└'

/-- The columns of the ancestors of a connector at column `k`: every column `k - 3j` for `j ≥ 1`,
    nearest first. -/
def ancestorColumns (k : Nat) : List Nat :=
  (List.range (k / indentWidth)).map fun j => k - indentWidth * (j + 1)

/-- Redraw one line, given the columns open below it, and give the columns open after it.
    A connector whose column is open has a later sibling and becomes `├`; its column opens. A child
    column that was open means the line has children: it closes and, if the line reaches it,
    shows `┐`. Every open ancestor column shows `│`. A line without a connector is kept. -/
def connectLine (openCols : List Nat) (cs : List Char) : List Nat × List Char :=
  match connectorColumn cs with
  | none => (openCols, cs)
  | some k =>
    let cs := if k ∈ openCols then cs.set k '├' else cs
    let child := k + indentWidth
    let cs := if child ∈ openCols then cs.set child '┐' else cs
    let openCols' := k :: openCols.filter (fun c => c ≠ k && c ≠ child)
    let cs := (ancestorColumns k).foldl
      (fun acc a => if a ∈ openCols then acc.set a '│' else acc) cs
    (openCols', cs)

/-- Redraw lines given bottom first, giving them back bottom first. -/
def connectUp (openCols : List Nat) : List (List Char) → List (List Char)
  | [] => []
  | cs :: rest =>
    let (openCols', drawn) := connectLine openCols cs
    drawn :: connectUp openCols' rest

/-- The outline lines with their connectors drawn and blank lines dropped. -/
def connect (lines : List String) : List String :=
  ((connectUp [] (lines.map String.toList).reverse).reverse.filter
    (fun cs => !(cs.all Text.isBlank))).map String.ofList

example : connect ["# ├── A", "# │  └── B", "# │  └── C", "# ├── D"] =
    ["# ├──┐A", "# │  ├── B", "# │  └── C", "# ├── D"] := by decide +kernel

end Tree

end Outline
