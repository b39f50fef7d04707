/-
Module: Outline.Block.Splice
Purpose: Putting a table of contents into the file it describes. An existing block is replaced
  between its marker lines, leaving the comment delimiters around it alone; a file without one
  gets the whole block at the top, or after its preamble. The block is written with the line
  ending the file already uses.
Main exports: Outcome, Applied, NoHeadings, apply, updateTrace, update
Open obligations: none
-/
import Outline.Toc
import Outline.Block.Locate

namespace Outline

namespace Block

/-- What an update did to a file. -/
inductive Outcome where
  /-- No block was there; one was put in. -/
  | added
  /-- A block was there and was replaced. -/
  | updated
  /-- The block there was already the same, byte for byte. -/
  | unchanged
deriving DecidableEq, Repr, Inhabited

namespace Outcome

/-- The word for an outcome. -/
def name : Outcome → String
  | .added => "added"
  | .updated => "updated"
  | .unchanged => "unchanged"

/-- The outcome of two passes: adding wins, then updating. -/
def merge : Outcome → Outcome → Outcome
  | .added, _ => .added
  | _, .added => .added
  | .updated, _ => .updated
  | _, .updated => .updated
  | _, _ => .unchanged

end Outcome

/-- The new content of a file and what was done to it. -/
structure Applied where
  content : String
  outcome : Outcome
deriving DecidableEq, Repr, Inhabited

/-- Splice a table of contents into a text. A block found by its markers is replaced by the
    framed block, unless it is already the same; otherwise the block inside its delimiters goes
    after the preamble, two line endings apart, or at the top, two line endings before the text. -/
def apply (content : String) (toc : Toc) (o : Options) : Applied :=
  let cs := content.toList
  let eol := lineEnding cs
  let inner := withEnding eol toc.inner.toList
  match findBlock cs o.character with
  | some span =>
    if span.of cs = inner then ⟨content, .unchanged⟩
    else ⟨String.ofList (cs.take span.start ++ inner ++ cs.drop span.stop), .updated⟩
  | none =>
    let outer := withEnding eol toc.outer.toList
    match preambleEnd cs o.extension with
    | some stop =>
      let rest := cs.drop stop
      ⟨String.ofList (cs.take stop ++ eol ++ eol ++ outer ++ (if rest.isEmpty then eol else rest)),
        .added⟩
    | none => ⟨String.ofList (outer ++ eol ++ eol ++ cs), .added⟩

/-- Nothing to write: no heading of the file's spelling was found within the depth. -/
structure NoHeadings where
  character : String
  name : String
deriving DecidableEq, Repr

/-- The message for a file without headings. -/
def NoHeadings.message (e : NoHeadings) : String :=
  "Could not generate a \"" ++ e.character ++ "\" toc for \"" ++ e.name ++ "\""

/-- Run `passes` generate-and-splice passes from `content`, with the outcome so far. Gives the
    outcome of each pass done and the result. -/
def passesFrom (r : Registry) (o : Options) : Nat → String → Outcome →
    List Outcome × Except NoHeadings Applied
  | 0, content, outcome => ([], .ok ⟨content, outcome⟩)
  | n + 1, content, outcome =>
    let toc := generate r o content
    if toc.isEmpty then ([], .error ⟨o.character, o.name⟩)
    else
      let applied := apply content toc o
      let (done, result) := passesFrom r o n applied.content (outcome.merge applied.outcome)
      (applied.outcome :: done, result)

/-- The passes of an update and its result. With numbered lines the pass runs twice, so that the
    numbers count the lines the block itself adds. -/
def updateTrace (r : Registry) (o : Options) (content : String) :
    List Outcome × Except NoHeadings Applied :=
  passesFrom r o (if o.numbered then 2 else 1) content .unchanged

/-- Generate a table of contents for a text and put it in. -/
def update (r : Registry) (o : Options) (content : String) : Except NoHeadings Applied :=
  (updateTrace r o content).2

end Block

end Outline
