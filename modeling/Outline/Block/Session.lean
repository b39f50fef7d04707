/-
Module: Outline.Block.Session
Purpose: An editing session on one file content: edits to the text interleaved with updates of
  its table of contents, each seeing the content the steps before it left.
Main exports: Step, Answer, Session.run
Open obligations: none
-/
import Outline.Text.Affix
import Outline.Block.Splice

namespace Outline

namespace Block

/-- One step of a session. -/
inductive Step where
  /-- Update the table of contents, with the session's options changed for this step only. -/
  | update (numbered : Option Bool) (depth : Option Nat) (character : Option String)
  /-- Add text at the end. -/
  | append (text : String)
  /-- Add text at the start. -/
  | prepend (text : String)
  /-- Replace every occurrence of a pattern, from the left. -/
  | replace (pattern replacement : String)
  /-- Replace the whole content. -/
  | set (text : String)
  /-- Generate the table of contents of the content, leaving the content alone. -/
  | generate
deriving Repr

/-- What a step answers. -/
inductive Answer where
  /-- An update that went through. -/
  | updated (applied : Applied)
  /-- An update refused for want of headings; the content stays. -/
  | refused (e : NoHeadings)
  /-- An edit, with the content after it. -/
  | edited (content : String)
  /-- A generated table of contents. -/
  | generated (toc : Toc)
deriving Repr

/-- The options of an update step: the session's, changed where the step says. -/
def Step.options (o : Options) (numbered : Option Bool) (depth : Option Nat)
    (character : Option String) : Options :=
  { o with numbered := numbered.getD o.numbered, depth := depth.getD o.depth,
           character := character.getD o.character }

/-- Run one step on the content: its answer and the content after it. -/
def Step.run (r : Registry) (o : Options) (content : String) : Step → Answer × String
  | .update numbered depth character =>
    match Block.update r (Step.options o numbered depth character) content with
    | .ok a => (.updated a, a.content)
    | .error e => (.refused e, content)
  | .append text => let c := content ++ text; (.edited c, c)
  | .prepend text => let c := text ++ content; (.edited c, c)
  | .replace p q =>
    let c := String.ofList (Text.replaceAll p.toList q.toList content.toList)
    (.edited c, c)
  | .set text => (.edited text, text)
  | .generate => (.generated (Outline.generate r o content), content)

/-- The answers of a session's steps, run in order from an initial content. -/
def Session.run (r : Registry) (o : Options) : String → List Step → List Answer
  | _, [] => []
  | content, s :: rest =>
    let (answer, next) := s.run r o content
    answer :: Session.run r o next rest

end Block

end Outline
