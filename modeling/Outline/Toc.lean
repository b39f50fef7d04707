/-
Module: Outline.Toc
Purpose: The table of contents of a text: its headings by the file's spelling, kept to a depth,
  rendered, connected and framed.
Main exports: Options, Options.forPath, headingsOf, documentFor, Toc, generate
Open obligations: none
-/
import Outline.Format.Registry
import Outline.Heading.Read
import Outline.Tree.Connect
import Outline.Tree.Frame

namespace Outline

/-- Everything that decides how one table of contents is made: the name in its title, the
    lowercase extension that picks the spelling and delimiters, the comment character, whether
    lines are numbered, and the deepest level kept (0 keeps all). -/
structure Options where
  name : String
  extension : String
  character : String
  numbered : Bool
  depth : Nat
deriving DecidableEq, Repr, Inhabited

/-- The last component of a path, separated by `/` or `\`; the whole path when that is empty. -/
def baseName (path : String) : String :=
  match (path.toList.splitOnP (fun c => c = '/' || c = '\\')).getLast? with
  | some (c :: cs) => String.ofList (c :: cs)
  | _ => path

namespace Options

/-- The options of a path: its base name, its lowercase extension and the registry's comment
    character for it, without numbers or a depth limit. -/
def forPath (r : Registry) (path : String) : Options :=
  let extension := lowerAscii (extensionOf path)
  ⟨baseName path, extension, r.character extension, false, 0⟩

end Options

/-- The headings of a text as its table of contents shows them. -/
def headingsOf (r : Registry) (o : Options) (content : String) : List Heading :=
  Heading.upTo o.depth ((r.spelling o.extension).read o.character o.extension content)

/-- The document for some headings: their placeholder lines connected and framed. -/
def documentFor (r : Registry) (o : Options) (hs : List Heading) : Document :=
  Document.assemble (Tree.connect (hs.map fun h => h.render o.character o.numbered))
    o.character o.name (r.delimiters o.extension)

/-- The document of a text. -/
def buildDocument (r : Registry) (o : Options) (content : String) : Document :=
  documentFor r o (headingsOf r o content)

/-- A generated table of contents: the headings it lists, the framed block, and the block inside
    the comment delimiters. -/
structure Toc where
  headings : List Heading
  inner : String
  outer : String
deriving DecidableEq, Repr, Inhabited

/-- A table of contents is empty when it has no block. -/
def Toc.isEmpty (t : Toc) : Bool :=
  t.inner.isEmpty

/-- The table of contents of a text. -/
def generate (r : Registry) (o : Options) (content : String) : Toc :=
  let hs := headingsOf r o content
  let d := documentFor r o hs
  ⟨hs, d.inner, d.outer⟩

end Outline
