/-
Module: Outline.Format.Registry
Purpose: What a file's extension says about it: the comment character that starts every line of
  its outline, the comment delimiters around the whole block, and how its headings are spelled.
Main exports: Spelling, Delimiters, Registry, Registry.builtin, Registry.character,
  Registry.delimiters, Registry.spelling, extensionOf, lowerAscii
Open obligations: none
-/

namespace Outline

/-- How headings are spelled in a kind of file. -/
inductive Spelling where
  /-- Comment lines carrying a bar of 64, 32, 16, 8, 4 or 2 hashes. -/
  | bars
  /-- A run of one repeated marker at the start of a line (Markdown, AsciiDoc, beancount). -/
  | repeated (marker : Char)
  /-- Heading elements `<h1>` to `<h9>`. -/
  | html
  /-- Titles underlined by a row of one punctuation character. -/
  | underlined
  /-- The roff macros `.TH`, `.SH` and `.SS`. -/
  | roff
  /-- The POD commands `=head1` to `=head9`. -/
  | pod
deriving DecidableEq, Repr, Inhabited

namespace Spelling

/-- The name a spelling's reader goes by. -/
def name : Spelling → String
  | .bars => "generic"
  | .repeated _ => "increasing"
  | .html => "html"
  | .underlined => "rst"
  | .roff => "man"
  | .pod => "pod"

end Spelling

/-- Comment lines written before and after an outline block. -/
structure Delimiters where
  before : List String
  after : List String
deriving DecidableEq, Repr, Inhabited

namespace Delimiters

/-- No delimiters: the block is made of commented lines alone. -/
def none : Delimiters := ⟨[], []⟩

end Delimiters

/-- An ASCII lowercase copy: other characters stay as they are. -/
def lowerAscii (s : String) : String :=
  s.map Char.toLower

/-- The extension of a path: the text after the last dot of its last component, where components
    are separated by `/` or `\`. A name without a dot has the empty extension. -/
def extensionOf (path : String) : String :=
  let name := (path.toList.splitOnP (fun c => c = '/' || c = '\\')).getLast?.getD []
  match name.splitOn '.' with
  | [_] => ""
  | parts => String.ofList (parts.getLast?.getD [])

/-- A lookup table: entries of extensions and a value, in the order they were registered. -/
abbrev Table (α : Type) := List (List String × α)

/-- The value of the newest entry that names the extension, compared after ASCII lowercasing.
    Registered extension strings are compared as they are. -/
def Table.find? {α : Type} (table : Table α) (extension : String) : Option α :=
  let key := lowerAscii extension
  (table.reverse.find? (fun entry => entry.1.contains key)).map Prod.snd

/-- The three tables that map extensions to comment characters, delimiters and spellings. -/
structure Registry where
  characterTable : Table String
  delimiterTable : Table Delimiters
  spellingTable : Table Spelling
deriving Inhabited

namespace Registry

/-- A registry with no entries: every extension gets the fallbacks. -/
def empty : Registry := ⟨[], [], []⟩

/-- The manual page sections, each its own extension. -/
def manSections : List String := ["1", "2", "3", "4", "5", "6", "7", "8", "9", "man"]

/-- The built-in comment characters. -/
def builtinCharacters : Table String :=
  [ (["adoc", "asc", "asciidoc", "c", "cc", "cpp", "cs", "d", "go", "h", "hpp", "java", "js",
      "jsx", "kt", "proto", "rs", "scala", "swift", "ts", "tsx", "typ", "v", "zig"], "//"),
    (["ahk", "asm", "beancount", "clj", "el", "ini", "lisp", "scm"], ";"),
    (["bib", "cls", "erl", "m", "mat", "sty", "tex"], "%"),
    (["ada", "elm", "hs", "lua", "sql"], "--"),
    (["f", "f90"], "!"),
    (["bas", "vb"], "'"),
    (["vim"], "\""),
    (manSections, ".\\\""),
    (["rst"], "..") ]

/-- The built-in block delimiters. -/
def builtinDelimiters : Table Delimiters :=
  [ (["css"], ⟨["/*"], ["*/"]⟩),
    (["htm", "html", "markdown", "md", "svg", "xhtml", "xml"], ⟨["<!--"], ["-->"]⟩),
    (["fs", "fsi", "ml", "mli", "sml"], ⟨["(*"], ["*)"]⟩),
    (["pod"], ⟨["=begin comment"], ["=end comment"]⟩) ]

/-- The built-in heading spellings. -/
def builtinSpellings : Table Spelling :=
  [ (["markdown", "md"], .repeated '#'),
    (["adoc", "asc", "asciidoc"], .repeated '='),
    (["beancount"], .repeated '*'),
    (["htm", "html", "xhtml"], .html),
    (["rst"], .underlined),
    (manSections, .roff),
    (["pod"], .pod) ]

/-- The built-in tables, counted as registered first and in table order. -/
def builtin : Registry := ⟨builtinCharacters, builtinDelimiters, builtinSpellings⟩

/-- Register a comment character for some extensions; it shadows earlier entries. -/
def addCharacter (r : Registry) (extensions : List String) (character : String) : Registry :=
  { r with characterTable := r.characterTable ++ [(extensions, character)] }

/-- Register delimiters for some extensions; they shadow earlier entries. -/
def addDelimiters (r : Registry) (extensions : List String) (d : Delimiters) : Registry :=
  { r with delimiterTable := r.delimiterTable ++ [(extensions, d)] }

/-- Register a heading spelling for some extensions; it shadows earlier entries. -/
def addSpelling (r : Registry) (extensions : List String) (s : Spelling) : Registry :=
  { r with spellingTable := r.spellingTable ++ [(extensions, s)] }

/-- The comment character of an extension, `#` when no entry names it. -/
def character (r : Registry) (extension : String) : String :=
  (r.characterTable.find? extension).getD "#"

/-- The delimiters of an extension, none when no entry names it. -/
def delimiters (r : Registry) (extension : String) : Delimiters :=
  (r.delimiterTable.find? extension).getD Delimiters.none

/-- The heading spelling of an extension, comment bars when no entry names it. -/
def spelling (r : Registry) (extension : String) : Spelling :=
  (r.spellingTable.find? extension).getD .bars

end Registry

example : Registry.builtin.character "RS" = "//" := by decide +kernel
example : Registry.builtin.spelling "MD" = .repeated '#' := by decide +kernel
example : extensionOf "dir.d/archive.tar.gz" = "gz" := by decide +kernel
example : extensionOf "./../" = "" := by decide +kernel

end Outline
