/-
Module: Outline.Cli.Report
Purpose: What the program prints for a file: the table of contents itself, or a JSON report of
  it with the file's name, extension, comment character, headings and both blocks.
Main exports: jsonString, Report.json, Report.render
Open obligations: none
-/
import Outline.Toc
import Outline.Text.Escape
import Outline.Cli.Args

namespace Outline

namespace Cli

/-- A character inside a JSON string: quotes, backslashes and control characters are escaped,
    with short forms where JSON has them; everything else is written as it is. -/
def jsonChar (c : Char) : List Char :=
  if c = '"' then ['\\', '"']
  else if c = '\\' then ['\\', '\\']
  else if c = '\n' then ['\\', 'n']
  else if c = '\r' then ['\\', 'r']
  else if c = '\t' then ['\\', 't']
  else if c.toNat = 8 then ['\\', 'b']
  else if c.toNat = 12 then ['\\', 'f']
  else if c.toNat < 32 then
    let hex := Text.hexDigits c.toNat
    ['\\', 'u'] ++ List.replicate (4 - hex.length) '0' ++ hex
  else [c]

/-- A JSON string literal. -/
def jsonString (s : String) : String :=
  String.ofList ('"' :: s.toList.flatMap jsonChar ++ ['"'])

namespace Report

/-- A heading as a JSON object at the given indent of its opening brace. -/
def heading (pad : String) (h : Heading) : String :=
  pad ++ "\x7b\n" ++
  pad ++ "  \"level\": " ++ toString h.level ++ ",\n" ++
  pad ++ "  \"text\": " ++ jsonString h.text ++ ",\n" ++
  pad ++ "  \"line\": " ++ toString h.line ++ "\n" ++
  pad ++ "\x7d"

/-- The headings as a JSON list, indented by two spaces per level. -/
def headings (hs : List Heading) : String :=
  if hs.isEmpty then "[]"
  else "[\n" ++ ",\n".intercalate (hs.map (heading "    ")) ++ "\n  ]"

/-- The JSON report of a table of contents, two spaces per level, keys in a fixed order. -/
def json (o : Options) (t : Toc) : String :=
  "\x7b\n" ++
  "  \"name\": " ++ jsonString o.name ++ ",\n" ++
  "  \"extension\": " ++ jsonString o.extension ++ ",\n" ++
  "  \"character\": " ++ jsonString o.character ++ ",\n" ++
  "  \"headings\": " ++ headings t.headings ++ ",\n" ++
  "  \"inner\": " ++ jsonString t.inner ++ ",\n" ++
  "  \"outer\": " ++ jsonString t.outer ++ "\n" ++
  "\x7d"

/-- What is printed for a table of contents in a format. -/
def render (f : Format) (o : Options) (t : Toc) : String :=
  match f with
  | .text => t.outer
  | .json => json o t

end Report

end Cli

end Outline
