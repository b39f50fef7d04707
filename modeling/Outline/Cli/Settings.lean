/-
Module: Outline.Cli.Settings
Purpose: What every file of a run is processed with: the command line's choices over the
  environment's, and the options of each file.
Main exports: Settings, Settings.resolve, Settings.optionsFor, bareExtension, directInputs
Open obligations: none
-/
import Outline.Toc
import Outline.Settings.Config
import Outline.Cli.Args

namespace Outline

namespace Cli

/-- The settings of a run. -/
structure Settings where
  character : Option String
  numbered : Bool
  depth : Nat
  /-- The extension standard input is read with, lowercase and without leading dots. -/
  stdinExtension : String
  toFile : Bool
  output : Option String
  format : Format
deriving DecidableEq, Repr

/-- The extension given for standard input, without its leading dots and in ASCII lowercase. -/
def bareExtension (given : String) : String :=
  lowerAscii (String.ofList (given.toList.dropWhile (· = '.')))

namespace Settings

/-- The command line wins over the environment: its character, else the configured one, which
    must be valid; numbered lines if either asks; its depth, else the configured one. -/
def resolve (a : Args) (c : Config) : Except ConfigError Settings := do
  let character := a.character.orElse fun _ => c.character
  match character with
  | some ch => validateCharacter ch
  | none => pure ()
  pure ⟨character, a.numbered || c.numbered, a.depth.getD c.depth, bareExtension a.extension,
    a.toFile, a.output, a.format⟩

/-- The options of a file named `name`: those of its path, with the run's numbering, depth and
    comment character. -/
def optionsFor (s : Settings) (r : Registry) (name : String) : Options :=
  let o := Options.forPath r name
  { o with numbered := s.numbered, depth := s.depth, character := s.character.getD o.character }

end Settings

/-- The files a run reads when they are not lists: only the first with an output file. -/
def directInputs (a : Args) : List String :=
  if a.output.isSome then a.files.take 1 else a.files

end Cli

end Outline
