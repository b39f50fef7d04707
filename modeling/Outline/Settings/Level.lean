/-
Module: Outline.Settings.Level
Purpose: Log levels, from the most verbose to the most severe, and reading them by name.
Main exports: Level, Level.name, Level.severity, Level.ofName?, Level.resolve
Open obligations: none
-/
import Outline.Text.Lowercase

namespace Outline

/-- How much is logged: every level also shows the more severe ones. -/
inductive Level where
  | trace
  | debug
  | info
  | warn
  | error
deriving DecidableEq, Repr, Inhabited

namespace Level

/-- The level's name as logs print it. -/
def name : Level → String
  | .trace => "TRACE"
  | .debug => "DEBUG"
  | .info => "INFO"
  | .warn => "WARN"
  | .error => "ERROR"

/-- The rank of a level, higher for more severe. -/
def severity : Level → Nat
  | .trace => 0
  | .debug => 1
  | .info => 2
  | .warn => 3
  | .error => 4

/-- The level of a name, matched after Unicode lowercasing and without trimming. -/
def ofName? (s : String) : Option Level :=
  match Text.lowercase s with
  | "trace" => some .trace
  | "debug" => some .debug
  | "info" => some .info
  | "warn" => some .warn
  | "error" => some .error
  | _ => none

/-- The level a run logs at: a level named on the command line wins, then verbose, then quiet,
    then the configured level. A name that is no level counts as not given. -/
def resolve (named : Option String) (verbose quiet : Bool) (configured : Level) : Level :=
  match named.bind ofName? with
  | some l => l
  | none => if verbose then .debug else if quiet then .error else configured

example : resolve (some "chatty") true false .info = .debug := by decide +kernel

end Level

end Outline
