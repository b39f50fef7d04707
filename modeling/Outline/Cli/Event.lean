/-
Module: Outline.Cli.Event
Purpose: What a run logs: events with a level, the part of the program that logs them, a message
  and named values, and the one-line form each is written in.
Main exports: Event, Event.line, Event.shown, Failure, Failure.message
Open obligations: none
-/
import Outline.Settings.Level
import Outline.Disk.Basic
import Outline.Block.Splice

namespace Outline

namespace Cli

/-- A logged event. -/
structure Event where
  level : Level
  /-- The part of the program that logs, as a module path. -/
  target : String
  message : String
  fields : List (String × String)
deriving DecidableEq, Repr

namespace Event

/-- The level's name right-aligned in five columns. -/
def levelColumn (l : Level) : String :=
  String.ofList (List.replicate (5 - l.name.length) ' ') ++ l.name

/-- The event as one line: level, target, message, then each named value as `name=value`. -/
def line (e : Event) : String :=
  levelColumn e.level ++ " " ++ e.target ++ ": " ++ e.message ++
    String.join (e.fields.map fun (k, v) => " " ++ k ++ "=" ++ v)

/-- The event shows at a log level: it is at least as severe, and never below INFO. -/
def shown (at_ : Level) (e : Event) : Bool :=
  at_.severity ≤ e.level.severity && Level.info.severity ≤ e.level.severity

end Event

/-- Why a file of a run fails. -/
inductive Failure where
  /-- The file cannot be read. -/
  | unreadable (path : String) (e : OsError)
  /-- The file holds bytes that are no UTF-8 text; it is skipped without failing the run. -/
  | binary (path : String)
  /-- The file cannot be written back. -/
  | unwritable (path : String) (e : OsError)
  /-- The file has no headings to list. -/
  | noHeadings (e : Block.NoHeadings)
  /-- The output file cannot be written. -/
  | outputUnwritable (path : String) (e : OsError)
deriving DecidableEq, Repr

/-- The message of a failure, followed by the message of its cause where it has one. -/
def Failure.message : Failure → String
  | .unreadable p e => "Failed to read file " ++ p ++ ": " ++ e.message ++ ": " ++ e.message
  | .binary p => "Skipping binary file " ++ p
  | .unwritable p e => "Failed to write file " ++ p ++ ": " ++ e.message ++ ": " ++ e.message
  | .noHeadings e => e.message
  | .outputUnwritable p e => "Failed to write output to " ++ p ++ ": " ++ e.message

end Cli

end Outline
