/-
Module: Outline.Settings.Logging
Purpose: How a run logs: the level, plain or JSON lines, and what each line shows.
Main exports: LogSetup, LogSetup.default, LogSetup.withLevel, LogSetup.ofConfig
Open obligations: none
-/
import Outline.Settings.Config

namespace Outline

/-- How logs are written. -/
structure LogSetup where
  level : Level
  json : Bool
  showTarget : Bool
  showLocation : Bool
deriving DecidableEq, Repr, Inhabited

namespace LogSetup

/-- Warnings, plain text, with the module that logs but without its source location. -/
def default : LogSetup := ⟨.warn, false, true, false⟩

/-- The default setup at another level. -/
def withLevel (l : Level) : LogSetup := { default with level := l }

/-- The level and format the settings ask for. -/
def ofConfig (c : Config) : LogSetup := { default with level := c.level, json := c.logJson }

end LogSetup

end Outline
