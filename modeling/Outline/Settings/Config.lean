/-
Module: Outline.Settings.Config
Purpose: The settings read from the environment: a comment character for every file, numbered
  lines, a depth limit, and how to log. Each variable is read with its own rule, and the result is
  checked before it is used.
Main exports: Config, ConfigError, validateCharacter, Config.validate, Config.level,
  Config.display, Config.fromEnv, parseLevel
Open obligations: none
-/
import Outline.Text.Blank
import Outline.Text.Number
import Outline.Text.Escape
import Outline.Text.Lowercase
import Outline.Settings.Level

namespace Outline

/-- The settings of a run before the command line is applied. -/
structure Config where
  /-- A comment character used for every file; none to take each file's own. -/
  character : Option String
  numbered : Bool
  /-- The deepest heading level kept, 0 for all. -/
  depth : Nat
  /-- The name of the log level, as given. -/
  logLevel : String
  logJson : Bool
deriving DecidableEq, Repr, Inhabited

/-- Why settings are refused. -/
inductive ConfigError where
  /-- A log level that is not one of the five names. -/
  | invalidLogLevel (level : String)
  /-- A comment character that is blank or spans lines. -/
  | invalidCharacter (character : String)
  /-- A variable whose value does not read as its type. -/
  | unparsable (name reason : String)
deriving DecidableEq, Repr

namespace ConfigError

/-- The message for refused settings. -/
def message : ConfigError → String
  | .invalidLogLevel level =>
    "Invalid log level: " ++ level ++ ". Valid options: trace, debug, info, warn, error"
  | .invalidCharacter c =>
    "Invalid comment character " ++ Text.quoted c ++ ": it must be non-blank and fit on one line"
  | .unparsable name reason => "Failed to parse " ++ name ++ ": " ++ reason

end ConfigError

/-- The level names a configuration accepts, exactly as written. -/
def levelNames : List String := ["trace", "debug", "info", "warn", "error"]

/-- A comment character must show something and fit on one line. -/
def validateCharacter (c : String) : Except ConfigError Unit :=
  if Text.blankText c || c.toList.contains '\n' || c.toList.contains '\r' then
    .error (.invalidCharacter c)
  else .ok ()

/-- The level of a name, refused with the name as given. -/
def parseLevel (s : String) : Except ConfigError Level :=
  match Level.ofName? s with
  | some l => .ok l
  | none => .error (.invalidLogLevel s)

namespace Config

/-- Nothing set: each file's own character, no numbers, no depth limit, warnings, plain logs. -/
def default : Config := ⟨none, false, 0, "warn", false⟩

/-- Check the log level name, then the comment character. -/
def validate (c : Config) : Except ConfigError Unit :=
  if levelNames.contains c.logLevel then
    match c.character with
    | some ch => validateCharacter ch
    | none => .ok ()
  else .error (.invalidLogLevel c.logLevel)

/-- The configured log level; warnings when the name is no level. -/
def level (c : Config) : Level :=
  (Level.ofName? c.logLevel).getD .warn

/-- The settings as a short report, one line each. -/
def display (c : Config) : String :=
  "Toc Configuration:\n" ++
  "  Character: " ++ c.character.getD "(per extension)" ++ "\n" ++
  "  Line Numbers: " ++ toString c.numbered ++ "\n" ++
  "  Max Depth: " ++ toString c.depth ++ "\n" ++
  "  Log Level: " ++ c.logLevel ++ "\n" ++
  "  Log JSON: " ++ toString c.logJson ++ "\n"

/-- A boolean variable, trimmed; absent gives the default. -/
def readFlag (name : String) (raw : Option String) (fallback : Bool) :
    Except ConfigError Bool :=
  match raw with
  | none => .ok fallback
  | some v => match Text.readBool (Text.trimText v) with
    | some b => .ok b
    | none => .error (.unparsable name Text.boolRefusal)

/-- A count variable, trimmed; absent gives the default. -/
def readCount (name : String) (raw : Option String) (fallback : Nat) :
    Except ConfigError Nat :=
  match raw with
  | none => .ok fallback
  | some v => match Text.readWord (Text.trimText v).toList with
    | .ok n => .ok n
    | .error e => .error (.unparsable name e.message)

/-- The settings of an environment. Variables are read in a fixed order, numbered lines, depth,
    then JSON logs, and the result is validated. The comment character is taken as it is; the log
    level is trimmed and lowercased. -/
def fromEnv (env : String → Option String) : Except ConfigError Config := do
  let numbered ← readFlag "TOC_LINE_NUMBERS" (env "TOC_LINE_NUMBERS") false
  let depth ← readCount "TOC_MAX_DEPTH" (env "TOC_MAX_DEPTH") 0
  let logJson ← readFlag "TOC_LOG_JSON" (env "TOC_LOG_JSON") false
  let logLevel := ((env "TOC_LOG_LEVEL").map fun v => Text.lowercase (Text.trimText v)).getD "warn"
  let c : Config := ⟨env "TOC_CHARACTER", numbered, depth, logLevel, logJson⟩
  c.validate
  pure c

end Config

end Outline
