/-
Module: Outline.Cli.Args
Purpose: The command line: its options and flags, and how a list of words is read into them,
  with the reason a command line is refused.
Main exports: Format, Args, ArgError, Key, Args.parse
Open obligations: none
-/
import Outline.Text.Number

namespace Outline

namespace Cli

/-- What the program prints for each file. -/
inductive Format where
  /-- The table of contents inside its comment delimiters. -/
  | text
  /-- A JSON report of the table of contents. -/
  | json
deriving DecidableEq, Repr, Inhabited

/-- The command line once read. -/
structure Args where
  files : List String
  character : Option String
  depth : Option Nat
  /-- The extension that decides how standard input is read. -/
  extension : String
  toFile : Bool
  fromList : Bool
  numbered : Bool
  output : Option String
  format : Format
  logLevel : Option String
  verbose : Bool
  quiet : Bool
deriving DecidableEq, Repr, Inhabited

/-- Why a command line is not run. Asking for help or the version also stops the reading. -/
inductive ArgError where
  | unknownArgument
  | invalidValue
  | valueValidation
  | argumentConflict
  | tooManyValues
  | displayHelp
  | displayVersion
deriving DecidableEq, Repr

namespace ArgError

/-- The name of the kind of refusal. -/
def kind : ArgError → String
  | .unknownArgument => "UnknownArgument"
  | .invalidValue => "InvalidValue"
  | .valueValidation => "ValueValidation"
  | .argumentConflict => "ArgumentConflict"
  | .tooManyValues => "TooManyValues"
  | .displayHelp => "DisplayHelp"
  | .displayVersion => "DisplayVersion"

/-- The exit code of a command line that is not run: success for help and version. -/
def exitCode : ArgError → Nat
  | .displayHelp => 0
  | .displayVersion => 0
  | _ => 2

end ArgError

/-- The program's name and version as it reports them. -/
def versionText : String := "toc 0.4.0\n"

/-- The options and flags of the command line. -/
inductive Key where
  | character
  | depth
  | extension
  | output
  | format
  | logLevel
  | toFile
  | fromList
  | numbered
  | verbose
  | quiet
  | help
  | version
deriving DecidableEq, Repr

namespace Key

/-- The key of a one-letter option. -/
def ofShort : Char → Option Key
  | 'c' => some .character
  | 'd' => some .depth
  | 'e' => some .extension
  | 'o' => some .output
  | 'f' => some .toFile
  | 'l' => some .fromList
  | 'n' => some .numbered
  | 'v' => some .verbose
  | 'q' => some .quiet
  | 'h' => some .help
  | 'V' => some .version
  | _ => none

/-- The key of a long option. -/
def ofLong : String → Option Key
  | "character" => some .character
  | "depth" => some .depth
  | "extension" => some .extension
  | "output" => some .output
  | "format" => some .format
  | "log-level" => some .logLevel
  | "to-file" => some .toFile
  | "from-list" => some .fromList
  | "line-numbers" => some .numbered
  | "verbose" => some .verbose
  | "quiet" => some .quiet
  | "help" => some .help
  | "version" => some .version
  | _ => none

/-- The option takes a value. -/
def takesValue : Key → Bool
  | .character | .depth | .extension | .output | .format | .logLevel => true
  | _ => false

end Key

/-- The command line before anything is given. -/
def Args.initial : Args :=
  ⟨[], none, none, "txt", false, false, false, none, .text, none, false, false⟩

/-!
### Reading

The words are read from the left. A value option takes the rest of its word (`-cX`, `-c=X`,
`--character=X`) or the next word; the value is checked only when the option is complete, that is
at the next option or flag, at the next file name, or at the end. Consecutive file names are
gathered the same way. `--` makes every later word a file name. Giving an option or flag twice is a
conflict, and so are `-f` or `-l` with `-o`, and `-q` with `-v`; those pairs are checked at the end.
-/

/-- Values waiting to be checked: an option's (at most one) or a run of file names. -/
inductive Pending where
  | option (key : Key) (values : List String)
  | files (values : List String)
deriving DecidableEq, Repr

/-- The reading so far. `awaiting` when the pending option still waits for its value in the next
    word; `trailing` after `--`. -/
structure Reading where
  args : Args
  given : List Key
  pending : Option Pending
  awaiting : Bool
  trailing : Bool
deriving Repr

/-- The log level names the command line accepts, exactly. -/
def levelChoices : List String := ["trace", "debug", "info", "warn", "error"]

/-- Set a value option from its value, checking the value. -/
def setValue (a : Args) (key : Key) (v : String) : Except ArgError Args :=
  match key with
  | .character => .ok { a with character := some v }
  | .depth => match Text.readWord v.toList with
    | .ok n => .ok { a with depth := some n }
    | .error _ => .error .valueValidation
  | .extension => .ok { a with extension := v }
  | .output => if v.isEmpty then .error .invalidValue else .ok { a with output := some v }
  | .format =>
    if v = "text" then .ok { a with format := .text }
    else if v = "json" then .ok { a with format := .json }
    else .error .invalidValue
  | .logLevel => if levelChoices.contains v then .ok { a with logLevel := some v } else .error .invalidValue
  | _ => .ok a

/-- Set a flag. -/
def setFlag (a : Args) : Key → Except ArgError Args
  | .toFile => .ok { a with toFile := true }
  | .fromList => .ok { a with fromList := true }
  | .numbered => .ok { a with numbered := true }
  | .verbose => .ok { a with verbose := true }
  | .quiet => .ok { a with quiet := true }
  | .help => .error .displayHelp
  | .version => .error .displayVersion
  | _ => .ok a

/-- Record a complete option with its values: a value option needs exactly its value, and no
    option may be given twice. -/
def record (r : Reading) (key : Key) (values : List String) : Except ArgError Reading :=
  if key.takesValue then
    match values with
    | [] => .error .invalidValue
    | v :: _ =>
      if r.given.contains key then .error .argumentConflict
      else (setValue r.args key v).map fun a => { r with args := a, given := key :: r.given }
  else
    match key with
    | .help => .error .displayHelp
    | .version => .error .displayVersion
    | _ =>
      if r.given.contains key then .error .argumentConflict
      else (setFlag r.args key).map fun a => { r with args := a, given := key :: r.given }

/-- Check and record what is pending. -/
def settle (r : Reading) : Except ArgError Reading :=
  match r.pending with
  | none => .ok r
  | some (.option key values) => record { r with pending := none } key values
  | some (.files values) =>
    if values.any String.isEmpty then .error .invalidValue
    else .ok { r with pending := none, args := { r.args with files := r.args.files ++ values } }

/-- Settle what is pending, then record a complete option. -/
def complete (r : Reading) (key : Key) (values : List String) : Except ArgError Reading := do
  let r ← settle r
  let r ← record r key values
  pure { r with awaiting := false }

/-- Settle what is pending and wait for the option's value in the next word. -/
def await (r : Reading) (key : Key) : Except ArgError Reading := do
  let r ← settle r
  pure { r with pending := some (.option key []), awaiting := true }

/-- A file name. A run of file names stays pending; anything else pending is settled first. -/
def fileName (r : Reading) (w : String) : Except ArgError Reading := do
  let r ← match r.pending with
    | some (.files _) => pure r
    | _ => settle r
  let values := match r.pending with
    | some (.files vs) => vs
    | _ => []
  pure { r with pending := some (.files (values ++ [w])), awaiting := false }

/-- A word of one-letter options after its dash. -/
def shortCluster (r : Reading) : List Char → Except ArgError Reading
  | [] => .ok { r with awaiting := false }
  | c :: rest =>
    match Key.ofShort c with
    | none => .error .unknownArgument
    | some key =>
      if key.takesValue then
        match rest with
        | [] => await r key
        | '=' :: v => complete r key [String.ofList v]
        | v => complete r key [String.ofList v]
      else do
        let r ← complete r key []
        shortCluster r rest

/-- A long option after its two dashes, with the value given after `=`. -/
def longOption (r : Reading) (name : String) (value : Option String) : Except ArgError Reading :=
  match Key.ofLong name with
  | none => .error .unknownArgument
  | some key =>
    if key.takesValue then
      match value with
      | some v => complete r key [v]
      | none => await r key
    else
      match value with
      | some _ => .error .tooManyValues
      | none => complete r key []

/-- Split a long option at its first `=`. -/
def splitLong (cs : List Char) : String × Option String :=
  match cs.span (· ≠ '=') with
  | (name, []) => (String.ofList name, none)
  | (name, _ :: v) => (String.ofList name, some (String.ofList v))

/-- Read one word. -/
def word (r : Reading) (w : String) : Except ArgError Reading :=
  if r.trailing then fileName r w
  else
    match w.toList with
    | ['-', '-'] => .ok { r with trailing := true }
    | '-' :: '-' :: rest =>
      let (name, value) := splitLong rest
      longOption r name value
    | '-' :: c :: rest => shortCluster r (c :: rest)
    | _ =>
      if r.awaiting then
        match r.pending with
        | some (.option key _) => .ok { r with pending := some (.option key [w]), awaiting := false }
        | _ => fileName r w
      else fileName r w

/-- Read the words in order. -/
def words (r : Reading) : List String → Except ArgError Reading
  | [] => .ok r
  | w :: ws => do
    let r ← word r w
    words r ws

/-- The pairs of options that may not be given together. -/
def conflicts (given : List Key) : Bool :=
  (given.contains .toFile && given.contains .output) ||
    (given.contains .fromList && given.contains .output) ||
    (given.contains .quiet && given.contains .verbose)

/-- Read a command line (without the program name). -/
def Args.parse (ws : List String) : Except ArgError Args := do
  let r ← words ⟨Args.initial, [], none, false, false⟩ ws
  let r ← settle r
  if conflicts r.given then throw .argumentConflict
  pure r.args

end Cli

end Outline
