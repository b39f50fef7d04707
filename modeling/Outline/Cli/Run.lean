/-
Module: Outline.Cli.Run
Purpose: One run of the command line over a working directory and standard input: read the
  command line and the environment, then print or write the table of contents of every file,
  logging as it goes, and end with an exit code.
Main exports: Trace, Finish, runFiles, run
Open obligations: none
-/
import Outline.Block.Splice
import Outline.Disk.Glob
import Outline.Text.Lines
import Outline.Cli.Settings
import Outline.Cli.Report
import Outline.Cli.Event

namespace Outline

namespace Cli

/-- What a run has done so far: the working directory, what is left of standard input, the printed
    text and the events. -/
structure Trace where
  disk : Disk
  stdin : ByteArray
  out : String
  events : List Event

/-- The steps of a run. -/
abbrev RunM := StateM Trace

/-- The part of the program that handles the command line. -/
def handlers : String := "toc::cli::handlers"

/-- Log an event. -/
def emitEvent (l : Level) (target message : String) (fields : List (String × String)) :
    RunM Unit :=
  modify fun t => { t with events := t.events ++ [⟨l, target, message, fields⟩] }

/-- The text of some bytes, if they are UTF-8. -/
def decodeText (bytes : ByteArray) : Option String :=
  String.fromUTF8? bytes

/-- The text of a file. -/
def readSource (path : String) : RunM (Except Failure String) := do
  match (← get).disk.read path with
  | .error e => pure (.error (.unreadable path e))
  | .ok bytes => match decodeText bytes with
    | some text => pure (.ok text)
    | none => pure (.error (.binary path))

/-- What the log says of one pass of an update. -/
def passMessage : Block.Outcome → String
  | .added => "adding new toc"
  | .updated => "updating existing toc"
  | .unchanged => "skipping replacement of same toc"

/-- Read all that is left of standard input; a second reading finds it empty. -/
def takeStdin : RunM ByteArray := do
  let bytes := (← get).stdin
  modify fun t => { t with stdin := ByteArray.empty }
  pure bytes

/-- Update a text's table of contents, logging each pass. -/
def updateText (o : Options) (content : String) : RunM (Except Failure Block.Applied) := do
  let (passes, result) := Block.updateTrace Registry.builtin o content
  for p in passes do
    emitEvent .info "toc::inplace" (passMessage p) [("file", o.name)]
  pure (result.mapError Failure.noHeadings)

/-- Write the updated text to an output file, leaving the source alone. -/
def writeUpdated (o : Options) (content path : String) : RunM (Except Failure Unit) := do
  match ← updateText o content with
  | .error f => pure (.error f)
  | .ok applied =>
    match (← get).disk.write path applied.content.toUTF8 with
    | .error e => pure (.error (.outputUnwritable path e))
    | .ok disk =>
      modify fun t => { t with disk := disk }
      emitEvent .info handlers ("Output written to: " ++ path) [("outcome", applied.outcome.name)]
      pure (.ok ())

/-- Print the table of contents of a text in the run's format. -/
def emit (s : Settings) (o : Options) (content : String) : RunM (Except Failure Unit) := do
  let toc := generate Registry.builtin o content
  if toc.isEmpty then pure (.error (.noHeadings ⟨o.character, o.name⟩))
  else
    modify fun t => { t with out := t.out ++ Report.render s.format o toc ++ "\n" }
    pure (.ok ())

/-- Update a file in place; it is written only when its content changes. -/
def updateFile (o : Options) (path : String) : RunM (Except Failure Block.Outcome) := do
  match ← readSource path with
  | .error f => pure (.error f)
  | .ok content =>
    match ← updateText o content with
    | .error f => pure (.error f)
    | .ok applied =>
      if applied.content = content then pure (.ok applied.outcome)
      else
        match (← get).disk.write path applied.content.toUTF8 with
        | .error e => pure (.error (.unwritable path e))
        | .ok disk =>
          modify fun t => { t with disk := disk }
          pure (.ok applied.outcome)

/-- Process one file of a run; `-` is standard input, which is never written back. -/
def processFile (s : Settings) (file : String) : RunM (Except Failure Unit) := do
  if file = "-" then
    match decodeText (← takeStdin) with
    | none => pure (.error (.binary "-"))
    | some content =>
      let o := s.optionsFor Registry.builtin ("stdin." ++ s.stdinExtension)
      if s.toFile then
        emitEvent .warn handlers "stdin cannot be updated in place, printing its toc instead" []
      match s.output with
      | some path => writeUpdated o content path
      | none => emit s o content
  else
    let o := s.optionsFor Registry.builtin file
    if s.toFile then
      match ← updateFile o file with
      | .error f => pure (.error f)
      | .ok outcome =>
        emitEvent .info handlers "toc written" [("file", file), ("outcome", outcome.name)]
        pure (.ok ())
    else
      match ← readSource file with
      | .error f => pure (.error f)
      | .ok content =>
        match s.output with
        | some path => writeUpdated o content path
        | none => emit s o content

/-- The patterns of a list file's text: its lines, without blank ones and `#` comments. -/
def patternsOf (text : String) : List String :=
  (Text.lineTexts text).filter fun l => !(Text.blankText l) && !l.startsWith "#"

/-- The files a list names: every match of each of its patterns, in order. A list that cannot be
    read, or holds a pattern that is refused, names nothing and is reported. -/
def expandList (list : String) : RunM (List String) := do
  let disk := (← get).disk
  let warnInput := fun (msg : String) => emitEvent .warn "toc::input" msg []
  match disk.read list with
  | .error e =>
    warnInput ("Skipping list \"" ++ list ++ "\": " ++ e.message)
    pure []
  | .ok bytes =>
    match decodeText bytes with
    | none =>
      warnInput ("Skipping list \"" ++ list ++ "\": " ++ OsError.invalidText.message)
      pure []
    | some text =>
      let found := (patternsOf text).mapM fun p =>
        (Glob.glob disk p).mapError fun e => (p, e)
      match found with
      | .ok groups => pure groups.flatten
      | .error (p, e) =>
        warnInput ("Invalid glob pattern " ++ p ++ ": " ++ e.message)
        pure []

/-- Process the files one after the other and count the failures; a binary file is reported but
    is no failure. -/
def processAll (s : Settings) : List String → RunM Nat
  | [] => pure 0
  | file :: rest => do
    let failed ← match ← processFile s file with
      | .ok () => pure 0
      | .error (.binary p) =>
        emitEvent .warn handlers (Failure.binary p).message []
        pure 0
      | .error f =>
        emitEvent .error handlers f.message []
        pure 1
    let more ← processAll s rest
    pure (failed + more)

/-- Run the command line's files and give the exit code: 2 for an invalid comment character, 1
    when there are no files or a file failed, 0 otherwise. -/
def runFiles (a : Args) (c : Config) : RunM Nat := do
  match Settings.resolve a c with
  | .error e =>
    emitEvent .error handlers ("Configuration error: " ++ e.message) []
    pure 2
  | .ok s =>
    let files ← if a.fromList then a.files.flatMapM expandList else pure (directInputs a)
    if files.isEmpty then
      emitEvent .error handlers "No files provided" []
      pure 1
    else
      let failed ← processAll s files
      emitEvent .info handlers "done"
        [("files", toString files.length), ("failed", toString failed)]
      pure (if failed > 0 then 1 else 0)

/-- How a run ends. -/
inductive Finish where
  /-- The command line was refused, or asked for help or the version. -/
  | refused (e : ArgError)
  /-- The environment's settings were refused. -/
  | misconfigured (e : ConfigError)
  /-- The run went through: its log level, exit code, printed text, log lines and the working
      directory after it. -/
  | ran (level : Level) (exit : Nat) (out : String) (logs : List String) (disk : Disk)

/-- Run a command line in a working directory with standard input and an environment. -/
def run (words : List String) (env : String → Option String) (disk : Disk) (stdin : ByteArray) :
    Finish :=
  match Args.parse words with
  | .error e => .refused e
  | .ok a =>
    match Config.fromEnv env with
    | .error e => .misconfigured e
    | .ok c =>
      let level := Level.resolve a.logLevel a.verbose a.quiet c.level
      let (code, t) := (runFiles a c).run ⟨disk, stdin, "", []⟩
      .ran level code t.out ((t.events.filter (Event.shown level)).map Event.line) t.disk

end Cli

end Outline
