/-
Module: Outline.Main
Purpose: The program's entry point: it loads the files a command line names into a working
  directory in memory, runs it, prints what the run prints, logs to standard error, and writes
  back the files the run changed.
Main exports: main
Open obligations: none
-/
import Outline.Cli.Run

namespace Outline

namespace Shell

/-- The entry at a path of the real disk: its bytes, a directory, or nothing. A directory is
    recognised by the error that reading it gives. -/
def probe (path : String) : IO (Option Node) := do
  try
    let bytes ← IO.FS.readBinFile path
    pure (some (.file bytes))
  catch e =>
    match e with
    | .inappropriateType _ _ _ => pure (some .dir)
    | _ => pure none

/-- The paths a line of a list names without wildcards. -/
def plainPattern (line : String) : Bool :=
  !(line.toList.any fun c => c = '*' || c = '?' || c = '[')

/-- The paths a command line may touch, with the directories above them. -/
def touched (a : Cli.Args) (lists : List String) : List String :=
  let named := (if a.fromList then a.files ++ lists else a.files) ++ a.output.toList
  let named := named.filter (· != "-")
  let above := named.flatMap fun p =>
    (Disk.parents (Disk.namesOf p)).map Disk.pathOf
  above ++ named

/-- Load the given paths from the real disk. -/
def load (paths : List String) : IO Disk := do
  let mut d := Disk.empty
  for p in paths do
    match ← probe p with
    | some (.file bytes) => d := d.addFile p bytes
    | some .dir => d := d.addDir p
    | none => pure ()
  pure d

/-- The plain patterns of the list files among the arguments. -/
def listedPaths (a : Cli.Args) : IO (List String) := do
  if !a.fromList then return []
  let mut found := []
  for l in a.files do
    match ← probe l with
    | some (.file bytes) =>
      match String.fromUTF8? bytes with
      | some text => found := found ++ (Cli.patternsOf text).filter plainPattern
      | none => pure ()
    | _ => pure ()
  pure found

/-- Read all of a stream. -/
partial def readAll (s : IO.FS.Stream) (acc : ByteArray) : IO ByteArray := do
  let chunk ← s.read 65536
  if chunk.isEmpty then pure acc else readAll s (acc ++ chunk)

/-- The value of each variable the settings read. -/
def environment : IO (List (String × String)) := do
  let names := ["TOC_CHARACTER", "TOC_LINE_NUMBERS", "TOC_MAX_DEPTH", "TOC_LOG_LEVEL",
    "TOC_LOG_JSON"]
  let mut found := []
  for n in names do
    match ← IO.getEnv n with
    | some v => found := found ++ [(n, v)]
    | none => pure ()
  pure found

/-- Write back every file whose bytes the run changed or created. -/
def writeBack (before after : Disk) : IO Unit := do
  for (path, bytes) in after.files do
    let old := match before.read path with
      | .ok b => some b
      | .error _ => none
    if old.map (·.toList) != some bytes.toList then IO.FS.writeBinFile path bytes

end Shell

end Outline

open Outline in
/-- Run the program on the command line's words. -/
def main (words : List String) : IO UInt32 := do
  let stderr ← IO.getStderr
  let stdout ← IO.getStdout
  let parsed := Cli.Args.parse words
  let (disk, stdin) ← match parsed with
    | .ok a => do
      let lists ← Shell.listedPaths a
      let d ← Shell.load (Shell.touched a lists)
      let named := if a.fromList then lists else a.files
      let input ← if named.contains "-" then
          Shell.readAll (← IO.getStdin) ByteArray.empty
        else pure ByteArray.empty
      pure (d, input)
    | .error _ => pure (Disk.empty, ByteArray.empty)
  let env ← Shell.environment
  match Cli.run words (fun k => (env.find? (·.1 == k)).map Prod.snd) disk stdin with
  | .refused e =>
    if e == .displayVersion then stdout.putStr Cli.versionText
    else if e == .displayHelp then
      stdout.putStrLn "Generate a table of contents from the comments of a file"
    else stderr.putStrLn ("error: " ++ e.kind)
    pure (UInt32.ofNat e.exitCode)
  | .misconfigured e =>
    stderr.putStrLn ("Configuration error: " ++ e.message)
    stderr.putStrLn "\nPlease check your TOC_* environment variables."
    pure 2
  | .ran _ code out logs after =>
    stdout.putStr out
    for l in logs do
      stderr.putStrLn l
    Shell.writeBack disk after
    pure (UInt32.ofNat code)
