/-
Module: Outline.Disk.Basic
Purpose: A directory tree held in memory, the working directory of a run: reading and writing
  files by path, listing directories, and the system errors those steps can meet.
Main exports: OsError, Node, Disk, Disk.resolve, Disk.read, Disk.write, Disk.children,
  Disk.addFile, Disk.addDir, Disk.listing
Open obligations: none
-/

namespace Outline

/-- Why a file operation fails. -/
inductive OsError where
  /-- A path or one of its directories does not exist. -/
  | notFound
  /-- A path goes through something that is not a directory. -/
  | notDirectory
  /-- A file operation met a directory. -/
  | isDirectory
  /-- The bytes are no UTF-8 text. -/
  | invalidText
  /-- A name of the path, or the whole path, is longer than the system allows. -/
  | nameTooLong
  /-- The path holds a NUL character, which no path can hold; it is refused before the system
      sees it. -/
  | nulInName
deriving DecidableEq, Repr

/-- The message of a failed file operation, with the system's error number where the system gave
    the error. -/
def OsError.message : OsError → String
  | .notFound => "No such file or directory (os error 2)"
  | .notDirectory => "Not a directory (os error 20)"
  | .isDirectory => "Is a directory (os error 21)"
  | .invalidText => "stream did not contain valid UTF-8"
  | .nameTooLong => "File name too long (os error 36)"
  | .nulInName => "file name contained an unexpected NUL byte"

/-- The longest name of a path, in bytes. -/
def nameMax : Nat := 255

/-- The length in bytes from which a whole path is too long. -/
def pathMax : Nat := 4096

/-- An entry of the tree. -/
inductive Node where
  | file (bytes : ByteArray)
  | dir
deriving Inhabited

/-- The tree: every entry under its path of names from the working directory, directories
    included. The working directory itself is a directory and has no entry. A path of names that
    starts with `..` leads above the working directory, and one that starts with `/` from the root
    of the file system; of those places only the directories above the working directory and the
    root are known, and anything else there is missing until it is written. -/
structure Disk where
  entries : List (List String × Node)
deriving Inhabited

namespace Disk

/-- The empty working directory. -/
def empty : Disk := ⟨[]⟩

/-- The names of a directory that is always there: the working directory, a directory above it,
    or the root of the file system. -/
def isKnownDir (names : List String) : Bool :=
  names = ["/"] || names.all (· = "..")

/-- The entry at a path of names. -/
def find? (d : Disk) (names : List String) : Option Node :=
  if isKnownDir names then some .dir
  else (d.entries.find? (fun e => e.1 == names)).map Prod.snd

/-- The entry is a directory. -/
def isDir (d : Disk) (names : List String) : Bool :=
  match d.find? names with
  | some .dir => true
  | _ => false

/-- The directory above a path of names. Above the working directory, or above a directory above
    it, is one more directory up; the root is its own parent. -/
def up (names : List String) : List String :=
  if names = ["/"] then names
  else if names.all (· = "..") then names ++ [".."]
  else names.dropLast

/-- The path of names after one more name: `.` and empty names stay, `..` goes up. -/
def step (names : List String) (name : String) : List String :=
  if name = "" || name = "." then names
  else if name = ".." then up names
  else names ++ [name]

/-- The names of a path, cut at every `/`; a path that ends with `/` ends with an empty name. -/
def pathNames (path : String) : List String :=
  (path.toList.splitOn '/').map String.ofList

/-- Where a path starts: the root of the file system when it begins with `/`, else the working
    directory. -/
def origin (path : String) : List String :=
  if path.startsWith "/" then ["/"] else []

/-- Follow the names of a path from `at`. Every name but the last must lead to a directory, and
    each name is looked up in turn, so a name that is too long is refused when it is reached. -/
def walk (d : Disk) (at_ : List String) : List String → Except OsError (List String)
  | [] => .ok at_
  | name :: rest =>
    match d.find? at_ with
    | none => .error .notFound
    | some (.file _) => .error .notDirectory
    | some .dir =>
      if name.utf8ByteSize > nameMax then .error .nameTooLong
      else walk d (step at_ name) rest

/-- Why a path is refused before it is followed: a NUL character, or too many bytes. -/
def refusal (path : String) : Option OsError :=
  if path.contains '\x00' then some .nulInName
  else if path.utf8ByteSize ≥ pathMax then some .nameTooLong
  else if path.isEmpty then some .notFound
  else none

/-- The names a path leads to, and the entry there if there is one. -/
def resolve (d : Disk) (path : String) : Except OsError (List String × Option Node) :=
  match refusal path with
  | some e => .error e
  | none => (d.walk (origin path) (pathNames path)).map fun names => (names, d.find? names)

/-- The directory part of a path without trailing slashes: everything before its last `/`, the
    root when that is all, and the working directory when there is no `/`. -/
def directoryOf (path : String) : String :=
  match (path.toList.reverse.dropWhile (· ≠ '/')) with
  | [] => "."
  | _ :: before =>
    let dir := String.ofList before.reverse
    if dir.isEmpty then "/" else dir

/-- The bytes of a file. -/
def read (d : Disk) (path : String) : Except OsError ByteArray :=
  match d.resolve path with
  | .error e => .error e
  | .ok (_, none) => .error .notFound
  | .ok (_, some .dir) => .error .isDirectory
  | .ok (_, some (.file bytes)) => .ok bytes

/-- The tree with an entry put at a path of names, replacing what was there. -/
def put (d : Disk) (names : List String) (n : Node) : Disk :=
  ⟨(d.entries.filter (fun e => e.1 != names)) ++ [(names, n)]⟩

/-- Write a file, creating it or replacing its bytes. Its directory must exist. A path that ends
    in `/` never names a file to create: once the directories before its last name are found, it
    is refused as a directory, whatever stands at that name; so is the root itself. -/
def write (d : Disk) (path : String) (bytes : ByteArray) : Except OsError Disk :=
  match refusal path, path.toList.getLast? == some '/' with
  | some e, _ => .error e
  | none, true =>
    let named := String.ofList (path.toList.reverse.dropWhile (· = '/')).reverse
    if named.isEmpty then .error .isDirectory
    else
      match d.resolve (directoryOf named) with
      | .error e => .error e
      | .ok (_, none) => .error .notFound
      | .ok (_, some (.file _)) => .error .notDirectory
      | .ok (_, some .dir) => .error .isDirectory
  | none, false =>
    match d.resolve path with
    | .error e => .error e
    | .ok (_, some .dir) => .error .isDirectory
    | .ok (names, _) => .ok (d.put names (.file bytes))

/-- The names of a path given in a request, read without looking at the tree. -/
def namesOf (path : String) : List String :=
  (pathNames path).foldl step (origin path)

/-- The directories above a path of names, nearest the root first. -/
def parents (names : List String) : List (List String) :=
  (List.range (names.length - 1)).map fun k => names.take (k + 1)

/-- Make sure the directories exist. -/
def ensureDirs (d : Disk) (dirs : List (List String)) : Disk :=
  dirs.foldl (fun acc p => if acc.isDir p then acc else acc.put p .dir) d

/-- Add a directory and the directories above it. -/
def addDir (d : Disk) (path : String) : Disk :=
  let names := namesOf path
  d.ensureDirs (parents names ++ [names])

/-- Add a file and the directories above it. -/
def addFile (d : Disk) (path : String) (bytes : ByteArray) : Disk :=
  let names := namesOf path
  (d.ensureDirs (parents names)).put names (.file bytes)

/-- The entries directly in a directory: each name and whether it is a directory, by name. -/
def children (d : Disk) (dir : List String) : List (String × Bool) :=
  let here := d.entries.filterMap fun (names, n) =>
    if names.dropLast == dir && names.length == dir.length + 1 then
      names.getLast?.map fun last => (last, match n with | .dir => true | .file _ => false)
    else none
  here.mergeSort fun a b => decide (a.1 ≤ b.1)

/-- The path of a path of names. -/
def pathOf (names : List String) : String :=
  match names with
  | "/" :: rest => "/" ++ "/".intercalate rest
  | _ => "/".intercalate names

/-- The names lie in the working directory. -/
def isInside (names : List String) : Bool :=
  match names.head? with
  | some ".." | some "/" => false
  | _ => true

/-- Every file with its path, wherever it lies. -/
def files (d : Disk) : List (String × ByteArray) :=
  d.entries.filterMap fun (names, n) =>
    match n with
    | .file bytes => some (pathOf names, bytes)
    | .dir => none

/-- Every entry of the working directory as a path with `/` between names, directories ending in
    `/` and without bytes, sorted by path. -/
def listing (d : Disk) : List (String × Option ByteArray) :=
  let shown := (d.entries.filter (isInside ·.1)).map fun (names, n) =>
    match n with
    | .dir => (pathOf names ++ "/", none)
    | .file bytes => (pathOf names, some bytes)
  shown.mergeSort fun a b => decide (a.1 ≤ b.1)

end Disk

end Outline
