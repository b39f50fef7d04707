/-
Module: Outline.Disk.Glob
Purpose: Shell-style patterns over the directory tree: `?` for one character, `*` for any run,
  `[...]` and `[!...]` for character classes, and `**` for any depth of directories. A pattern
  is checked as a whole and per path component, and its matches come directory by directory in
  name order.
Main exports: Token, Pattern, PatternError, Pattern.compile, Pattern.matches, glob
Open obligations: none
-/
import Outline.Disk.Basic

namespace Outline

namespace Glob

/-- A character class member: one character or an inclusive range. -/
inductive Spec where
  | single (c : Char)
  | range (lo hi : Char)
deriving DecidableEq, Repr

/-- One element of a pattern. -/
inductive Token where
  | char (c : Char)
  | anyChar
  | anyRun
  | anyDepth
  | within (specs : List Spec)
  | except (specs : List Spec)
deriving DecidableEq, Repr

/-- A compiled pattern; `recursive` when it holds `**`. -/
structure Pattern where
  tokens : List Token
  recursive : Bool
deriving DecidableEq, Repr

/-- Why a pattern is refused, with the character position near the fault. -/
structure PatternError where
  pos : Nat
  msg : String
deriving DecidableEq, Repr

/-- The message of a refused pattern. -/
def PatternError.message (e : PatternError) : String :=
  "Pattern syntax error near position " ++ toString e.pos ++ ": " ++ e.msg

/-- The members of a character class: `a-b` is a range, anything else one character. -/
def specsOf : List Char → List Spec
  | a :: '-' :: b :: rest => .range a b :: specsOf rest
  | c :: rest => .single c :: specsOf rest
  | [] => []

/-- The index of the first `]`. -/
def closeIndex (cs : List Char) : Option Nat :=
  cs.findIdx? (· = ']')

/-- The fault of `**` that is not a whole path component. -/
def depthFault : String := "recursive wildcards must form a single path component"

/-- Compile the characters from position `i`, after `prev` (the character before, if any). The
    tokens so far are reversed in `acc`. -/
def compileFrom (prev : Option Char) (i : Nat) (acc : List Token) (deep : Bool) :
    List Char → Except PatternError Pattern
  | [] => .ok ⟨acc.reverse, deep⟩
  | '?' :: rest => compileFrom (some '?') (i + 1) (.anyChar :: acc) deep rest
  | '*' :: '*' :: '*' :: _ => .error ⟨i + 2, "wildcards are either regular `*` or recursive `**`"⟩
  | '*' :: '*' :: rest =>
    if prev.isNone || prev = some '/' then
      let tokens := match acc with
        | .anyDepth :: _ :: _ => acc
        | _ => .anyDepth :: acc
      match rest with
      | '/' :: more => compileFrom (some '/') (i + 3) tokens true more
      | [] => .ok ⟨tokens.reverse, true⟩
      | _ => .error ⟨i + 2, depthFault⟩
    else .error ⟨i - 1, depthFault⟩
  | '*' :: rest => compileFrom (some '*') (i + 1) (.anyRun :: acc) deep rest
  | '[' :: rest =>
    match rest with
    | '!' :: a :: b :: more =>
      -- a negated class: its closing bracket is searched from the second member on
      match closeIndex (b :: more) with
      | some j =>
        let body := a :: (b :: more).take j
        compileFrom (some ']') (i + j + 4) (.except (specsOf body) :: acc) deep
          ((b :: more).drop (j + 1))
      | none => .error ⟨i, "invalid range pattern"⟩
    | a :: b :: more =>
      -- a class: its closing bracket is searched from the second member on
      if a = '!' then .error ⟨i, "invalid range pattern"⟩
      else
        match closeIndex (b :: more) with
        | some j =>
          let body := a :: (b :: more).take j
          compileFrom (some ']') (i + j + 3) (.within (specsOf body) :: acc) deep
            ((b :: more).drop (j + 1))
        | none => .error ⟨i, "invalid range pattern"⟩
    | _ => .error ⟨i, "invalid range pattern"⟩
  | c :: rest => compileFrom (some c) (i + 1) (.char c :: acc) deep rest
termination_by cs => cs.length
decreasing_by all_goals simp_wf <;> omega

/-- Compile a pattern. -/
def Pattern.compile (s : String) : Except PatternError Pattern :=
  compileFrom none 0 [] false s.toList

/-- The character is a member of the class. -/
def inSpecs (specs : List Spec) (c : Char) : Bool :=
  specs.any fun
    | .single d => c = d
    | .range lo hi => lo ≤ c && c ≤ hi

/-- One token matches one character. -/
def single (t : Token) (c : Char) : Bool :=
  match t with
  | .char d => c = d
  | .anyChar => true
  | .within specs => inSpecs specs c
  | .except specs => !inSpecs specs c
  | _ => false

/-- The tokens match the whole name. -/
def matchTokens : List Token → List Char → Bool
  | [], cs => cs.isEmpty
  | .anyRun :: ts, cs => matchTokens ts cs || (match cs with
    | [] => false
    | _ :: rest => matchTokens (.anyRun :: ts) rest)
  | .anyDepth :: ts, cs => matchTokens ts cs || (match cs with
    | [] => false
    | _ :: rest => matchTokens (.anyDepth :: ts) rest)
  | _ :: _, [] => false
  | t :: ts, c :: cs => single t c && matchTokens ts cs
termination_by ts cs => ts.length + cs.length

/-- The pattern matches a file name. -/
def Pattern.matches (p : Pattern) (name : String) : Bool :=
  matchTokens p.tokens name.toList

/-- The pattern is plain text, and which. -/
def Pattern.literal? (p : Pattern) : Option String :=
  (p.tokens.mapM fun
    | Token.char c => some c
    | _ => none).map String.ofList

/-!
### Walking the tree

The walk keeps a stack of paths still to look at, each with the index of the component it is to be
matched against. A directory's entries are pushed so that they come off in name order; a plain
component is looked up directly; `**` matches the directory itself and everything below it.
-/

/-- A path met by the walk and whether it is a directory. -/
structure Place where
  path : String
  isDir : Bool
deriving DecidableEq, Repr

/-- A stack entry: a match found, or a path still to match from a component on. -/
inductive Item where
  | found (p : Place)
  | pending (p : Place) (idx : Nat)
deriving DecidableEq, Repr

/-- A path joined with a name, with one `/` between. -/
def join (base name : String) : String :=
  if base.isEmpty then name else if base.endsWith "/" then base ++ name else base ++ "/" ++ name

/-- The path names the working directory itself: it starts with the name `.` and every later name
    is `.` or empty. Such a path is replaced by the bare names below it rather than extended. -/
def isCurDir (path : String) : Bool :=
  match path.splitOn "/" with
  | "." :: rest => rest.all fun n => n = "" || n = "."
  | _ => false

/-- The last name of a path, if it is a plain name. -/
def fileName (path : String) : Option String :=
  match ((path.splitOn "/").filter fun n => n != "" && n != ".").getLast? with
  | some ".." => none
  | some n => some n
  | none => none

/-- The place a path names, if it exists. -/
def placeOf (d : Disk) (path : String) : Option Place :=
  match d.resolve path with
  | .ok (_, some .dir) => some ⟨path, true⟩
  | .ok (_, some (.file _)) => some ⟨path, false⟩
  | _ => none

/-- Push what the components from `idx` on can reach from a place. A plain component is looked
    up; another one lists a directory. -/
def fill (d : Disk) (pats : List Pattern) (idx : Nat) (p : Place) (stack : List Item) :
    List Item :=
  if hidx : idx < pats.length then
    let pat := pats[idx]
    let add := fun (q : Place) (st : List Item) =>
      if idx + 1 = pats.length then Item.found q :: st else fill d pats (idx + 1) q st
    match pat.literal? with
    | some s =>
      let special := s = "." || s = ".."
      let next := if isCurDir p.path then s else join p.path s
      if special then (if p.isDir then add ⟨next, true⟩ stack else stack)
      else
        match placeOf d next with
        | some q => add q stack
        | none => stack
    | none =>
      if p.isDir then
        let names := match d.resolve p.path with
          | .ok (dir, some .dir) => d.children dir
          | _ => []
        let kids := names.map fun (n, isDir) =>
          Item.pending ⟨if isCurDir p.path then n else join p.path n, isDir⟩ idx
        let stack := kids ++ stack
        if pat.tokens.head? = some (.char '.') then
          [".", ".."].foldl (fun st sp =>
            if pat.matches sp then add ⟨join p.path sp, true⟩ st else st) stack
        else stack
      else stack
  else stack
termination_by pats.length - idx
decreasing_by omega

/-- The last index of a run of `**` components starting at `idx`. -/
def lastDeep (pats : List Pattern) (idx : Nat) : Nat :=
  let rest := (pats.drop (idx + 1)).takeWhile (·.recursive)
  idx + rest.length

/-- Match a place's name against the component `idx`: the last component gives a match, an
    earlier one continues below it. -/
def step (d : Disk) (pats : List Pattern) (needDir : Bool) (p : Place) (idx : Nat)
    (stack : List Item) : Option String × List Item :=
  match fileName p.path, pats[idx]? with
  | some name, some pat =>
    if pat.matches name then
      if idx + 1 = pats.length then
        (if !needDir || p.isDir then some p.path else none, stack)
      else (none, fill d pats (idx + 1) p stack)
    else (none, stack)
  | _, _ => (none, stack)

/-- Handle the top of the stack: a match to give, and the stack after. -/
def pop (d : Disk) (pats : List Pattern) (needDir : Bool) : Item → List Item →
    Option String × List Item
  | .found p, stack => (if needDir && !p.isDir then none else some p.path, stack)
  | .pending p idx, stack =>
    match pats[idx]? with
    | some pat =>
      if pat.recursive then
        let last := lastDeep pats idx
        if p.isDir then
          let stack := fill d pats last p stack
          if last + 1 = pats.length then (some p.path, stack)
          else step d pats needDir p (last + 1) stack
        else if last + 1 = pats.length then (none, stack)
        else step d pats needDir p (last + 1) stack
      else step d pats needDir p idx stack
    | none => (none, stack)

/-- Run the walk for at most `fuel` steps, gathering the matches in order. -/
def walk (d : Disk) (pats : List Pattern) (needDir : Bool) : Nat → List Item → List String
  | 0, _ => []
  | _ + 1, [] => []
  | fuel + 1, item :: stack =>
    let (hit, stack) := pop d pats needDir item stack
    match hit with
    | some path => path :: walk d pats needDir fuel stack
    | none => walk d pats needDir fuel stack

/-- The components of a pattern, split at each `/`, without a last empty one. -/
def components (s : String) : List String :=
  match (s.splitOn "/").reverse with
  | "" :: rest => rest.reverse
  | all => all.reverse

/-- The paths a pattern matches, relative to the working directory. Every step of the walk takes
    one stack entry, and each component can multiply the entries by at most the number of entries
    of the tree, so the bound below is never reached. -/
def glob (d : Disk) (s : String) : Except PatternError (List String) := do
  let _ ← Pattern.compile s
  let pats ← (components s).mapM Pattern.compile
  let pats := if pats.isEmpty then [⟨[], false⟩] else pats
  let needDir := s.endsWith "/"
  let bound := Nat.pow (d.entries.length + 3) (pats.length + 2)
  pure (walk d pats needDir bound (fill d pats 0 ⟨".", true⟩ []))

end Glob

end Outline
