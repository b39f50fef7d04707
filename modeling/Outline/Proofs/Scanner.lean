/-
Module: Outline.Proofs.Scanner
Purpose: Line scanners. A line scanner walks the lines of a text from the top, carries a state
  from line to line, and reads each line together with the one below it; every heading spelling
  but HTML is one (`Outline.Proofs.Readers`). What a scanner finds in lines that follow each other
  is what it finds in each run of them, and lines it passes over without a trace can stand
  anywhere without changing what it finds elsewhere: the headings below them only move down.
Main exports: Heading.shift, Scanner, Scanner.scan, Scanner.read, Scanner.Quiet, Scanner.CrBlind
Main statements: scan_append, scan_shift, scan_eq_filterMap_range, scan_quiet, scan_quiet_append,
  scan_quiet_between, CrBlind.scan_concat, entries_inserted
Open obligations: none
-/
import Mathlib
import Outline.Heading.Basic

namespace Outline

/-- A heading moved `k` lines further down its text. -/
def Heading.shift (k : Nat) (h : Heading) : Heading :=
  { h with line := h.line + k }

@[simp] theorem Heading.level_shift (k : Nat) (h : Heading) : (h.shift k).level = h.level := rfl

@[simp] theorem Heading.text_shift (k : Nat) (h : Heading) : (h.shift k).text = h.text := rfl

@[simp] theorem Heading.line_shift (k : Nat) (h : Heading) : (h.shift k).line = h.line + k := rfl

/-- What a table of contents without numbers shows of a heading: its level and its text. -/
def Heading.entry (h : Heading) : Nat × String :=
  (h.level, h.text)

@[simp] theorem Heading.entry_shift (k : Nat) (h : Heading) : (h.shift k).entry = h.entry := rfl

theorem Heading.shift_shift (j k : Nat) (h : Heading) : (h.shift j).shift k = h.shift (j + k) := by
  simp [Heading.shift, Nat.add_assoc]

/-- Moving headings keeps the ones within a depth. -/
theorem Heading.upTo_map_shift (depth k : Nat) (hs : List Heading) :
    upTo depth (hs.map (shift k)) = (upTo depth hs).map (shift k) := by
  unfold upTo
  split
  · rfl
  · rw [List.filter_map]
    rfl

theorem Heading.upTo_append (depth : Nat) (hs ks : List Heading) :
    upTo depth (hs ++ ks) = upTo depth hs ++ upTo depth ks := by
  unfold upTo
  split
  · rfl
  · exact List.filter_append hs ks

/-- Keeping the headings within a depth keeps the same entries of two listings with the same
    entries. -/
theorem Heading.upTo_entries (depth : Nat) {hs ks : List Heading}
    (h : hs.map entry = ks.map entry) : (upTo depth hs).map entry = (upTo depth ks).map entry := by
  unfold upTo
  split
  · exact h
  · -- the depth test reads the level, which the entry keeps
    have hfilter : ∀ l : List Heading, (l.filter fun x => x.level ≤ depth).map entry =
        (l.map entry).filter fun p => p.1 ≤ depth := by
      intro l
      rw [List.filter_map]
      rfl
    rw [hfilter, hfilter, h]

theorem Heading.upTo_nil (depth : Nat) : upTo depth [] = [] := by
  unfold upTo
  split <;> rfl

theorem Heading.mem_of_mem_upTo {depth : Nat} {hs : List Heading} {h : Heading}
    (hh : h ∈ upTo depth hs) : h ∈ hs := by
  unfold upTo at hh
  split at hh
  · exact hh
  · exact List.mem_of_mem_filter hh

/-- A reader that walks lines from the top with a state, reading each line with the line below
    it (none after the last). A line may give the level and text of a heading; the scan numbers
    it. -/
structure Scanner where
  State : Type
  start : State
  step : State → List Char → State
  heading : State → List Char → Option (List Char) → Option (Nat × String)

namespace Scanner

variable (S : Scanner)

/-- The headings of lines numbered from `n`, scanned from state `s`, with `below` standing after
    the last of them. -/
def scan : S.State → Nat → List (List Char) → Option (List Char) → List Heading
  | _, _, [], _ => []
  | s, n, l :: ls, below =>
    ((S.heading s l (ls.head?.or below)).map fun p => (⟨p.1, p.2, n⟩ : Heading)).toList ++
      scan (S.step s l) (n + 1) ls below

/-- The headings of a whole text's lines, numbered from 1. -/
def read (ls : List (List Char)) : List Heading :=
  S.scan S.start 1 ls none

/-- The state after some lines. -/
def after (s : S.State) (ls : List (List Char)) : S.State :=
  ls.foldl S.step s

@[simp] theorem scan_nil (s : S.State) (n : Nat) (below : Option (List Char)) :
    S.scan s n [] below = [] := rfl

theorem scan_cons (s : S.State) (n : Nat) (l : List Char) (ls : List (List Char))
    (below : Option (List Char)) :
    S.scan s n (l :: ls) below =
      ((S.heading s l (ls.head?.or below)).map fun p => (⟨p.1, p.2, n⟩ : Heading)).toList ++
        S.scan (S.step s l) (n + 1) ls below := rfl

@[simp] theorem after_nil (s : S.State) : S.after s [] = s := rfl

@[simp] theorem after_cons (s : S.State) (l : List Char) (ls : List (List Char)) :
    S.after s (l :: ls) = S.after (S.step s l) ls := rfl

theorem after_append (s : S.State) (ls ms : List (List Char)) :
    S.after s (ls ++ ms) = S.after (S.after s ls) ms := by
  simp [after, List.foldl_append]

/-- Scanning lines that follow each other is scanning each run, the first seeing the head of the
    second below it and the second starting from where the first left the state. -/
theorem scan_append (s : S.State) (n : Nat) (A B : List (List Char)) (below : Option (List Char)) :
    S.scan s n (A ++ B) below =
      S.scan s n A (B.head?.or below) ++ S.scan (S.after s A) (n + A.length) B below := by
  induction A generalizing s n with
  | nil => simp
  | cons a A ih =>
    have hnext : (A ++ B).head?.or below = A.head?.or (B.head?.or below) := by
      rw [List.head?_append, Option.or_assoc]
    simp only [List.cons_append, scan, hnext, ih, after_cons, List.length_cons, List.append_assoc]
    rw [Nat.add_assoc, Nat.add_comm 1]

/-- The headings of lines numbered from further down are the same headings, moved. -/
theorem scan_shift (s : S.State) (n k : Nat) (ls : List (List Char)) (below : Option (List Char)) :
    S.scan s (n + k) ls below = (S.scan s n ls below).map (Heading.shift k) := by
  induction ls generalizing s n with
  | nil => rfl
  | cons l ls ih =>
    simp only [scan, List.map_append, Nat.add_right_comm n k 1, ih]
    congr 1
    cases S.heading s l (ls.head?.or below) <;> rfl

/-- A scanner that reads each line by itself, with no state and nothing below, finds what
    filtering the numbered lines one by one finds. -/
theorem scan_eq_filterMap (f : List Char → Option (Nat × String))
    (hf : ∀ s l below, S.heading s l below = f l) (s : S.State) (n : Nat) (ls : List (List Char))
    (below : Option (List Char)) :
    S.scan s n ls below = (ls.zipIdx n).filterMap fun x => (f x.1).map fun p => ⟨p.1, p.2, x.2⟩ := by
  induction ls generalizing s n with
  | nil => rfl
  | cons l ls ih =>
    rw [scan_cons, hf, ih, List.zipIdx_cons, List.filterMap_cons]
    cases f l <;> rfl

theorem filterMap_range_succ {α : Type} (f : Nat → Option α) (k : Nat) :
    (List.range (k + 1)).filterMap f =
      (f 0).toList ++ (List.range k).filterMap fun i => f (i + 1) := by
  rw [List.range_succ_eq_map, List.filterMap_cons, List.filterMap_map]
  cases f 0 <;> rfl

/-- A scan keeps, line by line from the top, the heading the scanner gives each line in the state
    the lines above it leave, with the line below it, numbered from `n`. -/
theorem scan_eq_filterMap_range (st : S.State) (n : Nat) (ls : List (List Char))
    (below : Option (List Char)) :
    S.scan st n ls below = (List.range ls.length).filterMap fun i =>
      ls[i]?.bind fun l => (S.heading (S.after st (ls.take i)) l
        ((ls.drop (i + 1)).head?.or below)).map fun p => (⟨p.1, p.2, n + i⟩ : Heading) := by
  induction ls generalizing st n with
  | nil => rfl
  | cons l ls ih =>
    rw [scan_cons, ih, List.length_cons, filterMap_range_succ]
    congr 2
    funext i
    rw [show n + 1 + i = n + (i + 1) by omega]
    simp

/-- A scanner that puts a line feed into a heading's text only when the line it reads, or the line
    below it, holds one. -/
def OneLine : Prop :=
  ∀ s l below p, S.heading s l below = some p → '\n' ∉ l → (∀ b ∈ below, '\n' ∉ b) →
    '\n' ∉ p.2.toList

/-! ### Quiet lines

A quiet line gives no heading when nothing is below it, leaves the state as it is, and is read as
no line at all when it stands below another. Such lines give nothing wherever they stand in a run
of quiet lines; only the last of a run still reads the line after the run.
-/

/-- The scanner passes over the line without a trace. -/
structure Quiet (l : List Char) : Prop where
  alone : ∀ s, S.heading s l none = none
  keeps : ∀ s, S.step s l = s
  screens : ∀ s a, S.heading s a (some l) = S.heading s a none

/-- The scanner gives no heading at the line, whatever is below it. -/
def Silent (l : List Char) : Prop :=
  ∀ s below, S.heading s l below = none

/-- The scanner reads every line without looking at the line below it. -/
def Local : Prop :=
  ∀ s l below below', S.heading s l below = S.heading s l below'

variable {S}

theorem Quiet.heading {l : List Char} (h : S.Quiet l) (s : S.State) (q : Option (List Char))
    (hq : ∀ x ∈ q, S.Quiet x) : S.heading s l q = none := by
  cases q with
  | none => exact h.alone s
  | some x => rw [(hq x rfl).screens, h.alone]

theorem after_quiet {M : List (List Char)} (hM : ∀ m ∈ M, S.Quiet m) (s : S.State) :
    S.after s M = s := by
  induction M with
  | nil => rfl
  | cons m M ih =>
    rw [after_cons, (hM m List.mem_cons_self).keeps]
    exact ih (fun x hx => hM x (List.mem_cons_of_mem m hx))

/-- Quiet lines followed by a quiet line, or by nothing, give no heading. -/
theorem scan_quiet {M : List (List Char)} (hM : ∀ m ∈ M, S.Quiet m) (s : S.State) (n : Nat)
    {below : Option (List Char)} (hb : ∀ x ∈ below, S.Quiet x) : S.scan s n M below = [] := by
  induction M generalizing s n with
  | nil => rfl
  | cons m M ih =>
    have hM' : ∀ x ∈ M, S.Quiet x := fun x hx => hM x (List.mem_cons_of_mem m hx)
    have hnext : ∀ x ∈ M.head?.or below, S.Quiet x := by
      intro x hx
      cases M with
      | nil => exact hb x hx
      | cons y M => exact hM' x (by simp_all)
    simp [scan, (hM m List.mem_cons_self).heading s _ hnext, ih hM']

/-- Quiet lines in front of a quiet line leave what follows as it was, moved down. -/
theorem scan_quiet_append {M : List (List Char)} (hM : ∀ m ∈ M, S.Quiet m) (s : S.State)
    (n : Nat) {q : List Char} (hq : S.Quiet q) (Q : List (List Char))
    (below : Option (List Char)) :
    S.scan s n (M ++ q :: Q) below = (S.scan s n (q :: Q) below).map (Heading.shift M.length) := by
  rw [scan_append, scan_quiet hM s n (by simpa using hq), after_quiet hM, List.nil_append,
    scan_shift]

/-- Quiet lines give nothing when the last of them gives nothing above what follows. -/
theorem scan_quiet_last {M : List (List Char)} (hM : ∀ m ∈ M, S.Quiet m) (s : S.State) (n : Nat)
    {below : Option (List Char)} (hlast : ∀ m ∈ M.getLast?, S.heading s m below = none) :
    S.scan s n M below = [] := by
  induction M using List.reverseRecOn generalizing n with
  | nil => rfl
  | append_singleton M m ih =>
    have hM' : ∀ x ∈ M, S.Quiet x := fun x hx => hM x (by simp [hx])
    rw [scan_append, scan_quiet hM' _ _ (by simpa using hM m (by simp)), after_quiet hM',
      List.nil_append]
    have hm := hlast m (by simp)
    simp [scan, hm]

/-- A run of quiet lines whose last line gives nothing above what follows can be inserted
    anywhere a line ends: the lines above see the run's first line below them, and the lines
    below are found as before, moved down. -/
theorem scan_quiet_between (s : S.State) (n : Nat) (P : List (List Char)) {M : List (List Char)}
    (hM : ∀ m ∈ M, S.Quiet m) (Q : List (List Char)) (below : Option (List Char))
    (hlast : ∀ m ∈ M.getLast?, S.heading (S.after s P) m (Q.head?.or below) = none) :
    S.scan s n (P ++ M ++ Q) below =
      S.scan s n P (M.head?.or (Q.head?.or below)) ++
        (S.scan (S.after s P) (n + P.length) Q below).map (Heading.shift M.length) := by
  rw [List.append_assoc, scan_append, scan_append S (S.after s P), after_quiet hM,
    ← scan_shift, List.head?_append, Option.or_assoc,
    scan_quiet_last hM (S.after s P) (n + P.length) hlast, List.nil_append, Nat.add_assoc]

/-- A quiet line below some lines reads to them as no line at all. -/
theorem scan_below_quiet {q : List Char} (hq : S.Quiet q) (s : S.State) (n : Nat)
    (ls : List (List Char)) : S.scan s n ls (some q) = S.scan s n ls none := by
  induction ls generalizing s n with
  | nil => rfl
  | cons l ls ih =>
    rw [scan_cons, scan_cons, ih]
    cases ls with
    | nil => rw [List.head?_nil, Option.none_or, Option.none_or, hq.screens]
    | cons m ms => rfl

/-- Lines read the same above two lines when their last line does. -/
theorem scan_concat_below {l : List Char} {below below' : Option (List Char)} (s : S.State)
    (n : Nat) (L : List (List Char))
    (h : S.heading (S.after s L) l below = S.heading (S.after s L) l below') :
    S.scan s n (L ++ [l]) below = S.scan s n (L ++ [l]) below' := by
  rw [scan_append, scan_append]
  simp only [List.head?_cons, Option.some_or, scan_cons, List.head?_nil, Option.none_or, h,
    scan_nil]

/-- A scanner that reads each line by itself reads lines alike above anything. -/
theorem scan_local (hl : S.Local) (s : S.State) (n : Nat) (ls : List (List Char))
    (below below' : Option (List Char)) : S.scan s n ls below = S.scan s n ls below' := by
  induction ls generalizing s n with
  | nil => rfl
  | cons l ls ih => rw [scan_cons, scan_cons, ih, hl s l _ (ls.head?.or below')]

/-! ### Carriage returns at the end of a line

A line that ends a text without a line feed keeps the carriage returns before its end when it is
read. A scanner blind to them reads such a line as the line without them.
-/

variable (S) in
/-- The scanner reads a line the same with a carriage return after it: the same heading, whatever
    stands below, and the same state after it. -/
structure CrBlind : Prop where
  heading : ∀ s l below, S.heading s (l ++ ['\r']) below = S.heading s l below
  step : ∀ s l, S.step s (l ++ ['\r']) = S.step s l

theorem CrBlind.heading_replicate (h : S.CrBlind) (s : S.State) (l : List Char) (k : Nat)
    (below : Option (List Char)) :
    S.heading s (l ++ List.replicate k '\r') below = S.heading s l below := by
  induction k with
  | zero => simp
  | succ k ih => rw [List.replicate_succ', ← List.append_assoc, h.heading, ih]

theorem CrBlind.step_replicate (h : S.CrBlind) (s : S.State) (l : List Char) (k : Nat) :
    S.step s (l ++ List.replicate k '\r') = S.step s l := by
  induction k with
  | zero => simp
  | succ k ih => rw [List.replicate_succ', ← List.append_assoc, h.step, ih]

/-- Lines whose last line has carriage returns after it read as the lines without them. -/
theorem CrBlind.scan_concat (h : S.CrBlind) (hl : S.Local) (s : S.State) (n : Nat)
    (P : List (List Char)) (l : List Char) (k : Nat) (below : Option (List Char)) :
    S.scan s n (P ++ [l ++ List.replicate k '\r']) below = S.scan s n (P ++ [l]) below := by
  rw [scan_append, scan_append, scan_local hl s n P _ none,
    scan_local hl s n P ([l].head?.or below) none]
  simp [scan_cons, h.heading_replicate]

theorem CrBlind.after_concat (h : S.CrBlind) (s : S.State) (P : List (List Char)) (l : List Char)
    (k : Nat) : S.after s (P ++ [l ++ List.replicate k '\r']) = S.after s (P ++ [l]) := by
  simp [after_append, h.step_replicate]

/-- A quiet line stays quiet with a carriage return after it. -/
theorem CrBlind.quiet (h : S.CrBlind) (hl : S.Local) {l : List Char} (hq : S.Quiet l) :
    S.Quiet (l ++ ['\r']) :=
  ⟨fun s => (h.heading s l none).trans (hq.alone s), fun s => (h.step s l).trans (hq.keeps s),
    fun s a => hl s a _ none⟩

/-- The entries of scanned headings do not depend on where the numbering starts. -/
theorem entries_scan (s : S.State) (n m : Nat) (ls : List (List Char))
    (below : Option (List Char)) :
    (S.scan s n ls below).map Heading.entry = (S.scan s m ls below).map Heading.entry := by
  rw [← Nat.zero_add n, ← Nat.zero_add m, scan_shift, scan_shift]
  simp [Function.comp_def]

/-- Quiet lines inserted into a text where a line ends leave its headings' entries as they were,
    when the lines above read the same as if the text ended there, and the last line inserted
    below them gives nothing above the rest. The lines above may be written anew, as long as
    they read alike and leave the same state. Only the lines of the headings change. -/
theorem entries_inserted {L₀ L₀' Q M R : List (List Char)} (hQ : ∀ q ∈ Q, S.Quiet q)
    (hM : ∀ m ∈ M, S.Quiet m)
    (hsame : S.scan S.start 1 L₀' none = S.scan S.start 1 L₀ none)
    (hafter : S.after S.start L₀' = S.after S.start L₀)
    (hend : S.scan S.start 1 L₀ R.head? = S.scan S.start 1 L₀ none)
    (hlast : ∀ m ∈ M.getLast?, S.heading (S.after S.start L₀) m R.head? = none) (n : Nat) :
    (S.read (L₀ ++ R)).map Heading.entry =
      (S.scan S.start 1 (L₀' ++ Q) none ++
        S.scan (S.after S.start (L₀' ++ Q)) n (M ++ R) none).map Heading.entry := by
  -- the quiet lines above give nothing and read as nothing below the lines before them
  have habove : S.scan S.start 1 (L₀' ++ Q) none = S.scan S.start 1 L₀ none := by
    rw [scan_append, scan_quiet hQ _ _ (by simp), List.append_nil, ← hsame]
    cases Q with
    | nil => rfl
    | cons q Q => exact scan_below_quiet (hQ q List.mem_cons_self) _ _ _
  -- the quiet lines below only move the rest down
  have hbelow : S.scan (S.after S.start (L₀' ++ Q)) n (M ++ R) none =
      (S.scan (S.after S.start L₀) n R none).map (Heading.shift M.length) := by
    rw [after_append, after_quiet hQ, hafter]
    simpa using scan_quiet_between (S.after S.start L₀) n [] hM R none (by simpa using hlast)
  have hshift : ((S.scan (S.after S.start L₀) n R none).map (Heading.shift M.length)).map
      Heading.entry = (S.scan (S.after S.start L₀) n R none).map Heading.entry := by
    simp [Function.comp_def]
  rw [read, scan_append, Option.or_none, hend, habove, hbelow, List.map_append, List.map_append,
    hshift, entries_scan _ (1 + L₀.length) n]

/-- Headings scanned from lines without a line feed have texts without one. -/
theorem OneLine.scan (hS : S.OneLine) (s : S.State) (n : Nat) {ls : List (List Char)}
    {below : Option (List Char)} (hls : ∀ l ∈ ls, '\n' ∉ l) (hb : ∀ b ∈ below, '\n' ∉ b) :
    ∀ h ∈ S.scan s n ls below, '\n' ∉ h.text.toList := by
  induction ls generalizing s n with
  | nil => simp
  | cons l ls ih =>
    have hnext : ∀ b ∈ ls.head?.or below, '\n' ∉ b := by
      cases ls with
      | nil => simpa using hb
      | cons m ms => simpa using hls m (by simp)
    intro h hh
    rw [scan_cons, List.mem_append] at hh
    rcases hh with hh | hh
    · cases hp : S.heading s l (ls.head?.or below) with
      | none => simp [hp] at hh
      | some p =>
        simp only [hp, Option.map_some, Option.toList_some, List.mem_singleton] at hh
        subst hh
        exact hS s l _ p hp (hls l List.mem_cons_self) hnext
    · exact ih (S.step s l) (n + 1) (fun m hm => hls m (List.mem_cons_of_mem l hm)) h hh

end Scanner

end Outline
