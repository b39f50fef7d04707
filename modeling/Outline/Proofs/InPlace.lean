/-
Module: Outline.Proofs.InPlace
Purpose: A run that updates files in place, over files named on the command line. Each file is
  read and its update written back when it differs from the text, and the run goes on after every
  failure; a file of bytes that are no UTF-8 text is skipped without failing. A file listed
  twice is updated twice, the second time from the update the first wrote; when its update
  settles, that second update writes nothing. A run then leaves every listed file whose text has
  an update holding that update, and every other file as it was; it ends with 2 for a refused
  comment character, with 1 when no file is named or one fails, and with 0 otherwise.
Main exports: Cli.KeepsDisk, Cli.sourceOf, Cli.updateOnDisk, Cli.failureCount, Cli.fails,
  Cli.updatedText, Cli.readAfter, Cli.UpdatesInPlace, Cli.Settles, Cli.Revisits
Main statements: Cli.updateFile_run, Cli.processFile_run, Cli.updatesInPlace_updateOnDisk,
  Cli.UpdatesInPlace.snoc, Cli.processAll_from, Cli.runFiles_in_place
Open obligations: none
-/
import Mathlib
import Outline.Cli.Run
import Outline.Proofs.Disk
import Outline.Proofs.Insert

namespace Outline

namespace Cli

/-! ### Steps of a run -/

theorem run_bind {α β : Type} (x : RunM α) (f : α → RunM β) (tr : Trace) :
    (x >>= f).run tr = (f (x.run tr).1).run (x.run tr).2 := rfl

theorem run_get (tr : Trace) : (get : RunM Trace).run tr = (tr, tr) := rfl

/-- A step of a run that leaves the disk as it is. -/
def KeepsDisk {α : Type} (x : RunM α) : Prop :=
  ∀ tr, (x.run tr).2.disk = tr.disk

theorem keepsDisk_emitEvent (l : Level) (target message : String)
    (fields : List (String × String)) : KeepsDisk (emitEvent l target message fields) :=
  fun _ => rfl

/-- Steps that each keep the disk, run one after the other, keep it. -/
theorem KeepsDisk.foldlM {α β : Type} {f : β → α → RunM β} (hf : ∀ b a, KeepsDisk (f b a)) :
    ∀ (l : List α) (b : β), KeepsDisk (l.foldlM f b) := by
  intro l
  induction l with
  | nil => intro b tr; rfl
  | cons a l ih =>
    intro b tr
    simp only [List.foldlM_cons, StateT.run_bind]
    change ((List.foldlM f ((f b a).run tr).1 l).run ((f b a).run tr).2).2.disk = tr.disk
    rw [ih, hf]

/-- Updating a text logs each pass, gives the update, and leaves the disk alone. -/
theorem updateText_run (o : Options) (content : String) (tr : Trace) :
    ((updateText o content).run tr).1 =
        (Block.update Registry.builtin o content).mapError Failure.noHeadings ∧
      ((updateText o content).run tr).2.disk = tr.disk := by
  unfold updateText
  simp only [forIn_eq_forIn', bind_pure_comp]
  simp
  refine ⟨rfl, ?_⟩
  exact KeepsDisk.foldlM (fun _ _ => keepsDisk_emitEvent _ _ _ _) _ _ tr

/-! ### Updating one file -/

/-- The text a path holds on a disk, or why it holds none. -/
def sourceOf (d : Disk) (path : String) : Except Failure String :=
  match d.read path with
  | .error e => .error (.unreadable path e)
  | .ok bytes =>
    match decodeText bytes with
    | some text => .ok text
    | none => .error (.binary path)

theorem readSource_run (path : String) (tr : Trace) :
    (readSource path).run tr = (sourceOf tr.disk path, tr) := by
  unfold readSource sourceOf
  cases h : tr.disk.read path with
  | error e => simp [h]; rfl
  | ok bytes => cases hd : decodeText bytes <;> simp [h, hd] <;> rfl

/-- Updating a file in place, as a function of the disk: the update's outcome or why the file
    failed, and the disk after, where the update is written back when it differs from the text. -/
def updateOnDisk (o : Options) (d : Disk) (path : String) : Except Failure Block.Outcome × Disk :=
  match sourceOf d path with
  | .error f => (.error f, d)
  | .ok text =>
    match Block.update Registry.builtin o text with
    | .error e => (.error (.noHeadings e), d)
    | .ok a =>
      if a.content = text then (.ok a.outcome, d)
      else
        match d.write path a.content.toUTF8 with
        | .error e => (.error (.unwritable path e), d)
        | .ok d' => (.ok a.outcome, d')

theorem updateFile_run (o : Options) (path : String) (tr : Trace) :
    ((updateFile o path).run tr).1 = (updateOnDisk o tr.disk path).1 ∧
      ((updateFile o path).run tr).2.disk = (updateOnDisk o tr.disk path).2 := by
  unfold updateFile updateOnDisk
  rw [run_bind, readSource_run]
  cases hs : sourceOf tr.disk path with
  | error f => exact ⟨rfl, rfl⟩
  | ok text =>
    dsimp only
    rw [run_bind]
    obtain ⟨h1, h2⟩ := updateText_run o text tr
    rw [h1]
    cases hu : Block.update Registry.builtin o text with
    | error e => exact ⟨rfl, h2⟩
    | ok a =>
      dsimp only [Except.mapError]
      split
      · exact ⟨rfl, h2⟩
      · -- the write sees the disk the update left, which is the disk read from
        rw [run_bind, run_get, h2]
        cases tr.disk.write path a.content.toUTF8 with
        | error e => exact ⟨rfl, h2⟩
        | ok d' => exact ⟨rfl, rfl⟩

/-- A file of a run that updates in place: what updating it does, with the file's own options. -/
theorem processFile_run (s : Settings) (hf : s.toFile = true) {file : String} (hdash : file ≠ "-")
    (tr : Trace) :
    ((processFile s file).run tr).1 =
        (updateOnDisk (s.optionsFor Registry.builtin file) tr.disk file).1.map (fun _ => ()) ∧
      ((processFile s file).run tr).2.disk =
        (updateOnDisk (s.optionsFor Registry.builtin file) tr.disk file).2 := by
  unfold processFile
  rw [if_neg hdash]
  dsimp only
  rw [if_pos hf, run_bind]
  obtain ⟨h1, h2⟩ := updateFile_run (s.optionsFor Registry.builtin file) file tr
  rw [h1]
  cases (updateOnDisk (s.optionsFor Registry.builtin file) tr.disk file).1 with
  | error f => exact ⟨rfl, h2⟩
  | ok outcome => exact ⟨rfl, h2⟩

/-- What a file adds to a run's count of failures: one for every failure but a file of bytes that
    are no UTF-8 text. -/
def failureCount : Except Failure Unit → Nat
  | .ok () => 0
  | .error (.binary _) => 0
  | .error _ => 1

/-- A run over a list of files: the first file's failure counts, and the rest runs on the disk
    the first left. -/
theorem processAll_cons_run (s : Settings) (file : String) (rest : List String) (tr : Trace) :
    ∃ tr', tr'.disk = ((processFile s file).run tr).2.disk ∧
      (processAll s (file :: rest)).run tr =
        (failureCount ((processFile s file).run tr).1 + ((processAll s rest).run tr').1,
          ((processAll s rest).run tr').2) := by
  rw [processAll, run_bind]
  -- each branch logs at most one event, which leaves the disk as the file left it
  cases h : ((processFile s file).run tr).1 with
  | ok u => exact ⟨_, rfl, rfl⟩
  | error f =>
    cases f <;> refine ⟨_, ?_, rfl⟩ <;> rfl

/-! ### Which files fail, and what they end up holding -/

/-- A listed file fails when it cannot be read, or holds text whose table of contents cannot be
    updated; a file of bytes that are no UTF-8 text is skipped and does not fail. -/
def fails (s : Settings) (d : Disk) (path : String) : Bool :=
  match d.read path with
  | .error _ => true
  | .ok bytes =>
    match decodeText bytes with
    | none => false
    | some text => !(Block.update Registry.builtin (s.optionsFor Registry.builtin path) text).isOk

/-- The text a listed file is updated to, when it holds text that has an update. -/
def updatedText (s : Settings) (d : Disk) (path : String) : Option String :=
  match d.read path with
  | .error _ => none
  | .ok bytes =>
    (decodeText bytes).bind fun text =>
      (Block.update Registry.builtin (s.optionsFor Registry.builtin path) text).toOption.map
        Block.Applied.content

/-- What a listed path reads after a run: the bytes of its update, else what it read before. -/
def readAfter (s : Settings) (d : Disk) (path : String) : Except OsError ByteArray :=
  match updatedText s d path with
  | some t => .ok t.toUTF8
  | none => d.read path

/-- What a run that updates `paths` in place leaves of the disk `d`: the same tree, each listed
    path reading its update, and every path of names that no listed path leads to holding what it
    held. -/
structure UpdatesInPlace (s : Settings) (d : Disk) (paths : List String) (d' : Disk) : Prop where
  sameShape : Disk.SameShape d d'
  read_listed : ∀ p ∈ paths, d'.read p = readAfter s d p
  frame : ∀ names, (∀ p ∈ paths, d.fileNames p ≠ some names) → d'.find? names = d.find? names

/-- The bytes a text was decoded from are the text's own bytes. -/
theorem toUTF8_of_decodeText {bytes : ByteArray} {text : String}
    (h : decodeText bytes = some text) : text.toUTF8 = bytes := by
  unfold decodeText String.fromUTF8? at h
  split at h
  · cases h
    simp [String.fromUTF8]
  · cases h

/-- A text's bytes decode back to the text. -/
theorem decodeText_toUTF8 (text : String) : decodeText text.toUTF8 = some text := by
  unfold decodeText String.fromUTF8?
  rw [dif_pos (by simpa using text.isValidUTF8)]
  rfl

section Reads

variable {s : Settings} {d d' : Disk} {path : String}

/-- Whether a file fails, and what it is updated to, depend on the disk only through what the
    path reads. -/
theorem fails_congr (h : d'.read path = d.read path) : fails s d' path = fails s d path := by
  unfold fails
  rw [h]

theorem readAfter_congr (h : d'.read path = d.read path) :
    readAfter s d' path = readAfter s d path := by
  unfold readAfter updatedText
  rw [h]

/-- A path that reads as text fails exactly when its text has no update. -/
theorem fails_of_source {text : String} (h : sourceOf d path = .ok text) :
    fails s d path = !(Block.update Registry.builtin (s.optionsFor Registry.builtin path) text).isOk := by
  unfold sourceOf at h
  unfold fails
  cases hr : d.read path with
  | error e => rw [hr] at h; cases h
  | ok bytes =>
    rw [hr] at h
    dsimp only at h ⊢
    cases hd : decodeText bytes with
    | none => rw [hd] at h; cases h
    | some t =>
      rw [hd] at h
      cases h
      rfl

/-- A listed file that holds text with an update ends up holding the update's bytes. -/
theorem readAfter_of_update {bytes : ByteArray} {text : String} (hr : d.read path = .ok bytes)
    (hd : decodeText bytes = some text) {a : Block.Applied}
    (hu : Block.update Registry.builtin (s.optionsFor Registry.builtin path) text = .ok a) :
    readAfter s d path = .ok a.content.toUTF8 := by
  simp [readAfter, updatedText, hr, hd, hu, Except.toOption]

/-- Writing nothing back leaves a path reading its update when the update is the text itself. -/
theorem readAfter_of_unchanged {bytes : ByteArray} {text : String} (hr : d.read path = .ok bytes)
    (hd : decodeText bytes = some text) {a : Block.Applied}
    (hu : Block.update Registry.builtin (s.optionsFor Registry.builtin path) text = .ok a)
    (hc : a.content = text) : readAfter s d path = d.read path := by
  rw [readAfter_of_update hr hd hu, hc, toUTF8_of_decodeText hd, hr]

/-- A file of bytes that are no UTF-8 text does not fail, and keeps its bytes. -/
theorem fails_of_binary {bytes : ByteArray} (hr : d.read path = .ok bytes)
    (hd : decodeText bytes = none) : fails s d path = false ∧ readAfter s d path = d.read path :=
  ⟨by simp [fails, hr, hd], by simp [readAfter, updatedText, hr, hd]⟩

end Reads

/-! ### One file -/

section OneFile

variable (s : Settings) (d : Disk) (path : String)

/-- A file adds one to the count of failures exactly when it fails: a file that reads as text is
    always written back. -/
theorem failureCount_updateOnDisk :
    failureCount ((updateOnDisk (s.optionsFor Registry.builtin path) d path).1.map fun _ => ()) =
      if fails s d path then 1 else 0 := by
  unfold updateOnDisk sourceOf fails
  cases hr : d.read path with
  | error e => rfl
  | ok bytes =>
    dsimp only
    -- the two matches on the decoded text are split together, by rewriting both
    obtain hd | ⟨text, hd⟩ : decodeText bytes = none ∨ ∃ text, decodeText bytes = some text := by
      cases decodeText bytes <;> simp
    · simp only [hd]
      rfl
    · simp only [hd]
      cases hu : Block.update Registry.builtin (s.optionsFor Registry.builtin path) text with
      | error e => rfl
      | ok a =>
        dsimp only
        split
        · rfl
        · obtain ⟨names, -, -, hw⟩ := Disk.write_of_read hr a.content.toUTF8
          rw [hw]
          rfl

/-- Updating a file in place either leaves the disk as it is, the file reading its update, or puts
    the update's bytes at the names of the file it read. -/
theorem updateOnDisk_disk :
    ((updateOnDisk (s.optionsFor Registry.builtin path) d path).2 = d ∧
        readAfter s d path = d.read path) ∨
      ∃ names b t, d.fileNames path = some names ∧ d.find? names = some (.file b) ∧
        updatedText s d path = some t ∧
        (updateOnDisk (s.optionsFor Registry.builtin path) d path).2 = d.put names (.file t.toUTF8) := by
  -- every way but a written update leaves the path without an update or reading its update
  have hnone : updatedText s d path = none → readAfter s d path = d.read path := by
    intro h
    unfold readAfter
    rw [h]
  unfold updateOnDisk sourceOf
  cases hr : d.read path with
  | error e => exact Or.inl ⟨rfl, (hnone (by simp [updatedText, hr])).trans hr⟩
  | ok bytes =>
    dsimp only
    cases hd : decodeText bytes with
    | none => exact Or.inl ⟨rfl, (hnone (by simp [updatedText, hr, hd])).trans hr⟩
    | some text =>
      dsimp only
      cases hu : Block.update Registry.builtin (s.optionsFor Registry.builtin path) text with
      | error e =>
        exact Or.inl ⟨rfl, (hnone (by simp [updatedText, hr, hd, hu, Except.toOption])).trans hr⟩
      | ok a =>
        dsimp only
        split
        · rename_i hc
          exact Or.inl ⟨rfl, (readAfter_of_unchanged hr hd hu hc).trans hr⟩
        · obtain ⟨names, hn, hf, hw⟩ := Disk.write_of_read hr a.content.toUTF8
          rw [hw]
          exact Or.inr ⟨names, bytes, a.content, hn, hf,
            by simp [updatedText, hr, hd, hu, Except.toOption], rfl⟩

/-- Updating one file in place is a run over that file alone. -/
theorem updatesInPlace_updateOnDisk :
    UpdatesInPlace s d [path] (updateOnDisk (s.optionsFor Registry.builtin path) d path).2 := by
  rcases updateOnDisk_disk s d path with ⟨hd', hread⟩ | ⟨names, b, t, hn, hf, ht, hd'⟩
  · rw [hd']
    refine ⟨Disk.SameShape.refl d, ?_, fun _ _ => rfl⟩
    intro p hp
    rw [List.mem_singleton.mp hp, hread]
  · rw [hd']
    refine ⟨Disk.sameShape_put hf _, ?_, ?_⟩
    · intro p hp
      rw [List.mem_singleton.mp hp, Disk.read_put_self hn, readAfter, ht]
    · intro m hm
      have hne : m ≠ names := by
        rintro rfl
        exact hm path (List.mem_singleton_self path) hn
      rw [Disk.find?_put (Disk.isKnownDir_of_file hf), if_neg hne]

end OneFile

/-! ### A run over the listed paths

A path is updated on the disk the earlier paths left. When no earlier path named its file, it
reads as before the run; when one did, it reads the update that path wrote, and the run holds
the file's update still only when a second update writes that update back.
-/

/-- A listed path whose update settles: the update of its text, updated again with the path's
    options, is written back as it is and reported unchanged. -/
def Settles (s : Settings) (d : Disk) (path : String) : Prop :=
  ∀ text a, sourceOf d path = .ok text →
    Block.update Registry.builtin (s.optionsFor Registry.builtin path) text = .ok a →
    Block.update Registry.builtin (s.optionsFor Registry.builtin path) a.content =
      .ok ⟨a.content, .unchanged⟩

/-- Paths that a run may update one after the other: where two of them lead to one file, the
    later has the earlier's options and the file's update settles. A path listed twice is such a
    pair; paths that name distinct files have none. -/
def Revisits (s : Settings) (d : Disk) (paths : List String) : Prop :=
  paths.Pairwise fun p q => ∀ names, d.fileNames p = some names → d.fileNames q = some names →
    s.optionsFor Registry.builtin q = s.optionsFor Registry.builtin p ∧ Settles s d q

section Run

variable {s : Settings} {d d₁ d₂ : Disk} {done : List String} {p : String}

theorem updatesInPlace_nil (s : Settings) (d : Disk) : UpdatesInPlace s d [] d :=
  ⟨Disk.SameShape.refl d, fun _ h => absurd h List.not_mem_nil, fun _ _ => rfl⟩

/-- A path that names no file a run's listed paths name reads as before the run. -/
theorem UpdatesInPlace.read_other {paths : List String} (h : UpdatesInPlace s d paths d₁)
    {q : String} (hq : ∀ p ∈ paths, ∀ names, d.fileNames p = some names → d.fileNames q ≠ some names) :
    d₁.read q = d.read q :=
  h.sameShape.read fun names hn => h.frame names fun p hp hpn => hq p hp names hpn hn

/-- The text a path is updated to, when it has one, comes from the bytes it reads. -/
theorem updatedText_eq_some {t : String} (h : updatedText s d p = some t) :
    ∃ bytes text a, d.read p = .ok bytes ∧ decodeText bytes = some text ∧
      Block.update Registry.builtin (s.optionsFor Registry.builtin p) text = .ok a ∧
      a.content = t := by
  unfold updatedText at h
  cases hr : d.read p with
  | error e => rw [hr] at h; cases h
  | ok bytes =>
    rw [hr] at h
    obtain ⟨text, hd, ht⟩ := Option.bind_eq_some_iff.mp h
    cases hu : Block.update Registry.builtin (s.optionsFor Registry.builtin p) text with
    | error e => rw [hu] at ht; cases ht
    | ok a =>
      rw [hu] at ht
      exact ⟨bytes, text, a, rfl, hd, hu, Option.some.inj ht⟩

theorem updatedText_congr (h : d₁.read p = d.read p) : updatedText s d₁ p = updatedText s d p := by
  unfold updatedText
  rw [h]

/-- Two paths that read the same bytes with the same options end up reading the same. -/
theorem readAfter_of_same {q : String} (hread : d.read q = d.read p)
    (hopt : s.optionsFor Registry.builtin q = s.optionsFor Registry.builtin p) :
    readAfter s d q = readAfter s d p := by
  unfold readAfter updatedText
  rw [hread, hopt]

/-- A path whose update settles, reading what the run should leave it reading, is left as it is,
    and fails as it failed before the run. -/
theorem updateOnDisk_of_settles (hs : Settles s d p) (hread : d₁.read p = readAfter s d p) :
    (updateOnDisk (s.optionsFor Registry.builtin p) d₁ p).2 = d₁ ∧ fails s d₁ p = fails s d p := by
  unfold readAfter at hread
  cases hup : updatedText s d p with
  | none =>
    -- without an update the path reads as before, and nothing is written to it
    rw [hup] at hread
    refine ⟨?_, fails_congr hread⟩
    rcases updateOnDisk_disk s d₁ p with ⟨hkeep, -⟩ | ⟨_, _, _, _, _, ht, _⟩
    · exact hkeep
    · rw [updatedText_congr hread, hup] at ht
      cases ht
  | some t =>
    -- the path reads its update already, and the next update writes it back as it is
    rw [hup] at hread
    obtain ⟨bytes, text, a, hr, hd, hu, rfl⟩ := updatedText_eq_some hup
    have hsrc₀ : sourceOf d p = .ok text := by simp [sourceOf, hr, hd]
    have hagain := hs text a hsrc₀ hu
    have hsrc : sourceOf d₁ p = .ok a.content := by
      unfold sourceOf
      rw [hread]
      dsimp only
      rw [decodeText_toUTF8]
    unfold updateOnDisk
    rw [hsrc, fails_of_source hsrc, fails_of_source hsrc₀, hu]
    simp [hagain, Except.isOk, Except.toBool]

/-- A run extended by a path that is left as it is, reading what the run leaves it reading. -/
theorem UpdatesInPlace.snoc_settled (h : UpdatesInPlace s d done d₁)
    (hread : d₁.read p = readAfter s d p) : UpdatesInPlace s d (done ++ [p]) d₁ := by
  refine ⟨h.sameShape, ?_, fun names hn => h.frame names fun q hq => hn q (List.mem_append_left _ hq)⟩
  intro q hq
  rcases List.mem_append.mp hq with hq | hq
  · exact h.read_listed q hq
  · rw [List.mem_singleton.mp hq, hread]

/-- A run extended by a path whose file no earlier path names: the step over it runs on the disk
    the earlier paths left, where the path reads as before the run. -/
theorem UpdatesInPlace.snoc_fresh (h₁ : UpdatesInPlace s d done d₁)
    (hfresh : ∀ q ∈ done, ∀ names, d.fileNames q = some names → d.fileNames p ≠ some names)
    (h₂ : UpdatesInPlace s d₁ [p] d₂) : UpdatesInPlace s d (done ++ [p]) d₂ := by
  have hnames := h₁.sameShape.fileNames
  have hp : d₁.read p = d.read p := h₁.read_other hfresh
  refine ⟨h₁.sameShape.trans h₂.sameShape, ?_, ?_⟩
  · intro q hq
    rcases List.mem_append.mp hq with hq | hq
    · -- the step over the new path leaves the earlier files alone
      rw [h₂.read_other (fun r hr names hrn hqn => ?_), h₁.read_listed q hq]
      rw [List.mem_singleton.mp hr, hnames] at hrn
      rw [hnames] at hqn
      exact hfresh q hq names hqn hrn
    · rw [List.mem_singleton.mp hq, h₂.read_listed p (List.mem_singleton_self p),
        readAfter_congr hp]
  · intro names hn
    rw [h₂.frame names fun r hr => by
        rw [List.mem_singleton.mp hr, hnames]
        exact hn p (List.mem_append_right _ (List.mem_singleton_self p)),
      h₁.frame names fun q hq => hn q (List.mem_append_left _ hq)]

/-- One more path of a run: it fails as it would have failed on the disk before the run, and the
    run over the paths so far and it still updates in place. -/
theorem UpdatesInPlace.snoc (h : UpdatesInPlace s d done d₁) (hr : Revisits s d (done ++ [p])) :
    fails s d₁ p = fails s d p ∧
      UpdatesInPlace s d (done ++ [p]) (updateOnDisk (s.optionsFor Registry.builtin p) d₁ p).2 := by
  have hearlier := fun q hq => (List.pairwise_append.mp hr).2.2 q hq p (List.mem_singleton_self p)
  by_cases hseen : ∃ q ∈ done, ∃ names, d.fileNames q = some names ∧ d.fileNames p = some names
  · -- a file named again reads the update written for it, which settles
    obtain ⟨q, hq, names, hqn, hpn⟩ := hseen
    obtain ⟨hopt, hset⟩ := hearlier q hq names hqn hpn
    have hread : d₁.read p = readAfter s d p := by
      rw [Disk.read_eq_of_fileNames (by rw [h.sameShape.fileNames]; exact hqn)
          (by rw [h.sameShape.fileNames]; exact hpn), h.read_listed q hq,
        readAfter_of_same (Disk.read_eq_of_fileNames hpn hqn) hopt.symm]
    obtain ⟨hkeep, hfails⟩ := updateOnDisk_of_settles hset hread
    rw [hkeep]
    exact ⟨hfails, h.snoc_settled hread⟩
  · -- a file no earlier path named reads as before the run
    have hfresh : ∀ q ∈ done, ∀ names, d.fileNames q = some names → d.fileNames p ≠ some names :=
      fun q hq names hqn hpn => hseen ⟨q, hq, names, hqn, hpn⟩
    exact ⟨fails_congr (h.read_other hfresh),
      h.snoc_fresh hfresh (updatesInPlace_updateOnDisk s d₁ p)⟩

end Run

/-- A run over the paths left, after the paths done so far were updated in place: it counts the
    failing files of the paths left, each as it would have failed before the run, and the run over
    all of them updates in place. -/
theorem processAll_from (s : Settings) (hf : s.toFile = true) (d : Disk) :
    ∀ (files done : List String) (tr : Trace), "-" ∉ files → Revisits s d (done ++ files) →
      UpdatesInPlace s d done tr.disk →
      ((processAll s files).run tr).1 = files.countP (fails s d) ∧
        UpdatesInPlace s d (done ++ files) ((processAll s files).run tr).2.disk := by
  intro files
  induction files with
  | nil =>
    intro done tr _ _ h
    rw [List.append_nil]
    exact ⟨rfl, h⟩
  | cons p rest ih =>
    intro done tr hdash hr h
    have hp : p ≠ "-" := fun he => hdash (he ▸ List.mem_cons_self)
    have hr' : Revisits s d ((done ++ [p]) ++ rest) := by
      rw [List.append_assoc]
      exact hr
    obtain ⟨tr', hdisk, hrun⟩ := processAll_cons_run s p rest tr
    obtain ⟨h1, h2⟩ := processFile_run s hf hp tr
    -- the first path is one step on the disk the paths done left, and the rest run after it
    obtain ⟨hfails, hstep⟩ := h.snoc (List.Pairwise.sublist (List.sublist_append_left _ rest) hr')
    rw [← h2, ← hdisk] at hstep
    obtain ⟨hcount, hin⟩ := ih (done ++ [p]) tr' (fun h => hdash (List.mem_cons_of_mem p h)) hr' hstep
    rw [hrun]
    refine ⟨?_, by simpa using hin⟩
    dsimp only
    rw [h1, failureCount_updateOnDisk, hfails, hcount, List.countP_cons]
    omega

/-- A run that updates files in place counts the files that fail, and leaves each file reading its
    update and every other one as it was, when a file listed twice has an update that settles. -/
theorem processAll_in_place (s : Settings) (hf : s.toFile = true) (files : List String)
    (tr : Trace) (hdash : "-" ∉ files) (hr : Revisits s tr.disk files) :
    ((processAll s files).run tr).1 = files.countP (fails s tr.disk) ∧
      UpdatesInPlace s tr.disk files ((processAll s files).run tr).2.disk := by
  simpa using processAll_from s hf tr.disk files [] tr hdash hr (updatesInPlace_nil s tr.disk)

/-! ### The whole run -/

theorem resolve_toFile {a : Args} {c : Config} {s : Settings} (h : Settings.resolve a c = .ok s) :
    s.toFile = a.toFile := by
  unfold Settings.resolve at h
  cases hch : a.character.orElse (fun _ => c.character) with
  | none =>
    simp only [hch] at h
    cases h
    rfl
  | some ch =>
    simp only [hch] at h
    cases hv : validateCharacter ch with
    | error e => rw [hv] at h; cases h
    | ok u => rw [hv] at h; cases h; rfl

/-- The settings are refused exactly when the comment character in effect, the command line's or
    else the configured one, is refused. -/
theorem resolve_error_iff (a : Args) (c : Config) :
    (∃ e, Settings.resolve a c = .error e) ↔
      ∃ ch e, a.character.orElse (fun _ => c.character) = some ch ∧ validateCharacter ch = .error e := by
  constructor
  · rintro ⟨e, he⟩
    unfold Settings.resolve at he
    cases hch : a.character.orElse (fun _ => c.character) with
    | none => simp only [hch] at he; cases he
    | some ch =>
      simp only [hch] at he
      cases hv : validateCharacter ch with
      | error e' => exact ⟨ch, e', rfl, hv⟩
      | ok u => rw [hv] at he; cases he
  · rintro ⟨ch, e, hch, hv⟩
    refine ⟨e, ?_⟩
    unfold Settings.resolve
    simp only [hch]
    rw [hv]
    rfl

theorem run_pure {α : Type} (x : α) (tr : Trace) : (pure x : RunM α).run tr = (x, tr) := rfl

variable {a : Args} {c : Config} {s : Settings}

/-- A run whose settings are refused ends with 2 and writes nothing. -/
theorem runFiles_of_error {e : ConfigError} (he : Settings.resolve a c = .error e) (tr : Trace) :
    ((runFiles a c).run tr).1 = 2 ∧ ((runFiles a c).run tr).2.disk = tr.disk := by
  unfold runFiles
  rw [he]
  exact ⟨rfl, rfl⟩

/-- A run over the files of the command line processes them all, and ends with 1 when there are
    none or one failed. -/
theorem runFiles_of_ok (hs : Settings.resolve a c = .ok s) (hlist : a.fromList = false)
    (hout : a.output = none) (tr : Trace) :
    ((runFiles a c).run tr).1 =
        (if a.files = [] ∨ 0 < ((processAll s a.files).run tr).1 then 1 else 0) ∧
      ((runFiles a c).run tr).2.disk = ((processAll s a.files).run tr).2.disk := by
  have hfiles : directInputs a = a.files := by
    unfold directInputs
    rw [hout]
    rfl
  unfold runFiles
  rw [hs]
  dsimp only
  rw [hlist, if_neg Bool.false_ne_true, run_bind, run_pure]
  dsimp only
  rw [hfiles]
  by_cases hnil : a.files = []
  · rw [hnil]
    exact ⟨rfl, rfl⟩
  · rw [if_neg (show ¬a.files.isEmpty = true by simpa using hnil)]
    simp only [hnil, false_or]
    exact ⟨rfl, rfl⟩

/-- The exit code of a run over files that counts the failing ones: 1 when there are no files
    or one fails, 0 when none does. -/
theorem exitCode_count (files : List String) (f : String → Bool) :
    ((if files = [] ∨ 0 < files.countP f then 1 else 0) = 1 ↔ files = [] ∨ ∃ p ∈ files, f p = true) ∧
      ((if files = [] ∨ 0 < files.countP f then 1 else 0) = 0 ↔
        files ≠ [] ∧ ∀ p ∈ files, f p = false) := by
  have hpos : 0 < files.countP f ↔ ∃ p ∈ files, f p = true := List.countP_pos_iff
  by_cases hc : files = [] ∨ ∃ p ∈ files, f p = true
  · rw [if_pos (by rwa [hpos])]
    refine ⟨iff_of_true rfl hc, iff_of_false one_ne_zero ?_⟩
    rintro ⟨hne, hall⟩
    rcases hc with hnil | ⟨p, hp, hfp⟩
    · exact hne hnil
    · rw [hall p hp] at hfp
      cases hfp
  · rw [if_neg (by rwa [hpos])]
    have hnone : files ≠ [] ∧ ∀ p ∈ files, f p = false := by
      simpa only [not_or, not_exists, not_and, Bool.not_eq_true] using hc
    exact ⟨iff_of_false zero_ne_one hc, iff_of_true rfl hnone⟩

/-- A run that updates the command line's files in place ends with 2 exactly when the comment
    character in effect is refused, and then writes nothing. Otherwise it ends with 1 when no file
    is named or one fails and with 0 when none fails; when a file listed twice has an update that
    settles, it leaves each named file holding its update and every other file as it was. -/
theorem runFiles_in_place (a : Args) (c : Config) (hto : a.toFile = true)
    (hlist : a.fromList = false) (hout : a.output = none) (hdash : "-" ∉ a.files) (tr : Trace) :
    (((runFiles a c).run tr).1 = 2 ↔
        ∃ ch e, a.character.orElse (fun _ => c.character) = some ch ∧
          validateCharacter ch = .error e) ∧
      (((runFiles a c).run tr).1 = 2 → ((runFiles a c).run tr).2.disk = tr.disk) ∧
      ∀ s, Settings.resolve a c = .ok s → Revisits s tr.disk a.files →
        (((runFiles a c).run tr).1 = 1 ↔ a.files = [] ∨ ∃ p ∈ a.files, fails s tr.disk p = true) ∧
        (((runFiles a c).run tr).1 = 0 ↔ a.files ≠ [] ∧ ∀ p ∈ a.files, fails s tr.disk p = false) ∧
        UpdatesInPlace s tr.disk a.files ((runFiles a c).run tr).2.disk := by
  cases hr : Settings.resolve a c with
  | error e =>
    -- refused settings stop the run before any file
    obtain ⟨h2, hdisk⟩ := runFiles_of_error hr tr
    refine ⟨⟨fun _ => (resolve_error_iff a c).mp ⟨e, hr⟩, fun _ => h2⟩, fun _ => hdisk, ?_⟩
    intro s hs
    cases hs
  | ok s =>
    -- otherwise the code is read off the count of failing files, and is never 2
    have hf : s.toFile = true := (resolve_toFile hr).trans hto
    obtain ⟨hcode, hdisk⟩ := runFiles_of_ok hr hlist hout tr
    have hne2 : ((runFiles a c).run tr).1 ≠ 2 := by
      rw [hcode]
      split <;> omega
    refine ⟨⟨fun h => absurd h hne2, fun hinv => ?_⟩, fun h => absurd h hne2, ?_⟩
    · obtain ⟨e, he⟩ := (resolve_error_iff a c).mpr hinv
      rw [hr] at he
      cases he
    · intro s' hs hd
      cases hs
      obtain ⟨hcount, hin⟩ := processAll_in_place s hf a.files tr hdash hd
      obtain ⟨h1, h0⟩ := exitCode_count a.files (fails s tr.disk)
      rw [hdisk, hcode, hcount]
      exact ⟨h1, h0, hin⟩

/-- A markdown file listed twice: its update settles, so the run ends with 0 exactly when the
    file does not fail, and leaves it reading its one update. -/
theorem markdown_listed_twice_in_place :
    let s : Settings := ⟨none, false, 0, "", true, none, default⟩
    let d := Disk.empty.addFile "a.md" "# A\n".toUTF8
    let a : Args := { (default : Args) with files := ["a.md", "a.md"], toFile := true }
    Revisits s d a.files ∧
      (((runFiles a default).run ⟨d, ByteArray.empty, "", []⟩).1 = 0 ↔ fails s d "a.md" = false) ∧
      ((runFiles a default).run ⟨d, ByteArray.empty, "", []⟩).2.disk.read "a.md" =
        readAfter s d "a.md" := by
  intro s d a
  have hs : Settings.resolve a default = .ok s := by
    decide +kernel
  have hsrc : sourceOf d "a.md" = .ok "# A\n" := by
    -- the path's refusal check does not run under `decide`: its facts are given one by one
    have hread : d.read "a.md" = .ok "# A\n".toUTF8 := by
      have hrefusal : Disk.refusal "a.md" = none := by
        have hsize : "a.md".utf8ByteSize < pathMax := by decide
        simp [Disk.refusal, hsize]
      have hnames : Disk.pathNames "a.md" = ["a.md"] := by decide
      have hstep : Disk.step [] "a.md" = ["a.md"] := by decide
      have hsize : ¬ nameMax < "a.md".utf8ByteSize := by decide
      simp [d, Disk.addFile, Disk.read, Disk.resolve, hrefusal, Disk.origin, hnames, Disk.namesOf,
        hstep, Disk.parents, Disk.ensureDirs, Disk.walk, Disk.find?, Disk.put, Disk.empty,
        Disk.isKnownDir, hsize, Except.map]
    unfold sourceOf
    rw [hread]
    dsimp only
    rw [decodeText_toUTF8]
  -- the file's one update settles, as every update of a text without a block does
  have hsettles : Settles s d "a.md" := by
    intro text u htext hu
    rw [hsrc, Except.ok.injEq] at htext
    subst htext
    have hc : (s.optionsFor Registry.builtin "a.md").character =
        Registry.builtin.character (s.optionsFor Registry.builtin "a.md").extension := rfl
    have hbm : Block.Unmarked (s.optionsFor Registry.builtin "a.md").character "# A\n".toList := by
      unfold Block.Unmarked
      decide +kernel
    exact Block.update_unmarked_settles hc (by decide +kernel) (by decide +kernel) hbm
      (fun h => absurd h (by decide +kernel)) (by rw [String.ofList_toList]; exact hu)
  have hrev : Revisits s d a.files :=
    List.pairwise_pair.mpr fun _ _ _ => ⟨rfl, hsettles⟩
  obtain ⟨-, h0, hin⟩ := (runFiles_in_place a default rfl rfl rfl (by decide)
    ⟨d, ByteArray.empty, "", []⟩).2.2 s hs hrev
  refine ⟨hrev, h0.trans ?_, hin.read_listed "a.md" List.mem_cons_self⟩
  simp [a]

end Cli

end Outline
