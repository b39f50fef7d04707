/-
Module: Outline.Proofs.Disk
Purpose: What writing a file keeps. Writing new bytes to a path of names that holds a file leaves
  the tree its shape: every path leads where it led before, and only the paths that lead to that
  file read the new bytes; everything else reads as before. A path that reads as a file can be
  written back, since such a path never ends with `/`.
Main exports: Disk.fileNames, Disk.kind, Disk.SameShape, Disk.Same
Main statements: Disk.find?_put, Disk.walk_congr, Disk.read_put_self, Disk.read_put_of_ne,
  Disk.write_of_read
Open obligations: none
-/
import Mathlib
import Outline.Disk.Basic

namespace Outline

namespace Disk

/-- The names a path leads to when it names a file. -/
def fileNames (d : Disk) (path : String) : Option (List String) :=
  match d.resolve path with
  | .ok (names, some (.file _)) => some names
  | _ => none

/-- What stands at a path of names, without a file's bytes: nothing, a file (`false`) or a
    directory (`true`). -/
def kind (d : Disk) (names : List String) : Option Bool :=
  (d.find? names).map fun
    | .dir => true
    | .file _ => false

/-- Two disks with the same tree: at every path of names both hold nothing, both a file or both a
    directory. -/
def SameShape (d d' : Disk) : Prop :=
  ∀ names, d.kind names = d'.kind names

theorem SameShape.trans {d₁ d₂ d₃ : Disk} (h₁₂ : SameShape d₁ d₂) (h₂₃ : SameShape d₂ d₃) :
    SameShape d₁ d₃ := fun names => (h₁₂ names).trans (h₂₃ names)

/-! ### Reading over a write -/

/-- Putting an entry at a path of names that is no directory always there: only that path
    finds the new entry. -/
theorem find?_put {names : List String} (hknown : isKnownDir names = false) (d : Disk) (n : Node)
    (m : List String) : (d.put names n).find? m = if m = names then some n else d.find? m := by
  unfold find? put
  split
  · rename_i hm
    rw [if_neg (by rintro rfl; rw [hknown] at hm; cases hm)]
  · split
    · rename_i heq
      subst heq
      rw [List.find?_append, List.find?_eq_none.mpr (by simp)]
      simp
    · rename_i hne
      rw [List.find?_append]
      have hfilter : (d.entries.filter fun e => e.1 != names).find? (fun e => e.1 == m) =
          d.entries.find? (fun e => e.1 == m) := by
        rw [List.find?_filter]
        congr 1
        funext e
        by_cases he : e.1 = m
        · simp [he, hne]
        · simp [he]
      rw [hfilter]
      cases d.entries.find? (fun e => e.1 == m) with
      | some e => rfl
      | none => simp [Ne.symm hne]

/-- A path of names that holds a file is no directory always there. -/
theorem isKnownDir_of_file {d : Disk} {names : List String} {b : ByteArray}
    (h : d.find? names = some (.file b)) : isKnownDir names = false := by
  unfold find? at h
  split at h
  · cases h
  · rename_i hk
    simpa using hk

/-- Following a path only looks at what kind of entry stands on the way. -/
theorem walk_congr {d d' : Disk} (h : SameShape d d') (at_ : List String) (names : List String) :
    d'.walk at_ names = d.walk at_ names := by
  induction names generalizing at_ with
  | nil => rfl
  | cons name rest ih =>
    have hk := h at_
    unfold kind at hk
    unfold walk
    cases hd : d.find? at_ with
    | none =>
      rw [hd] at hk
      cases hd' : d'.find? at_ with
      | none => rfl
      | some n' => rw [hd'] at hk; cases hk
    | some n =>
      rw [hd] at hk
      cases hd' : d'.find? at_ with
      | none => rw [hd'] at hk; cases hk
      | some n' =>
        rw [hd'] at hk
        cases n <;> cases n' <;> simp at hk
        · rfl
        · simp only
          split
          · rfl
          · exact ih _

/-- On a disk of the same shape, a path leads to the same names, holding what the disk holds
    there. -/
theorem resolve_congr {d d' : Disk} (h : SameShape d d') (path : String) :
    d'.resolve path = (d.resolve path).map fun r => (r.1, d'.find? r.1) := by
  unfold resolve
  split
  · rfl
  · rw [walk_congr h]
    cases d.walk (origin path) (pathNames path) <;> rfl

/-- Writing a file's bytes leaves the disk its shape. -/
theorem sameShape_put {d : Disk} {names : List String} {b : ByteArray}
    (hf : d.find? names = some (.file b)) (b' : ByteArray) :
    SameShape d (d.put names (.file b')) := by
  intro m
  unfold kind
  rw [find?_put (isKnownDir_of_file hf)]
  split
  · rename_i heq
    subst heq
    rw [hf]
    rfl
  · rfl

/-- A path names a file exactly when it resolves to names that hold one. -/
theorem fileNames_eq_some {d : Disk} {path : String} {names : List String} :
    d.fileNames path = some names ↔ ∃ b, d.resolve path = .ok (names, some (.file b)) := by
  unfold fileNames
  split
  · rename_i names' b h
    rw [h]
    simp
  · rename_i hno
    simp only [reduceCtorEq, false_iff, not_exists]
    intro b hb
    exact hno names b hb

/-- What stands at the names a path resolves to is what the disk holds there. -/
theorem find?_of_resolve {d : Disk} {path : String} {names : List String} {x : Option Node}
    (h : d.resolve path = .ok (names, x)) : d.find? names = x := by
  unfold resolve at h
  split at h
  · cases h
  · cases hw : d.walk (origin path) (pathNames path) with
    | error e => rw [hw] at h; cases h
    | ok names' =>
      rw [hw] at h
      simp only [Except.map, Except.ok.injEq, Prod.mk.injEq] at h
      obtain ⟨rfl, rfl⟩ := h
      rfl

/-- Two paths that name one file read the same bytes. -/
theorem read_eq_of_fileNames {d : Disk} {p q : String} {names : List String}
    (hp : d.fileNames p = some names) (hq : d.fileNames q = some names) : d.read q = d.read p := by
  obtain ⟨b, hb⟩ := fileNames_eq_some.mp hp
  obtain ⟨b', hb'⟩ := fileNames_eq_some.mp hq
  have hsame : some (Node.file b') = some (.file b) := by
    rw [← find?_of_resolve hb, ← find?_of_resolve hb']
  unfold Disk.read
  rw [hb, hb', hsame]

/-- A file's paths still name it after a write to any file. -/
theorem fileNames_put {d : Disk} {names : List String} {b : ByteArray}
    (hf : d.find? names = some (.file b)) (b' : ByteArray) (path : String) :
    (d.put names (.file b')).fileNames path = d.fileNames path := by
  unfold fileNames
  rw [resolve_congr (sameShape_put hf b')]
  cases hr : d.resolve path with
  | error e => rfl
  | ok r =>
    obtain ⟨m, x⟩ := r
    have hx := find?_of_resolve hr
    simp only [Except.map]
    rw [find?_put (isKnownDir_of_file hf)]
    by_cases hm : m = names
    · subst hm
      rw [if_pos rfl, ← hx, hf]
    · rw [if_neg hm, hx]

/-- A path that reads as a file resolves to names that hold it. -/
theorem resolve_of_read {d : Disk} {path : String} {b : ByteArray} (h : d.read path = .ok b) :
    ∃ names, d.resolve path = .ok (names, some (.file b)) := by
  unfold read at h
  split at h
  · cases h
  · cases h
  · cases h
  · rename_i names b' hr
    cases h
    exact ⟨names, hr⟩

/-- After a write to a file, its paths read the new bytes. -/
theorem read_put_self {d : Disk} {path : String} {names : List String}
    (hp : d.fileNames path = some names) (b' : ByteArray) :
    (d.put names (.file b')).read path = .ok b' := by
  obtain ⟨b, hr⟩ := fileNames_eq_some.mp hp
  have hf := find?_of_resolve hr
  unfold read
  rw [resolve_congr (sameShape_put hf b'), hr]
  simp only [Except.map]
  rw [find?_put (isKnownDir_of_file hf), if_pos rfl]

/-- After a write to a file, a path that does not name it reads as before. -/
theorem read_put_of_ne {d : Disk} {names : List String} {b : ByteArray}
    (hf : d.find? names = some (.file b)) (b' : ByteArray) {path : String}
    (hp : d.fileNames path ≠ some names) :
    (d.put names (.file b')).read path = d.read path := by
  unfold read
  rw [resolve_congr (sameShape_put hf b')]
  cases hr : d.resolve path with
  | error e => rfl
  | ok r =>
    obtain ⟨m, x⟩ := r
    have hx := find?_of_resolve hr
    simp only [Except.map]
    rw [find?_put (isKnownDir_of_file hf)]
    by_cases hm : m = names
    · -- the path resolves to the written names, which hold a file: it names that file
      subst hm
      rw [hf] at hx
      subst hx
      exact absurd (fileNames_eq_some.mpr ⟨b, hr⟩) hp
    · rw [if_neg hm, hx]

/-! ### Reading on a disk of the same shape -/

theorem SameShape.refl (d : Disk) : SameShape d d := fun _ => rfl

/-- On a disk of the same shape, a path of names that holds no file holds what it held. -/
theorem SameShape.find?_of_not_file {d d' : Disk} (h : SameShape d d') {names : List String}
    (hno : ∀ b, d.find? names ≠ some (.file b)) : d'.find? names = d.find? names := by
  have hk := h names
  unfold kind at hk
  cases hd : d.find? names with
  | none =>
    rw [hd] at hk
    cases hd' : d'.find? names with
    | none => rfl
    | some n => rw [hd'] at hk; cases hk
  | some n =>
    cases n with
    | file b => exact absurd hd (hno b)
    | dir =>
      rw [hd] at hk
      cases hd' : d'.find? names with
      | none => rw [hd'] at hk; cases hk
      | some n' =>
        rw [hd'] at hk
        cases n' with
        | file b' => simp at hk
        | dir => rfl

/-- Whether a path names a file, and which, is read off what kind of entry its names hold. -/
theorem fileNames_of_resolve {d : Disk} {path : String} {names : List String} {x : Option Node}
    (h : d.resolve path = .ok (names, x)) :
    d.fileNames path = if d.kind names = some false then some names else none := by
  unfold fileNames kind
  rw [h, ← find?_of_resolve h]
  cases d.find? names with
  | none => simp
  | some n => cases n <;> simp

/-- Which paths name files, and which files, depends only on the shape of the disk. -/
theorem SameShape.fileNames {d d' : Disk} (h : SameShape d d') (path : String) :
    d'.fileNames path = d.fileNames path := by
  cases hr : d.resolve path with
  | error e =>
    unfold Disk.fileNames
    rw [resolve_congr h, hr]
    rfl
  | ok r =>
    have hr' : d'.resolve path = .ok (r.1, d'.find? r.1) := by
      rw [resolve_congr h, hr]
      rfl
    rw [fileNames_of_resolve hr, fileNames_of_resolve hr', h r.1]

/-- On a disk of the same shape, a path reads as before when the file it names, if any, holds
    what it held. -/
theorem SameShape.read {d d' : Disk} (h : SameShape d d') {path : String}
    (hframe : ∀ names, d.fileNames path = some names → d'.find? names = d.find? names) :
    d'.read path = d.read path := by
  unfold Disk.read
  rw [resolve_congr h]
  cases hr : d.resolve path with
  | error e => rfl
  | ok r =>
    obtain ⟨m, x⟩ := r
    have hx := find?_of_resolve hr
    simp only [Except.map]
    by_cases hfile : ∃ b, d.find? m = some (.file b)
    · obtain ⟨b, hb⟩ := hfile
      have hm : d.fileNames path = some m := fileNames_eq_some.mpr ⟨b, by rw [hr, ← hx, hb]⟩
      rw [hframe m hm, hx]
    · rw [h.find?_of_not_file fun b hb => hfile ⟨b, hb⟩, hx]

/-! ### Disks that hold the same entries -/

/-- Two disks that hold the same entry at every path of names, whatever the order of their
    entries. -/
def Same (d d' : Disk) : Prop :=
  ∀ names, d.find? names = d'.find? names

theorem Same.symm {d d' : Disk} (h : Same d d') : Same d' d := fun names => (h names).symm

theorem Same.sameShape {d d' : Disk} (h : Same d d') : SameShape d d' := fun names => by
  unfold kind
  rw [h names]

/-- Resolving a path on a disk with the same entries gives the same names and entry. -/
theorem Same.resolve {d d' : Disk} (h : Same d d') (path : String) :
    d'.resolve path = d.resolve path := by
  rw [resolve_congr h.sameShape]
  cases hr : d.resolve path with
  | error e => rfl
  | ok r =>
    obtain ⟨m, x⟩ := r
    simp only [Except.map]
    rw [← h m, find?_of_resolve hr]

theorem Same.read {d d' : Disk} (h : Same d d') (path : String) : d'.read path = d.read path := by
  unfold Disk.read
  rw [h.resolve]

theorem Same.fileNames {d d' : Disk} (h : Same d d') (path : String) :
    d'.fileNames path = d.fileNames path := by
  unfold Disk.fileNames
  rw [h.resolve]

/-- Putting back the entry a path of names already holds changes no entry. -/
theorem same_put_self {d : Disk} {names : List String} {b : ByteArray}
    (hf : d.find? names = some (.file b)) : Same (d.put names (.file b)) d := fun m => by
  rw [find?_put (isKnownDir_of_file hf)]
  split
  · rename_i heq
    rw [heq, hf]
  · rfl

/-! ### Writing back what was read -/

/-- A path that ends with `/` ends with an empty name. -/
theorem pathNames_of_getLast? {path : String} (h : path.toList.getLast? = some '/') :
    ∃ xs, pathNames path = xs ++ [""] := by
  obtain ⟨l, hl⟩ := List.getLast?_eq_some_iff.mp h
  refine ⟨(l.splitOn '/').map String.ofList, ?_⟩
  rw [pathNames, hl, List.splitOn_append_cons_self, List.splitOn_nil]
  simp

/-- Following names that end with an empty one stops at a directory. -/
theorem find?_of_walk_append_empty {d : Disk} (xs : List String) :
    ∀ {at_ names : List String}, d.walk at_ (xs ++ [""]) = .ok names → d.find? names = some .dir := by
  induction xs with
  | nil =>
    intro at_ names h
    simp only [List.nil_append, walk] at h
    split at h
    · cases h
    · cases h
    · rename_i hdir
      -- the empty name is short and keeps the walk where it is
      simp [step, nameMax] at h
      subst h
      exact hdir
  | cons x xs ih =>
    intro at_ names h
    simp only [List.cons_append, walk] at h
    split at h
    · cases h
    · cases h
    · split at h
      · cases h
      · exact ih h

/-- A path that reads as a file does not end with `/`. -/
theorem getLast?_of_read {d : Disk} {path : String} {b : ByteArray} (h : d.read path = .ok b) :
    path.toList.getLast? ≠ some '/' := by
  intro hlast
  obtain ⟨xs, hxs⟩ := pathNames_of_getLast? hlast
  obtain ⟨names, hr⟩ := resolve_of_read h
  have hfile := find?_of_resolve hr
  unfold resolve at hr
  split at hr
  · cases hr
  · cases hw : d.walk (origin path) (pathNames path) with
    | error e => rw [hw] at hr; cases hr
    | ok names' =>
      rw [hw] at hr
      simp only [Except.map, Except.ok.injEq, Prod.mk.injEq] at hr
      rw [hxs] at hw
      have hdir := find?_of_walk_append_empty xs hw
      rw [hr.1, hfile] at hdir
      cases hdir

/-- A path that reads as a file can be written: the write puts the new bytes at the file's names. -/
theorem write_of_read {d : Disk} {path : String} {b : ByteArray} (h : d.read path = .ok b)
    (b' : ByteArray) : ∃ names, d.fileNames path = some names ∧ d.find? names = some (.file b) ∧
      d.write path b' = .ok (d.put names (.file b')) := by
  obtain ⟨names, hr⟩ := resolve_of_read h
  refine ⟨names, fileNames_eq_some.mpr ⟨b, hr⟩, find?_of_resolve hr, ?_⟩
  have hslash : (path.toList.getLast? == some '/') = false := by
    simpa using getLast?_of_read h
  have hrefusal : refusal path = none := by
    cases hrf : refusal path with
    | none => rfl
    | some e =>
      unfold resolve at hr
      rw [hrf] at hr
      cases hr
  unfold write
  rw [hrefusal, hslash]
  simp only [hr]

end Disk

end Outline
