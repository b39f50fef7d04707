/-
Module: Outline.Proofs.Shadowing
Purpose: Registrations stack. Each of the three tables of a registry answers a lookup with the
  value of the newest entry that lists the extension, lowercased in ASCII, the entries the
  registry started with counting as the oldest; with no such entry it answers its fallback. A
  registration goes into one table only, so it changes no lookup of the other two.
Main exports: Registration, Registry.register, Registry.registerAll, Table.Newest, Table.Answers
Main statements: Registry.table_registerAll, Table.Newest.unique, Table.find?_eq_some_iff, Table.getD_find?_eq_iff,
  Registry.lookups_answer_newest_entry
Open obligations: none
-/
import Outline.Format.Registry

namespace Outline

/-- One registration call: a comment character, delimiters or a heading spelling for a list of
    extensions. -/
inductive Registration where
  | character (extensions : List String) (character : String)
  | delimiters (extensions : List String) (d : Delimiters)
  | spelling (extensions : List String) (s : Spelling)

namespace Registration

/-- The entry a registration adds to the comment character table, if any. -/
def characterEntry : Registration → Option (List String × String)
  | .character extensions c => some (extensions, c)
  | _ => none

/-- The entry a registration adds to the delimiter table, if any. -/
def delimiterEntry : Registration → Option (List String × Delimiters)
  | .delimiters extensions d => some (extensions, d)
  | _ => none

/-- The entry a registration adds to the spelling table, if any. -/
def spellingEntry : Registration → Option (List String × Spelling)
  | .spelling extensions s => some (extensions, s)
  | _ => none

end Registration

namespace Registry

/-- Make one registration call. -/
def register (r : Registry) : Registration → Registry
  | .character extensions c => r.addCharacter extensions c
  | .delimiters extensions d => r.addDelimiters extensions d
  | .spelling extensions s => r.addSpelling extensions s

/-- Make registration calls in order. -/
def registerAll (r : Registry) (regs : List Registration) : Registry :=
  regs.foldl register r

/-! ### What a registration adds to each table -/

section Tables

variable (r : Registry) (reg : Registration) (regs : List Registration)

theorem characterTable_register :
    (r.register reg).characterTable = r.characterTable ++ reg.characterEntry.toList := by
  cases reg <;> simp [register, addCharacter, addDelimiters, addSpelling,
    Registration.characterEntry]

theorem delimiterTable_register :
    (r.register reg).delimiterTable = r.delimiterTable ++ reg.delimiterEntry.toList := by
  cases reg <;> simp [register, addCharacter, addDelimiters, addSpelling,
    Registration.delimiterEntry]

theorem spellingTable_register :
    (r.register reg).spellingTable = r.spellingTable ++ reg.spellingEntry.toList := by
  cases reg <;> simp [register, addCharacter, addDelimiters, addSpelling,
    Registration.spellingEntry]

/-- After a run of registrations a table holds the registry's own entries followed by those the
    calls add to it, in call order, for any table a call extends by its own entry. -/
theorem table_registerAll {α : Type} (table : Registry → Table α)
    (entry : Registration → Option (List String × α))
    (hstep : ∀ r reg, table (r.register reg) = table r ++ (entry reg).toList) :
    table (r.registerAll regs) = table r ++ regs.filterMap entry := by
  induction regs generalizing r with
  | nil => simp [registerAll]
  | cons reg regs ih =>
    simp only [registerAll, List.foldl_cons] at ih ⊢
    rw [ih, hstep, List.filterMap_cons]
    cases entry reg <;> simp

end Tables

end Registry

/-! ### The newest entry -/

namespace Table

variable {α : Type} (t : Table α) (key : String) (fallback : α)

/-- `v` is the value of the newest entry that lists `key`: some entry lists it with that value
    and no later entry lists it. -/
def Newest (v : α) : Prop :=
  ∃ older extensions newer, t = older ++ (extensions, v) :: newer ∧ key ∈ extensions ∧
    ∀ e ∈ newer, key ∉ e.1

/-- The answer a lookup of `key` should give: the value of the newest entry listing it, or the
    fallback when no entry lists it. -/
def Answers (v : α) : Prop :=
  Newest t key v ∨ ((∀ e ∈ t, key ∉ e.1) ∧ v = fallback)

variable {t key}

/-- Only one value is the newest: two entries listing the key, each the last to list it, are
    the same entry. -/
theorem Newest.unique {v w : α} (hv : Newest t key v) (hw : Newest t key w) : v = w := by
  obtain ⟨older, exts, newer, rfl, hkey, hlast⟩ := hv
  obtain ⟨older', exts', newer', heq, hkey', hlast'⟩ := hw
  -- split the two ways of writing the table at the earlier of the two entries: unless they are
  -- the same entry, the later one stands among the entries after the earlier
  rcases List.append_eq_append_iff.mp heq with ⟨a, -, hsplit⟩ | ⟨c, -, hsplit⟩
  · cases a with
    | nil => simp only [List.nil_append, List.cons.injEq, Prod.mk.injEq] at hsplit
             exact hsplit.1.2
    | cons y a =>
      simp only [List.cons_append, List.cons.injEq] at hsplit
      exact absurd hkey' (hlast (exts', w) (by simp [hsplit.2]))
  · cases c with
    | nil => simp only [List.nil_append, List.cons.injEq, Prod.mk.injEq] at hsplit
             exact hsplit.1.2.symm
    | cons y c =>
      simp only [List.cons_append, List.cons.injEq] at hsplit
      exact absurd hkey (hlast' (exts, v) (by simp [hsplit.2]))

theorem find?_eq_some_iff {x : String} {v : α} : t.find? x = some v ↔ Newest t (lowerAscii x) v := by
  simp only [find?, Option.map_eq_some_iff, List.find?_eq_some_iff_append]
  constructor
  · rintro ⟨⟨exts, w⟩, ⟨hkey, newer, older, hrev, hnewer⟩, rfl⟩
    refine ⟨older.reverse, exts, newer.reverse, ?_, ?_, ?_⟩
    · rw [← List.reverse_reverse t, hrev]
      simp
    · simpa using hkey
    · intro e he
      simpa using hnewer e (List.mem_reverse.mp he)
  · rintro ⟨older, exts, newer, rfl, hkey, hnewer⟩
    refine ⟨(exts, v), ⟨by simpa using hkey, newer.reverse, older.reverse, by simp, ?_⟩, rfl⟩
    intro e he
    simpa using hnewer e (List.mem_reverse.mp he)

theorem find?_eq_none_iff {x : String} : t.find? x = none ↔ ∀ e ∈ t, lowerAscii x ∉ e.1 := by
  simp [find?, List.find?_eq_none]

/-- A lookup with a fallback gives exactly the answer the table should give. -/
theorem getD_find?_eq_iff {x : String} {v : α} :
    (t.find? x).getD fallback = v ↔ Answers t (lowerAscii x) fallback v := by
  cases hfind : t.find? x with
  | none =>
    have hnone := find?_eq_none_iff.mp hfind
    -- no entry lists the key, so nothing is the newest
    have hnot : ¬ Newest t (lowerAscii x) v := fun ⟨_, exts, _, ht, hkey, _⟩ =>
      hnone (exts, v) (by simp [ht]) hkey
    simp only [Option.getD_none, Answers, hnot, false_or]
    exact ⟨fun h => ⟨hnone, h.symm⟩, fun h => h.2.symm⟩
  | some u =>
    have hu := find?_eq_some_iff.mp hfind
    simp only [Option.getD_some, Answers]
    constructor
    · rintro rfl
      exact .inl hu
    · rintro (hv | ⟨hnone, -⟩)
      · exact hu.unique hv
      · obtain ⟨_, exts, _, ht, hkey, _⟩ := hu
        exact absurd hkey (hnone (exts, u) (by simp [ht]))

end Table

/-! ### Lookups after registrations -/

namespace Registry

/-- After any registration calls on a registry, each of its three lookups answers an extension
    with the value of the newest entry of its own table listing the extension lowercased in
    ASCII, or with its fallback when no entry does: the registry's own entries count as the
    oldest, in table order, and then the entries of the calls for that table, in call order.
    Calls for the other two tables add no entry to it. Starting from `Registry.empty` or
    `Registry.builtin` gives the empty and the built-in registries. -/
theorem lookups_answer_newest_entry (r : Registry) (regs : List Registration) (x c : String)
    (d : Delimiters) (s : Spelling) :
    ((r.registerAll regs).character x = c ↔
      Table.Answers (r.characterTable ++ regs.filterMap Registration.characterEntry)
        (lowerAscii x) "#" c) ∧
    ((r.registerAll regs).delimiters x = d ↔
      Table.Answers (r.delimiterTable ++ regs.filterMap Registration.delimiterEntry)
        (lowerAscii x) Delimiters.none d) ∧
    ((r.registerAll regs).spelling x = s ↔
      Table.Answers (r.spellingTable ++ regs.filterMap Registration.spellingEntry)
        (lowerAscii x) .bars s) := by
  refine ⟨?_, ?_, ?_⟩
  · rw [character, table_registerAll r regs characterTable _ characterTable_register]
    exact Table.getD_find?_eq_iff _
  · rw [delimiters, table_registerAll r regs delimiterTable _ delimiterTable_register]
    exact Table.getD_find?_eq_iff _
  · rw [spelling, table_registerAll r regs spellingTable _ spellingTable_register]
    exact Table.getD_find?_eq_iff _

example : (builtin.registerAll [.character ["rs"] "#", .spelling ["md"] .bars]).spelling "MD" =
    .bars := by decide +kernel

example : (builtin.registerAll [.spelling ["MD"] .bars]).spelling "MD" = .repeated '#' := by
  decide +kernel

end Registry

end Outline
