/-
Module: Outline.Proofs.Environment
Purpose: What reading the settings from the environment does, for every assignment of values to
  the five variables. Each variable is valid by its own rule: a flag is `true` or `false` once
  trimmed, a depth is a 64-bit unsigned decimal number with an optional plus sign once trimmed, a
  log level is one of the five names once trimmed and lowercased, and a comment character is
  non-blank and on one line as it is given. The settings are read exactly when every variable that
  is set is valid, and they then hold the values the variables write, the defaults where unset.
  Otherwise the error names the first variable that fails: the three parsed ones in the order they
  are read, then the log level, then the comment character. The level of settings that were read
  is the one their level name names.
Main exports: Text.dropPlus, Text.decimalValue, Text.IsWord, Config.FlagText, Config.LevelText,
  Config.CharacterText, Config.EnvValid, Config.ofEnv, Config.Blames
Main statements: Text.readWord_eq_ok_iff, Config.validate_eq_ok_iff,
  Config.fromEnv_checks_in_order
Open obligations: none
-/
import Mathlib
import Outline.Settings.Config
import Outline.Proofs.Redrawing

namespace Outline

namespace Text

/-! ### Decimal numbers -/

/-- A text without one leading plus sign. -/
def dropPlus : List Char → List Char
  | '+' :: ds => ds
  | ds => ds

/-- The value of decimal digits, read from the left. -/
def decimalValue (ds : List Char) : Nat :=
  ds.foldl (fun n c => n * 10 + (c.toNat - '0'.toNat)) 0

/-- A 64-bit unsigned decimal number: after one optional plus sign, a non-empty run of decimal
    digits whose value is below 2^64. -/
def IsWord (cs : List Char) : Prop :=
  dropPlus cs ≠ [] ∧ (∀ c ∈ dropPlus cs, c.isDigit) ∧ decimalValue (dropPlus cs) < 2 ^ 64

/-- Reading more digits never lowers the value. -/
theorem le_foldl_digits (acc : Nat) (ds : List Char) :
    acc ≤ ds.foldl (fun n c => n * 10 + (c.toNat - '0'.toNat)) acc := by
  induction ds generalizing acc with
  | nil => exact Nat.le_refl acc
  | cons c ds ih =>
    rw [List.foldl_cons]
    exact Nat.le_trans (by omega) (ih _)

/-- Digits read on from a value in range: the text is accepted exactly when it is all digits and
    its value stays in range. The range is checked after every digit, but the value only grows, so
    checking the last one is enough. -/
theorem digitsFrom_eq_ok_iff {acc : Nat} (hacc : acc ≤ wordMax) {ds : List Char} {n : Nat} :
    digitsFrom acc ds = .ok n ↔
      (∀ c ∈ ds, c.isDigit) ∧ n = ds.foldl (fun n c => n * 10 + (c.toNat - '0'.toNat)) acc ∧
        n ≤ wordMax := by
  induction ds generalizing acc with
  | nil =>
    simp only [digitsFrom, Except.ok.injEq, List.not_mem_nil, IsEmpty.forall_iff, implies_true,
      List.foldl_nil, true_and]
    constructor
    · rintro rfl
      exact ⟨rfl, hacc⟩
    · rintro ⟨rfl, -⟩
      rfl
  | cons c ds ih =>
    by_cases hc : c.isDigit
    · by_cases hv : acc * 10 + (c.toNat - '0'.toNat) > wordMax
      · -- the value leaves the range at this digit and never comes back
        have hge := le_foldl_digits (acc * 10 + (c.toNat - '0'.toNat)) ds
        simp only [digitsFrom, hc, hv, if_true, reduceCtorEq, false_iff, List.foldl_cons]
        rintro ⟨-, rfl, hn⟩
        omega
      · simp only [digitsFrom, hc, hv, if_true, if_false, List.foldl_cons, List.forall_mem_cons,
          true_and]
        exact ih (by omega)
    · simp only [digitsFrom, hc, Bool.false_eq_true, if_false, reduceCtorEq, List.forall_mem_cons,
        false_and]

/-- Reading a count takes the digits after one optional plus sign; the empty text and a sign
    alone are refused before any digit is read. -/
theorem readWord_eq (cs : List Char) :
    readWord cs =
      if cs = [] then .error .empty
      else if cs = ['+'] ∨ cs = ['-'] then .error .invalidDigit
      else digitsFrom 0 (dropPlus cs) := by
  unfold readWord
  split <;> simp_all [dropPlus]

theorem wordMax_eq : wordMax = 2 ^ 64 - 1 := rfl

/-- A count is read exactly from the texts that write a 64-bit unsigned decimal number, as the
    value they write. -/
theorem readWord_eq_ok_iff {cs : List Char} {n : Nat} :
    readWord cs = .ok n ↔ IsWord cs ∧ n = decimalValue (dropPlus cs) := by
  rw [readWord_eq]
  split_ifs with hnil hsign
  · subst hnil
    simp [IsWord, dropPlus]
  · rcases hsign with rfl | rfl <;> simp [IsWord, dropPlus]
  · -- neither empty nor a sign alone: the digits after the sign are there
    have hne : dropPlus cs ≠ [] := by
      rcases cs with _ | ⟨c, _ | ⟨d, ds⟩⟩
      · exact absurd rfl hnil
      · by_cases hc : c = '+'
        · subst hc
          simp at hsign
        · simp [dropPlus, hc]
      · by_cases hc : c = '+'
        · subst hc
          simp [dropPlus]
        · simp [dropPlus, hc]
    rw [digitsFrom_eq_ok_iff (Nat.zero_le _), IsWord, decimalValue, wordMax_eq]
    constructor
    · rintro ⟨hd, rfl, hn⟩
      exact ⟨⟨hne, hd, by omega⟩, rfl⟩
    · rintro ⟨⟨-, hd, hn⟩, rfl⟩
      exact ⟨hd, rfl, by omega⟩

/-- A refused count is no 64-bit unsigned decimal number. -/
theorem not_isWord_of_readWord_eq_error {cs : List Char} {r : NumberError}
    (h : readWord cs = .error r) : ¬ IsWord cs := by
  intro hword
  rw [readWord_eq_ok_iff.mpr ⟨hword, rfl⟩] at h
  cases h

end Text

namespace Config

/-! ### The rule of each variable -/

/-- A flag: `true` or `false` once trimmed. -/
def FlagText (v : String) : Prop :=
  Text.trimText v = "true" ∨ Text.trimText v = "false"

/-- A log level: one of the five names once trimmed and lowercased. -/
def LevelText (v : String) : Prop :=
  Text.lowercase (Text.trimText v) ∈ ["trace", "debug", "info", "warn", "error"]

/-- A comment character: not blank, and on one line. -/
def CharacterText (v : String) : Prop :=
  Text.trimText v ≠ "" ∧ '\n' ∉ v.toList ∧ '\r' ∉ v.toList

/-- Every variable that is set is valid by its own rule. -/
structure EnvValid (env : String → Option String) : Prop where
  numbered : ∀ v ∈ env "TOC_LINE_NUMBERS", FlagText v
  depth : ∀ v ∈ env "TOC_MAX_DEPTH", Text.IsWord (Text.trimText v).toList
  logJson : ∀ v ∈ env "TOC_LOG_JSON", FlagText v
  logLevel : ∀ v ∈ env "TOC_LOG_LEVEL", LevelText v
  character : ∀ v ∈ env "TOC_CHARACTER", CharacterText v

/-- The settings the variables write: the comment character as given, each other variable's value
    read by its rule, and the defaults where a variable is unset. -/
def ofEnv (env : String → Option String) : Config where
  character := env "TOC_CHARACTER"
  numbered := ((env "TOC_LINE_NUMBERS").map fun v => Text.trimText v == "true").getD false
  depth := ((env "TOC_MAX_DEPTH").map fun v =>
    Text.decimalValue (Text.dropPlus (Text.trimText v).toList)).getD 0
  logLevel := ((env "TOC_LOG_LEVEL").map fun v => Text.lowercase (Text.trimText v)).getD "warn"
  logJson := ((env "TOC_LOG_JSON").map fun v => Text.trimText v == "true").getD false

/-- The error an environment is refused with: the first variable that fails its rule, the three
    parsed ones in the order they are read, then the log level, then the comment character. A
    refused depth may give any of the reasons a number is refused for. -/
inductive Blames (env : String → Option String) : ConfigError → Prop
  | numbered {v : String} : env "TOC_LINE_NUMBERS" = some v → ¬ FlagText v →
      Blames env (.unparsable "TOC_LINE_NUMBERS" Text.boolRefusal)
  | depth {v : String} (r : Text.NumberError) : (∀ u ∈ env "TOC_LINE_NUMBERS", FlagText u) →
      env "TOC_MAX_DEPTH" = some v → ¬ Text.IsWord (Text.trimText v).toList →
      Blames env (.unparsable "TOC_MAX_DEPTH" r.message)
  | logJson {v : String} : (∀ u ∈ env "TOC_LINE_NUMBERS", FlagText u) →
      (∀ u ∈ env "TOC_MAX_DEPTH", Text.IsWord (Text.trimText u).toList) →
      env "TOC_LOG_JSON" = some v → ¬ FlagText v →
      Blames env (.unparsable "TOC_LOG_JSON" Text.boolRefusal)
  | logLevel {v : String} : (∀ u ∈ env "TOC_LINE_NUMBERS", FlagText u) →
      (∀ u ∈ env "TOC_MAX_DEPTH", Text.IsWord (Text.trimText u).toList) →
      (∀ u ∈ env "TOC_LOG_JSON", FlagText u) →
      env "TOC_LOG_LEVEL" = some v → ¬ LevelText v →
      Blames env (.invalidLogLevel (Text.lowercase (Text.trimText v)))
  | character {v : String} : (∀ u ∈ env "TOC_LINE_NUMBERS", FlagText u) →
      (∀ u ∈ env "TOC_MAX_DEPTH", Text.IsWord (Text.trimText u).toList) →
      (∀ u ∈ env "TOC_LOG_JSON", FlagText u) → (∀ u ∈ env "TOC_LOG_LEVEL", LevelText u) →
      env "TOC_CHARACTER" = some v → ¬ CharacterText v →
      Blames env (.invalidCharacter v)

/-! ### Each reader -/

section Readers

variable {ε α β : Type} {x : Except ε α} {f : α → Except ε β}

theorem bind_eq_ok {r : β} : x >>= f = .ok r ↔ ∃ a, x = .ok a ∧ f a = .ok r := by
  cases x <;> simp [bind, Except.bind]

theorem bind_eq_error {e : ε} :
    x >>= f = .error e ↔ x = .error e ∨ ∃ a, x = .ok a ∧ f a = .error e := by
  cases x <;> simp [bind, Except.bind]

end Readers

theorem readFlag_eq_ok_iff {name : String} {raw : Option String} {fallback b : Bool} :
    readFlag name raw fallback = .ok b ↔
      (∀ v ∈ raw, FlagText v) ∧ b = (raw.map fun v => Text.trimText v == "true").getD fallback := by
  cases raw with
  | none => simp [readFlag, eq_comm]
  | some v =>
    simp only [readFlag, Text.readBool, Option.mem_def, Option.some.injEq, forall_eq',
      Option.map_some, Option.getD_some, FlagText]
    by_cases ht : Text.trimText v = "true"
    · simp [ht, eq_comm]
    · by_cases hf : Text.trimText v = "false"
      · simp [hf, eq_comm]
      · simp [ht, hf]

theorem readFlag_eq_error_iff {name : String} {raw : Option String} {fallback : Bool}
    {e : ConfigError} :
    readFlag name raw fallback = .error e ↔
      (∃ v ∈ raw, ¬ FlagText v) ∧ e = .unparsable name Text.boolRefusal := by
  cases raw with
  | none => simp [readFlag]
  | some v =>
    simp only [readFlag, Text.readBool, Option.mem_def, Option.some.injEq, exists_eq_left',
      FlagText]
    by_cases ht : Text.trimText v = "true"
    · simp [ht]
    · by_cases hf : Text.trimText v = "false"
      · simp [hf]
      · simp [ht, hf, eq_comm]

theorem readCount_eq_ok_iff {name : String} {raw : Option String} {fallback n : Nat} :
    readCount name raw fallback = .ok n ↔
      (∀ v ∈ raw, Text.IsWord (Text.trimText v).toList) ∧
        n = (raw.map fun v => Text.decimalValue (Text.dropPlus (Text.trimText v).toList)).getD
          fallback := by
  cases raw with
  | none => simp [readCount, eq_comm]
  | some v =>
    simp only [readCount, Option.mem_def, Option.some.injEq, forall_eq', Option.map_some,
      Option.getD_some]
    cases hw : Text.readWord (Text.trimText v).toList with
    | error r => simp [Text.not_isWord_of_readWord_eq_error hw]
    | ok m =>
      obtain ⟨hword, hm⟩ := Text.readWord_eq_ok_iff.mp hw
      simp [hword, hm, eq_comm]

theorem readCount_eq_error {name : String} {raw : Option String} {fallback : Nat}
    {e : ConfigError} (h : readCount name raw fallback = .error e) :
    (∃ v ∈ raw, ¬ Text.IsWord (Text.trimText v).toList) ∧
      ∃ r : Text.NumberError, e = .unparsable name r.message := by
  cases raw with
  | none => simp [readCount] at h
  | some v =>
    simp only [readCount] at h
    cases hw : Text.readWord (Text.trimText v).toList with
    | error r =>
      rw [hw] at h
      exact ⟨⟨v, rfl, Text.not_isWord_of_readWord_eq_error hw⟩, r, (Except.error.inj h).symm⟩
    | ok m => simp [hw] at h

/-! ### Validation -/

/-- A comment character is blank exactly when it trims to nothing. -/
theorem blankText_iff {v : String} : Text.blankText v = true ↔ Text.trimText v = "" := by
  rw [Text.blankText, Text.trimText, String.ofList_eq_empty_iff, Text.trim_eq_nil_iff,
    List.all_eq_true]

/-- The test validation makes fails exactly on the texts that are no comment character. -/
theorem refusal_eq_false_iff {v : String} :
    (Text.blankText v || v.toList.contains '\n' || v.toList.contains '\r') = false ↔
      CharacterText v := by
  simp only [Bool.eq_false_iff, ne_eq, Bool.or_eq_true, not_or, blankText_iff,
    List.contains_iff_mem, CharacterText, and_assoc]

theorem validateCharacter_eq_ok_iff {v : String} {u : Unit} :
    validateCharacter v = .ok u ↔ CharacterText v := by
  rw [← refusal_eq_false_iff, validateCharacter]
  cases (Text.blankText v || v.toList.contains '\n' || v.toList.contains '\r') <;> simp

theorem validateCharacter_eq_error_iff {v : String} {e : ConfigError} :
    validateCharacter v = .error e ↔ ¬ CharacterText v ∧ e = .invalidCharacter v := by
  rw [← refusal_eq_false_iff, validateCharacter]
  cases (Text.blankText v || v.toList.contains '\n' || v.toList.contains '\r') <;>
    simp [eq_comm]

theorem contains_levelNames {s : String} :
    levelNames.contains s = true ↔ s ∈ ["trace", "debug", "info", "warn", "error"] := by
  simp [levelNames]

/-- Settings pass validation exactly when their level name is one of the five names and their
    comment character, if any, is valid. -/
theorem validate_eq_ok_iff {c : Config} {u : Unit} :
    c.validate = .ok u ↔
      c.logLevel ∈ ["trace", "debug", "info", "warn", "error"] ∧
        ∀ v ∈ c.character, CharacterText v := by
  unfold validate
  by_cases hl : c.logLevel ∈ ["trace", "debug", "info", "warn", "error"]
  · rw [if_pos (contains_levelNames.mpr hl)]
    cases c.character with
    | none => simp [hl]
    | some v => simp [hl, validateCharacter_eq_ok_iff]
  · rw [if_neg (mt contains_levelNames.mp hl)]
    simp [hl]

/-- Validation refuses the level name before it looks at the comment character. -/
theorem validate_eq_error_iff {c : Config} {e : ConfigError} :
    c.validate = .error e ↔
      (c.logLevel ∉ ["trace", "debug", "info", "warn", "error"] ∧
          e = .invalidLogLevel c.logLevel) ∨
        (c.logLevel ∈ ["trace", "debug", "info", "warn", "error"] ∧
          ∃ v ∈ c.character, ¬ CharacterText v ∧ e = .invalidCharacter v) := by
  unfold validate
  by_cases hl : c.logLevel ∈ ["trace", "debug", "info", "warn", "error"]
  · rw [if_pos (contains_levelNames.mpr hl)]
    cases c.character with
    | none => simp [hl]
    | some v => simp [hl, validateCharacter_eq_error_iff]
  · rw [if_neg (mt contains_levelNames.mp hl)]
    simp [hl, eq_comm]

/-- Each of the five names reads back as the level whose name it is. -/
theorem lowercase_name_of_mem {s : String}
    (hs : s ∈ ["trace", "debug", "info", "warn", "error"]) :
    Text.lowercase ((Level.ofName? s).getD .warn).name = s := by
  simp only [List.mem_cons, List.not_mem_nil, or_false] at hs
  rcases hs with rfl | rfl | rfl | rfl | rfl <;> decide +kernel

/-! ### Reading the environment -/

/-- The level name of an environment is one of the five names exactly when the variable, if set,
    is a valid level: unset, it is `warn`. -/
theorem logLevel_mem_iff {raw : Option String} :
    (raw.map fun v => Text.lowercase (Text.trimText v)).getD "warn" ∈
        ["trace", "debug", "info", "warn", "error"] ↔ ∀ v ∈ raw, LevelText v := by
  cases raw <;> simp [LevelText]

/-- The settings are read exactly from a valid environment, as the values its variables write. -/
theorem fromEnv_eq_ok_iff {env : String → Option String} {cfg : Config} :
    fromEnv env = .ok cfg ↔ EnvValid env ∧ cfg = ofEnv env := by
  unfold fromEnv
  simp only [bind_eq_ok, readFlag_eq_ok_iff, readCount_eq_ok_iff, validate_eq_ok_iff,
    logLevel_mem_iff]
  constructor
  · rintro ⟨_, ⟨hnum, rfl⟩, _, ⟨hdepth, rfl⟩, _, ⟨hjson, rfl⟩, -, ⟨hlevel, hch⟩, hcfg⟩
    exact ⟨⟨hnum, hdepth, hjson, hlevel, hch⟩, (Except.ok.inj hcfg).symm⟩
  · rintro ⟨⟨hnum, hdepth, hjson, hlevel, hch⟩, rfl⟩
    exact ⟨_, ⟨hnum, rfl⟩, _, ⟨hdepth, rfl⟩, _, ⟨hjson, rfl⟩, (), ⟨hlevel, hch⟩, rfl⟩

/-- A refused environment is refused for the first variable that fails its rule. -/
theorem blames_of_fromEnv {env : String → Option String} {e : ConfigError}
    (h : fromEnv env = .error e) : Blames env e := by
  unfold fromEnv at h
  rcases bind_eq_error.mp h with h | ⟨_, hnum, h⟩
  · obtain ⟨⟨v, hv, hbad⟩, rfl⟩ := readFlag_eq_error_iff.mp h
    exact .numbered hv hbad
  have hnum := (readFlag_eq_ok_iff.mp hnum).1
  rcases bind_eq_error.mp h with h | ⟨_, hdepth, h⟩
  · obtain ⟨⟨v, hv, hbad⟩, r, rfl⟩ := readCount_eq_error h
    exact .depth r hnum hv hbad
  have hdepth := (readCount_eq_ok_iff.mp hdepth).1
  rcases bind_eq_error.mp h with h | ⟨_, hjson, h⟩
  · obtain ⟨⟨v, hv, hbad⟩, rfl⟩ := readFlag_eq_error_iff.mp h
    exact .logJson hnum hdepth hv hbad
  have hjson := (readFlag_eq_ok_iff.mp hjson).1
  rcases bind_eq_error.mp h with h | ⟨_, -, h⟩
  · rcases validate_eq_error_iff.mp h with ⟨hlevel, rfl⟩ | ⟨hlevel, v, hv, hbad, rfl⟩
    · -- an unset level name is `warn`, so the refused one is set
      cases hraw : env "TOC_LOG_LEVEL" with
      | none => simp [hraw] at hlevel
      | some v =>
        simp only [Option.map_some, Option.getD_some]
        exact .logLevel hnum hdepth hjson hraw (by simpa [hraw, LevelText] using hlevel)
    · exact .character hnum hdepth hjson (logLevel_mem_iff.mp hlevel) hv hbad
  · exact absurd h (by simp [pure, Except.pure])

/-- Settings that were read log at the level their level name names. -/
theorem level_of_fromEnv {env : String → Option String} {cfg : Config}
    (h : fromEnv env = .ok cfg) : Text.lowercase cfg.level.name = cfg.logLevel := by
  obtain ⟨hvalid, rfl⟩ := fromEnv_eq_ok_iff.mp h
  exact lowercase_name_of_mem (logLevel_mem_iff.mpr hvalid.logLevel)

/-- Reading the settings from an environment, for every assignment of values to the five
    variables: they are read exactly when every variable that is set is valid, and they are then
    the values the variables write; otherwise the error blames the first variable that fails; and
    settings that were read log at the level their level name names. -/
theorem fromEnv_checks_in_order (env : String → Option String) :
    (∀ cfg, fromEnv env = .ok cfg ↔ EnvValid env ∧ cfg = ofEnv env) ∧
      (∀ e, fromEnv env = .error e → Blames env e) ∧
      ∀ cfg, fromEnv env = .ok cfg → Text.lowercase cfg.level.name = cfg.logLevel :=
  ⟨fun _ => fromEnv_eq_ok_iff, fun _ => blames_of_fromEnv, fun _ => level_of_fromEnv⟩

end Config

end Outline
