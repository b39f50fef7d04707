/-
Module: Outline.Proofs.Quiet
Purpose: The lines of an outline block pass quietly through the reader of every built-in profile
  but HTML. A profile is what the built-in tables give one extension: a spelling, a comment
  character and delimiters. Every built-in comment character is fit to open the lines of a box,
  and for each spelling with a line scanner the drawn lines, the delimiter lines and the blank
  line are quiet: no heading, no change of state, and no heading made of the line above. HTML
  reads the whole text; a text whose only `<` opens a comment has no heading elements.
Main exports: Tree.fitCharacter, Registry.builtinCharacterValues, Registry.builtinDelimiterValues,
  Screened
Main statements: Registry.fitCharacter_builtin_character, Registry.builtin_roff,
  Registry.builtin_html, builtin_screened, Html.read_comment
Open obligations: none
-/
import Mathlib
import Outline.Proofs.Readers
import Outline.Proofs.TocLines

namespace Outline

/-! ### Comment characters fit for a box -/

namespace Tree

/-- A comment character fit to open the lines of a box: it opens with a character that is no
    white space and opens neither fenced code nor a POD command, and it holds no space, line
    feed, rule or connector. -/
def fitCharacter : List Char → Bool
  | [] => false
  | c :: cs => !Text.isBlank c && c != '`' && c != '~' && c != '=' &&
      (c :: cs).all fun x => x != ' ' && x != '\n' && x != '─' && x != '├' && x != '└'

section Fit

variable {c : List Char} (hc : fitCharacter c = true)
include hc

theorem fitCharacter_head : ∃ x xs, c = x :: xs ∧ Text.isBlank x = false ∧ x ≠ '`' ∧ x ≠ '~' ∧
    x ≠ '=' := by
  cases c with
  | nil => simp [fitCharacter] at hc
  | cons x xs =>
    simp only [fitCharacter, Bool.and_eq_true, Bool.not_eq_true', bne_iff_ne, ne_eq] at hc
    exact ⟨x, xs, rfl, hc.1.1.1.1, hc.1.1.1.2, hc.1.1.2, hc.1.2⟩

theorem fitCharacter_mem : ∀ x ∈ c, x ≠ ' ' ∧ x ≠ '\n' ∧ x ≠ '─' ∧ x ≠ '├' ∧ x ≠ '└' := by
  cases c with
  | nil => simp
  | cons y ys =>
    simp only [fitCharacter, Bool.and_eq_true, List.all_eq_true, bne_iff_ne, ne_eq] at hc
    intro x hx
    have h := hc.2 x hx
    exact ⟨h.1.1.1.1, h.1.1.1.2, h.1.1.2, h.1.2, h.2⟩

theorem plain_of_fitCharacter : Plain c := fun x hx =>
  ⟨(fitCharacter_mem hc x hx).2.2.2.1, (fitCharacter_mem hc x hx).2.2.2.2⟩

end Fit

end Tree

/-! ### What the built-in tables give an extension -/

namespace Registry

/-- A lookup finds an entry that names the lowercased extension. -/
theorem Table.find?_spec {α : Type} {t : Table α} {e : String} {v : α} (h : t.find? e = some v) :
    ∃ entry ∈ t, lowerAscii e ∈ entry.1 ∧ entry.2 = v := by
  obtain ⟨entry, hf, rfl⟩ := Option.map_eq_some_iff.mp h
  have hp := List.find?_some hf
  exact ⟨entry, List.mem_reverse.mp (List.mem_of_find?_eq_some hf), List.contains_iff_mem.mp hp,
    rfl⟩

theorem Table.find?_eq {α : Type} (t : Table α) (e : String) :
    t.find? e = (t.reverse.find? fun entry => entry.1.contains (lowerAscii e)).map Prod.snd := rfl

/-- The comment characters the built-in tables can give. -/
def builtinCharacterValues : List String :=
  "#" :: builtinCharacters.map Prod.snd

/-- The delimiters the built-in tables can give. -/
def builtinDelimiterValues : List Delimiters :=
  Delimiters.none :: builtinDelimiters.map Prod.snd

theorem builtin_character_mem (e : String) : builtin.character e ∈ builtinCharacterValues := by
  unfold character
  cases h : builtin.characterTable.find? e with
  | none => exact List.mem_cons_self
  | some v =>
    obtain ⟨entry, hmem, -, rfl⟩ := Table.find?_spec h
    exact List.mem_cons_of_mem _ (List.mem_map_of_mem hmem)

theorem builtin_delimiters_mem (e : String) : builtin.delimiters e ∈ builtinDelimiterValues := by
  unfold delimiters
  cases h : builtin.delimiterTable.find? e with
  | none => exact List.mem_cons_self
  | some v =>
    obtain ⟨entry, hmem, -, rfl⟩ := Table.find?_spec h
    exact List.mem_cons_of_mem _ (List.mem_map_of_mem hmem)

theorem fitCharacter_of_mem {c : String} (hc : c ∈ builtinCharacterValues) :
    Tree.fitCharacter c.toList = true := by
  have hall : ∀ c ∈ builtinCharacterValues, Tree.fitCharacter c.toList = true := by decide
  exact hall c hc

theorem fitCharacter_builtin_character (e : String) :
    Tree.fitCharacter (builtin.character e).toList = true :=
  fitCharacter_of_mem (builtin_character_mem e)

/-- A spelling other than comment bars comes from an entry that names the extension. -/
theorem builtin_spelling_entry {e : String} {s : Spelling} (h : builtin.spelling e = s)
    (hs : s ≠ .bars) : ∃ entry ∈ builtinSpellings, lowerAscii e ∈ entry.1 ∧ entry.2 = s := by
  unfold spelling at h
  cases hf : builtin.spellingTable.find? e with
  | none => rw [hf] at h; exact absurd h.symm hs
  | some v =>
    rw [hf, Option.getD_some] at h
    subst h
    exact Table.find?_spec hf

/-- What the newest entries naming an extension's lowercase form give is its comment character
    and its delimiters, the defaults standing in where no entry names it. -/
theorem builtin_of_entries {e : String} {c : Option String} {d : Option Delimiters}
    (hc : (builtinCharacters.reverse.find? fun entry => entry.1.contains (lowerAscii e)).map
      Prod.snd = c)
    (hd : (builtinDelimiters.reverse.find? fun entry => entry.1.contains (lowerAscii e)).map
      Prod.snd = d) :
    builtin.character e = c.getD "#" ∧ builtin.delimiters e = d.getD Delimiters.none := by
  refine ⟨?_, ?_⟩
  · rw [character, Table.find?_eq]
    exact congrArg (·.getD "#") hc
  · rw [delimiters, Table.find?_eq]
    exact congrArg (·.getD Delimiters.none) hd

/-- Manual pages are commented by `.\"` and have no delimiters. -/
theorem builtin_roff {e : String} (h : builtin.spelling e = .roff) :
    builtin.character e = ".\\\"" ∧ builtin.delimiters e = .none := by
  obtain ⟨entry, hmem, hkey, hv⟩ := builtin_spelling_entry h (by decide)
  have hman : ∀ entry ∈ builtinSpellings, entry.2 = .roff → entry.1 = manSections := by decide
  have hk : lowerAscii e ∈ manSections := hman entry hmem hv ▸ hkey
  have hall : ∀ k ∈ manSections,
      (builtinCharacters.reverse.find? fun entry => entry.1.contains k).map Prod.snd =
        some ".\\\"" ∧
      (builtinDelimiters.reverse.find? fun entry => entry.1.contains k).map Prod.snd = none := by
    decide
  obtain ⟨h1, h2⟩ := hall _ hk
  exact builtin_of_entries h1 h2

/-- HTML files are commented by `#` inside `<!--` and `-->`. -/
theorem builtin_html {e : String} (h : builtin.spelling e = .html) :
    builtin.character e = "#" ∧ builtin.delimiters e = ⟨["<!--"], ["-->"]⟩ := by
  obtain ⟨entry, hmem, hkey, hv⟩ := builtin_spelling_entry h (by decide)
  have hhtml : ∀ entry ∈ builtinSpellings, entry.2 = .html → entry.1 = ["htm", "html", "xhtml"] := by
    decide
  have hk : lowerAscii e ∈ ["htm", "html", "xhtml"] := hhtml entry hmem hv ▸ hkey
  have hall : ∀ k ∈ ["htm", "html", "xhtml"],
      (builtinCharacters.reverse.find? fun entry => entry.1.contains k).map Prod.snd = none ∧
      (builtinDelimiters.reverse.find? fun entry => entry.1.contains k).map Prod.snd =
        some ⟨["<!--"], ["-->"]⟩ := by
    decide
  obtain ⟨h1, h2⟩ := hall _ hk
  exact builtin_of_entries h1 h2

/-- The repeated markers of the built-in spellings. -/
theorem builtin_repeated {e : String} {m : Char} (h : builtin.spelling e = .repeated m) :
    m = '#' ∨ m = '=' ∨ m = '*' := by
  obtain ⟨entry, hmem, -, hv⟩ := builtin_spelling_entry h (by simp)
  have hall : ∀ entry ∈ builtinSpellings, ∀ m, entry.2 = .repeated m →
      m = '#' ∨ m = '=' ∨ m = '*' := by
    intro entry hmem m hm
    simp only [builtinSpellings, List.mem_cons, List.not_mem_nil, or_false] at hmem
    rcases hmem with rfl | rfl | rfl | rfl | rfl | rfl | rfl <;>
      simp only [Spelling.repeated.injEq, reduceCtorEq] at hm <;> subst hm <;> simp
  exact hall entry hmem m hv

end Registry

/-! ### Quiet lines, reader by reader -/

/-- Trimming the end of a text stops at its last character that is no white space. -/
theorem Text.trimRight_append_solid {A B : List Char} {x : Char} (hx : Text.isBlank x = false) :
    Text.trimRight (A ++ x :: B) = A ++ x :: Text.trimRight B := by
  unfold Text.trimRight
  rw [List.reverse_append, List.reverse_cons, List.append_assoc, List.dropWhile_append]
  split
  · rename_i hnil
    rw [List.isEmpty_iff.mp hnil]
    simp [hx]
  · simp

theorem Text.dropPrefix?_append (p r : List Char) : Text.dropPrefix? p (p ++ r) = some r := by
  induction p with
  | nil => rfl
  | cons x p ih => simp [Text.dropPrefix?, ih]

section Drawn

variable {c l : List Char} (hc : Tree.fitCharacter c = true)
  (hl : Tree.Opens (· ∈ Tree.openingGlyphs) c l)
include hc hl

theorem Bars.matchLine_drawn : Bars.matchLine c l = none := by
  obtain ⟨x, xs, rfl, hx, -⟩ := Tree.fitCharacter_head hc
  obtain ⟨g, rest, rfl, hg⟩ := hl
  have hskips : Bars.skips ((x :: xs) ++ ' ' :: g :: rest) = [(x :: xs) ++ ' ' :: g :: rest] := by
    simp [Bars.skips, hx]
  have hdrop : Text.dropPrefix? ((x :: xs) ++ [' ']) ((x :: xs) ++ ' ' :: g :: rest) =
      some (g :: rest) := by
    simpa using Text.dropPrefix?_append ((x :: xs) ++ [' ']) (g :: rest)
  have hbar : Bars.afterBar (g :: rest) = none := by
    have hg' : g ≠ '#' := by
      simp only [Tree.openingGlyphs, List.mem_cons, List.not_mem_nil, or_false] at hg
      rcases hg with rfl | rfl | rfl | rfl <;> decide
    simp [Bars.afterBar, hg', Bars.barLevel]
  rw [Bars.matchLine, hskips, List.findSome?_singleton, hdrop, Option.bind_some, hbar]

theorem Marker.isFence_drawn : Marker.isFence l = false := by
  obtain ⟨x, xs, rfl, hx, hb, ht, -⟩ := Tree.fitCharacter_head hc
  obtain ⟨g, rest, rfl, -⟩ := hl
  have htrim : Text.trimLeft (x :: (xs ++ ' ' :: g :: rest)) = x :: (xs ++ ' ' :: g :: rest) := by
    simp [Text.trimLeft, hx]
  simp only [List.cons_append]
  simp [Marker.isFence, htrim, List.isPrefixOf, hb.symm, ht.symm]

theorem Marker.titleAt_drawn {m : Char} {k : Nat} (hk : k ≤ c.length) :
    Marker.titleAt m l k = none := by
  obtain ⟨g, rest, rfl, hg⟩ := hl
  unfold Marker.titleAt
  rcases Nat.lt_or_ge k c.length with hlt | hge
  · -- inside the comment character the title would have to start after a space it does not hold
    rw [List.drop_append_of_le_length hlt.le]
    obtain ⟨y, ys, hy⟩ : ∃ y ys, c.drop k = y :: ys :=
      List.exists_cons_of_ne_nil (by simpa using hlt)
    have hy' : y ≠ ' ' := (Tree.fitCharacter_mem hc y (List.mem_of_mem_drop (hy ▸ List.mem_cons_self))).1
    rw [hy]
    split
    · rename_i heq
      simp only [List.cons_append, List.cons.injEq] at heq
      exact absurd heq.1 hy'
    · rfl
  · have hkc : k = c.length := by omega
    subst hkc
    rw [List.drop_left]
    have hbar : Marker.barred m g = true := by
      simp only [Tree.openingGlyphs, List.mem_cons, List.not_mem_nil, or_false] at hg
      rcases hg with rfl | rfl | rfl | rfl <;> simp [Marker.barred]
    simp [hbar]

theorem Marker.matchLine_drawn {m : Char} (hm : m ≠ ' ') : Marker.matchLine m l = none := by
  have hrun : (l.takeWhile (· = m)).length ≤ c.length := by
    obtain ⟨g, rest, rfl, -⟩ := hl
    rw [List.takeWhile_append]
    split
    · simp [Ne.symm hm]
    · exact (List.takeWhile_prefix _).length_le
  unfold Marker.matchLine
  rw [List.findSome?_eq_none_iff]
  intro k hk
  simp only [List.mem_map, List.mem_reverse, List.mem_range] at hk
  obtain ⟨j, hj, rfl⟩ := hk
  rw [Marker.titleAt_drawn hc hl (by omega)]
  rfl

theorem Underline.adornment?_drawn : Underline.adornment? l = none := by
  obtain ⟨x, xs, rfl, hx, -⟩ := Tree.fitCharacter_head hc
  obtain ⟨g, rest, rfl, hg⟩ := hl
  have hgb : Text.isBlank g = false := by
    simp only [Tree.openingGlyphs, List.mem_cons, List.not_mem_nil, or_false] at hg
    rcases hg with rfl | rfl | rfl | rfl <;> decide
  -- the space after the comment character survives trimming, and differs from its first character
  have ht : Text.trimRight ((x :: xs) ++ ' ' :: g :: rest) =
      x :: (xs ++ ' ' :: g :: Text.trimRight rest) := by
    have hsplit : (x :: xs) ++ ' ' :: g :: rest = ((x :: xs) ++ [' ']) ++ g :: rest := by simp
    rw [hsplit, Text.trimRight_append_solid hgb]
    simp
  unfold Underline.adornment?
  rw [ht]
  have hsp : (xs ++ ' ' :: g :: Text.trimRight rest).all (· = x) = false := by
    have hxs : x ≠ ' ' := fun h => by simp [h, Text.isBlank_space] at hx
    simp only [List.all_eq_false]
    exact ⟨' ', by simp, by simpa using Ne.symm hxs⟩
  simp [hsp]

end Drawn

/-- Roff reads a macro without arguments with the line below, unless that line is a request or
    blank. -/
theorem Roff.effectiveRaw_screened {raw l : List Char} (hl : l.head? = some '.' ∨ l = []) :
    Roff.effectiveRaw raw (some l) = Roff.effectiveRaw raw none := by
  unfold Roff.effectiveRaw
  rcases hl with hl | rfl <;> simp [*]

theorem Underline.titleOf_of_adornment? {line below : List Char} {n : Nat}
    (hb : Underline.adornment? below = none) : Underline.titleOf line below n = none := by
  unfold Underline.titleOf
  cases line with
  | nil => rfl
  | cons x xs => simp [hb]

theorem Pod.matchLine_of_head {l : List Char} (h : l.head? ≠ some '=') : Pod.matchLine l = none := by
  unfold Pod.matchLine
  split
  · simp at h
  · rfl

theorem Roff.matchLine_of_head {l : List Char} (h : l.head? ≠ some '.') : Roff.matchLine l = none := by
  unfold Roff.matchLine
  split
  · simp at h
  · rfl

/-! ### Screened profiles -/

/-- A reader for which a block is invisible: every drawn line of the comment character, every
    delimiter line and the blank line pass quietly, and the blank line is no heading whatever
    stands below it. -/
structure Screened (S : Scanner) (character : List Char) (delimiters : Delimiters) : Prop where
  drawn : ∀ l, Tree.Opens (· ∈ Tree.openingGlyphs) character l → S.Quiet l
  delimiter : ∀ l ∈ delimiters.before ++ delimiters.after, S.Quiet l.toList
  blank : S.Quiet []
  blank_silent : S.Silent []

section Screened

open Registry

theorem Bars.screened {character : String} {d : Delimiters} (decorated : Bool)
    (hc : character ∈ builtinCharacterValues) (hd : d ∈ builtinDelimiterValues) :
    Screened (Bars.scanner character.toList decorated) character.toList d := by
  have hdelim : ∀ c ∈ builtinCharacterValues, ∀ d ∈ builtinDelimiterValues,
      ∀ l ∈ d.before ++ d.after, Bars.matchLine c.toList l.toList = none := by
    decide
  have hquiet : ∀ l, Bars.matchLine character.toList l = none →
      (Bars.scanner character.toList decorated).Quiet l := fun l hl =>
    ⟨fun _ => by simp [Bars.scanner, hl], fun _ => rfl, fun _ _ => rfl⟩
  have hfit := fitCharacter_of_mem hc
  have hblank : Bars.matchLine character.toList [] = none := by
    obtain ⟨x, xs, hx, -⟩ := Tree.fitCharacter_head hfit
    simp [Bars.matchLine, Bars.skips, hx, Text.dropPrefix?]
  exact ⟨fun l hl => hquiet l (Bars.matchLine_drawn hfit hl),
    fun l hl => hquiet _ (hdelim _ hc _ hd _ hl), hquiet [] hblank,
    fun _ _ => by simp [Bars.scanner, hblank]⟩

theorem Marker.screened {m : Char} (hm : m = '#' ∨ m = '=' ∨ m = '*') (fences : Bool)
    {character : String} {d : Delimiters} (hc : character ∈ builtinCharacterValues)
    (hd : d ∈ builtinDelimiterValues) :
    Screened (Marker.scanner m fences) character.toList d := by
  have hfence : ∀ d ∈ builtinDelimiterValues, ∀ l ∈ d.before ++ d.after,
      Marker.isFence l.toList = false := by
    decide
  have hmatch : ∀ l ∈ d.before ++ d.after, Marker.matchLine m l.toList = none := by
    rcases hm with rfl | rfl | rfl
    · have hall : ∀ d ∈ builtinDelimiterValues, ∀ l ∈ d.before ++ d.after,
          Marker.matchLine '#' l.toList = none := by
        decide
      exact hall d hd
    · have hall : ∀ d ∈ builtinDelimiterValues, ∀ l ∈ d.before ++ d.after,
          Marker.matchLine '=' l.toList = none := by
        decide
      exact hall d hd
    · have hall : ∀ d ∈ builtinDelimiterValues, ∀ l ∈ d.before ++ d.after,
          Marker.matchLine '*' l.toList = none := by
        decide
      exact hall d hd
  have hquiet : ∀ l, Marker.isFence l = false → Marker.matchLine m l = none →
      (Marker.scanner m fences).Quiet l := fun l hf hl =>
    ⟨fun (fenced : Bool) => by rw [Marker.heading_scanner, hf, hl]; simp,
      fun (fenced : Bool) => by rw [Marker.step_scanner, hf, Bool.and_false]; rfl, fun _ _ => rfl⟩
  have hfit := fitCharacter_of_mem hc
  have hspace : m ≠ ' ' := by rcases hm with rfl | rfl | rfl <;> decide
  refine ⟨fun l hl => hquiet l (Marker.isFence_drawn hfit hl) (Marker.matchLine_drawn hfit hl hspace),
    fun l hl => hquiet _ (hfence d hd l hl) (hmatch l hl),
    hquiet [] (by decide) rfl, fun (fenced : Bool) _ => ?_⟩
  rw [Marker.heading_scanner, (by decide : Marker.isFence [] = false)]
  simp [Marker.matchLine]

theorem Underline.screened {character : String} {d : Delimiters}
    (hc : character ∈ builtinCharacterValues) (hd : d ∈ builtinDelimiterValues) :
    Screened Underline.scanner character.toList d := by
  have hdelim : ∀ d ∈ builtinDelimiterValues, ∀ l ∈ d.before ++ d.after,
      Underline.adornment? l.toList = none := by
    decide
  have hquiet : ∀ l, Underline.adornment? l = none → Underline.scanner.Quiet l := fun l hl =>
    ⟨fun _ => rfl, fun _ => rfl,
      fun _ _ => by simp [Underline.scanner, Underline.titleOf_of_adornment? hl]⟩
  refine ⟨fun l hl => hquiet l (Underline.adornment?_drawn (fitCharacter_of_mem hc) hl),
    fun l hl => hquiet _ (hdelim d hd l hl), hquiet [] rfl, fun _ below => ?_⟩
  cases below <;> rfl

theorem Roff.screened : Screened Roff.scanner ".\\\"".toList Delimiters.none := by
  have hquiet : ∀ l, Roff.matchLine l = none → (l.head? = some '.' ∨ l = []) →
      Roff.scanner.Quiet l := fun l hl hh =>
    ⟨fun _ => by simp [Roff.scanner, hl], fun _ => rfl,
      fun _ _ => by simp only [Roff.scanner, Roff.effectiveRaw_screened hh]⟩
  refine ⟨fun l hl => ?_, fun l hl => by simp [Delimiters.none] at hl, hquiet [] rfl (Or.inr rfl),
    fun _ _ => rfl⟩
  obtain ⟨g, rest, rfl, -⟩ := hl
  exact hquiet _ rfl (Or.inl rfl)

theorem Pod.screened {character : String} {d : Delimiters}
    (hc : character ∈ builtinCharacterValues) (hd : d ∈ builtinDelimiterValues) :
    Screened Pod.scanner character.toList d := by
  have hdelim : ∀ d ∈ builtinDelimiterValues, ∀ l ∈ d.before ++ d.after,
      Pod.matchLine l.toList = none := by
    decide
  have hquiet : ∀ l, Pod.matchLine l = none → Pod.scanner.Quiet l := fun l hl =>
    ⟨fun _ => by simp [Pod.scanner, hl], fun _ => rfl, fun _ _ => rfl⟩
  refine ⟨fun l hl => hquiet l (Pod.matchLine_of_head ?_), fun l hl => hquiet _ (hdelim d hd l hl),
    hquiet [] rfl, fun _ _ => rfl⟩
  obtain ⟨x, xs, hx, -, -, -, heq⟩ := Tree.fitCharacter_head (fitCharacter_of_mem hc)
  obtain ⟨g, rest, rfl, -⟩ := hl
  simpa [hx] using heq

/-- Every built-in profile but HTML screens its blocks. -/
theorem builtin_screened {e : String} (hs : builtin.spelling e ≠ .html) (extension : String) :
    ∃ S, (builtin.spelling e).scanner? (builtin.character e) extension = some S ∧
      Screened S (builtin.character e).toList (builtin.delimiters e) := by
  have hc := builtin_character_mem e
  have hd := builtin_delimiters_mem e
  cases hsp : builtin.spelling e with
  | bars => exact ⟨_, rfl, Bars.screened _ hc hd⟩
  | repeated m => exact ⟨_, rfl, Marker.screened (builtin_repeated hsp) _ hc hd⟩
  | html => exact absurd hsp hs
  | underlined => exact ⟨_, rfl, Underline.screened hc hd⟩
  | roff =>
    obtain ⟨h1, h2⟩ := builtin_roff hsp
    rw [h1, h2]
    exact ⟨_, rfl, Roff.screened⟩
  | pod => exact ⟨_, rfl, Pod.screened hc hd⟩

end Screened

/-! ### HTML without heading tags -/

namespace Html

theorem element?_of_head {cs : List Char} (h : cs.head? ≠ some '<') : element? cs = none := by
  unfold element? openTag
  split
  · simp at h
  · rfl

/-- A text without `<` has no heading elements. -/
theorem scanFrom_of_not_mem {cs : List Char} (h : '<' ∉ cs) (line : Nat) :
    scanFrom 0 line cs = [] := by
  induction cs generalizing line with
  | nil => rfl
  | cons c cs ih =>
    have hc : (c :: cs).head? ≠ some '<' := by
      intro hc
      simp only [List.head?_cons, Option.some.injEq] at hc
      exact h (hc ▸ List.mem_cons_self)
    rw [scanFrom, element?_of_head hc]
    exact ih (fun hm => h (List.mem_cons_of_mem c hm)) _

/-- A text whose only `<` opens a comment has no headings. -/
theorem read_comment {rest : List Char} (h : '<' ∉ rest) :
    read (String.ofList ('<' :: '!' :: rest)) = [] := by
  have hopen : element? ('<' :: '!' :: rest) = none := by
    cases rest <;> rfl
  simp only [read, scan, String.toList_ofList]
  rw [scanFrom, hopen]
  rw [scanFrom_of_not_mem (by simpa using h)]
  rfl

end Html

end Outline
