/-
Module: Outline.Proofs.Readers
Purpose: Every heading spelling but HTML is a line scanner. Comment bars and POD commands read one
  line at a time; repeated markers carry whether a fence is open; roff macros and underlined titles
  look at the line below. Each reader is shown equal to the scan of its scanner over the text's
  lines, so that what is proved of scanners holds of the readers.
Main exports: Bars.scanner, Marker.scanner, Roff.scanner, Underline.scanner, Pod.scanner,
  Spelling.scanner?
Main statements: Bars.read_eq, Marker.read_eq, Roff.read_eq, Underline.read_eq, Pod.read_eq,
  Spelling.read_eq_scan, Spelling.scanner?_isSome
Open obligations: none
-/
import Mathlib
import Outline.Heading.Read
import Outline.Proofs.Lines
import Outline.Proofs.Scanner

namespace Outline

namespace Bars

/-- Comment bars as a scanner: no state, one line at a time. -/
def scanner (character : List Char) (decorated : Bool) : Scanner where
  State := Unit
  start := ()
  step := fun _ _ => ()
  heading := fun _ l _ => (matchLine character l).bind fun (level, raw) =>
    (title decorated raw).map fun t => (level, String.ofList t)

theorem read_eq (character extension content : String) :
    read character extension content =
      (scanner character.toList (extension == "r" || extension == "rpres")).read
        (Text.lines content.toList) := by
  rw [read, Scanner.read, Scanner.scan_eq_filterMap _ _ (fun _ l _ => rfl)]
  congr 1
  funext x
  obtain ⟨cs, n⟩ := x
  dsimp only [readLine]
  cases matchLine character.toList cs with
  | none => rfl
  | some p => simp [Option.map_map, Function.comp_def]

end Bars

namespace Pod

/-- POD commands as a scanner: no state, one line at a time. -/
def scanner : Scanner where
  State := Unit
  start := ()
  step := fun _ _ => ()
  heading := fun _ l _ => (matchLine l).map fun (level, t) => (level, String.ofList t)

theorem read_eq (content : String) : read content = scanner.read (Text.lines content.toList) := by
  rw [read, Scanner.read, Scanner.scan_eq_filterMap _ _ (fun _ l _ => rfl)]
  congr 1
  funext x
  obtain ⟨line, n⟩ := x
  dsimp only
  cases matchLine line <;> rfl

end Pod

namespace Marker

/-- Repeated markers as a scanner: the state is whether a fence is open. -/
def scanner (marker : Char) (fences : Bool) : Scanner where
  State := Bool
  start := false
  step := fun fenced l => if fences && isFence l then !fenced else fenced
  heading := fun fenced l _ =>
    if fences && isFence l then none
    else if fenced then none
    else (matchLine marker l).bind fun (level, raw) =>
      if (Text.trim raw).isEmpty then none else some (level, String.ofList (Text.trim raw))

theorem step_scanner (marker : Char) (fences fenced : Bool) (l : List Char) :
    (scanner marker fences).step fenced l = if fences && isFence l then !fenced else fenced := rfl

theorem heading_scanner (marker : Char) (fences fenced : Bool) (l : List Char)
    (below : Option (List Char)) :
    (scanner marker fences).heading fenced l below =
      if fences && isFence l then none
      else if fenced then none
      else (matchLine marker l).bind fun (level, raw) =>
        if (Text.trim raw).isEmpty then none else some (level, String.ofList (Text.trim raw)) := rfl

theorem readFrom_eq_scan (marker : Char) (fences : Bool) (ls : List (List Char)) (fenced : Bool)
    (n : Nat) :
    readFrom marker fences fenced (ls.zipIdx n) = (scanner marker fences).scan fenced n ls none := by
  induction ls generalizing fenced n with
  | nil => rfl
  | cons l ls ih =>
    rw [List.zipIdx_cons, readFrom, Scanner.scan_cons (scanner marker fences) fenced n l ls none]
    simp only [step_scanner, heading_scanner]
    by_cases hf : (fences && isFence l) = true
    · simp [hf, ← ih]
    · by_cases hs : fenced = true
      · simp [hf, hs, ← ih]
      · simp only [hf, hs, Bool.false_eq_true, if_false, ← ih]
        cases matchLine marker l with
        | none => rfl
        | some p =>
          by_cases ht : Text.trim p.2 = [] <;> simp [ht]

theorem read_eq (marker : Char) (content : String) :
    read marker content = (scanner marker (marker == '#')).read (Text.lines content.toList) :=
  readFrom_eq_scan _ _ _ false 1

end Marker

namespace Roff

/-- Roff macros as a scanner: no state; a macro without arguments reads the line below. -/
def scanner : Scanner where
  State := Unit
  start := ()
  step := fun _ _ => ()
  heading := fun _ l below => (matchLine l).bind fun (level, raw) =>
    if (title level (effectiveRaw raw below)).isEmpty then none
    else some (level, String.ofList (title level (effectiveRaw raw below)))

theorem readLines_eq_scan (s : scanner.State) (ls : List (List Char)) (n : Nat) :
    readLines (ls.zipIdx n) = scanner.scan s n ls none := by
  induction ls generalizing s n with
  | nil => rfl
  | cons l ls ih =>
    have hnext : ((ls.zipIdx (n + 1)).head?.map Prod.fst) = ls.head?.or none := by
      cases ls <;> rfl
    rw [List.zipIdx_cons, readLines, Scanner.scan_cons, hnext, ← ih (scanner.step s l) (n + 1)]
    simp only [scanner]
    cases matchLine l with
    | none => rfl
    | some p =>
      by_cases ht : title p.1 (effectiveRaw p.2 ls.head?) = [] <;> simp [ht]

theorem read_eq (content : String) : read content = scanner.read (Text.lines content.toList) :=
  readLines_eq_scan _ _ 1

end Roff

namespace Underline

/-- The title a line makes with the one below it, without its line number. -/
theorem titleOf_eq (line below : List Char) (n : Nat) :
    titleOf line below n = (titleOf line below 0).map fun h => ⟨h.level, h.text, n⟩ := by
  unfold titleOf
  cases line with
  | nil => rfl
  | cons c cs =>
    simp only
    split
    · rfl
    · cases (adornment? below).bind symbolLevel <;> rfl

/-- Underlined titles as a scanner: no state; a line is a title only with a line below it. -/
def scanner : Scanner where
  State := Unit
  start := ()
  step := fun _ _ => ()
  heading := fun _ l below => below.bind fun b => (titleOf l b 0).map fun h => (h.level, h.text)

theorem readPairs_eq_scan (s : scanner.State) (ls : List (List Char)) (l : List Char) (n : Nat) :
    readPairs (l, n) (ls.zipIdx (n + 1)) = scanner.scan s n (l :: ls) none := by
  induction ls generalizing s l n with
  | nil => rfl
  | cons b ls ih =>
    rw [List.zipIdx_cons, readPairs, ih (scanner.step s l) b (n + 1),
      Scanner.scan_cons scanner s n l (b :: ls) none]
    simp only [List.head?_cons, Option.some_or, scanner, Option.bind_some]
    rw [titleOf_eq l b n]
    cases titleOf l b 0 <;> rfl

theorem read_eq (content : String) : read content = scanner.read (Text.lines content.toList) := by
  unfold read Scanner.read
  cases Text.lines content.toList with
  | nil => rfl
  | cons l ls => exact readPairs_eq_scan _ ls l 1

end Underline

/-! ### Heading texts lie on their lines

Every reader takes a heading's text from the line it reads, or from the line below it, less white
space at its ends; roff joins words by spaces and HTML turns every run of white space into one
space. So no text holds a line feed, and a heading shows on one line of an outline.
-/

namespace Text

theorem eq_append_of_dropPrefix? : ∀ {p cs r : List Char}, dropPrefix? p cs = some r →
    cs = p ++ r
  | [], cs, r, h => by
    simp only [dropPrefix?, Option.some.injEq] at h
    simp [h]
  | _ :: _, [], _, h => by simp [dropPrefix?] at h
  | p :: ps, c :: cs, r, h => by
    simp only [dropPrefix?] at h
    split at h
    · rename_i hpc
      subst hpc
      rw [eq_append_of_dropPrefix? h]
      rfl
    · simp at h

theorem trimLeft_subset (cs : List Char) : trimLeft cs ⊆ cs :=
  (List.dropWhile_suffix _).subset

theorem trimRight_subset (cs : List Char) : trimRight cs ⊆ cs := fun _ hx =>
  List.mem_reverse.mp ((List.dropWhile_suffix _).subset (List.mem_reverse.mp hx))

theorem trim_subset (cs : List Char) : trim cs ⊆ cs :=
  List.Subset.trans (trimRight_subset _) (trimLeft_subset cs)

/-! A carriage return is white space: a line read with the one that may end it trims to the same
text, and a pattern without one starts it as it starts the line. -/

theorem trimRight_append_blank (cs : List Char) {x : Char} (hx : isBlank x = true) :
    trimRight (cs ++ [x]) = trimRight cs := by
  simp [trimRight, hx]

/-- White space after a text stays after it once its leading white space is dropped, unless the
    text is white space only. -/
theorem trimLeft_append_blank (cs : List Char) {x : Char} (hx : isBlank x = true) :
    trimLeft (cs ++ [x]) = if trimLeft cs = [] then [] else trimLeft cs ++ [x] := by
  unfold trimLeft
  rw [List.dropWhile_append]
  split
  · rename_i h
    rw [if_pos (List.isEmpty_iff.mp h)]
    simp [hx]
  · rename_i h
    rw [if_neg fun h' => h (List.isEmpty_iff.mpr h')]

/-- White space after a text trims away with it. -/
theorem trim_append_blank (cs : List Char) {x : Char} (hx : isBlank x = true) :
    trim (cs ++ [x]) = trim cs := by
  unfold trim
  rw [trimLeft_append_blank cs hx]
  split
  · rename_i h
    rw [h]
  · exact trimRight_append_blank _ hx

/-- A pattern without a character starts a text followed by that character exactly when it
    starts the text. -/
theorem prefix_concat_iff_of_not_mem {p t : List Char} {x : Char} (hx : x ∉ p) :
    p <+: t ++ [x] ↔ p <+: t := by
  rw [List.prefix_concat_iff]
  exact ⟨fun h => h.resolve_left fun he => hx (by simp [he]), Or.inr⟩

theorem prefix_append_replicate_iff {p t : List Char} {x : Char} (hx : x ∉ p) (n : Nat) :
    p <+: t ++ List.replicate n x ↔ p <+: t := by
  induction n with
  | zero => simp
  | succ n ih =>
    rw [List.replicate_succ', ← List.append_assoc, prefix_concat_iff_of_not_mem hx, ih]

/-- A line with a character after it, split before a rest that is not empty: the rest ends with
    that character, and the line is what stands before the rest and the rest without it. -/
theorem exists_of_concat_eq_append {line pre rest : List Char} {x : Char} (hrest : rest ≠ [])
    (h : line ++ [x] = pre ++ rest) : ∃ r, rest = r ++ [x] ∧ line = pre ++ r := by
  rcases List.append_eq_append_iff.mp h with ⟨a, rfl, hx⟩ | ⟨c, rfl, hc⟩
  · -- the split falls after the character, so the rest is the character alone
    cases a with
    | nil => exact ⟨[], by simpa using hx.symm, by simp⟩
    | cons y ys =>
      simp only [List.cons_append, List.cons.injEq] at hx
      exact absurd (List.append_eq_nil_iff.mp hx.2.symm).2 hrest
  · exact ⟨c, hc, rfl⟩

end Text

namespace Bars

theorem afterBar_subset {rest title : List Char} {level : Nat}
    (h : afterBar rest = some (level, title)) : title ⊆ rest := by
  unfold afterBar at h
  dsimp only at h
  split at h
  · rename_i heq
    cases h
    exact fun x hx => List.drop_subset _ rest (heq ▸ List.mem_cons_of_mem ' ' hx)
  · simp at h

theorem matchLine_subset {character line raw : List Char} {level : Nat}
    (h : matchLine character line = some (level, raw)) : raw ⊆ line := by
  obtain ⟨rest, hrest, hf⟩ := List.exists_of_findSome?_eq_some h
  obtain ⟨k, -, rfl⟩ := List.mem_map.mp hrest
  obtain ⟨r, hr, hbar⟩ := Option.bind_eq_some_iff.mp hf
  have hsuffix : r ⊆ line.drop k := by
    rw [Text.eq_append_of_dropPrefix? hr]
    exact List.subset_append_right _ _
  exact List.Subset.trans (afterBar_subset hbar) (List.Subset.trans hsuffix (List.drop_subset _ _))

theorem undecorate_subset (t : List Char) : undecorate t ⊆ t := by
  unfold undecorate
  dsimp only
  split
  · intro x hx
    have h1 := Text.trim_subset _ hx
    rw [List.mem_reverse] at h1
    exact List.mem_reverse.mp
      (List.drop_subset _ _ ((List.dropWhile_suffix _).subset h1))
  · exact fun _ hx => hx

theorem title_subset {decorated : Bool} {raw t : List Char} (h : title decorated raw = some t) :
    t ⊆ raw := by
  unfold title at h
  dsimp only at h
  by_cases hd : decorated = true
  · simp only [hd, if_true] at h
    split at h
    · simp at h
    · cases h
      exact List.Subset.trans (undecorate_subset _) (Text.trim_subset raw)
  · simp only [hd, Bool.false_eq_true, if_false] at h
    split at h
    · simp at h
    · cases h
      exact Text.trim_subset raw

theorem scanner_oneLine (character : List Char) (decorated : Bool) :
    (scanner character decorated).OneLine := by
  intro _ l _ p hp hl _
  obtain ⟨⟨level, raw⟩, hm, ht⟩ := Option.bind_eq_some_iff.mp hp
  obtain ⟨t, htitle, rfl⟩ := Option.map_eq_some_iff.mp ht
  rw [String.toList_ofList]
  exact fun h => hl (matchLine_subset hm (title_subset htitle h))

end Bars

namespace Marker

theorem titleAt_subset {marker : Char} {line t : List Char} {k : Nat}
    (h : titleAt marker line k = some t) : t ⊆ line := by
  unfold titleAt at h
  split at h
  · rename_i title c rest heq
    split at h
    · simp at h
    · cases h
      exact fun x hx => List.drop_subset _ line (heq ▸ List.mem_cons_of_mem ' ' hx)
  · simp at h

theorem matchLine_subset {marker : Char} {line raw : List Char} {level : Nat}
    (h : matchLine marker line = some (level, raw)) : raw ⊆ line := by
  obtain ⟨k, -, hk⟩ := List.exists_of_findSome?_eq_some h
  obtain ⟨t, ht, heq⟩ := Option.map_eq_some_iff.mp hk
  cases heq
  exact titleAt_subset ht

theorem scanner_oneLine (marker : Char) (fences : Bool) : (scanner marker fences).OneLine := by
  intro (fenced : Bool) l below p hp hl _
  rw [heading_scanner] at hp
  split at hp
  · simp at hp
  · split at hp
    · simp at hp
    · obtain ⟨⟨level, raw⟩, hm, ht⟩ := Option.bind_eq_some_iff.mp hp
      dsimp only at ht
      split at ht
      · simp at ht
      · cases ht
        rw [String.toList_ofList]
        exact fun h => hl (matchLine_subset hm (Text.trim_subset raw h))

end Marker

namespace Underline

theorem text_titleOf {line below : List Char} {n : Nat} {h : Heading}
    (ht : titleOf line below n = some h) : h.text.toList ⊆ line := by
  unfold titleOf at ht
  split at ht
  · simp at ht
  · dsimp only at ht
    split at ht
    · simp at ht
    · obtain ⟨level, -, rfl⟩ := Option.map_eq_some_iff.mp ht
      rw [String.toList_ofList]
      exact Text.trim_subset _

theorem scanner_oneLine : scanner.OneLine := by
  intro _ l below p hp hl _
  obtain ⟨b, -, hb⟩ := Option.bind_eq_some_iff.mp hp
  obtain ⟨h, ht, rfl⟩ := Option.map_eq_some_iff.mp hb
  exact fun hm => hl (text_titleOf ht hm)

end Underline

namespace Roff

theorem matchLine_subset {line raw : List Char} {level : Nat}
    (h : matchLine line = some (level, raw)) : raw ⊆ line := by
  unfold matchLine at h
  split at h
  · rename_i a b rest
    obtain ⟨level', -, hrest⟩ := Option.bind_eq_some_iff.mp h
    split at hrest
    · cases hrest
      exact List.nil_subset _
    · split at hrest
      · cases hrest
        exact fun x hx => List.mem_cons_of_mem _ (List.mem_cons_of_mem _
          (List.mem_cons_of_mem _ ((List.dropWhile_suffix _).subset hx)))
      · simp at hrest
  · simp at h

theorem mem_effectiveRaw {raw : List Char} {next : Option (List Char)} {x : Char}
    (h : x ∈ effectiveRaw raw next) : x ∈ raw ∨ ∃ b ∈ next, x ∈ b := by
  unfold effectiveRaw at h
  split at h
  · split at h
    · rename_i line
      split at h
      · simp at h
      · exact Or.inr ⟨line, rfl, h⟩
    · simp at h
  · exact Or.inl h

/-- An argument holds only characters of the arguments done, the current one, or the rest. -/
theorem mem_argumentsFrom {x : Char} {a : List Char} {cs : List Char} :
    ∀ {done : List (List Char)} {current : List Char} {quoted : Bool},
      a ∈ argumentsFrom done current quoted cs → x ∈ a →
        (∃ d ∈ done, x ∈ d) ∨ x ∈ current ∨ x ∈ cs := by
  induction cs with
  | nil =>
    intro done current quoted ha hx
    simp only [argumentsFrom, List.mem_reverse] at ha
    split at ha
    · exact Or.inl ⟨a, ha, hx⟩
    · rcases List.mem_cons.mp ha with rfl | ha
      · exact Or.inr (Or.inl (List.mem_reverse.mp hx))
      · exact Or.inl ⟨a, ha, hx⟩
  | cons c cs ih =>
    intro done current quoted ha hx
    simp only [argumentsFrom] at ha
    split at ha
    · rcases ih ha hx with h | h | h
      · exact Or.inl h
      · exact Or.inr (Or.inl h)
      · exact Or.inr (Or.inr (List.mem_cons_of_mem c h))
    · split at ha
      · rcases ih ha hx with ⟨d, hd, hxd⟩ | h | h
        · split at hd
          · exact Or.inl ⟨d, hd, hxd⟩
          · rcases List.mem_cons.mp hd with rfl | hd
            · exact Or.inr (Or.inl (List.mem_reverse.mp hxd))
            · exact Or.inl ⟨d, hd, hxd⟩
        · simp at h
        · exact Or.inr (Or.inr (List.mem_cons_of_mem c h))
      · rcases ih ha hx with h | h | h
        · exact Or.inl h
        · rcases List.mem_cons.mp h with rfl | h
          · exact Or.inr (Or.inr List.mem_cons_self)
          · exact Or.inr (Or.inl h)
        · exact Or.inr (Or.inr (List.mem_cons_of_mem c h))

theorem mem_intercalate_space {x : Char} :
    ∀ {args : List (List Char)}, x ∈ [' '].intercalate args → x = ' ' ∨ ∃ a ∈ args, x ∈ a
  | [], h => by simp at h
  | [a], h => Or.inr ⟨a, List.mem_singleton_self a, by simpa using h⟩
  | a :: b :: rest, h => by
    rw [List.intercalate_cons_cons] at h
    simp only [List.mem_append, List.mem_singleton] at h
    rcases h with (h | h) | h
    · exact Or.inr ⟨a, List.mem_cons_self, h⟩
    · exact Or.inl h
    · rcases mem_intercalate_space h with h | ⟨d, hd, hx⟩
      · exact Or.inl h
      · exact Or.inr ⟨d, List.mem_cons_of_mem a hd, hx⟩

/-- A title holds characters of its raw arguments and the spaces that join its words. -/
theorem mem_title {level : Nat} {raw : List Char} {x : Char} (h : x ∈ title level raw) :
    x = ' ' ∨ x ∈ raw := by
  have harg : ∀ a ∈ arguments raw, x ∈ a → x ∈ raw := fun a ha hx => by
    rcases mem_argumentsFrom ha hx with ⟨d, hd, -⟩ | h | h
    · simp at hd
    · simp at h
    · exact Text.trim_subset raw h
  unfold title at h
  split at h
  · cases hargs : arguments raw with
    | nil => simp [hargs] at h
    | cons a rest =>
      rw [hargs, List.headD_cons] at h
      exact Or.inr (harg a (by simp [hargs]) h)
  · rcases mem_intercalate_space h with h | ⟨a, ha, hx⟩
    · exact Or.inl h
    · exact Or.inr (harg a ha hx)

theorem scanner_oneLine : scanner.OneLine := by
  intro _ l below p hp hl hb
  obtain ⟨⟨level, raw⟩, hm, ht⟩ := Option.bind_eq_some_iff.mp hp
  dsimp only at ht
  split at ht
  · simp at ht
  · cases ht
    rw [String.toList_ofList]
    intro hx
    rcases mem_title hx with h | h
    · exact absurd h (by decide)
    · rcases mem_effectiveRaw h with h | ⟨b, hb', hxb⟩
      · exact hl (matchLine_subset hm h)
      · exact hb b hb' hxb

end Roff

namespace Pod

theorem matchLine_subset {line t : List Char} {level : Nat}
    (h : matchLine line = some (level, t)) : t ⊆ line := by
  unfold matchLine at h
  split at h
  · split at h
    · dsimp only at h
      split at h
      · simp at h
      · cases h
        exact List.Subset.trans (Text.trim_subset _) (fun x hx => by simp [hx])
    · simp at h
  · simp at h

theorem scanner_oneLine : scanner.OneLine := by
  intro _ l below p hp hl _
  obtain ⟨⟨level, t⟩, hm, rfl⟩ := Option.map_eq_some_iff.mp hp
  rw [String.toList_ofList]
  exact fun h => hl (matchLine_subset hm h)

end Pod

namespace Html

/-- Squeezing leaves no white space but single spaces. -/
theorem squeeze_blank {x : Char} :
    ∀ {inRun : Bool} {cs : List Char}, x ∈ squeeze inRun cs → x = ' ' ∨ Text.isBlank x = false
  | _, [], h => by simp [squeeze] at h
  | inRun, c :: cs, h => by
    unfold squeeze at h
    split at h
    · split at h
      · exact squeeze_blank h
      · rcases List.mem_cons.mp h with rfl | h
        · exact Or.inl rfl
        · exact squeeze_blank h
    · rcases List.mem_cons.mp h with rfl | h
      · exact Or.inr (by simpa using ‹¬Text.isBlank x = true›)
      · exact squeeze_blank h

theorem single_headingText (body : List Char) : '\n' ∉ headingText body := fun h => by
  rcases squeeze_blank (Text.trim_subset _ h) with h | h
  · exact absurd h (by decide)
  · exact absurd h (by decide)

theorem single_read (content : String) : ∀ h ∈ read content, '\n' ∉ h.text.toList := by
  intro h hh
  obtain ⟨⟨line, e⟩, -, he⟩ := List.mem_filterMap.mp hh
  dsimp only at he
  split at he
  · split at he
    · simp at he
    · cases he
      rw [String.toList_ofList]
      exact single_headingText e.body
  · simp at he

end Html

namespace Spelling

/-- The scanner of a spelling, for a comment character and a lowercase extension; HTML elements
    may span lines and have none. -/
def scanner? (s : Spelling) (character extension : String) : Option Scanner :=
  match s with
  | .bars => some (Bars.scanner character.toList (extension == "r" || extension == "rpres"))
  | .repeated marker => some (Marker.scanner marker (marker == '#'))
  | .html => none
  | .underlined => some Underline.scanner
  | .roff => some Roff.scanner
  | .pod => some Pod.scanner

/-- A spelling with a scanner reads a text as the scanner reads its lines. -/
theorem read_eq_scan {s : Spelling} {character extension : String} {S : Scanner}
    (h : s.scanner? character extension = some S) (content : String) :
    s.read character extension content = S.read (Text.lines content.toList) := by
  cases s <;> simp only [scanner?, Option.some.injEq, reduceCtorEq] at h <;> subst h
  · exact Bars.read_eq character extension content
  · exact Marker.read_eq _ content
  · exact Underline.read_eq content
  · exact Roff.read_eq content
  · exact Pod.read_eq content

theorem scanner?_oneLine {s : Spelling} {character extension : String} {S : Scanner}
    (h : s.scanner? character extension = some S) : S.OneLine := by
  cases s <;> simp only [scanner?, Option.some.injEq, reduceCtorEq] at h <;> subst h
  · exact Bars.scanner_oneLine _ _
  · exact Marker.scanner_oneLine _ _
  · exact Underline.scanner_oneLine
  · exact Roff.scanner_oneLine
  · exact Pod.scanner_oneLine

theorem scanner?_isSome {s : Spelling} (hs : s ≠ .html) (character extension : String) :
    (s.scanner? character extension).isSome := by
  cases s <;> simp_all [scanner?]

/-- No heading text holds a line feed. -/
theorem single_read (s : Spelling) (character extension content : String) :
    ∀ h ∈ s.read character extension content, '\n' ∉ h.text.toList := by
  cases hS : s.scanner? character extension with
  | none =>
    have hs : s = .html := by cases s <;> simp_all [scanner?]
    subst hs
    exact Html.single_read content
  | some S =>
    rw [read_eq_scan hS]
    exact (scanner?_oneLine hS).scan _ _ (Text.not_mem_lines _) (by simp)

end Spelling

end Outline
