/-
Module: Outline.Proofs.Outcome
Purpose: What an update reports. It fails only for want of headings, and its error names the
  comment character and the file; with numbered lines the second pass fails as well when the text
  the first pass wrote has no headings, which happens when the first pass took the only heading
  lines into its block. An update that succeeds reports a block added exactly when the finder
  found none in the text, and reports the text unchanged only when it writes it back as it was.
  The converse holds for every update that makes one pass, and for two passes in every spelling
  but HTML with the registry's comment character: two passes that give back their text left it
  alone in both. Elsewhere the first pass's block can change what the second reads, and two
  passes can write blocks that undo each other: in HTML a heading listed as an opening tag hides
  itself, and with three backticks for comment character every line of the block is a fence.
Main exports: Block.pass
Main statements: Block.update_eq_passes, Block.apply_content_eq_iff,
  Block.unchanged_of_passes_eq, Block.update_outcome
Open obligations: none
-/
import Mathlib
import Outline.Proofs.Layout

namespace Outline

namespace Block

/-! ### Merging outcomes -/

namespace Outcome

@[simp] theorem unchanged_merge (x : Outcome) : Outcome.unchanged.merge x = x := by
  cases x <;> rfl

theorem merge_eq_added {x y : Outcome} : x.merge y = .added ↔ x = .added ∨ y = .added := by
  cases x <;> cases y <;> simp [merge]

theorem merge_eq_unchanged {x y : Outcome} :
    x.merge y = .unchanged ↔ x = .unchanged ∧ y = .unchanged := by
  cases x <;> cases y <;> simp [merge]

end Outcome

/-! ### An update, pass by pass -/

/-- One pass of an update: generate a table of contents from the text and put it in. -/
def pass (r : Registry) (o : Options) (content : String) : Applied :=
  apply content (generate r o content) o

/-- An update, pass by pass: the first fails on a text without headings; with numbered lines a
    second pass runs on what the first wrote, fails in turn on a text without headings, and the
    outcomes of the two merge. -/
theorem update_eq_passes (r : Registry) (o : Options) (content : String) :
    update r o content =
      if headingsOf r o content = [] then .error ⟨o.character, o.name⟩
      else if o.numbered then
        if headingsOf r o (pass r o content).content = [] then .error ⟨o.character, o.name⟩
        else .ok ⟨(pass r o (pass r o content).content).content,
          (pass r o content).outcome.merge (pass r o (pass r o content).content).outcome⟩
      else .ok (pass r o content) := by
  have hempty : ∀ s, (generate r o s).isEmpty = true ↔ headingsOf r o s = [] := fun s => by
    rw [← Bool.not_eq_false, isEmpty_generate_eq_false, not_not]
  rw [update_eq]
  by_cases hn : o.numbered = true
  · rw [if_pos hn, if_pos hn, passesFrom_succ, passesFrom_succ]
    simp only [hempty, pass, Outcome.unchanged_merge]
    rfl
  · rw [if_neg hn, if_neg hn, passesFrom_succ]
    simp only [hempty, pass, Outcome.unchanged_merge]
    rfl

/-- Every error of an update names the comment character and the file. -/
theorem update_error {r : Registry} {o : Options} {content : String} {e : NoHeadings}
    (h : update r o content = .error e) : e = ⟨o.character, o.name⟩ := by
  rw [update_eq_passes] at h
  split at h
  · exact (Except.error.inj h).symm
  · split at h
    · split at h
      · exact (Except.error.inj h).symm
      · cases h
    · cases h

/-- An update fails exactly when the text has no headings, or, with numbered lines, when the
    text the first pass wrote has none. -/
theorem update_fails_iff (r : Registry) (o : Options) (content : String) :
    (∃ e, update r o content = .error e) ↔
      headingsOf r o content = [] ∨
        (o.numbered = true ∧ headingsOf r o (pass r o content).content = []) := by
  rw [update_eq_passes]
  by_cases h0 : headingsOf r o content = []
  · simp [h0]
  · by_cases hn : o.numbered = true
    · by_cases h1 : headingsOf r o (pass r o content).content = [] <;> simp [h0, hn, h1]
    · simp [h0, hn]

/-- An update that succeeds made one pass over a text with headings, or, with numbered lines,
    two, the second over a text with headings as well. -/
theorem update_ok {r : Registry} {o : Options} {content : String} {a : Applied}
    (h : update r o content = .ok a) :
    headingsOf r o content ≠ [] ∧
      ((o.numbered = false ∧ a = pass r o content) ∨
        (o.numbered = true ∧ headingsOf r o (pass r o content).content ≠ [] ∧
          a = ⟨(pass r o (pass r o content).content).content,
            (pass r o content).outcome.merge (pass r o (pass r o content).content).outcome⟩)) := by
  rw [update_eq_passes] at h
  split at h
  · cases h
  · rename_i h0
    refine ⟨h0, ?_⟩
    split at h
    · rename_i hn
      split at h
      · cases h
      · rename_i h1
        exact Or.inr ⟨hn, h1, (Except.ok.inj h).symm⟩
    · rename_i hn
      exact Or.inl ⟨by simpa using hn, (Except.ok.inj h).symm⟩

/-! ### One pass -/

/-- No located line holds a line feed. -/
theorem not_mem_text {cs : List Char} {l : Line} (hl : l ∈ linesWithOffsets cs) : '\n' ∉ l.text := by
  obtain ⟨A, p, B, hps, rfl⟩ := mem_locate_split hl
  exact (piece_ending hps).1

/-- A comment character holding a line feed opens no line, so the finder finds no block. -/
theorem findBlock_of_mem {c : String} (hc : '\n' ∈ c.toList) (cs : List Char) :
    findBlock cs c = none := by
  refine findMarkers_none fun l hl heq => ?_
  have hm : '\n' ∈ (Tree.beginMarker c).toList := by
    rw [Tree.toList_beginMarker]
    simp [hc]
  rw [← heq] at hm
  exact not_mem_text hl hm

/-- A found block splits the text into the text above it, the block and the text below. -/
theorem eq_of_findBlock {cs : List Char} {c : String} {span : Span}
    (h : findBlock cs c = some span) :
    cs = cs.take span.start ++ span.of cs ++ cs.drop span.stop := by
  obtain ⟨u, Y, v, rfl, rfl, -⟩ := findBlock_some h
  simp [Span.of, List.drop_append]

/-- A pass adds a block exactly when the finder finds none. -/
theorem apply_added_iff (content : String) (toc : Toc) (o : Options) :
    (apply content toc o).outcome = .added ↔ findBlock content.toList o.character = none := by
  cases h : findBlock content.toList o.character with
  | none =>
    simp only [apply, h]
    split <;> simp
  | some span =>
    simp only [apply, h]
    split <;> simp

/-- A pass that reports the text unchanged leaves it as it is. -/
theorem content_of_unchanged {content : String} {toc : Toc} {o : Options}
    (h : (apply content toc o).outcome = .unchanged) : (apply content toc o).content = content := by
  have hfound : findBlock content.toList o.character ≠ none := fun hn => by
    rw [(apply_added_iff content toc o).mpr hn] at h
    cases h
  obtain ⟨span, hspan⟩ := Option.ne_none_iff_exists'.mp hfound
  simp only [apply, hspan] at h ⊢
  split
  · rfl
  · rename_i hne
    rw [if_neg hne] at h
    cases h

/-- A pass that adds a block makes the text longer by two line endings at least. -/
theorem length_lt_of_added {content : String} {toc : Toc} {o : Options}
    (h : (apply content toc o).outcome = .added) :
    content.toList.length < (apply content toc o).content.toList.length := by
  have hnone := (apply_added_iff content toc o).mp h
  have hof : String.ofList content.toList = content := String.ofList_toList
  have he : 0 < (lineEnding content.toList).length := by
    rcases Text.isEol_lineEnding content.toList with h | h <;> simp [h]
  cases hpre : preambleEnd content.toList o.extension with
  | none =>
    have happly := apply_top hnone hpre toc
    rw [hof] at happly
    rw [happly]
    simp only [List.length_append]
    omega
  | some stop =>
    have happly := apply_below hnone hpre toc
    rw [hof] at happly
    rw [happly]
    -- what follows the block is at least the text below the preamble
    have hrest : (content.toList.drop stop).length ≤
        (if (content.toList.drop stop).isEmpty then lineEnding content.toList
          else content.toList.drop stop).length := by
      split
      · rename_i hnil
        rw [List.isEmpty_iff.mp hnil]
        exact Nat.zero_le _
      · exact le_refl _
    have hsplit : (content.toList.take stop).length + (content.toList.drop stop).length =
        content.toList.length := by
      rw [← List.length_append, List.take_append_drop]
    simp only [List.length_append]
    omega

/-- A pass writes the text back as it was exactly when it reports it unchanged. -/
theorem apply_content_eq_iff (content : String) (toc : Toc) (o : Options) :
    (apply content toc o).content = content ↔ (apply content toc o).outcome = .unchanged := by
  refine ⟨fun h => ?_, content_of_unchanged⟩
  cases hfind : findBlock content.toList o.character with
  | none =>
    -- a block put in makes the text longer
    have hlt := length_lt_of_added ((apply_added_iff content toc o).mpr hfind)
    rw [h] at hlt
    exact absurd hlt (lt_irrefl _)
  | some span =>
    simp only [apply, hfind] at h ⊢
    split
    · rfl
    · -- a different block in place of the old one gives a different text
      rename_i hne
      rw [if_neg hne] at h
      have hcs := congrArg String.toList h
      rw [String.toList_ofList] at hcs
      conv_rhs at hcs => rw [eq_of_findBlock hfind]
      exact absurd (List.append_cancel_left (List.append_cancel_right hcs)).symm hne

/-- With a comment character on one line, a pass over a text whose block the finder finds
    leaves a text in which it finds a block. -/
theorem findBlock_pass {r : Registry} {o : Options} (hc : '\n' ∉ o.character.toList)
    {content : String} (hne : headingsOf r o content ≠ [])
    (h : findBlock content.toList o.character ≠ none) :
    findBlock (pass r o content).content.toList o.character ≠ none := by
  obtain ⟨span, hspan⟩ := Option.ne_none_iff_exists'.mp h
  obtain ⟨u, Y, v, -, -, hen, happly⟩ := apply_found hspan
  have hfirst := happly (generate r o content)
  rw [String.ofList_toList] at hfirst
  rw [pass, hfirst, hen.findBlock_generate hc hne (Text.isEol_lineEnding _)]
  simp

/-- A text whose second pass adds a block had no block the finder finds. -/
theorem findBlock_of_pass {r : Registry} {o : Options} {content : String}
    (hne : headingsOf r o content ≠ [])
    (h : findBlock (pass r o content).content.toList o.character = none) :
    findBlock content.toList o.character = none := by
  by_cases hc : '\n' ∈ o.character.toList
  · exact findBlock_of_mem hc _
  · by_contra hfound
    exact findBlock_pass hc hne hfound h

/-! ### Two passes -/

/-- Two passes that give back the text they started from do not start by adding a block: one that
    adds a block leaves a longer text in which the finder finds a block, which the second pass then
    keeps. -/
theorem not_added_of_passes_eq {r : Registry} {o : Options} (hc : '\n' ∉ o.character.toList)
    {content : String} (hne₁ : headingsOf r o (pass r o content).content ≠ [])
    (h : (pass r o (pass r o content).content).content = content) :
    (pass r o content).outcome ≠ .added := by
  intro h1
  have hnone : findBlock content.toList o.character = none := (apply_added_iff _ _ _).mp h1
  cases h2 : (pass r o (pass r o content).content).outcome with
  | added =>
    -- two passes that each add a block make the text longer
    have hlt₁ : content.toList.length < (pass r o content).content.toList.length :=
      length_lt_of_added h1
    have hlt₂ : (pass r o content).content.toList.length <
        (pass r o (pass r o content).content).content.toList.length :=
      length_lt_of_added h2
    rw [h] at hlt₂
    omega
  | _ =>
    -- the first pass's text holds a block, and so does the second's
    have hfound : findBlock (pass r o content).content.toList o.character ≠ none :=
      fun hn => by
        rw [pass, (apply_added_iff _ _ _).mpr hn] at h2
        cases h2
    have hfound₂ := findBlock_pass hc hne₁ hfound
    rw [h] at hfound₂
    exact hfound₂ hnone

section Framed

open Registry

variable {o : Options} (hc : o.character = builtin.character o.extension)
  (hsp : builtin.spelling o.extension ≠ .html)
include hc hsp

/-- Framed texts around any two blocks have as many headings: those of the block are not read. -/
theorem length_headingsOf_framed (u : List Char) {v : List Char} (hv : EndsMarker v) {e : List Char}
    (he : Text.IsEol e) {b₁ b₂ : List String} (hb₁ : Tree.BodyLines o.character b₁)
    (hb₂ : Tree.BodyLines o.character b₂) :
    (headingsOf builtin o (framed o u v e b₁)).length =
      (headingsOf builtin o (framed o u v e b₂)).length := by
  obtain ⟨A, B, hAB⟩ := headingsOf_framed hc hv hsp e
  rw [hAB e he rfl b₁ hb₁, hAB e he rfl b₂ hb₂]
  simp

/-- A pass over framed texts around blocks of as many body lines writes the same text. -/
theorem pass_framed_congr {u v : List Char} (hv : EndsMarker v) (hu : Text.EndsLine u)
    (hbm : Unmarked o.character u) {e : List Char} (he : Text.IsEol e) {b₁ b₂ : List String}
    (hb₁ : Tree.BodyLines o.character b₁) (hb₂ : Tree.BodyLines o.character b₂)
    (hlen : b₁.length = b₂.length) (hne : headingsOf builtin o (framed o u v e b₁) ≠ []) :
    (pass builtin o (framed o u v e b₁)).content = (pass builtin o (framed o u v e b₂)).content := by
  obtain ⟨A, B, hAB⟩ := headingsOf_framed hc hv hsp e
  have hne₂ : headingsOf builtin o (framed o u v e b₂) ≠ [] := by
    rw [hAB e he rfl b₁ hb₁] at hne
    rw [hAB e he rfl b₂ hb₂]
    simpa using hne
  rw [pass, pass, apply_generate_framed hc hv hu hbm he hb₁ hne,
    apply_generate_framed hc hv hu hbm he hb₂ hne₂, hAB e he rfl b₁ hb₁, hAB e he rfl b₂ hb₂, hlen]

/-- Two passes that give back the text they started from do not start by replacing a block, in
    every spelling but HTML and for the registry's comment character: the replaced block leaves
    the text framed the same way, so the second pass writes what the first wrote. -/
theorem not_updated_of_passes_eq {content : String} (hne : headingsOf builtin o content ≠ [])
    (hne₁ : headingsOf builtin o (pass builtin o content).content ≠ [])
    (h : (pass builtin o (pass builtin o content).content).content = content) :
    (pass builtin o content).outcome ≠ .updated := by
  intro h1
  have hfit := fitCharacter_options hc
  have hc' := not_mem_character hfit
  have hfound : findBlock content.toList o.character ≠ none := fun hn => by
    rw [pass, (apply_added_iff _ _ _).mpr hn] at h1
    cases h1
  obtain ⟨span, hspan⟩ := Option.ne_none_iff_exists'.mp hfound
  obtain ⟨u, Y, v, -, -, hen, happly⟩ := apply_found hspan
  have he := Text.isEol_lineEnding content.toList
  -- both passes write their block between the same text
  have hfirst : (pass builtin o content).content.toList = u ++
      withEnding (lineEnding content.toList) (generate builtin o content).inner.toList ++ v := by
    have h' := happly (generate builtin o content)
    rwa [String.ofList_toList] at h'
  have hsecond := hen.apply_of_toList hc' hne he hfirst
    (generate builtin o (pass builtin o content).content)
  -- so the text is framed around the second pass's block, the first pass's text around its own
  have hframed : content = framed o u v (lineEnding content.toList)
      (bodyOf o (headingsOf builtin o (pass builtin o content).content)) := by
    rw [framed, ← toList_inner_generate builtin o hne₁, ← hsecond, String.ofList_toList]
    exact h.symm
  have hframed₁ : (pass builtin o content).content = framed o u v (lineEnding content.toList)
      (bodyOf o (headingsOf builtin o content)) := by
    rw [framed, ← toList_inner_generate builtin o hne, ← hfirst, String.ofList_toList]
  have hb := fun s => bodyLines_bodyOf hfit (single_headingsOf builtin o s)
  have hlen : (bodyOf o (headingsOf builtin o (pass builtin o content).content)).length =
      (bodyOf o (headingsOf builtin o content)).length := by
    have hsame := length_headingsOf_framed hc hsp u hen.endsMarker he (hb content)
      (hb (pass builtin o content).content)
    rw [← hframed₁, ← hframed] at hsame
    rw [length_bodyOf_any, length_bodyOf_any]
    exact hsame
  have hsame := pass_framed_congr hc hsp hen.endsMarker hen.endsLine hen.unmarked he (hb _) (hb _)
    hlen (by rw [← hframed]; exact hne)
  rw [← hframed, ← hframed₁, h] at hsame
  have hun := (apply_content_eq_iff _ _ _).mp hsame
  rw [pass] at h1
  rw [hun] at h1
  cases h1

/-- Two passes that give back the text they started from both left it unchanged, in every
    spelling but HTML and for the registry's comment character. -/
theorem unchanged_of_passes_eq {content : String} (hne : headingsOf builtin o content ≠ [])
    (hne₁ : headingsOf builtin o (pass builtin o content).content ≠ [])
    (h : (pass builtin o (pass builtin o content).content).content = content) :
    (pass builtin o content).outcome = .unchanged ∧
      (pass builtin o (pass builtin o content).content).outcome = .unchanged := by
  cases h1 : (pass builtin o content).outcome with
  | unchanged =>
    -- the first pass wrote the text back, so the second is the first again
    have hc1 : (pass builtin o content).content = content := content_of_unchanged h1
    rw [hc1]
    exact ⟨rfl, h1⟩
  | added =>
    exact absurd h1 (not_added_of_passes_eq (not_mem_character (fitCharacter_options hc)) hne₁ h)
  | updated => exact absurd h1 (not_updated_of_passes_eq hc hsp hne hne₁ h)

end Framed

/-! ### What an update reports -/

/-- An update that succeeds reports a block added exactly when the finder found none in the
    text: a second pass adds one only where the first did. -/
theorem update_added_iff {r : Registry} {o : Options} {content : String} {a : Applied}
    (ha : update r o content = .ok a) :
    a.outcome = .added ↔ findBlock content.toList o.character = none := by
  obtain ⟨hne, ⟨-, rfl⟩ | ⟨-, -, rfl⟩⟩ := update_ok ha
  · exact apply_added_iff _ _ _
  · rw [Outcome.merge_eq_added]
    constructor
    · rintro (h | h)
      · exact (apply_added_iff _ _ _).mp h
      · exact findBlock_of_pass hne ((apply_added_iff _ _ _).mp h)
    · exact fun h => Or.inl ((apply_added_iff _ _ _).mpr h)

/-- An update that reports the text unchanged wrote it back as it was. -/
theorem update_content_of_unchanged {r : Registry} {o : Options} {content : String}
    {a : Applied} (ha : update r o content = .ok a) (h : a.outcome = .unchanged) :
    a.content = content := by
  obtain ⟨-, ⟨-, rfl⟩ | ⟨-, -, rfl⟩⟩ := update_ok ha
  · exact content_of_unchanged h
  · obtain ⟨h1, h2⟩ := Outcome.merge_eq_unchanged.mp h
    have hc2 : (pass r o (pass r o content).content).content = (pass r o content).content :=
      content_of_unchanged h2
    have hc1 : (pass r o content).content = content := content_of_unchanged h1
    dsimp only
    exact hc2.trans hc1

/-- What an update reports, for the registry. It fails only for want of headings, in the text or,
    with numbered lines, in what the first pass wrote, and its error names the comment character
    and the file. When it succeeds, it reports a block added exactly when the finder found none,
    and the text unchanged only when it wrote it back as it was; and, in one pass or in every
    spelling but HTML with the registry's comment character, whenever it did. -/
theorem update_outcome (o : Options) (content : String) :
    (∀ e, update Registry.builtin o content = .error e → e = ⟨o.character, o.name⟩) ∧
    ((∃ e, update Registry.builtin o content = .error e) ↔
      headingsOf Registry.builtin o content = [] ∨
        (o.numbered = true ∧
          headingsOf Registry.builtin o (pass Registry.builtin o content).content = [])) ∧
    ∀ a, update Registry.builtin o content = .ok a →
      (a.outcome = .added ↔ findBlock content.toList o.character = none) ∧
      (a.outcome = .unchanged → a.content = content) ∧
      ((o.numbered = true → o.character = Registry.builtin.character o.extension ∧
          Registry.builtin.spelling o.extension ≠ .html) →
        a.content = content → a.outcome = .unchanged) := by
  refine ⟨fun e h => update_error h, update_fails_iff _ o content, fun a ha => ?_⟩
  refine ⟨update_added_iff ha, update_content_of_unchanged ha, fun hbuiltin hcontent => ?_⟩
  obtain ⟨hne, ⟨-, rfl⟩ | ⟨hn, hne₁, rfl⟩⟩ := update_ok ha
  · exact (apply_content_eq_iff _ _ _).mp hcontent
  · obtain ⟨hc, hsp⟩ := hbuiltin hn
    obtain ⟨h1, h2⟩ := unchanged_of_passes_eq hc hsp hne hne₁ hcontent
    exact Outcome.merge_eq_unchanged.mpr ⟨h1, h2⟩

theorem markdown_update_outcome :
    let o := Options.forPath Registry.builtin "a.md"
    (o.numbered = true → o.character = Registry.builtin.character o.extension ∧
        Registry.builtin.spelling o.extension ≠ .html) ∧
    match update Registry.builtin o "# A\n" with
    | .ok a =>
      (a.outcome = .added ↔ findBlock "# A\n".toList o.character = none) ∧
        (a.outcome = .unchanged → a.content = "# A\n") ∧
        (a.content = "# A\n" → a.outcome = .unchanged)
    | .error _ => False := by
  intro o
  have hbuiltin : o.numbered = true → o.character = Registry.builtin.character o.extension ∧
      Registry.builtin.spelling o.extension ≠ .html := fun _ => ⟨rfl, by decide +kernel⟩
  refine ⟨hbuiltin, ?_⟩
  obtain ⟨-, hfails, hok⟩ := update_outcome o "# A\n"
  -- one pass, over a text with a heading
  have hne : headingsOf Registry.builtin o "# A\n" ≠ [] := by decide +kernel
  have hn : o.numbered = false := rfl
  cases h : update Registry.builtin o "# A\n" with
  | ok a =>
    obtain ⟨hadd, hunch, hcontent⟩ := hok a h
    exact ⟨hadd, hunch, hcontent hbuiltin⟩
  | error err =>
    rcases hfails.mp ⟨err, h⟩ with h0 | ⟨h1, -⟩
    · exact hne h0
    · rw [hn] at h1
      cases h1

end Block

end Outline
