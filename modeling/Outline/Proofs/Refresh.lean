/-
Module: Outline.Proofs.Refresh
Purpose: Updating a text whose block stands framed between text above and below it. An update
  replaces the block in place, so what it makes of such a text depends on the old block only
  through the number of its body lines, and not at all when lines are not numbered; with numbered
  lines the first pass fixes that number, so two passes give the same text whatever the old
  block listed. A framed text whose headings are those of its frame reads back to its own block,
  and every further pass leaves it as it is.
Main exports: Block.framed, Block.bodyOf
Main statements: passesFrom_framed, passesFrom_framed_congr, passesFrom_settled,
  update_ignores_listed_block
Open obligations: none
-/
import Mathlib
import Outline.Proofs.Frame

namespace Outline

namespace Block

/-- A text holding a block of body lines between text above and below it, the block written with
    a line ending. -/
def framed (o : Options) (u v e : List Char) (body : List String) : String :=
  String.ofList (u ++ withEnding e (Tree.innerText o.character o.name body) ++ v)

/-- The body lines the options draw for some headings. -/
def bodyOf (o : Options) (hs : List Heading) : List String :=
  Tree.connect (hs.map fun h => h.render o.character o.numbered)

/-! ### The body of a table of contents -/

section Body

variable {o : Options} (hfit : Tree.fitCharacter o.character.toList = true)
include hfit

theorem length_bodyOf (hs : List Heading) : (bodyOf o hs).length = hs.length := by
  rw [bodyOf, Tree.length_connect (Tree.plain_of_fitCharacter hfit)
    (Heading.opens_render_all hs _ _), List.length_map]

theorem bodyLines_bodyOf {hs : List Heading} (htexts : ∀ h ∈ hs, '\n' ∉ h.text.toList) :
    Tree.BodyLines o.character (bodyOf o hs) := fun l hl =>
  ⟨Tree.opens_connect (Tree.plain_of_fitCharacter hfit) (Heading.opens_render_all hs _ _) l hl,
    not_mem_body o (by decide) rfl (not_mem_character hfit) htexts l hl⟩

/-- A table of contents that is not empty lists headings, and its block is drawn from them. -/
theorem inner_generate {r : Registry} {s : String} (ht : (generate r o s).isEmpty = false) :
    headingsOf r o s ≠ [] ∧
      (generate r o s).inner.toList =
        Tree.innerText o.character o.name (bodyOf o (headingsOf r o s)) := by
  have hplain := Tree.plain_of_fitCharacter hfit
  have hne : headingsOf r o s ≠ [] := by
    intro h
    simp [generate, Toc.isEmpty, h, documentFor_nil, Document.empty, Document.inner,
      Document.isEmpty] at ht
  refine ⟨hne, ?_⟩
  simp only [generate]
  rw [Document.toList_inner (isEmpty_documentFor r o hplain hne), documentFor_eq r o hne hplain]
  rfl

/-- A table of contents is empty exactly when it lists no heading. -/
theorem isEmpty_generate (r : Registry) (s : String) :
    (generate r o s).isEmpty = false ↔ headingsOf r o s ≠ [] := by
  have hplain := Tree.plain_of_fitCharacter hfit
  refine ⟨fun ht => (inner_generate hfit ht).1, fun hne => ?_⟩
  simp only [generate, Toc.isEmpty]
  rw [Bool.eq_false_iff, ne_eq, String.isEmpty_iff, ← String.toList_eq_nil_iff,
    Document.toList_inner (isEmpty_documentFor r o hplain hne), documentFor_eq r o hne hplain]
  exact Tree.innerText_ne_nil _ _ _

end Body

theorem single_headingsOf (r : Registry) (o : Options) (s : String) :
    ∀ h ∈ headingsOf r o s, '\n' ∉ h.text.toList := fun h hh =>
  Spelling.single_read _ _ _ _ h (Heading.mem_of_mem_upTo hh)

/-- Without numbers the body lines show the headings' levels and texts only. -/
theorem bodyOf_of_entries {o : Options} (hn : o.numbered = false) {hs ks : List Heading}
    (h : hs.map Heading.entry = ks.map Heading.entry) : bodyOf o hs = bodyOf o ks := by
  have hrender : ∀ l : List Heading, l.map (fun x => x.render o.character o.numbered) =
      (l.map Heading.entry).map fun p => (Heading.mk p.1 p.2 0).render o.character o.numbered := by
    intro l
    rw [List.map_map]
    refine List.map_congr_left fun x _ => ?_
    simp only [Function.comp, Heading.entry, Heading.render, Heading.label, hn]
    rfl
  unfold bodyOf
  rw [hrender hs, hrender ks, h]

theorem entries_shift (A B : List Heading) (k : Nat) :
    (A ++ B.map (Heading.shift k)).map Heading.entry = (A ++ B).map Heading.entry := by
  simp [Function.comp_def]

/-- Without numbers a body line does not show its heading's line. -/
theorem bodyOf_shift {o : Options} (hn : o.numbered = false) (A B : List Heading) (k : Nat) :
    bodyOf o (A ++ B.map (Heading.shift k)) = bodyOf o (A ++ B) :=
  bodyOf_of_entries hn (entries_shift A B k)

/-! ### Passes -/

theorem passesFrom_succ (r : Registry) (o : Options) (n : Nat) (content : String)
    (out : Outcome) :
    (passesFrom r o (n + 1) content out).2 =
      if (generate r o content).isEmpty then .error ⟨o.character, o.name⟩
      else (passesFrom r o n (apply content (generate r o content) o).content
        (out.merge (apply content (generate r o content) o).outcome)).2 := by
  simp only [passesFrom]
  split <;> rfl

/-- An update makes one pass, and one more with numbered lines. -/
theorem update_eq (r : Registry) (o : Options) (content : String) :
    update r o content =
      (passesFrom r o ((if o.numbered then 1 else 0) + 1) content .unchanged).2 := by
  simp only [update, updateTrace]
  cases o.numbered <;> rfl

/-- What the passes write does not depend on the outcome so far. -/
theorem content_passesFrom (r : Registry) (o : Options) (n : Nat) (content : String)
    (out out' : Outcome) :
    (passesFrom r o n content out).2.map Applied.content =
      (passesFrom r o n content out').2.map Applied.content := by
  induction n generalizing content out out' with
  | zero => rfl
  | succ n ih =>
    rw [passesFrom_succ, passesFrom_succ]
    split
    · rfl
    · exact ih _ _ _

/-! ### Updating a framed text -/

section Framed

open Registry

variable {o : Options} (hc : o.character = builtin.character o.extension) {u v : List Char}
  (hv : EndsMarker v)
include hc hv

/-- The headings of a framed text are those above its block and those from its closing marker
    down, moved by the block's height; neither part depends on the body, and the line ending
    matters only through the lines it gives the block's top. -/
theorem headingsOf_framed (hsp : builtin.spelling o.extension ≠ .html) (e : List Char) :
    ∃ A B : List Heading, ∀ e', Text.IsEol e' →
      Text.lines (u ++ Tree.topText o.character o.name e') =
        Text.lines (u ++ Tree.topText o.character o.name e) →
      ∀ b, Tree.BodyLines o.character b →
        headingsOf builtin o (framed o u v e' b) = A ++ B.map (Heading.shift (b.length + 3)) := by
  obtain ⟨S, hS, hscr⟩ := builtin_screened hsp o.extension
  rw [← hc] at hS hscr
  have hfit := fitCharacter_options hc
  let P := Text.lines (u ++ Tree.topText o.character o.name e)
  refine ⟨Heading.upTo o.depth (S.scan S.start 1 P (some (Tree.titleRule o.character).toList)),
    Heading.upTo o.depth (S.scan (S.after S.start P) (1 + P.length)
      (Text.lines ((Tree.endMarker o.character).toList ++ v)) none), ?_⟩
  intro e' he' hP b hb
  rw [headingsOf, Spelling.read_eq_scan hS, framed, String.toList_ofList,
    Screened.read_framed hscr hfit hb he' u hv, hP, Heading.upTo_append, Heading.upTo_map_shift]

/-- With a name on one line, the headings of a framed text are what the text above the block
    reads to as if the text ended there, and what the closing marker and the text below read to
    from the state the text above leaves, moved by the block's height. -/
theorem headingsOf_framed_eq {S : Scanner}
    (hS : (builtin.spelling o.extension).scanner? o.character o.extension = some S)
    (hscr : Screened S o.character.toList (builtin.delimiters o.extension))
    (hname : '\n' ∉ o.name.toList) (hu : Text.EndsLine u) {e : List Char} (he : Text.IsEol e)
    {b : List String} (hb : Tree.BodyLines o.character b) :
    headingsOf builtin o (framed o u v e b) =
      Heading.upTo o.depth (S.scan S.start 1 (Text.lines u) none) ++
        (Heading.upTo o.depth (S.scan (S.after S.start (Text.lines u)) ((Text.lines u).length + 3)
          (Text.lines ((Tree.endMarker o.character).toList ++ v)) none)).map
          (Heading.shift (b.length + 3)) := by
  have hfit := fitCharacter_options hc
  -- the opening marker, the title and the rule below it are drawn lines
  have hdrawn : ∀ l ∈ Tree.header o.character o.name ++ Tree.footer o.character,
      S.Quiet l.toList := fun l hl => hscr.drawn _ (Tree.opens_header _ _ l hl)
  have htop : ∀ l ∈ [(Tree.beginMarker o.character).toList,
      (Tree.titleLine o.character o.name).toList], S.Quiet l := by
    intro l hl
    simp only [List.mem_cons, List.not_mem_nil, or_false] at hl
    rcases hl with rfl | rfl <;> exact hdrawn _ (by simp [Tree.header])
  have hrule : S.Quiet (Tree.titleRule o.character).toList := hdrawn _ (by simp [Tree.header])
  rw [headingsOf, Spelling.read_eq_scan hS, framed, String.toList_ofList,
    Screened.read_framed hscr hfit hb he u hv,
    Tree.lines_topText (not_mem_character hfit) hu hname he, Scanner.scan_append,
    Scanner.scan_quiet htop _ _ (by simpa using hrule), List.append_nil, List.head?_cons,
    Option.some_or, Scanner.scan_below_quiet (htop _ List.mem_cons_self), Scanner.after_append,
    Scanner.after_quiet htop, Heading.upTo_append, Heading.upTo_map_shift]
  simp only [List.length_append, List.length_cons, List.length_nil]
  congr 4
  omega

variable (hu : Text.EndsLine u) (hbm : Unmarked o.character u)
include hu hbm

theorem findBlock_framed_options {e : List Char} (he : Text.IsEol e) {b : List String}
    (hb : Tree.BodyLines o.character b) :
    findBlock (u ++ withEnding e (Tree.innerText o.character o.name b) ++ v) o.character =
      some ⟨u.length, u.length + (withEnding e (Tree.innerText o.character o.name b)).length⟩ :=
  findBlock_framed (not_mem_character (fitCharacter_options hc)) hb.boxLines he hu hbm hv

/-- A pass over a framed text frames its new block the same way, written with the text's line
    ending. -/
theorem apply_generate_framed {e : List Char} (he : Text.IsEol e) {b : List String}
    (hb : Tree.BodyLines o.character b) (hne : headingsOf builtin o (framed o u v e b) ≠ []) :
    (apply (framed o u v e b) (generate builtin o (framed o u v e b)) o).content =
      framed o u v (if u = [] then e else lineEnding u)
        (bodyOf o (headingsOf builtin o (framed o u v e b))) := by
  have hfit := fitCharacter_options hc
  have hT := (isEmpty_generate hfit builtin (framed o u v e b)).mpr hne
  have h := content_apply_framed (generate builtin o (framed o u v e b))
    (findBlock_framed_options hc hv hu hbm he hb)
  rw [lineEnding_framed (not_mem_character hfit) o.name hb.boxLines hu he v,
    (inner_generate hfit hT).2] at h
  exact h

/-- One pass over a framed text: no heading fails the update, and otherwise the passes go on from
    the text framed the same way around the new block. -/
theorem passesFrom_framed (n : Nat) (out : Outcome) {e : List Char} (he : Text.IsEol e)
    {b : List String} (hb : Tree.BodyLines o.character b) :
    (passesFrom builtin o (n + 1) (framed o u v e b) out).2.map Applied.content =
      if headingsOf builtin o (framed o u v e b) = [] then .error ⟨o.character, o.name⟩
      else (passesFrom builtin o n (framed o u v (if u = [] then e else lineEnding u)
        (bodyOf o (headingsOf builtin o (framed o u v e b)))) .unchanged).2.map Applied.content := by
  have hfit := fitCharacter_options hc
  rw [passesFrom_succ]
  by_cases hne : headingsOf builtin o (framed o u v e b) = []
  · have hT : (generate builtin o (framed o u v e b)).isEmpty = true := by
      simpa [hne] using (isEmpty_generate hfit builtin (framed o u v e b)).not
    rw [if_pos hT, if_pos hne]
    rfl
  · rw [if_neg (by simpa using (isEmpty_generate hfit builtin _).mpr hne), if_neg hne,
      apply_generate_framed hc hv hu hbm he hb hne]
    exact content_passesFrom _ _ _ _ _ _

/-- Two framed texts around blocks of as many body lines, or of any when lines are not numbered,
    update to the same text. -/
theorem passesFrom_framed_congr (hsp : builtin.spelling o.extension ≠ .html) {e : List Char}
    (he : Text.IsEol e) {b₁ b₂ : List String}
    (hb₁ : Tree.BodyLines o.character b₁) (hb₂ : Tree.BodyLines o.character b₂)
    (hlen : o.numbered = true → b₁.length = b₂.length) (n : Nat) (out₁ out₂ : Outcome) :
    (passesFrom builtin o (n + 1) (framed o u v e b₁) out₁).2.map Applied.content =
      (passesFrom builtin o (n + 1) (framed o u v e b₂) out₂).2.map Applied.content := by
  obtain ⟨A, B, hAB⟩ := headingsOf_framed hc hv hsp e
  rw [passesFrom_framed hc hv hu hbm n out₁ he hb₁, passesFrom_framed hc hv hu hbm n out₂ he hb₂,
    hAB e he rfl b₁ hb₁, hAB e he rfl b₂ hb₂]
  -- the two listings differ only in the lines of the headings below the block
  have hbody : bodyOf o (A ++ B.map (Heading.shift (b₁.length + 3))) =
      bodyOf o (A ++ B.map (Heading.shift (b₂.length + 3))) := by
    cases hn : o.numbered
    · rw [bodyOf_shift hn, bodyOf_shift hn]
    · rw [hlen hn]
  have hnil : A ++ B.map (Heading.shift (b₁.length + 3)) = [] ↔
      A ++ B.map (Heading.shift (b₂.length + 3)) = [] := by
    simp
  by_cases h : A ++ B.map (Heading.shift (b₁.length + 3)) = []
  · rw [if_pos h, if_pos (hnil.mp h)]
  · rw [if_neg h, if_neg (mt hnil.mpr h), hbody]

/-- A framed text whose block is the one its own headings draw, written with the ending the text
    already uses, is left as it is by every pass. -/
theorem passesFrom_settled {e : List Char} (he : Text.IsEol e) {b : List String}
    (hb : Tree.BodyLines o.character b) (hstable : (if u = [] then e else lineEnding u) = e)
    (hne : headingsOf builtin o (framed o u v e b) ≠ [])
    (hfix : bodyOf o (headingsOf builtin o (framed o u v e b)) = b) (n : Nat) :
    (passesFrom builtin o n (framed o u v e b) .unchanged).2 = .ok ⟨framed o u v e b, .unchanged⟩ := by
  have hfit := fitCharacter_options hc
  have hT := (isEmpty_generate hfit builtin (framed o u v e b)).mpr hne
  have happly : apply (framed o u v e b) (generate builtin o (framed o u v e b)) o =
      ⟨framed o u v e b, .unchanged⟩ := by
    have h := apply_framed (generate builtin o (framed o u v e b))
      (findBlock_framed_options hc hv hu hbm he hb)
    rw [lineEnding_framed (not_mem_character hfit) o.name hb.boxLines hu he v, hstable,
      (inner_generate hfit hT).2, hfix, if_pos rfl] at h
    exact h
  induction n with
  | zero => rfl
  | succ n ih =>
    rw [passesFrom_succ, if_neg (by simp [hT]), happly]
    exact ih

omit hbm in
/-- With a name on one line, what the text around the block gives is the same whatever the line
    ending of the block. -/
theorem headingsOf_framed_name (hsp : builtin.spelling o.extension ≠ .html)
    (hname : '\n' ∉ o.name.toList) :
    ∃ A B : List Heading, ∀ e b, Text.IsEol e → Tree.BodyLines o.character b →
      headingsOf builtin o (framed o u v e b) = A ++ B.map (Heading.shift (b.length + 3)) := by
  have hc' := not_mem_character (fitCharacter_options hc)
  obtain ⟨A, B, hAB⟩ := headingsOf_framed hc hv hsp ['\n']
  refine ⟨A, B, fun e b he hb => hAB e he ?_ b hb⟩
  rw [Tree.lines_topText hc' hu hname he, Tree.lines_topText hc' hu hname (Or.inl rfl)]

/-- A framed text around the block of some headings that list what its frame holds settles:
    the passes still to go write a text that a further update leaves as it is. With numbers,
    one more pass draws the lines of the headings below the block as they stand then. -/
theorem settles_framed {A B : List Heading}
    (hAB : ∀ e b, Text.IsEol e → Tree.BodyLines o.character b →
      headingsOf builtin o (framed o u v e b) = A ++ B.map (Heading.shift (b.length + 3)))
    {e : List Char} (he : Text.IsEol e) (hstable : (if u = [] then e else lineEnding u) = e)
    {H : List Heading} (hH : H ≠ []) (htexts : ∀ h ∈ H, '\n' ∉ h.text.toList)
    (hlist : H.map Heading.entry = (A ++ B).map Heading.entry) :
    ∃ X, (∀ out, (passesFrom builtin o (if o.numbered then 1 else 0)
        (framed o u v e (bodyOf o H)) out).2.map Applied.content = .ok X) ∧
      update builtin o X = .ok ⟨X, .unchanged⟩ := by
  have hfit := fitCharacter_options hc
  have hlen : H.length = A.length + B.length := by
    simpa using congrArg List.length hlist
  have hne : ∀ k, A ++ B.map (Heading.shift k) ≠ [] := by
    intro k hnil
    have h0 : A.length + B.length = 0 := by simpa using congrArg List.length hnil
    exact hH (List.eq_nil_of_length_eq_zero (by omega))
  have hbH := bodyLines_bodyOf hfit htexts
  cases hn : o.numbered
  · -- one pass: the block of `H` is already the block its text reads back to
    refine ⟨framed o u v e (bodyOf o H), fun out => rfl, ?_⟩
    rw [update_eq, hn]
    refine passesFrom_settled hc hv hu hbm he hbH hstable ?_ ?_ 1
    · rw [hAB e _ he hbH]
      exact hne _
    · rw [hAB e _ he hbH, bodyOf_shift hn, bodyOf_of_entries hn hlist]
  · -- two passes: the second draws the lines below the block as the first left them
    have hb₂ : Tree.BodyLines o.character
        (bodyOf o (A ++ B.map (Heading.shift ((bodyOf o H).length + 3)))) := by
      rw [← hAB e _ he hbH]
      exact bodyLines_bodyOf hfit (single_headingsOf _ _ _)
    refine ⟨framed o u v e (bodyOf o (A ++ B.map (Heading.shift ((bodyOf o H).length + 3)))),
      fun out => ?_, ?_⟩
    · rw [if_pos rfl, passesFrom_framed hc hv hu hbm 0 out he hbH, hAB e _ he hbH,
        if_neg (hne _), hstable]
      rfl
    · have hfix : (bodyOf o (A ++ B.map (Heading.shift ((bodyOf o H).length + 3)))).length =
          (bodyOf o H).length := by
        rw [length_bodyOf hfit, length_bodyOf hfit, hlen]
        simp
      rw [update_eq, hn]
      refine passesFrom_settled hc hv hu hbm he hb₂ hstable ?_ ?_ 2
      · rw [hAB e _ he hb₂]
        exact hne _
      · rw [hAB e _ he hb₂, hfix]

/-- An update of a framed text whose name is one line writes a text that the next update leaves
    as it is. -/
theorem update_framed_settles (hsp : builtin.spelling o.extension ≠ .html)
    (hname : '\n' ∉ o.name.toList) {e : List Char} (he : Text.IsEol e) {b : List String}
    (hb : Tree.BodyLines o.character b) {a : Applied}
    (ha : update builtin o (framed o u v e b) = .ok a) :
    update builtin o a.content = .ok ⟨a.content, .unchanged⟩ := by
  have hfit := fitCharacter_options hc
  obtain ⟨A, B, hAB⟩ := headingsOf_framed_name hc hv hu hsp hname
  have he' : Text.IsEol (if u = [] then e else lineEnding u) := by
    split
    · exact he
    · exact Text.isEol_lineEnding u
  have hstable : (if u = [] then (if u = [] then e else lineEnding u) else lineEnding u) =
      (if u = [] then e else lineEnding u) := by
    split <;> rfl
  have hcontent := congrArg (Except.map Applied.content) ha
  rw [update_eq, passesFrom_framed hc hv hu hbm _ _ he hb, hAB e b he hb] at hcontent
  by_cases hnil : A ++ B.map (Heading.shift (b.length + 3)) = []
  · rw [if_pos hnil] at hcontent
    exact absurd hcontent (by simp [Except.map])
  rw [if_neg hnil] at hcontent
  obtain ⟨X, hX, hsettled⟩ := settles_framed hc hv hu hbm hAB he' hstable hnil
    (single_headingsOf builtin o (framed o u v e b) |> fun h => hAB e b he hb ▸ h)
    (entries_shift A B _)
  rw [hX] at hcontent
  have hXa : X = a.content := by simpa [Except.map] using hcontent
  rw [← hXa]
  exact hsettled

end Framed

/-! ### The old block does not matter -/

open Registry in
/-- Updating a text whose block was generated before, for the same name and comment character
    and with any numbering and depth, gives what updating it with any other such block gives:
    both fail, or both write the same text. The text above the block ends a line and holds no
    opening marker line; the closing marker ends its line. -/
theorem update_ignores_listed_block (o o₁ o₂ : Options) (s₁ s₂ : String) (u v : List Char)
    (hc : o.character = builtin.character o.extension) (hsp : builtin.spelling o.extension ≠ .html)
    (h₁ : o₁.character = o.character ∧ o₁.name = o.name)
    (h₂ : o₂.character = o.character ∧ o₂.name = o.name)
    (ht₁ : (generate builtin o₁ s₁).isEmpty = false) (ht₂ : (generate builtin o₂ s₂).isEmpty = false)
    (hu : Text.EndsLine u) (hbm : Unmarked o.character u) (hv : EndsMarker v) :
    (update builtin o (String.ofList (u ++ (generate builtin o₁ s₁).inner.toList ++ v))).map
        Applied.content =
      (update builtin o (String.ofList (u ++ (generate builtin o₂ s₂).inner.toList ++ v))).map
        Applied.content := by
  have hfit := fitCharacter_options hc
  have hlf : Text.IsEol ['\n'] := Or.inl rfl
  -- each old block is the block of its own headings, for the name and character of `o`
  have hold : ∀ (o' : Options) (s : String), o'.character = o.character ∧ o'.name = o.name →
      (generate builtin o' s).isEmpty = false →
      String.ofList (u ++ (generate builtin o' s).inner.toList ++ v) =
        framed o u v ['\n'] (bodyOf o' (headingsOf builtin o' s)) ∧
      Tree.BodyLines o.character (bodyOf o' (headingsOf builtin o' s)) := by
    intro o' s ho' ht
    have hfit' : Tree.fitCharacter o'.character.toList = true := ho'.1 ▸ hfit
    refine ⟨?_, ho'.1 ▸ bodyLines_bodyOf hfit' (single_headingsOf builtin o' s)⟩
    rw [framed, withEnding_lf, (inner_generate hfit' ht).2, ho'.1, ho'.2]
  obtain ⟨hX₁, hb₁⟩ := hold o₁ s₁ h₁ ht₁
  obtain ⟨hX₂, hb₂⟩ := hold o₂ s₂ h₂ ht₂
  rw [hX₁, hX₂]
  simp only [update, updateTrace]
  cases hn : o.numbered
  · exact passesFrom_framed_congr hc hv hu hbm hsp hlf hb₁ hb₂ (fun h => by simp [hn] at h) 0 _ _
  · -- with numbered lines the first pass draws as many body lines from both texts
    obtain ⟨A, B, hAB⟩ := headingsOf_framed hc hv hsp ['\n']
    rw [if_pos rfl, passesFrom_framed hc hv hu hbm 1 _ hlf hb₁,
      passesFrom_framed hc hv hu hbm 1 _ hlf hb₂]
    have hH₁ := hAB _ hlf rfl _ hb₁
    have hH₂ := hAB _ hlf rfl _ hb₂
    have hlen : (bodyOf o (headingsOf builtin o (framed o u v ['\n'] (bodyOf o₁ (headingsOf builtin o₁ s₁))))).length =
        (bodyOf o (headingsOf builtin o (framed o u v ['\n'] (bodyOf o₂ (headingsOf builtin o₂ s₂))))).length := by
      rw [length_bodyOf hfit, length_bodyOf hfit, hH₁, hH₂]
      simp
    have hnil : headingsOf builtin o (framed o u v ['\n'] (bodyOf o₁ (headingsOf builtin o₁ s₁))) = [] ↔
        headingsOf builtin o (framed o u v ['\n'] (bodyOf o₂ (headingsOf builtin o₂ s₂))) = [] := by
      rw [hH₁, hH₂]
      simp
    have he' : Text.IsEol (if u = [] then ['\n'] else lineEnding u) := by
      split
      · exact hlf
      · exact Text.isEol_lineEnding u
    by_cases h : headingsOf builtin o (framed o u v ['\n'] (bodyOf o₁ (headingsOf builtin o₁ s₁))) = []
    · rw [if_pos h, if_pos (hnil.mp h)]
    · rw [if_neg h, if_neg (mt hnil.mpr h)]
      exact passesFrom_framed_congr hc hv hu hbm hsp he'
        (bodyLines_bodyOf hfit (single_headingsOf _ _ _))
        (bodyLines_bodyOf hfit (single_headingsOf _ _ _)) (fun _ => hlen) 0 _ _

open Registry in
theorem markdown_update_ignores_listed_block :
    let o := Options.forPath builtin "a.md"
    let o₂ := { o with numbered := true }
    (o.character = builtin.character o.extension ∧ builtin.spelling o.extension ≠ .html ∧
      (o.character = o.character ∧ o.name = o.name) ∧ (o₂.character = o.character ∧ o₂.name = o.name) ∧
      (generate builtin o "# A\n").isEmpty = false ∧ (generate builtin o₂ "# B\n## C\n").isEmpty = false ∧
      Text.EndsLine [] ∧ Unmarked o.character [] ∧ EndsMarker []) ∧
    (update builtin o (String.ofList ([] ++ (generate builtin o "# A\n").inner.toList ++ []))).map
        Applied.content =
      (update builtin o (String.ofList ([] ++ (generate builtin o₂ "# B\n## C\n").inner.toList ++ []))).map
        Applied.content := by
  intro o o₂
  have hc : o.character = builtin.character o.extension := rfl
  have hsp : builtin.spelling o.extension ≠ .html := by decide +kernel
  have ht₁ : (generate builtin o "# A\n").isEmpty = false := by decide +kernel
  have ht₂ : (generate builtin o₂ "# B\n## C\n").isEmpty = false := by decide +kernel
  have hu : Text.EndsLine [] := Text.endsLine_nil
  have hbm : Unmarked o.character [] := by simp [Unmarked, linesWithOffsets, Text.pieces_nil, locate]
  have hv : EndsMarker [] := Or.inl rfl
  exact ⟨⟨hc, hsp, ⟨rfl, rfl⟩, ⟨rfl, rfl⟩, ht₁, ht₂, hu, hbm, hv⟩,
    update_ignores_listed_block o o o₂ "# A\n" "# B\n## C\n" [] [] hc hsp ⟨rfl, rfl⟩ ⟨rfl, rfl⟩
      ht₁ ht₂ hu hbm hv⟩

end Block

end Outline
