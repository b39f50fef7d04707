/-
Module: Outline.Proofs.Settle
Purpose: An update settles: the next update leaves what it writes as it is, byte for byte, line
  numbers included. This holds in every spelling but HTML, for a name on one line, and for two
  kinds of text: one without an opening marker line, whose shebang, when it is underlined, stands
  over no underline; and one holding a block that was generated for its name and comment
  character.
Main exports: Block.Settling
Main statements: update_settles
Open obligations: none
-/
import Mathlib
import Outline.Proofs.Insert

namespace Outline

namespace Block

open Registry

/-- The texts whose update the next update keeps: a text without an opening marker line, whose
    shebang, when the text is underlined, stands over no underline; or a text holding a block
    generated for the same name and comment character, written with a line ending, after text
    that ends a line and holds no opening marker. -/
def Settling (o : Options) (cs : List Char) : Prop :=
  (Unmarked o.character cs ∧ (builtin.spelling o.extension = .underlined → ShebangClear cs)) ∨
  ∃ (o' : Options) (s : String) (u v e : List Char), o'.character = o.character ∧
    o'.name = o.name ∧ (generate builtin o' s).isEmpty = false ∧ Text.IsEol e ∧
    Text.EndsLine u ∧ Unmarked o.character u ∧ EndsMarker v ∧
    cs = u ++ withEnding e (generate builtin o' s).inner.toList ++ v

/-- What an update writes, the next update leaves as it is, for the registry's comment character,
    a name on one line, every spelling but HTML and every text an update settles. -/
theorem update_settles (o : Options) (content : String)
    (hc : o.character = builtin.character o.extension) (hsp : builtin.spelling o.extension ≠ .html)
    (hname : '\n' ∉ o.name.toList) (htext : Settling o content.toList) {a : Applied}
    (ha : update builtin o content = .ok a) :
    update builtin o a.content = .ok ⟨a.content, .unchanged⟩ := by
  rcases htext with ⟨hbm, hrst⟩ | ⟨o', s, u, v, e, hco, hno, ht, he, hu, hbm, hv, hcs⟩
  · have hcontent : String.ofList content.toList = content := String.ofList_toList
    rw [← hcontent] at ha
    exact update_unmarked_settles hc hsp hname hbm hrst ha
  · -- the old block is the block of its own headings, framed by the rest of the text
    have hfit' : Tree.fitCharacter o'.character.toList = true := hco ▸ fitCharacter_options hc
    have hframed : content = framed o u v e (bodyOf o' (headingsOf builtin o' s)) := by
      rw [framed, ← hco, ← hno, ← (inner_generate hfit' ht).2, ← hcs, String.ofList_toList]
    have hb : Tree.BodyLines o.character (bodyOf o' (headingsOf builtin o' s)) :=
      hco ▸ bodyLines_bodyOf hfit' (single_headingsOf builtin o' s)
    rw [hframed] at ha
    exact update_framed_settles hc hv hu hbm hsp hname he hb ha

/-- Without numbers an update makes one pass, which fails only where there is no heading. -/
theorem isOk_update_unnumbered {r : Registry} {o : Options}
    (hfit : Tree.fitCharacter o.character.toList = true) (hn : o.numbered = false)
    (content : String) : (update r o content).isOk = true ↔ headingsOf r o content ≠ [] := by
  rw [update_eq, hn, ← isEmpty_generate hfit r content, passesFrom_succ]
  cases (generate r o content).isEmpty <;> simp [passesFrom, Except.isOk, Except.toBool]

theorem markdown_update_settles :
    let o := Options.forPath builtin "a.md"
    (o.character = builtin.character o.extension ∧ builtin.spelling o.extension ≠ .html ∧
      '\n' ∉ o.name.toList ∧ Settling o "# A\n".toList) ∧
    match update builtin o "# A\n" with
    | .ok a => update builtin o a.content = .ok ⟨a.content, .unchanged⟩
    | .error _ => False := by
  intro o
  have hc : o.character = builtin.character o.extension := rfl
  have hsp : builtin.spelling o.extension ≠ .html := by decide +kernel
  have hname : '\n' ∉ o.name.toList := by decide +kernel
  have hbm : Unmarked o.character "# A\n".toList := by
    unfold Unmarked
    decide +kernel
  have htext : Settling o "# A\n".toList :=
    Or.inl ⟨hbm, fun h => absurd h (by decide +kernel)⟩
  refine ⟨⟨hc, hsp, hname, htext⟩, ?_⟩
  have hok : (update builtin o "# A\n").isOk = true :=
    (isOk_update_unnumbered (fitCharacter_options hc) rfl _).mpr (by decide +kernel)
  cases h : update builtin o "# A\n" with
  | ok a => exact update_settles o "# A\n" hc hsp hname htext h
  | error err =>
    rw [h] at hok
    exact absurd hok (by simp [Except.isOk, Except.toBool])

end Block

end Outline
