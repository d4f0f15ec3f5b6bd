/-
Code in a documentation text, in the terms of what the text was put together from: each piece of code
between its tags is shown between backticks, and all other text stays as it is, an opening tag that is
never closed included (`shown_written`). Every text was put together in this way.

The two tags begin with a character that does not come again in them. So a tag that follows a text without
the tag is its first occurrence: no earlier one can reach over the end of the text.
-/
import ScriptTree.Docs.Markup
import ScriptTree.Proofs.Interpreter.Sentinel
import ScriptTree.Proofs.Text.Part

namespace ScriptTree

namespace Text

variable {α : Type} [DecidableEq α] {c : α} {mark : List α}

/-- A mark that begins with a character of its own is first found right behind a text without it. -/
theorem cutAt?_mark (hc : c ∉ mark) {body : List α} (hbody : ¬ c :: mark <:+: body) (rest : List α) :
    cutAt? (c :: mark) (body ++ (c :: mark ++ rest)) = some (body, rest) := by
  induction body with
  | nil =>
    refine cutAt?_eq_some_iff.2 ⟨by simp, (firstAt_zero _ _).2 ?_⟩
    rw [List.nil_append]
    exact List.prefix_append _ _
  | cons b body ih =>
    -- if the mark stood here, it would end inside the body, since its first character comes only once
    have hhere : ¬ c :: mark <+: b :: (body ++ (c :: mark ++ rest)) := by
      intro h
      rw [List.cons_prefix_cons, List.cons_append] at h
      obtain ⟨rfl, h⟩ := h
      have hin : mark <+: body := prefix_of_not_mem hc body h
      exact hbody ((List.cons_prefix_cons.2 ⟨rfl, hin⟩).isInfix)
    have hlater : ¬ c :: mark <:+: body := fun h => hbody (List.infix_cons_iff.2 (.inr h))
    rw [List.cons_append, cutAt?, if_neg (by rwa [List.isPrefixOf_iff_prefix]), ih hlater]
    rfl

/-- The text before the first occurrence of a mark does not hold it. -/
theorem not_infix_of_cutAt? (hne : mark ≠ []) {text body rest : List α}
    (h : cutAt? mark text = some (body, rest)) : ¬ mark <:+: body := by
  obtain ⟨rfl, -, hbefore⟩ := cutAt?_eq_some_iff.1 h
  rintro ⟨s, t, rfl⟩
  have hpos : 0 < mark.length := List.length_pos_iff.2 hne
  refine hbefore s.length (by simp only [List.length_append]; omega) ?_
  simp only [List.append_assoc]
  rw [List.drop_left]
  exact List.prefix_append _ _

end Text

namespace Docs

open Text (cutAt? cutAt?_mark cutAt?_eq_none_iff cutAt?_eq_some_iff not_infix_of_cutAt?)

/-! ## One piece of code -/

theorem openTag_ne_nil : openTag ≠ [] := List.cons_ne_nil _ _

theorem closeTag_ne_nil : closeTag ≠ [] := List.cons_ne_nil _ _

section

variable {text : Points} (htext : ¬ openTag <:+: text)

include htext

theorem shown_plain : shown text = text := by
  have hcut : cutAt? openTag text = none := cutAt?_eq_none_iff.2 htext
  rw [shown]
  split
  · rfl
  · rename_i before rest h
    cases hcut.symm.trans h

theorem cutAt?_openTag (rest : Points) : cutAt? openTag (text ++ (openTag ++ rest)) = some (text, rest) :=
  cutAt?_mark (by decide) htext rest

/-- An opening tag that is never closed is text. -/
theorem shown_unclosed {rest : Points} (hrest : ¬ closeTag <:+: rest) :
    shown (text ++ (openTag ++ rest)) = text ++ (openTag ++ rest) := by
  have hopen := cutAt?_openTag htext rest
  have hclose : cutAt? closeTag rest = none := cutAt?_eq_none_iff.2 hrest
  rw [shown]
  split
  · rfl
  · rename_i before rest' h
    cases hopen.symm.trans h
    split
    · rfl
    · rename_i code after h'
      cases hclose.symm.trans h'

/-- The code of the first pair of tags goes between backticks, and what follows it is shown by itself. -/
theorem shown_code {code : Points} (hcode : ¬ closeTag <:+: code) (after : Points) :
    shown (text ++ (openTag ++ (code ++ (closeTag ++ after)))) =
      text ++ (codeMark :: (code ++ (codeMark :: shown after))) := by
  have hopen := cutAt?_openTag htext (code ++ (closeTag ++ after))
  have hclose : cutAt? closeTag (code ++ (closeTag ++ after)) = some (code, after) :=
    cutAt?_mark (by decide) hcode after
  rw [shown]
  split
  · rename_i h
    cases hopen.symm.trans h
  · rename_i before rest h
    cases hopen.symm.trans h
    split
    · rename_i h'
      cases hclose.symm.trans h'
    · rename_i code' after' h'
      cases hclose.symm.trans h'
      simp only [List.cons_append, List.append_assoc]

end

/-! ## Texts put together -/

/-- What a text with code in it is put together from: the text before all code, and each piece of code with
the text behind it. -/
structure Passage where
  lead : Points
  parts : List (Points × Points)

namespace Passage

/-- The text with each piece of code between two given marks. -/
def between (p : Passage) (before behind : Points) : Points :=
  p.lead ++ p.parts.flatMap fun (code, text) => before ++ (code ++ (behind ++ text))

/-- The text as it is written, with code between tags. -/
def written (p : Passage) : Points :=
  p.between openTag closeTag

/-- The text as it is shown, with code between backticks. -/
def shown (p : Passage) : Points :=
  p.between [codeMark] [codeMark]

/-- The text before all code and behind each piece of it has no opening tag, and the code has no closing tag. -/
def IsParted (p : Passage) : Prop :=
  ¬ openTag <:+: p.lead ∧ ∀ part ∈ p.parts, ¬ closeTag <:+: part.1 ∧ ¬ openTag <:+: part.2

/-- What remains behind all code: nothing, or an opening tag that is never closed with what follows it. -/
def IsTail (tail : Points) : Prop :=
  tail = [] ∨ ∃ rest, tail = openTag ++ rest ∧ ¬ closeTag <:+: rest

/-- The passage with a text and a piece of code put before it. -/
def prepend (p : Passage) (text code : Points) : Passage :=
  ⟨text, (code, p.lead) :: p.parts⟩

theorem between_prepend (p : Passage) (text code before behind : Points) :
    (p.prepend text code).between before behind =
      text ++ (before ++ (code ++ (behind ++ p.between before behind))) := by
  simp only [between, prepend, List.flatMap_cons, List.append_assoc]

theorem IsParted.prepend {p : Passage} (h : p.IsParted) {text code : Points} (htext : ¬ openTag <:+: text)
    (hcode : ¬ closeTag <:+: code) : (p.prepend text code).IsParted :=
  ⟨htext, List.forall_mem_cons.2 ⟨⟨hcode, h.1⟩, h.2⟩⟩

/-- Each piece of code is shown between backticks, and what remains behind all code is left as it is. -/
theorem shown_append_tail {p : Passage} (h : p.IsParted) {tail : Points} (htail : IsTail tail) :
    Docs.shown (p.written ++ tail) = p.shown ++ tail := by
  obtain ⟨lead, parts⟩ := p
  induction parts generalizing lead with
  | nil =>
    simp only [written, shown, between, List.flatMap_nil, List.append_nil]
    rcases htail with rfl | ⟨rest, rfl, hrest⟩
    · rw [List.append_nil, shown_plain h.1]
    · exact shown_unclosed h.1 hrest
  | cons part parts ih =>
    obtain ⟨code, text⟩ := part
    obtain ⟨hlead, hparts⟩ := h
    obtain ⟨⟨hcode, htext⟩, hparts⟩ := List.forall_mem_cons.1 hparts
    have hrest := ih text ⟨htext, hparts⟩
    have hsplit : (⟨lead, (code, text) :: parts⟩ : Passage) = prepend ⟨text, parts⟩ lead code := rfl
    unfold written shown at hrest ⊢
    simp only [hsplit, between_prepend, List.append_assoc] at hrest ⊢
    rw [shown_code hlead hcode, hrest]
    rfl

/-- Every text is put together from pieces of code and what stands between and behind them. -/
theorem exists_written (text : Points) : ∃ p tail, IsParted p ∧ IsTail tail ∧ text = p.written ++ tail := by
  induction hlength : text.length using Nat.strong_induction_on generalizing text with
  | _ n ih =>
    cases hopen : cutAt? openTag text with
    | none =>
      exact ⟨⟨text, []⟩, [], ⟨cutAt?_eq_none_iff.1 hopen, nofun⟩, .inl rfl,
        by simp [written, between]⟩
    | some cut =>
      obtain ⟨before, rest⟩ := cut
      have hbefore := not_infix_of_cutAt? openTag_ne_nil hopen
      have htext := (cutAt?_eq_some_iff.1 hopen).1
      cases hclose : cutAt? closeTag rest with
      | none =>
        refine ⟨⟨before, []⟩, openTag ++ rest, ⟨hbefore, nofun⟩, .inr ⟨rest, rfl, cutAt?_eq_none_iff.1 hclose⟩, ?_⟩
        rw [htext, List.append_assoc]
        simp [written, between]
      | some cut =>
        obtain ⟨code, after⟩ := cut
        have hcode := not_infix_of_cutAt? closeTag_ne_nil hclose
        have hrest := (cutAt?_eq_some_iff.1 hclose).1
        have hshorter : after.length < n := by
          have := Text.cutAt?_length openTag_ne_nil hopen
          have := Text.cutAt?_length closeTag_ne_nil hclose
          omega
        obtain ⟨p, tail, hp, htail, hafter⟩ := ih after.length hshorter after rfl
        refine ⟨p.prepend before code, tail, hp.prepend hbefore hcode, htail, ?_⟩
        rw [htext, hrest, hafter]
        simp only [written, between_prepend, List.append_assoc]

end Passage

/-- Code is shown between backticks where it was written between tags, and nothing else changes: every text
that is put together from text without opening tags, code without closing tags and, behind all code, perhaps
an opening tag that is never closed, is shown as the same text with backticks for the tags of its code. Every
text is put together so. -/
theorem shown_written :
    (∀ (p : Passage) (tail : Points), p.IsParted → Passage.IsTail tail →
      shown (p.written ++ tail) = p.shown ++ tail) ∧
    ∀ text : Points, ∃ (p : Passage) (tail : Points), p.IsParted ∧ Passage.IsTail tail ∧
      text = p.written ++ tail :=
  ⟨fun _ _ hp htail => Passage.shown_append_tail hp htail, Passage.exists_written⟩

/-- Two pieces of code with an opening tag and a line break in the first, a closing tag between them, and an
opening tag that is never closed behind them. -/
theorem shown_written_unclosed :
    let p : Passage := ⟨"a", [("<c>\n", "</c>"), ("b", [])]⟩
    let tail : Points := "<c>d"
    p.IsParted ∧ Passage.IsTail tail ∧ shown (p.written ++ tail) = p.shown ++ tail ∧
      p.written ++ tail = "a<c><c>\n</c></c><c>b</c><c>d" := by
  intro p tail
  have hparted : p.IsParted := by
    refine ⟨by decide, ?_⟩
    rw [List.forall_mem_cons, List.forall_mem_singleton]
    exact ⟨⟨by decide, by decide⟩, by decide, by decide⟩
  have htail : Passage.IsTail tail := .inr ⟨"d", rfl, by decide⟩
  exact ⟨hparted, htail, shown_written.1 p tail hparted htail, rfl⟩

end Docs
end ScriptTree
