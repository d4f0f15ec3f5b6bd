/-
Cutting a stream at a mark: the cut is at the first occurrence of the mark, a cut found in a
beginning of the stream stays where it is however the stream goes on, and so all responses of a
stream are those of its beginning followed by those of what was left over together with the rest. What a
buffer gives depends on all the text it keeps, and not on how that lies in parts.
-/
import ScriptTree.Interpreter.Sentinel
import Mathlib

namespace ScriptTree.Text

variable {α : Type}

/-! ## The first occurrence of a mark -/

/-- The first occurrence of `mark` in `text` has `n` places before it. -/
def FirstAt (mark text : List α) (n : Nat) : Prop :=
  mark <+: text.drop n ∧ ∀ k < n, ¬ mark <+: text.drop k

theorem firstAt_zero (mark text : List α) : FirstAt mark text 0 ↔ mark <+: text := by
  simp [FirstAt]

theorem firstAt_succ (mark : List α) (c : α) (cs : List α) (n : Nat) :
    FirstAt mark (c :: cs) (n + 1) ↔ ¬ mark <+: c :: cs ∧ FirstAt mark cs n := by
  constructor
  · rintro ⟨here, before⟩
    refine ⟨before 0 (by omega), here, fun k hk => ?_⟩
    exact before (k + 1) (by omega)
  · rintro ⟨head, here, before⟩
    refine ⟨here, fun k hk => ?_⟩
    cases k with
    | zero => exact head
    | succ k => exact before k (by omega)

variable [DecidableEq α]

/-- A cut is at the first occurrence of the mark. -/
theorem cutAt?_eq_some_iff {mark text body rest : List α} :
    cutAt? mark text = some (body, rest) ↔
      text = body ++ mark ++ rest ∧ FirstAt mark text body.length := by
  induction text generalizing body with
  | nil =>
    rw [cutAt?]
    constructor
    · intro h
      split at h
      · rename_i hm
        cases h
        simp only [List.isEmpty_iff] at hm
        subst hm
        simp [FirstAt]
      · cases h
    · rintro ⟨h, -⟩
      simp only [List.append_assoc, List.nil_eq, List.append_eq_nil_iff] at h
      obtain ⟨rfl, rfl, rfl⟩ := h
      rfl
  | cons c cs ih =>
    rw [cutAt?]
    split
    · rename_i hm
      obtain ⟨tail, ht⟩ := List.isPrefixOf_iff_prefix.1 hm
      constructor
      · intro h
        cases h
        refine ⟨?_, (firstAt_zero _ _).2 ⟨tail, ht⟩⟩
        rw [← ht, List.drop_left, List.nil_append]
      · rintro ⟨h, first⟩
        cases body with
        | nil => rw [h, List.nil_append, List.drop_left]
        | cons b bs => exact absurd ⟨tail, ht⟩ (((firstAt_succ _ _ _ _).1 first).1)
    · rename_i hm
      have hm' : ¬ mark <+: c :: cs := fun h => hm (List.isPrefixOf_iff_prefix.2 h)
      rw [Option.map_eq_some_iff]
      constructor
      · rintro ⟨⟨b, r⟩, hcut, heq⟩
        cases heq
        obtain ⟨hcs, first⟩ := ih.1 hcut
        exact ⟨by rw [hcs]; simp, (firstAt_succ _ _ _ _).2 ⟨hm', first⟩⟩
      · rintro ⟨h, first⟩
        cases body with
        | nil => exact absurd ((firstAt_zero _ _).1 first) hm'
        | cons b bs =>
          simp only [List.cons_append, List.cons.injEq] at h
          obtain ⟨rfl, hcs⟩ := h
          exact ⟨(bs, rest), ih.2 ⟨hcs, ((firstAt_succ _ _ _ _).1 first).2⟩, rfl⟩

/-- There is no cut exactly where the mark does not occur. -/
theorem cutAt?_eq_none_iff {mark text : List α} : cutAt? mark text = none ↔ ¬ mark <:+: text := by
  induction text with
  | nil =>
    rw [cutAt?, List.infix_nil]
    cases mark <;> simp
  | cons c cs ih =>
    rw [cutAt?, List.infix_cons_iff, ← List.isPrefixOf_iff_prefix]
    split
    · rename_i hm; simp [hm]
    · rename_i hm; simp [hm, ih]

/-- What follows does not move a cut. -/
theorem cutAt?_append {mark text body rest : List α} (h : cutAt? mark text = some (body, rest))
    (more : List α) : cutAt? mark (text ++ more) = some (body, rest ++ more) := by
  obtain ⟨htext, here, before⟩ := cutAt?_eq_some_iff.1 h
  have hlen : text.length = body.length + mark.length + rest.length := by
    rw [htext]; simp only [List.length_append]
  refine cutAt?_eq_some_iff.2 ⟨by rw [htext]; simp, ?_, fun k hk hpre => ?_⟩
  · rw [List.drop_append_of_le_length (by omega)]
    exact here.trans (List.prefix_append _ _)
  · rw [List.drop_append_of_le_length (by omega)] at hpre
    refine before k hk (List.prefix_of_prefix_length_le hpre (List.prefix_append _ _) ?_)
    rw [List.length_drop]; omega

/-- That a cut is the first is seen by the body and the mark behind it alone. -/
theorem cutAt?_eq_some_iff_body {mark text body rest : List α} :
    cutAt? mark text = some (body, rest) ↔
      text = body ++ mark ++ rest ∧ FirstAt mark (body ++ mark) body.length := by
  constructor
  · intro h
    obtain ⟨rfl, -, before⟩ := cutAt?_eq_some_iff.1 h
    -- a mark found earlier in the body and the mark would be found there in the whole text, too
    refine ⟨rfl, by rw [List.drop_left], fun k hk hpre => before k hk ?_⟩
    have hle : k ≤ (body ++ mark).length := by rw [List.length_append]; omega
    rw [List.drop_append_of_le_length hle]
    exact hpre.trans (List.prefix_append _ _)
  · rintro ⟨rfl, first⟩
    have hcut : cutAt? mark (body ++ mark) = some (body, []) :=
      cutAt?_eq_some_iff.2 ⟨(List.append_nil _).symm, first⟩
    exact cutAt?_append hcut rest

end ScriptTree.Text

namespace ScriptTree.Interpreter

open Text

/-! ## All responses of a text -/

section

variable {sentinel : List Char} (nonempty : sentinel ≠ [])

theorem responses_of_none {text : List Char} (h : cutAt? sentinel text = none) :
    responses sentinel nonempty text = ([], text) := by
  rw [responses]
  split
  · rfl
  · rename_i hcut; rw [h] at hcut; cases hcut

theorem responses_of_some {text body rest : List Char} (h : cutAt? sentinel text = some (body, rest)) :
    responses sentinel nonempty text =
      (body :: (responses sentinel nonempty rest).1, (responses sentinel nonempty rest).2) := by
  rw [responses]
  split
  · rename_i hcut; rw [h] at hcut; cases hcut
  · rename_i b r hcut
    rw [h] at hcut
    cases hcut
    rfl

/-- What is left over holds no whole response. -/
theorem cutAt?_responses_snd (text : List Char) :
    cutAt? sentinel (responses sentinel nonempty text).2 = none := by
  induction hn : text.length using Nat.strong_induction_on generalizing text with
  | _ n ih =>
    cases hcut : cutAt? sentinel text with
    | none => rw [responses_of_none nonempty hcut]; exact hcut
    | some p =>
      obtain ⟨body, rest⟩ := p
      rw [responses_of_some nonempty hcut]
      exact ih rest.length (hn ▸ cutAt?_length nonempty hcut) rest rfl

/-- Responses do not depend on where the text was cut when it came. -/
theorem responses_append (text more : List Char) :
    responses sentinel nonempty (text ++ more) =
      ((responses sentinel nonempty text).1 ++
          (responses sentinel nonempty ((responses sentinel nonempty text).2 ++ more)).1,
        (responses sentinel nonempty ((responses sentinel nonempty text).2 ++ more)).2) := by
  induction hn : text.length using Nat.strong_induction_on generalizing text with
  | _ n ih =>
    cases hcut : cutAt? sentinel text with
    | none => rw [responses_of_none nonempty hcut]; simp
    | some p =>
      obtain ⟨body, rest⟩ := p
      have hlt : rest.length < n := hn ▸ cutAt?_length nonempty hcut
      rw [responses_of_some nonempty hcut, responses_of_some nonempty (cutAt?_append hcut more),
        ih rest.length hlt rest rfl]
      simp

end

namespace SentinelBuffer

/-! ## One response -/

theorem take_of_none {b : SentinelBuffer} (h : cutAt? b.sentinel b.text = none) : b.take = (none, b.join) := by
  rw [take, join_joined, h]

theorem take_of_some {b : SentinelBuffer} {body rest : List Char}
    (h : cutAt? b.sentinel b.text = some (body, rest)) : b.take = (some body, b.holding rest) := by
  rw [take, join_joined, h]

/-! ## All responses -/

theorem takeAll_eq (b : SentinelBuffer) :
    b.takeAll = ((responses b.sentinel b.nonempty b.text).1, b.holding (responses b.sentinel b.nonempty b.text).2) :=
  rfl

theorem takeAll_of_none {b : SentinelBuffer} (h : cutAt? b.sentinel b.text = none) : b.takeAll = ([], b.join) := by
  rw [takeAll_eq, responses_of_none b.nonempty h]
  rfl

/-- The first response is taken, and then all others. -/
theorem takeAll_of_some {b : SentinelBuffer} {body rest : List Char}
    (h : cutAt? b.sentinel b.text = some (body, rest)) :
    b.takeAll = (body :: (b.holding rest).takeAll.1, (b.holding rest).takeAll.2) := by
  have hrest : (b.holding rest).takeAll =
      ((responses b.sentinel b.nonempty rest).1, b.holding (responses b.sentinel b.nonempty rest).2) := by
    rw [takeAll_eq, holding_text]
    rfl
  rw [hrest, takeAll_eq, responses_of_some b.nonempty h]

/-- What is left over holds no whole response. -/
theorem takeAll_rest (b : SentinelBuffer) : cutAt? b.sentinel b.takeAll.2.text = none := by
  rw [takeAll_eq, holding_text]
  exact cutAt?_responses_snd b.nonempty b.text

/-- All responses of what is kept and what comes. -/
theorem append_takeAll (b : SentinelBuffer) (text : List Char) :
    (b.append text).takeAll =
      ((responses b.sentinel b.nonempty (b.text ++ text)).1,
        b.holding (responses b.sentinel b.nonempty (b.text ++ text)).2) := by
  rw [takeAll_eq, append_text]
  rfl

theorem takeAll_append (b : SentinelBuffer) (text more : List Char) :
    (b.append (text ++ more)).takeAll =
      ((b.append text).takeAll.1 ++ ((b.append text).takeAll.2.append more).takeAll.1,
        ((b.append text).takeAll.2.append more).takeAll.2) := by
  rw [append_takeAll b text, append_takeAll, append_takeAll, ← List.append_assoc, responses_append, holding_text]
  rfl

end SentinelBuffer
end ScriptTree.Interpreter
