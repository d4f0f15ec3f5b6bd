/-!
Finding a mark in a text.
-/

namespace ScriptTree.Text

variable {α : Type} [DecidableEq α]

/-- The text before the first occurrence of a mark, and the text after it. -/
def cutAt? (mark : List α) : List α → Option (List α × List α)
  | [] => if mark.isEmpty then some ([], []) else none
  | c :: cs =>
    if mark.isPrefixOf (c :: cs) then some ([], (c :: cs).drop mark.length)
    else (cutAt? mark cs).map fun (body, rest) => (c :: body, rest)

/-- What follows a mark is shorter than the whole. -/
theorem cutAt?_length {mark text body rest : List α} (nonempty : mark ≠ [])
    (h : cutAt? mark text = some (body, rest)) : rest.length < text.length := by
  induction text generalizing body with
  | nil => simp [cutAt?, nonempty] at h
  | cons c cs ih =>
    rw [cutAt?] at h
    split at h
    · have : 0 < mark.length := List.length_pos_iff.2 nonempty
      simp only [Option.some.injEq, Prod.mk.injEq] at h
      obtain ⟨_, rfl⟩ := h
      simp only [List.length_drop, List.length_cons]
      omega
    · obtain ⟨⟨b, r⟩, hr, heq⟩ := Option.map_eq_some_iff.1 h
      simp only [Prod.mk.injEq] at heq
      obtain ⟨_, rfl⟩ := heq
      have := ih hr
      simp only [List.length_cons]
      omega

end ScriptTree.Text
