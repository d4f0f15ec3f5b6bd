/-
Parts of a text. A mark lies on one side of every character that it does not hold. Trimming leaves a part of
the text that neither begins nor ends with white space, and keeps every part of this kind.
-/
import ScriptTree.Text.Blank
import Mathlib

namespace ScriptTree.Text

/-! ## Where a mark can occur -/

section

variable {α : Type} {mark : List α}

/-- A mark at the beginning of a text ends before a character that it does not hold. -/
theorem prefix_of_not_mem {c : α} (hc : c ∉ mark) (xs : List α) {ys : List α}
    (h : mark <+: xs ++ c :: ys) :
    mark <+: xs := by
  induction xs generalizing mark with
  | nil =>
    rcases List.prefix_cons_iff.1 h with rfl | ⟨t, rfl, -⟩
    · exact List.nil_prefix
    · exact absurd List.mem_cons_self hc
  | cons x xs ih =>
    rcases List.prefix_cons_iff.1 h with rfl | ⟨t, rfl, ht⟩
    · exact List.nil_prefix
    · exact List.prefix_cons_iff.2 (.inr ⟨t, rfl, ih (fun hin => hc (List.mem_cons_of_mem _ hin)) ht⟩)

/-- A mark lies on one side of a character that it does not hold. -/
theorem infix_of_not_mem {c : α} (hc : c ∉ mark) (xs : List α) {ys : List α}
    (h : mark <:+: xs ++ c :: ys) :
    mark <:+: xs ∨ mark <:+: ys := by
  induction xs with
  | nil =>
    rcases List.infix_cons_iff.1 h with h | h
    · exact .inl (prefix_of_not_mem hc [] h).isInfix
    · exact .inr h
  | cons x xs ih =>
    rcases List.infix_cons_iff.1 h with h | h
    · exact .inl (prefix_of_not_mem hc (x :: xs) h).isInfix
    · rcases ih h with h | h
      · exact .inl (List.infix_cons_iff.2 (.inr h))
      · exact .inr h

theorem infix_cons_iff_of_not_mem {c : α} (hc : c ∉ mark) {cs : List α} :
    mark <:+: c :: cs ↔ mark <:+: cs := by
  refine ⟨fun h => ?_, fun h => h.trans (List.suffix_cons c cs).isInfix⟩
  rcases infix_of_not_mem hc [] h with h | h
  · rw [List.infix_nil.1 h]
    exact List.nil_infix
  · exact h

end

/-! ## Trimming -/

theorem trimRight_eq (cs : List Char) : trimRight cs = cs.rdropWhile isBlank := rfl

theorem trimRight_cons_of_nil {c : Char} {cs : List Char} (h : trimRight cs = []) (hc : isBlank c = true) :
    trimRight (c :: cs) = [] := by
  rw [trimRight, List.reverse_eq_nil_iff] at h ⊢
  rw [List.reverse_cons, List.dropWhile_append, h]
  exact List.dropWhile_cons_of_pos hc

theorem trimRight_cons_of_ne {c : Char} {cs : List Char} (h : trimRight cs ≠ [] ∨ isBlank c = false) :
    trimRight (c :: cs) = c :: trimRight cs := by
  unfold trimRight at h ⊢
  rw [ne_eq, List.reverse_eq_nil_iff] at h
  rw [List.reverse_cons, List.dropWhile_append]
  by_cases hcs : cs.reverse.dropWhile isBlank = []
  · have hc : isBlank c = false := h.resolve_left (not_not_intro hcs)
    simp [hcs, hc]
  · simp [hcs]

theorem trim_cons {c : Char} (h : isBlank c = true) (cs : List Char) : trim (c :: cs) = trim cs := by
  rw [trim, trimLeft, List.dropWhile_cons_of_pos h]
  rfl

theorem trim_part (cs : List Char) : trim cs <:+: cs :=
  (List.rdropWhile_prefix isBlank (trimLeft cs)).isInfix.trans (List.dropWhile_suffix _).isInfix

/-- A text of characters that are no white space is trimmed already. -/
theorem trim_of_not_blank {cs : List Char} (h : ∀ c ∈ cs, isBlank c = false) : trim cs = cs := by
  have hnone : ∀ ds : List Char, (∀ c ∈ ds, isBlank c = false) → ds.dropWhile isBlank = ds := by
    intro ds hds
    cases ds with
    | nil => rfl
    | cons d ds => exact List.dropWhile_cons_of_neg (by simp [hds d List.mem_cons_self])
  unfold trim trimRight trimLeft
  rw [hnone cs h, hnone cs.reverse fun c hc => h c (List.mem_reverse.1 hc), List.reverse_reverse]

/-- What is cut off at both ends is what stands around a text that has nothing of it at its own ends. -/
theorem dropBoth_padded {cut : Char → Bool} {before cs after : List Char} (hbefore : ∀ c ∈ before, cut c = true)
    (hafter : ∀ c ∈ after, cut c = true) (hhead : ∃ c, cs.head? = some c ∧ cut c = false)
    (hlast : ∃ c, cs.getLast? = some c ∧ cut c = false) :
    (((before ++ cs ++ after).dropWhile cut).reverse.dropWhile cut).reverse = cs := by
  have hkept : ∀ (ds es : List Char), (∃ c, ds.head? = some c ∧ cut c = false) →
      (ds ++ es).dropWhile cut = ds ++ es := by
    rintro (_ | ⟨d, ds⟩) es ⟨c, hc, hcut⟩
    · cases hc
    · cases hc
      exact List.dropWhile_cons_of_neg (by simp [hcut])
  have hreverse : ∃ c, cs.reverse.head? = some c ∧ cut c = false := by
    rwa [List.head?_reverse]
  rw [List.append_assoc, List.dropWhile_append_of_pos hbefore, hkept cs after hhead, List.reverse_append,
    List.dropWhile_append_of_pos fun c hc => hafter c (List.mem_reverse.1 hc)]
  have hrest := hkept cs.reverse [] hreverse
  rw [List.append_nil] at hrest
  rw [hrest, List.reverse_reverse]

/-- White space around a text is cut off. -/
theorem trim_padded {before cs after : List Char} (hbefore : ∀ c ∈ before, isBlank c = true)
    (hafter : ∀ c ∈ after, isBlank c = true) (hhead : ∃ c, cs.head? = some c ∧ isBlank c = false)
    (hlast : ∃ c, cs.getLast? = some c ∧ isBlank c = false) : trim (before ++ cs ++ after) = cs :=
  dropBoth_padded hbefore hafter hhead hlast

theorem trimLeft_trim (cs : List Char) : trimLeft (trim cs) = trim cs := by
  rw [trimLeft, List.dropWhile_eq_self_iff]
  intro hpos
  -- what is left after both cuts begins as it did after the first
  have hinit : trim cs <+: trimLeft cs := List.rdropWhile_prefix isBlank (trimLeft cs)
  rw [hinit.getElem hpos]
  exact List.dropWhile_eq_self_iff.1 (List.dropWhile_idempotent isBlank cs) _

theorem trim_trim (cs : List Char) : trim (trim cs) = trim cs := by
  rw [trim, trimLeft_trim, trimRight_eq, trim, trimRight_eq, List.rdropWhile_idempotent]

theorem strip_strip (s : String) : strip (strip s) = strip s := by
  rw [strip, strip, String.toList_ofList, trim_trim]

/-- A trimmed text does not begin with white space. -/
theorem head?_trim {cs : List Char} {c : Char} (h : (trim cs).head? = some c) : isBlank c = false := by
  have hhead := List.head?_dropWhile_not isBlank (trim cs)
  have hleft : (trim cs).dropWhile isBlank = trim cs := trimLeft_trim cs
  rw [hleft, h] at hhead
  exact hhead

/-- Nor does it end with white space. -/
theorem getLast?_trim {cs : List Char} {c : Char} (h : (trim cs).getLast? = some c) : isBlank c = false := by
  have hlast := List.head?_dropWhile_not isBlank (trimLeft cs).reverse
  rw [trim, trimRight, List.getLast?_reverse] at h
  rw [h] at hlast
  exact hlast

/-- A part that begins with no white space is behind what is cut off at the start. -/
theorem infix_trimLeft {c : Char} {part cs : List Char} (hc : isBlank c = false) (h : c :: part <:+: cs) :
    c :: part <:+: trimLeft cs := by
  induction cs with
  | nil => exact h
  | cons d ds ih =>
    by_cases hd : isBlank d = true
    · rw [trimLeft, List.dropWhile_cons_of_pos hd]
      rcases List.infix_cons_iff.1 h with h | h
      · obtain ⟨rfl, -⟩ := List.cons_prefix_cons.1 h
        rw [hd] at hc
        cases hc
      · exact ih h
    · rwa [trimLeft, List.dropWhile_cons_of_neg hd]

/-- A part that begins and ends with no white space is kept. -/
theorem infix_trim_iff {c d : Char} {part cs : List Char} (hc : isBlank c = false) (hd : isBlank d = false) :
    c :: (part ++ [d]) <:+: trim cs ↔ c :: (part ++ [d]) <:+: cs := by
  refine ⟨fun h => h.trans (trim_part cs), fun h => ?_⟩
  have hreverse : (c :: (part ++ [d])).reverse = d :: (part.reverse ++ [c]) := by simp
  have hleft := List.reverse_infix.2 (infix_trimLeft hc h)
  rw [hreverse] at hleft
  rw [trim, trimRight, ← List.reverse_infix, List.reverse_reverse, hreverse]
  exact infix_trimLeft hd hleft

end ScriptTree.Text
