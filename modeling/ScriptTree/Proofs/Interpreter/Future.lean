/-
Settling many answers one after the other. However often an answer is settled, only the first time
counts, so settling a row of answers closes exactly those of the row that were open and leaves every
other answer as it was.
-/
import ScriptTree.Interpreter.Future
import Mathlib

namespace ScriptTree.Interpreter.Futures

/-! ## Settling several answers -/

/-- Settles several answers one after the other, each in its own way. -/
def settleEach (fs : Futures) (row : List (Nat × Outcome)) : Futures :=
  row.foldl (fun fs a => fs.settle a.1 a.2) fs

/-- What of this takes effect: an answer that has come or was given up is not settled again. -/
def takingEffect (fs : Futures) : List (Nat × Outcome) → List (Nat × Outcome)
  | [] => []
  | a :: row =>
    let rest := (fs.settle a.1 a.2).takingEffect row
    if fs.outcomes[a.1]? = some .pending then a :: rest else rest

theorem takingEffect_append (fs : Futures) (row row' : List (Nat × Outcome)) :
    fs.takingEffect (row ++ row') = fs.takingEffect row ++ (fs.settleEach row).takingEffect row' := by
  induction row generalizing fs with
  | nil => rfl
  | cons a row ih =>
    simp only [List.cons_append, takingEffect, ih]
    split <;> rfl

/-! ## What settling leaves -/

/-- Exactly the open answers of some names are closed, and all others are as before. -/
structure Closes (fs fs' : Futures) (names : List Nat) : Prop where
  length : fs'.outcomes.length = fs.outcomes.length
  kept : ∀ (f : Nat) (o : Outcome), fs.outcomes[f]? = some o → o ≠ .pending → fs'.outcomes[f]? = some o
  waiting : ∀ f : Nat, fs'.outcomes[f]? = some .pending ↔ fs.outcomes[f]? = some .pending ∧ f ∉ names

theorem Closes.refl (fs : Futures) : Closes fs fs [] :=
  { length := rfl, kept := fun _ _ h _ => h, waiting := fun _ => by simp }

theorem Closes.trans {fs fs' fs'' : Futures} {ns ns' : List Nat} (h : Closes fs fs' ns)
    (h' : Closes fs' fs'' ns') : Closes fs fs'' (ns ++ ns') where
  length := h'.length.trans h.length
  kept f o ho hne := h'.kept f o (h.kept f o ho hne) hne
  waiting f := by rw [h'.waiting, h.waiting, List.mem_append, not_or, and_assoc]

theorem settle_getElem? (fs : Futures) (i f : Nat) (o : Outcome) :
    (fs.settle i o).outcomes[f]? = if i = f then fs.outcomes[f]?.map (·.settle o) else fs.outcomes[f]? := by
  unfold settle
  rw [List.getElem?_modify]
  split <;> simp

theorem settle_closes (fs : Futures) (i : Nat) {o : Outcome} (ho : o ≠ .pending) :
    Closes fs (fs.settle i o) [i] := by
  refine { length := List.length_modify .., kept := ?_, waiting := ?_ }
  · intro f old hold hne
    rw [settle_getElem?, hold]
    by_cases hf : i = f
    · rw [if_pos hf]
      cases old <;> first | exact absurd rfl hne | rfl
    · rw [if_neg hf]
  · intro f
    rw [settle_getElem?, List.mem_singleton]
    by_cases hf : i = f
    · rw [if_pos hf]
      subst hf
      simp only [not_true_eq_false, and_false, iff_false]
      cases hold : fs.outcomes[i]? with
      | none => simp
      | some old => cases old <;> simp [Outcome.settle, ho]
    · rw [if_neg hf]
      simp [Ne.symm hf]

theorem settleEach_closes (fs : Futures) {row : List (Nat × Outcome)} (h : ∀ a ∈ row, a.2 ≠ .pending) :
    Closes fs (fs.settleEach row) (row.map Prod.fst) := by
  induction row generalizing fs with
  | nil => exact .refl fs
  | cons a row ih =>
    have hfirst := settle_closes fs a.1 (h a List.mem_cons_self)
    exact hfirst.trans (ih (fs.settle a.1 a.2) fun b hb => h b (List.mem_cons_of_mem _ hb))

theorem settleAll_closes (fs : Futures) (is : List Nat) {o : Outcome} (ho : o ≠ .pending) :
    Closes fs (fs.settleAll is o) is := by
  induction is generalizing fs with
  | nil => exact .refl fs
  | cons i is ih => exact (settle_closes fs i ho).trans (ih (fs.settle i o))

/-- An answer that is given up is open no more. -/
theorem cancel_closes (fs : Futures) (i : Nat) : Closes fs (fs.cancel i).1 [i] := by
  have hclosed : fs.get i ≠ .pending → Closes fs fs [i] := by
    intro h
    refine { length := rfl, kept := fun _ _ ho _ => ho, waiting := fun f => ?_ }
    rw [List.mem_singleton, iff_self_and]
    rintro hf rfl
    exact h (by rw [get, List.getD, hf]; rfl)
  unfold cancel
  split
  · exact settle_closes fs i (by simp)
  · rename_i h
    exact hclosed (by simp [h])
  · rename_i h _
    exact hclosed h

end ScriptTree.Interpreter.Futures
