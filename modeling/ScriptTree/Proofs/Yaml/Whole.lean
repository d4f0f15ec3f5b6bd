/-
Whole numbers in YAML. The decimal text of a number is a plain scalar of that type whatever the number is
(`kindOf_text`), and it is read as the number if it has no more digits than are read (`readScalar_text`).

Such a text is made of digits behind a minus at most, which tells it from words, numbers with a point, dates and
marks, and begins with a zero only if it is nothing else, which tells it from the notations in other bases.
-/
import ScriptTree.Proofs.Number.Decimal
import ScriptTree.Yaml.Document

namespace ScriptTree

namespace Integer

theorem head_digits {n : Nat} (hn : 0 < n) : (Nat.toDigits 10 n).head? ≠ some '0' := by
  induction n using Nat.strongRecOn with
  | ind n ih =>
    rw [Nat.toDigits_eq_if (by decide)]
    split
    · interval_cases n <;> decide
    · have hrest : 0 < n / 10 := by omega
      rw [List.head?_append_of_ne_nil _ Nat.toDigits_ne_nil]
      exact ih (n / 10) (by omega) hrest

/-- The digits of a number are a zero, or a digit other than zero and then digits. -/
theorem digits_cases (n : Nat) :
    (n = 0 ∧ Nat.toDigits 10 n = ['0']) ∨ ∃ d ds, Nat.toDigits 10 n = d :: ds ∧ d ≠ '0' := by
  rcases Nat.eq_zero_or_pos n with rfl | hn
  · exact .inl ⟨rfl, Nat.toDigits_zero 10⟩
  · cases hds : Nat.toDigits 10 n with
    | nil => exact absurd hds Nat.toDigits_ne_nil
    | cons d ds =>
      refine .inr ⟨d, ds, rfl, fun hd => head_digits hn ?_⟩
      rw [hds, hd]
      rfl

/-- A character that is neither a digit nor a minus. -/
def isOther (c : Char) : Bool :=
  !c.isDigit && c != '-'

theorem isOther_text (i : Int) : ∀ c ∈ (text i).toList, isOther c = false := by
  intro c hc
  rcases text_chars i c hc with h | rfl
  · rw [isOther, h]
    rfl
  · rfl

theorem text_ne (i : Int) {w : String} (hw : w.toList.any isOther = true) : text i ≠ w := by
  rintro rfl
  obtain ⟨c, hc, hother⟩ := List.any_eq_true.1 hw
  exact absurd ((isOther_text i c hc).symm.trans hother) Bool.false_ne_true

theorem not_contains_text (i : Int) {ws : List String} (hws : ∀ w ∈ ws, w.toList.any isOther = true) :
    ws.contains (text i) = false :=
  Bool.eq_false_iff.2 fun h => text_ne i (hws _ (List.contains_iff_mem.1 h)) rfl

/-- The digits of a number are the text of the number without its sign. -/
theorem ofList_digits (n : Nat) : String.ofList (Nat.toDigits 10 n) = text n := rfl

theorem not_mem_text (i : Int) {c : Char} (hc : isOther c = true) : c ∉ (text i).toList :=
  fun h => absurd ((isOther_text i c h).symm.trans hc) Bool.false_ne_true

theorem not_mem_digits (n : Nat) {c : Char} (hc : c.isDigit = false) : c ∉ Nat.toDigits 10 n :=
  fun h => absurd ((isDigit_digits n c h).symm.trans hc) Bool.noConfusion

end Integer

namespace Yaml

/-! ## The type of the text -/

theorem isWord_text (i : Int) : ∀ w ∈ yesWords ++ noWords, isWord w (Integer.text i) = false := by
  have hother : ∀ w ∈ yesWords ++ noWords, ∀ v ∈ [w, w.capitalize, w.toUpper],
      v.toList.any Integer.isOther = true := by
    decide +kernel
  intro w hw
  have hne (v : String) (hv : v ∈ [w, w.capitalize, w.toUpper]) : (Integer.text i == v) = false :=
    beq_eq_false_iff_ne.2 (Integer.text_ne i (hother w hw v hv))
  rw [isWord, hne w (by simp), hne w.capitalize (by simp), hne w.toUpper (by simp)]
  rfl

theorem withoutBreak_text (i : Int) : withoutBreak (Integer.text i).toList = (Integer.text i).toList := by
  unfold withoutBreak
  rw [if_neg]
  rw [Bool.and_eq_true, beq_iff_eq]
  exact fun h => Integer.not_mem_text i (by decide) (List.mem_of_getLast? h.2)

theorem isReal_text (i : Int) : isReal (Integer.text i).toList = false := by
  have hspecial : isSpecialReal (Integer.text i).toList = false := by
    unfold isSpecialReal withoutSign
    rw [Integer.splitSign_text, String.ofList_toList, Integer.ofList_digits,
      Integer.not_contains_text i.natAbs (by decide), Integer.not_contains_text i (by decide)]
    rfl
  have hspan : (Nat.toDigits 10 i.natAbs).span (· != '.') = (Nat.toDigits 10 i.natAbs, []) := by
    have hpoint : ∀ c ∈ Nat.toDigits 10 i.natAbs, (c != '.') = true := fun c hc =>
      bne_iff_ne.2 fun hmark => Integer.not_mem_digits i.natAbs (c := '.') (by decide) (hmark ▸ hc)
    rw [List.span_eq_takeWhile_dropWhile, List.takeWhile_eq_self_iff.2 hpoint, List.dropWhile_eq_nil_iff.2 hpoint]
  have hhead : ∀ tail, (Integer.text i).toList ≠ '.' :: tail := by
    intro tail h
    exact Integer.not_mem_text i (c := '.') (by decide) (h ▸ List.mem_cons_self)
  unfold isReal withoutSign
  rw [Integer.splitSign_text, hspecial, Bool.or_false]
  dsimp only
  rw [hspan]
  dsimp only
  split
  · exact absurd ‹_› (hhead _)
  · rfl

theorem isInt_text (i : Int) : isInt (Integer.text i).toList = true := by
  have hdigits := Integer.isDigit_digits i.natAbs
  unfold isInt withoutSign
  rw [Integer.splitSign_text]
  dsimp only
  rcases Integer.digits_cases i.natAbs with ⟨-, h⟩ | ⟨d, ds, h, hd⟩
  · rw [h]
    rfl
  · rw [h] at hdigits ⊢
    obtain ⟨hdigit, hdigits⟩ := List.forall_mem_cons.1 hdigits
    have hfigures : areFigures (d :: ds) = true := by
      rw [areFigures, hdigit, Bool.true_and, List.all_eq_true]
      exact fun c hc => by rw [isFigure, hdigits c hc, Bool.true_or]
    split
    · rfl
    · exact absurd (List.cons.inj ‹_›).1 hd
    · exact absurd (List.cons.inj ‹_›).1 hd
    · exact absurd (List.cons.inj ‹_›).1 hd
    · rw [hfigures, Bool.true_or]

/-- The text of a whole number is a plain scalar of that type. -/
theorem kindOf_text (i : Int) : kindOf (Integer.text i) = .int := by
  have hwords : (yesWords ++ noWords).any (isWord · (Integer.text i)) = false := by
    rw [List.any_eq_false]
    exact fun w hw => Bool.not_eq_true _ ▸ isWord_text i w hw
  unfold kindOf
  rw [withoutBreak_text]
  dsimp only
  rw [String.ofList_toList, hwords, isReal_text, isInt_text]
  rfl

/-! ## The number -/

/-- A whole number is read from its text. -/
theorem readInt_text {i : Int} (h : Integer.IsShort i) : readInt (Integer.text i) = .ok i := by
  have hfilter : (Integer.text i).toList.filter (· != '_') = (Integer.text i).toList :=
    List.filter_eq_self.2 fun c hc => bne_iff_ne.2 fun hmark =>
      Integer.not_mem_text i (c := '_') (by decide) (hmark ▸ hc)
  have hdecimal : readDecimal (Nat.toDigits 10 i.natAbs) = .ok (i.natAbs : Int) := by
    have hread : Integer.read (Integer.text i.natAbs) = .ok (i.natAbs : Int) := Integer.read_text h
    rw [readDecimal, Integer.ofList_digits, hread]
  unfold readInt
  rw [hfilter, Integer.splitSign_text]
  dsimp only
  refine (congrArg (Except.map _) (?_ : _ = Except.ok (i.natAbs : Int))).trans ?_
  · rcases Integer.digits_cases i.natAbs with ⟨hzero, h⟩ | ⟨d, ds, h, hd⟩
    · rw [h, hzero]
      rfl
    · have hcolon : (d :: ds).contains ':' = false :=
        Bool.eq_false_iff.2 fun hmem =>
          Integer.not_mem_digits i.natAbs (by decide) (h ▸ List.contains_iff_mem.1 hmem)
      rw [h] at hdecimal ⊢
      split
      · exact absurd ‹_› (List.cons_ne_nil d ds)
      · exact absurd (List.cons.inj ‹_›).1 hd
      · exact absurd (List.cons.inj ‹_›).1 hd
      · exact absurd (List.cons.inj ‹_›).1 hd
      · exact absurd (List.cons.inj ‹_›).1 hd
      · rw [hcolon, if_neg Bool.false_ne_true, hdecimal]
  · have hsigned : (if decide (i < 0) = true then -(i.natAbs : Int) else i.natAbs) = i := by
      by_cases hneg : i < 0
      · rw [decide_eq_true hneg, if_pos rfl]
        omega
      · rw [decide_eq_false hneg, if_neg Bool.false_ne_true]
        omega
    rw [Except.map, hsigned]

/-- A plain scalar that is the text of a whole number has that number as its value. -/
theorem readScalar_text {i : Int} (h : Integer.IsShort i) :
    Builder.readScalar (kindOf (Integer.text i)).tag (Integer.text i) = .ok (.int i) := by
  rw [kindOf_text]
  exact congrArg (Except.map Scalar.int) (readInt_text h)

end Yaml
end ScriptTree
