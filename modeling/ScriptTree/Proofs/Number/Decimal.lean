/-
Whole numbers as decimal texts. A number with no more digits than are read is read back from its text
(`read_text`), also with white space around it where a text stands for a number (`intOfText?_padded`). A text of
nothing but white space holds no number.
-/
import ScriptTree.Proofs.Number.Range
import ScriptTree.Proofs.Text.Part
import ScriptTree.Proofs.Text.Point
import ScriptTree.Tree.Lenient

namespace ScriptTree

namespace Integer

/-! ## Digits -/

theorem digitsFrom?_digits {ds : List Char} (hds : ∀ c ∈ ds, c.isDigit = true) {after : Bool}
    (h : after = true ∨ ds ≠ []) : digitsFrom? after ds = some (ds.map fun c => c.toNat - 0x30) := by
  induction ds generalizing after with
  | nil => rw [h.resolve_right (not_not_intro rfl)]; rfl
  | cons c ds ih =>
    obtain ⟨hc, hds⟩ := List.forall_mem_cons.1 hds
    have hvalue : Text.digitValue? c = some (c.toNat - 0x30) := by rw [Text.digitValue?, if_pos hc]
    rw [digitsFrom?, hvalue]
    dsimp only
    rw [ih hds (.inl rfl)]
    rfl

theorem ofDigits_toDigits (n : Nat) : ofDigits ((Nat.toDigits 10 n).map fun c => c.toNat - 0x30) = n := by
  rw [ofDigits, List.foldl_map]
  exact Nat.ofDigitChars_ten_toDigits

theorem digit_not_blank {c : Char} (hc : c.isDigit = true ∨ c = '-') : Text.isBlank c = false := by
  rcases hc with hc | rfl
  · rw [Char.isDigit, Bool.and_eq_true, decide_eq_true_eq, decide_eq_true_eq, UInt32.le_iff_toNat_le] at hc
    have hlow : 0x30 ≤ c.toNat := hc.1
    have hhigh : c.toNat ≤ 0x39 := hc.2
    unfold Text.isBlank
    simp
    omega
  · rfl

theorem isDigit_digits (n : Nat) : ∀ c ∈ Nat.toDigits 10 n, c.isDigit = true :=
  fun _ hc => Nat.isDigit_of_mem_toDigits (by decide) (by decide) hc

theorem text_chars (i : Int) : ∀ c ∈ (text i).toList, c.isDigit = true ∨ c = '-' := by
  have hdigits : ∀ c ∈ Nat.toDigits 10 i.natAbs, c.isDigit = true ∨ c = '-' :=
    fun c hc => .inl (isDigit_digits i.natAbs c hc)
  rw [text, String.toList_ofList]
  split
  · exact List.forall_mem_cons.2 ⟨.inr rfl, hdigits⟩
  · exact hdigits

theorem text_ne_nil (i : Int) : (text i).toList ≠ [] := by
  rw [text, String.toList_ofList]
  split
  · exact List.cons_ne_nil _ _
  · exact Nat.toDigits_ne_nil

/-- No white space stands at the ends of a number's text. -/
theorem text_ends (i : Int) : (∃ c, (text i).toList.head? = some c ∧ Text.isBlank c = false) ∧
    ∃ c, (text i).toList.getLast? = some c ∧ Text.isBlank c = false := by
  have hblank : ∀ c ∈ (text i).toList, Text.isBlank c = false := fun c hc => digit_not_blank (text_chars i c hc)
  constructor
  · exact ⟨_, List.head?_eq_some_head (text_ne_nil i), hblank _ (List.head_mem _)⟩
  · exact ⟨_, List.getLast?_eq_some_getLast (text_ne_nil i), hblank _ (List.getLast_mem _)⟩

theorem trimNumber_text (i : Int) : Text.trimNumber (text i).toList = (text i).toList := by
  have hnumber : ∀ c, Text.isBlank c = false → Text.isNumberBlank c = false := by
    intro c hc
    rw [Text.isNumberBlank, hc, Bool.false_and]
  obtain ⟨⟨c, hc, hhead⟩, d, hd, hlast⟩ := text_ends i
  have hpadded := @Text.dropBoth_padded Text.isNumberBlank [] (text i).toList [] nofun nofun
    ⟨c, hc, hnumber c hhead⟩ ⟨d, hd, hnumber d hlast⟩
  rwa [List.nil_append, List.append_nil] at hpadded

theorem splitSign_text (i : Int) : splitSign (text i).toList = (decide (i < 0), Nat.toDigits 10 i.natAbs) := by
  rw [text, String.toList_ofList]
  by_cases hneg : i < 0
  · simp [hneg, splitSign]
  · simp only [hneg, if_false, decide_false]
    cases hds : Nat.toDigits 10 i.natAbs with
    | nil => exact absurd hds Nat.toDigits_ne_nil
    | cons d ds =>
      have hd : d.isDigit = true := isDigit_digits i.natAbs d (hds ▸ List.mem_cons_self)
      unfold splitSign
      split <;> rename_i heq
      · cases (List.cons.inj heq).1
        exact absurd hd (by decide)
      · cases (List.cons.inj heq).1
        exact absurd hd (by decide)
      · rfl

/-! ## Reading -/

theorem read_text {i : Int} (h : IsShort i) : read (text i) = .ok i := by
  have hlength : ¬ (Nat.toDigits 10 i.natAbs).length > digitLimit :=
    Nat.not_lt.2 ((Nat.length_toDigits_le_iff (by decide) (by decide)).2 h)
  unfold read
  rw [trimNumber_text, splitSign_text]
  dsimp only
  rw [digitsFrom?_digits (isDigit_digits i.natAbs) (.inr Nat.toDigits_ne_nil)]
  dsimp only
  rw [List.length_map, if_neg hlength, ofDigits_toDigits]
  by_cases hneg : i < 0
  · rw [decide_eq_true hneg, if_pos rfl, show -(i.natAbs : Int) = i by omega]
  · rw [decide_eq_false hneg, if_neg Bool.false_ne_true, show (i.natAbs : Int) = i by omega]

end Integer

namespace Json.Value

/-- A number is read from its text with white space around it. -/
theorem intOfText?_padded {i : Int} (h : Integer.IsShort i) {before after : List Char}
    (hbefore : ∀ c ∈ before, Text.isBlank c = true) (hafter : ∀ c ∈ after, Text.isBlank c = true) :
    intOfText? (String.ofList (before ++ (Integer.text i).toList ++ after)) = some i := by
  obtain ⟨hhead, hlast⟩ := Integer.text_ends i
  rw [intOfText?, Points.legible?_ofString, Option.bind_some, Text.strip, String.toList_ofList,
    Text.trim_padded hbefore hafter hhead hlast, String.ofList_toList, Integer.read_text h]

theorem intOfText?_blank {s : Points} (h : Text.stripped s = []) : intOfText? s = none := by
  rw [intOfText?, Option.bind_eq_none_iff]
  intro t ht
  rw [Points.legible?_eq_some_iff.1 ht, Points.stripped_ofString] at h
  rw [Text.strip, List.map_eq_nil_iff.1 h]
  rfl

end Json.Value
end ScriptTree
