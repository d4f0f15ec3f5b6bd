/-
What is written for values without loss, those without fractions whose numbers have no more digits than
are read and whose objects have distinct keys (`Plain`). Their text on many lines holds no control
character but line breaks (`blockText_shown`), and half of a surrogate pair just where a text inside the
value does (`blockText_isLegible_iff`).
-/
import ScriptTree.Json.Writer
import ScriptTree.Proofs.Number.Range
import ScriptTree.Proofs.Text.Point

namespace ScriptTree.Json

open Integer (IsShort)

/-! ## Values that are written without loss -/

/-- The value holds no fractions and no number that is too long, and the keys of its objects are
distinct. -/
inductive Plain : Value → Prop
  | null : Plain .null
  | bool (b : Bool) : Plain (.bool b)
  | int {i : Int} : IsShort i → Plain (.int i)
  | text (s : Points) : Plain (.text s)
  | list {xs : List Value} : (∀ x ∈ xs, Plain x) → Plain (.list xs)
  | object {fs : List (Points × Value)} : (fs.map Prod.fst).Nodup → (∀ f ∈ fs, Plain f.2) →
      Plain (.object fs)

/-! ## What is printed -/

theorem joined_cons_cons {α : Type} (separator p q : List α) (ps : List (List α)) :
    joined separator (p :: q :: ps) = p ++ separator ++ joined separator (q :: ps) := rfl

theorem blockItems_eq (level : Nat) (xs : List Value) : blockItems level xs = xs.map (blockText level) := by
  induction xs with
  | nil => rfl
  | cons x xs ih => rw [blockItems, ih, List.map_cons]

theorem blockFields_eq (level : Nat) (fs : List (Points × Value)) :
    blockFields level fs = fs.map fun f => stringText f.1 ++ ": " ++ blockText level f.2 := by
  induction fs with
  | nil => rfl
  | cons f fs ih => rw [blockFields, ih, List.map_cons]

/-- A line break, or what is no control character of ASCII. -/
def IsShown (p : Point) : Prop :=
  p = .char '\n' ∨ 0x20 ≤ p.code

instance : DecidablePred IsShown :=
  fun p => inferInstanceAs (Decidable (p = .char '\n' ∨ 0x20 ≤ p.code))

/-- What all points of the pieces and of the separator have all points of the whole have. -/
theorem forall_mem_joined {α : Type} {P : α → Prop} {separator : List α} {ps : List (List α)}
    (hs : ∀ a ∈ separator, P a) (h : ∀ p ∈ ps, ∀ a ∈ p, P a) : ∀ a ∈ joined separator ps, P a := by
  induction ps with
  | nil => nofun
  | cons p ps ih =>
    cases ps with
    | nil => exact h p List.mem_cons_self
    | cons q ps =>
      rw [joined_cons_cons]
      simp only [List.mem_append]
      rintro a ((ha | ha) | ha)
      · exact h p List.mem_cons_self a ha
      · exact hs a ha
      · exact ih (fun r hr => h r (List.mem_cons_of_mem p hr)) a ha

theorem newLine_shown (level : Nat) : ∀ p ∈ newLine level, IsShown p := by
  rw [newLine, List.forall_mem_append]
  refine ⟨by decide, fun p hp => ?_⟩
  rw [List.eq_of_mem_replicate hp]
  exact .inr (by decide)

theorem hexDigits_visible (width n : Nat) : ∀ c ∈ Text.hexDigits width n, 0x20 ≤ c.toNat := by
  have hdigit : ∀ m < 16, 0x20 ≤ (Text.hexDigit m).toNat := by decide
  induction width generalizing n with
  | zero => nofun
  | succ width ih =>
    intro c hc
    rw [Text.hexDigits, List.mem_append, List.mem_singleton] at hc
    rcases hc with hc | rfl
    · exact ih (n / 16) c hc
    · exact hdigit (n % 16) (Nat.mod_lt n (by decide))

theorem stringChar_visible (c : Char) : ∀ d ∈ stringChar c, 0x20 ≤ d.toNat := by
  have hletter : ∀ d : Char, 0x20 ≤ d.toNat → ∀ e ∈ ['\\', d], 0x20 ≤ e.toNat := by
    intro d hd e he
    rw [List.mem_pair] at he
    rcases he with rfl | rfl
    · decide
    · exact hd
  unfold stringChar
  iterate 7
    split
    · exact hletter _ (by decide)
  split
  · intro d hd
    simp only [List.mem_cons] at hd
    rcases hd with rfl | rfl | hd
    · decide
    · decide
    · exact hexDigits_visible 4 _ d hd
  · rename_i hplain
    intro d hd
    rw [List.mem_singleton.1 hd]
    exact Nat.not_lt.1 hplain

theorem stringPoint_visible (p : Point) : ∀ q ∈ stringPoint p, 0x20 ≤ q.code := by
  cases p with
  | char c => exact List.forall_mem_map.2 (stringChar_visible c)
  | half n =>
    refine List.forall_mem_singleton.2 ?_
    rw [Point.code, Point.firstHalf]
    omega

/-- A string is written without control characters. -/
theorem stringText_visible (s : Points) : ∀ p ∈ stringText s, 0x20 ≤ p.code := by
  rw [stringText, List.forall_mem_append, List.forall_mem_append, List.forall_mem_flatMap]
  exact ⟨⟨by decide, fun p _ => stringPoint_visible p⟩, by decide⟩

theorem text_visible (i : Int) : ∀ c ∈ (Integer.text i).toList, 0x20 ≤ c.toNat := by
  have hdigits : ∀ c ∈ Nat.toDigits 10 i.natAbs, 0x20 ≤ c.toNat := by
    intro c hc
    have hd : c.isDigit = true := Nat.isDigit_of_mem_toDigits (by decide) (by decide) hc
    rw [Char.isDigit, Bool.and_eq_true, decide_eq_true_eq, ge_iff_le, UInt32.le_iff_toNat_le] at hd
    exact Nat.le_trans (by decide) hd.1
  rw [Integer.text, String.toList_ofList]
  split
  · exact List.forall_mem_cons.2 ⟨by decide, hdigits⟩
  · exact hdigits

/-- What stands between brackets or braces. -/
theorem framed_shown {opening closing text : Points} (ho : ∀ p ∈ opening, IsShown p)
    (hc : ∀ p ∈ closing, IsShown p) {inner outer : Nat} (h : ∀ p ∈ text, IsShown p) :
    ∀ p ∈ opening ++ newLine inner ++ text ++ newLine outer ++ closing, IsShown p := by
  simp only [List.forall_mem_append]
  exact ⟨⟨⟨⟨ho, newLine_shown inner⟩, h⟩, newLine_shown outer⟩, hc⟩

/-- No control character but line breaks is written. -/
theorem blockText_shown {v : Value} (h : Plain v) : ∀ level, ∀ p ∈ blockText level v, IsShown p := by
  have hcomma : ∀ level, ∀ p ∈ "," ++ newLine level, IsShown p :=
    fun level => List.forall_mem_append.2 ⟨by decide, newLine_shown level⟩
  induction h with
  | null => exact fun _ => show ∀ p ∈ Points.ofString "null", IsShown p by decide
  | bool b =>
    cases b
    · exact fun _ => show ∀ p ∈ Points.ofString "false", IsShown p by decide
    · exact fun _ => show ∀ p ∈ Points.ofString "true", IsShown p by decide
  | int _ => exact fun level => List.forall_mem_map.2 fun c hc => .inr (text_visible _ c hc)
  | text s => exact fun level p hp => .inr (stringText_visible s p hp)
  | @list xs _ ih =>
    intro level
    cases xs with
    | nil => exact show ∀ p ∈ Points.ofString "[]", IsShown p by decide
    | cons x xs =>
      refine framed_shown (by decide) (by decide) (forall_mem_joined (hcomma (level + 1)) ?_)
      rw [blockItems_eq, List.forall_mem_map]
      exact fun y hy => ih y hy (level + 1)
  | @object fs _ _ ih =>
    intro level
    cases fs with
    | nil => exact show ∀ p ∈ Points.ofString "\x7b\x7d", IsShown p by decide
    | cons f fs =>
      refine framed_shown (by decide) (by decide) (forall_mem_joined (hcomma (level + 1)) ?_)
      rw [blockFields_eq, List.forall_mem_map]
      intro g hg
      rw [List.forall_mem_append, List.forall_mem_append]
      exact ⟨⟨fun p hp => .inr (stringText_visible _ p hp), by decide⟩, ih g hg (level + 1)⟩

/-! ## Values that can be encoded -/

/-- The texts in the value, the keys of its objects included, hold nothing but characters. -/
inductive Legible : Value → Prop
  | null : Legible .null
  | bool (b : Bool) : Legible (.bool b)
  | int (i : Int) : Legible (.int i)
  | real (x : Binary64) : Legible (.real x)
  | text (s : String) : Legible (.text s)
  | list {xs : List Value} : (∀ x ∈ xs, Legible x) → Legible (.list xs)
  | object {fs : List (Points × Value)} : (∀ f ∈ fs, Points.isLegible f.1 = true) → (∀ f ∈ fs, Legible f.2) →
      Legible (.object fs)

theorem legible_text_iff {s : Points} : Legible (.text s) ↔ Points.isLegible s = true := by
  rw [Points.isLegible_iff]
  constructor
  · intro h
    generalize hv : Value.text s = v at h
    cases h <;> cases hv
    exact ⟨_, rfl⟩
  · rintro ⟨s, rfl⟩
    exact .text s

theorem legible_list_iff {xs : List Value} : Legible (.list xs) ↔ ∀ x ∈ xs, Legible x :=
  ⟨fun h => by cases h; assumption, .list⟩

theorem legible_object_iff {fs : List (Points × Value)} :
    Legible (.object fs) ↔ ∀ f ∈ fs, Points.isLegible f.1 = true ∧ Legible f.2 := by
  constructor
  · rintro (_ | _ | _ | _ | _ | _ | ⟨hkeys, hvalues⟩) f hf
    exact ⟨hkeys f hf, hvalues f hf⟩
  · exact fun h => .object (fun f hf => (h f hf).1) fun f hf => (h f hf).2

theorem stringText_isLegible (s : Points) : Points.isLegible (stringText s) = Points.isLegible s := by
  have hpoint : ∀ p, (stringPoint p).all Point.isChar = p.isChar := by
    rintro (c | n)
    · exact Points.isLegible_ofChars (stringChar c)
    · rfl
  have hbody : Points.isLegible (s.flatMap stringPoint) = Points.isLegible s := by
    rw [Points.isLegible, Points.isLegible, List.all_flatMap]
    simp only [hpoint]
  rw [stringText, Points.isLegible_append, Points.isLegible_append, hbody, Points.isLegible_ofString,
    Bool.true_and, Bool.and_true]

theorem joined_isLegible_iff {separator : Points} (hs : Points.isLegible separator = true) {ps : List Points} :
    Points.isLegible (joined separator ps) = true ↔ ∀ p ∈ ps, Points.isLegible p = true := by
  induction ps with
  | nil => exact iff_of_true rfl nofun
  | cons p ps ih =>
    cases ps with
    | nil => rw [joined, List.forall_mem_singleton]
    | cons q ps =>
      rw [joined_cons_cons, Points.isLegible_append, Points.isLegible_append, hs, Bool.and_true,
        Bool.and_eq_true, ih, List.forall_mem_cons (a := p)]

theorem newLine_isLegible (level : Nat) : Points.isLegible (newLine level) = true := by
  rw [newLine, Points.isLegible_append, Points.isLegible_ofString, Bool.true_and]
  exact List.all_eq_true.2 fun p hp => by rw [List.eq_of_mem_replicate hp]; rfl

/-- What is written holds half of a surrogate pair just where a text in the value does. -/
theorem blockText_isLegible_iff {v : Value} (h : Plain v) (level : Nat) :
    Points.isLegible (blockText level v) = true ↔ Legible v := by
  have hcomma : ∀ level, Points.isLegible ("," ++ newLine level) = true := fun level => by
    rw [Points.isLegible_append, newLine_isLegible, Bool.and_true]
    rfl
  induction h generalizing level with
  | null => exact iff_of_true rfl .null
  | bool b => exact iff_of_true (by cases b <;> rfl) (.bool b)
  | int _ => exact iff_of_true (Points.isLegible_ofString _) (.int _)
  | text s =>
    rw [legible_text_iff, blockText, lineText, stringText_isLegible]
    all_goals nofun
  | @list xs _ ih =>
    rw [legible_list_iff]
    cases xs with
    | nil => exact iff_of_true rfl nofun
    | cons x xs =>
      rw [blockText]
      simp only [Points.isLegible_append, newLine_isLegible, Points.isLegible_ofString, Bool.true_and,
        Bool.and_true, joined_isLegible_iff (hcomma _), blockItems_eq, List.forall_mem_map]
      exact forall₂_congr fun y hy => ih y hy (level + 1)
  | @object fs _ _ ih =>
    rw [legible_object_iff]
    cases fs with
    | nil => exact iff_of_true rfl nofun
    | cons f fs =>
      rw [blockText]
      simp only [Points.isLegible_append, newLine_isLegible, Points.isLegible_ofString, Bool.true_and,
        Bool.and_true, joined_isLegible_iff (hcomma _), blockFields_eq, List.forall_mem_map, Bool.and_eq_true,
        stringText_isLegible]
      exact forall₂_congr fun g hg => and_congr_right fun _ => ih g hg (level + 1)

end ScriptTree.Json
