/-
How large the whole numbers are that come out of texts. A whole number that is read has no more digits
than the limit (`read_short`), and the whole part of a decimal that is read has far less
(`ofDecimal_short`): a finite number has an exponent within the bounds of its format, and its significand
is the decimal, which has at most four hundred places, divided by a power of two.
-/
import ScriptTree.Number.Binary64
import ScriptTree.Number.Integer
import Mathlib

namespace ScriptTree

namespace Integer

/-- The number has no more digits than are read. -/
def IsShort (i : Int) : Prop :=
  i.natAbs < 10 ^ digitLimit

theorem isShort_zero : IsShort 0 :=
  Nat.pow_pos (by decide)

theorem isShort_ofNat {n : Nat} (h : n < 10 ^ digitLimit) (negative : Bool) :
    IsShort (if negative then -(n : Int) else n) := by
  unfold IsShort
  cases negative <;> simpa using h

/-! ## Whole numbers -/

theorem digitValue?_lt {c : Char} {d : Nat} (h : Text.digitValue? c = some d) : d < 10 := by
  unfold Text.digitValue? at h
  split at h
  · rename_i hdigit
    cases h
    rw [Char.isDigit, Bool.and_eq_true, decide_eq_true_eq, decide_eq_true_eq, UInt32.le_iff_toNat_le] at hdigit
    have hle : c.toNat ≤ 0x39 := hdigit.2
    omega
  · split at h
    · cases h
    · obtain ⟨z, hz, rfl⟩ := Option.map_eq_some_iff.1 h
      have hrange := List.find?_some hz
      simp only [Bool.and_eq_true, decide_eq_true_eq] at hrange
      omega

theorem digitsFrom?_lt {after : Bool} {cs : List Char} {ds : List Nat} (h : digitsFrom? after cs = some ds) :
    ∀ d ∈ ds, d < 10 := by
  induction cs generalizing after ds with
  | nil =>
    rw [digitsFrom?] at h
    split at h <;> cases h
    nofun
  | cons c cs ih =>
    rw [digitsFrom?] at h
    split at h
    · rename_i d hd
      obtain ⟨ds, hds, rfl⟩ := Option.map_eq_some_iff.1 h
      exact List.forall_mem_cons.2 ⟨digitValue?_lt hd, ih hds⟩
    · split at h
      · exact ih h
      · cases h

theorem foldl_digits_lt {ds : List Nat} (hds : ∀ d ∈ ds, d < 10) : ∀ {n k : Nat}, n < 10 ^ k →
    ds.foldl (fun n d => 10 * n + d) n < 10 ^ (k + ds.length) := by
  induction ds with
  | nil => exact fun h => h
  | cons d ds ih =>
    intro n k hn
    have hd := hds d List.mem_cons_self
    rw [List.foldl_cons, List.length_cons, show k + (ds.length + 1) = k + 1 + ds.length by omega]
    refine ih (fun e he => hds e (List.mem_cons_of_mem d he)) ?_
    rw [Nat.pow_succ]
    omega

/-- A number has no more digits than it is written with. -/
theorem ofDigits_lt {ds : List Nat} (hds : ∀ d ∈ ds, d < 10) : ofDigits ds < 10 ^ ds.length := by
  have h := foldl_digits_lt hds (n := 0) (k := 0) (by decide)
  rwa [Nat.zero_add] at h

theorem read_short {s : String} {i : Int} (h : read s = .ok i) : IsShort i := by
  unfold read at h
  dsimp only at h
  split at h
  · cases h
  · rename_i ds hds
    split at h
    · cases h
    · rename_i hlimit
      cases h
      refine isShort_ofNat ((ofDigits_lt (digitsFrom?_lt hds)).trans_le ?_) _
      exact Nat.pow_le_pow_right (by decide) (Nat.not_lt.1 hlimit)

end Integer

/-! ## Whole parts of decimals -/

namespace Binary64

open Integer (IsShort)

/-- A finite number whose significand has at most `k` places has a whole part that is read. -/
theorem truncate?_short {k : Nat} (hk : k + 971 < Integer.digitLimit) {negative : Bool} {m : Nat} {e : Int}
    (hm : m ≤ 10 ^ k) (he : e ≤ greatestExponent) {i : Int} (h : truncate? (.finite negative m e) = some i) :
    IsShort i := by
  rw [truncate?] at h
  cases h
  refine Integer.isShort_ofNat (lt_of_le_of_lt ?_ (Nat.pow_lt_pow_right (by decide) hk)) negative
  split
  · have hexponent : e.toNat ≤ 971 := by
      unfold greatestExponent at he
      omega
    rw [Nat.pow_add]
    refine Nat.mul_le_mul hm ?_
    calc Nat.pow 2 e.toNat ≤ 10 ^ e.toNat := Nat.pow_le_pow_left (by decide) _
      _ ≤ 10 ^ 971 := Nat.pow_le_pow_right (by decide) hexponent
  · calc m / Nat.pow 2 (-e).toNat ≤ m := Nat.div_le_self _ _
      _ ≤ 10 ^ k := hm
      _ ≤ 10 ^ (k + 971) := Nat.pow_le_pow_right (by decide) (Nat.le_add_right _ _)

theorem nearest_le (num den : Nat) : nearest num den ≤ num / den + 1 := by
  unfold nearest
  dsimp only
  split
  · exact Nat.le_refl _
  · exact Nat.le_succ _

section

variable {num den k : Nat} (h : num < den * 10 ^ k)

include h

/-- A ratio of at most `k` places, on the grid of an exponent of the format. -/
theorem scaled_div_lt {n : Nat} {e : Int} (he : -(n : Int) ≤ e) :
    (scaled num den e).1 / (scaled num den e).2 < 10 ^ (k + n) := by
  unfold scaled
  split
  · refine Nat.div_lt_of_lt_mul ?_
    calc num < den * 10 ^ k := h
      _ ≤ den * Nat.pow 2 e.toNat * 10 ^ (k + n) := ?_
    refine Nat.mul_le_mul (Nat.le_mul_of_pos_right _ (Nat.pow_pos (by decide))) ?_
    exact Nat.pow_le_pow_right (by decide) (Nat.le_add_right _ _)
  · have hpower : Nat.pow 2 (-e).toNat ≤ 10 ^ n :=
      (Nat.pow_le_pow_left (by decide) _).trans (Nat.pow_le_pow_right (by decide) (by omega))
    refine Nat.div_lt_of_lt_mul ?_
    calc num * Nat.pow 2 (-e).toNat < den * 10 ^ k * Nat.pow 2 (-e).toNat :=
          Nat.mul_lt_mul_of_pos_right h (Nat.pow_pos (by decide))
      _ ≤ den * 10 ^ k * 10 ^ n := Nat.mul_le_mul_left _ hpower
      _ = den * 10 ^ (k + n) := by rw [Nat.mul_assoc, ← Nat.pow_add]

/-- A ratio of at most `k` places has a whole part that is read. -/
theorem ofRatio_short (hk : k + 1074 + 971 < Integer.digitLimit) {negative : Bool} {i : Int}
    (hi : (ofRatio negative num den).truncate? = some i) : IsShort i := by
  unfold ofRatio at hi
  split at hi
  · exact truncate?_short hk (Nat.zero_le _) (by decide) hi
  · dsimp only at hi
    generalize hguess : max ((num.log2 : Int) - (den.log2 : Int) - 53) leastExponent = guess at hi
    generalize he : (if (scaled num den guess).1 / (scaled num den guess).2 < Nat.pow 2 53 then guess
      else guess + 1) = e at hi
    generalize hm : nearest (scaled num den e).1 (scaled num den e).2 = m at hi
    have hleast : -(1074 : Nat) ≤ e := by
      have hle : leastExponent ≤ guess := hguess ▸ le_max_right _ _
      unfold leastExponent at hle
      split at he <;> omega
    have hsignificand : m ≤ 10 ^ (k + 1074) :=
      hm ▸ (nearest_le _ _).trans (Nat.succ_le_of_lt (scaled_div_lt h hleast))
    split at hi
    · rename_i hcarry
      split at hi
      · cases hi
      · rename_i hexponent
        have hhalf : Nat.pow 2 52 ≤ m := hcarry ▸ Nat.pow_le_pow_right (by decide) (by decide)
        exact truncate?_short hk (hhalf.trans hsignificand) (Int.not_lt.1 hexponent) hi
    · split at hi
      · cases hi
      · rename_i hexponent
        exact truncate?_short hk hsignificand (Int.not_lt.1 hexponent) hi

end

/-- A decimal of at most `k` places before the point, as the ratio that it is rounded from. -/
theorem decimal_lt {digits k : Nat} {e : Int} (h : e + decimalLength digits ≤ k) :
    (0 ≤ e → digits * Nat.pow 10 e.toNat < 1 * 10 ^ k) ∧
      (¬ 0 ≤ e → digits < Nat.pow 10 (-e).toNat * 10 ^ k) := by
  have hpos : 0 < decimalLength digits := List.length_pos_iff.2 Nat.toDigits_ne_nil
  have hdigits : digits < 10 ^ decimalLength digits :=
    (Nat.length_toDigits_le_iff (by decide) hpos).1 (Nat.le_refl _)
  constructor
  · intro he
    calc digits * Nat.pow 10 e.toNat < 10 ^ decimalLength digits * 10 ^ e.toNat :=
          Nat.mul_lt_mul_of_pos_right hdigits (Nat.pow_pos (by decide))
      _ = 10 ^ (decimalLength digits + e.toNat) := (Nat.pow_add _ _ _).symm
      _ ≤ 10 ^ k := Nat.pow_le_pow_right (by decide) (by omega)
      _ = 1 * 10 ^ k := (Nat.one_mul _).symm
  · intro he
    calc digits < 10 ^ decimalLength digits := hdigits
      _ ≤ 10 ^ ((-e).toNat + k) := Nat.pow_le_pow_right (by decide) (by omega)
      _ = Nat.pow 10 (-e).toNat * 10 ^ k := Nat.pow_add _ _ _

theorem ofDecimal_short {negative : Bool} {digits : Nat} {e : Int} {i : Int}
    (hi : (ofDecimal negative digits e).truncate? = some i) : IsShort i := by
  have hlimit : 400 + 1074 + 971 < Integer.digitLimit := by decide
  unfold ofDecimal at hi
  split at hi
  · exact truncate?_short hlimit (Nat.zero_le _) (by decide) hi
  · dsimp only at hi
    split at hi
    · cases hi
    · rename_i hmagnitude
      obtain ⟨hwhole, hfraction⟩ := decimal_lt (Int.not_lt.1 hmagnitude)
      split at hi
      · exact truncate?_short hlimit (Nat.zero_le _) (by decide) hi
      · split at hi
        · rename_i he
          exact ofRatio_short (hwhole he) hlimit hi
        · rename_i he
          exact ofRatio_short (hfraction he) hlimit hi

end Binary64
end ScriptTree
