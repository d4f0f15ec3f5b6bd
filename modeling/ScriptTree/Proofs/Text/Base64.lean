/-
Writing bytes as Base64 and reading them back. What is written consists of the letters of the
alphabet and of equals signs at its end, and reading it gives the bytes again, whatever their number
leaves of the last group of three.
-/
import ScriptTree.Text.Base64
import Mathlib

namespace ScriptTree.Text.Base64

/-! ## The alphabet -/

/-- The characters that Base64 is written in. -/
def alphabet : List Char :=
  '=' :: (List.range 64).map letter

theorem value?_letter {n : Nat} (h : n < 64) : value? (letter n) = some n := by
  have hall : ∀ i : Fin 64, value? (letter i) = some i.val := by decide
  exact hall ⟨n, h⟩

theorem letter_ne_equals {n : Nat} (h : n < 64) : letter n ≠ '=' := by
  intro heq
  have hvalue := value?_letter h
  rw [heq, show value? '=' = none from rfl] at hvalue
  cases hvalue

theorem letter_mem {n : Nat} (h : n < 64) : letter n ∈ alphabet :=
  List.mem_cons_of_mem _ (List.mem_map_of_mem (List.mem_range.2 h))

/-- Nothing but the alphabet is written. -/
theorem mem_alphabet_of_mem_encode {bs : List UInt8} {c : Char} (hc : c ∈ encode bs) : c ∈ alphabet := by
  have hsign : '=' ∈ alphabet := List.mem_cons_self
  fun_induction encode bs with
  | case1 => cases hc
  | case2 a x =>
    have hx : x < 256 := a.toNat_lt
    simp only [List.mem_cons, List.not_mem_nil, or_false] at hc
    rcases hc with rfl | rfl | rfl | rfl
    · exact letter_mem (by omega)
    · exact letter_mem (by omega)
    · exact hsign
    · exact hsign
  | case3 a b x y =>
    have hx : x < 256 := a.toNat_lt
    have hy : y < 256 := b.toNat_lt
    simp only [List.mem_cons, List.not_mem_nil, or_false] at hc
    rcases hc with rfl | rfl | rfl | rfl
    · exact letter_mem (by omega)
    · exact letter_mem (by omega)
    · exact letter_mem (by omega)
    · exact hsign
  | case4 a b c' rest x y z ih =>
    have hx : x < 256 := a.toNat_lt
    have hy : y < 256 := b.toNat_lt
    have hz : z < 256 := c'.toNat_lt
    simp only [List.mem_cons] at hc
    rcases hc with rfl | rfl | rfl | rfl | hc
    · exact letter_mem (by omega)
    · exact letter_mem (by omega)
    · exact letter_mem (by omega)
    · exact letter_mem (by omega)
    · exact ih hc

/-! ## Reading back -/

/-- A byte is what its bits in two letters come to. -/
theorem ofNat_of_eq {b : UInt8} {n : Nat} (h : n = b.toNat) : UInt8.ofNat n = b := by
  rw [h, UInt8.ofNat_toNat]

/-- What was written is read as it is. -/
theorem decode?_encode (bs : List UInt8) : decode? (encode bs) = some bs := by
  fun_induction encode bs with
  | case1 => rfl
  | case2 a x =>
    have hx : x < 256 := a.toNat_lt
    have hp := value?_letter (n := x / 4) (by omega)
    have hq := value?_letter (n := x % 4 * 16) (by omega)
    have ha : UInt8.ofNat (x / 4 * 4 + x % 4 * 16 / 16) = a := ofNat_of_eq (by omega)
    simp only [decode?, hp, hq, Option.bind_eq_bind, Option.bind_some, Option.pure_def, ha]
  | case3 a b x y =>
    have hx : x < 256 := a.toNat_lt
    have hy : y < 256 := b.toNat_lt
    have hp := value?_letter (n := x / 4) (by omega)
    have hq := value?_letter (n := x % 4 * 16 + y / 16) (by omega)
    have hr := value?_letter (n := y % 16 * 4) (by omega)
    have hne := letter_ne_equals (n := y % 16 * 4) (by omega)
    have ha : UInt8.ofNat (x / 4 * 4 + (x % 4 * 16 + y / 16) / 16) = a := ofNat_of_eq (by omega)
    have hb : UInt8.ofNat ((x % 4 * 16 + y / 16) % 16 * 16 + y % 16 * 4 / 4) = b := ofNat_of_eq (by omega)
    rw [decode?]
    · simp only [hp, hq, hr, Option.bind_eq_bind, Option.bind_some, Option.pure_def, ha, hb]
    · exact hne
  | case4 a b c rest x y z ih =>
    have hx : x < 256 := a.toNat_lt
    have hy : y < 256 := b.toNat_lt
    have hz : z < 256 := c.toNat_lt
    have hp := value?_letter (n := x / 4) (by omega)
    have hq := value?_letter (n := x % 4 * 16 + y / 16) (by omega)
    have hr := value?_letter (n := y % 16 * 4 + z / 64) (by omega)
    have hs := value?_letter (n := z % 64) (by omega)
    have hne := letter_ne_equals (n := z % 64) (by omega)
    have ha : UInt8.ofNat (x / 4 * 4 + (x % 4 * 16 + y / 16) / 16) = a := ofNat_of_eq (by omega)
    have hb : UInt8.ofNat ((x % 4 * 16 + y / 16) % 16 * 16 + (y % 16 * 4 + z / 64) / 4) = b :=
      ofNat_of_eq (by omega)
    have hc : UInt8.ofNat ((y % 16 * 4 + z / 64) % 4 * 64 + z % 64) = c := ofNat_of_eq (by omega)
    rw [decode?]
    · simp only [hp, hq, hr, hs, ih, Option.bind_eq_bind, Option.bind_some, Option.pure_def, ha, hb, hc]
    · exact fun _ h => absurd h hne
    · exact fun h => absurd h hne

end ScriptTree.Text.Base64
