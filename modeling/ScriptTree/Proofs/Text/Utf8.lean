/-
Writing a text as UTF-8 and reading it back. The bytes of one character take the machine from its
start back to its start, and it yields that character and nothing else (`run_char`), so a text that
was written is read as it is, and no two texts are written alike.
-/
import ScriptTree.Text.Utf8
import Mathlib

namespace ScriptTree.Text.Utf8

/-! ## The bytes of one character -/

/-- A byte that continues a character. -/
theorem step_inside {seen owed code least greatest x : Nat} (hleast : least ≤ x) (hgreatest : x ≤ greatest)
    (hbyte : x < 256) :
    step (.inside seen owed code least greatest) (UInt8.ofNat x) =
      if owed ≤ 1 then (.start, [.char (Char.ofNat (code * 64 + (x - 0x80)))])
      else (.inside (seen + 1) (owed - 1) (code * 64 + (x - 0x80)) 0x80 0xbf, []) := by
  have hnat : (UInt8.ofNat x).toNat = x := by rw [UInt8.toNat_ofNat']; omega
  simp [step, hnat, hleast, hgreatest]

/-- The first of two bytes. -/
theorem first_two {v : Nat} (hlow : 0x80 ≤ v) (hhigh : v ≤ 0x7ff) :
    first (UInt8.ofNat (v / 64 % 32 + 192)) = (.inside 1 1 (v / 64) 0x80 0xbf, []) := by
  have hnat : (UInt8.ofNat (v / 64 % 32 + 192)).toNat = v / 64 + 192 := by
    rw [UInt8.toNat_ofNat']; omega
  unfold first
  rw [hnat]
  dsimp only
  rw [if_neg (by omega), if_neg (by omega), if_pos (by omega), Nat.add_sub_cancel]

/-- The first of three bytes. It keeps the second one from a shorter way to write the character and
from the numbers that are no characters. -/
theorem first_three {v : Nat} (hlow : 0x800 ≤ v) (hhigh : v ≤ 0xffff) (hvalid : v < 0xd800 ∨ 0xdfff < v) :
    ∃ least greatest, first (UInt8.ofNat (v / 4096 % 16 + 224)) = (.inside 1 2 (v / 4096) least greatest, []) ∧
      least ≤ v / 64 % 64 + 128 ∧ v / 64 % 64 + 128 ≤ greatest := by
  have hnat : (UInt8.ofNat (v / 4096 % 16 + 224)).toNat = v / 4096 + 224 := by
    rw [UInt8.toNat_ofNat']; omega
  unfold first
  rw [hnat]
  dsimp only
  rw [if_neg (by omega), if_neg (by omega), if_neg (by omega)]
  by_cases hzero : v / 4096 = 0
  · rw [if_pos (by omega), hzero]
    exact ⟨_, _, rfl, by omega, by omega⟩
  · rw [if_neg (by omega)]
    by_cases hd : v / 4096 = 0xd
    · rw [if_pos (by omega), hd]
      exact ⟨_, _, rfl, by omega, by omega⟩
    · rw [if_neg (by omega), if_pos (by omega), Nat.add_sub_cancel]
      exact ⟨_, _, rfl, by omega, by omega⟩

/-- The first of four bytes. It keeps the second one from a shorter way to write the character and
from the numbers above the last character. -/
theorem first_four {v : Nat} (hlow : 0x10000 ≤ v) (hhigh : v < 0x110000) :
    ∃ least greatest, first (UInt8.ofNat (v / 262144 % 8 + 240)) = (.inside 1 3 (v / 262144) least greatest, []) ∧
      least ≤ v / 4096 % 64 + 128 ∧ v / 4096 % 64 + 128 ≤ greatest := by
  have hnat : (UInt8.ofNat (v / 262144 % 8 + 240)).toNat = v / 262144 + 240 := by
    rw [UInt8.toNat_ofNat']; omega
  unfold first
  rw [hnat]
  dsimp only
  rw [if_neg (by omega), if_neg (by omega), if_neg (by omega), if_neg (by omega), if_neg (by omega),
    if_neg (by omega)]
  by_cases hzero : v / 262144 = 0
  · rw [if_pos (by omega), hzero]
    exact ⟨_, _, rfl, by omega, by omega⟩
  · rw [if_neg (by omega)]
    by_cases hfour : v / 262144 = 4
    · rw [if_neg (by omega), if_pos (by omega), hfour]
      exact ⟨_, _, rfl, by omega, by omega⟩
    · rw [if_pos (by omega), Nat.add_sub_cancel]
      exact ⟨_, _, rfl, by omega, by omega⟩

theorem run_cons (s : State) (b : UInt8) (bs : List UInt8) :
    run s (b :: bs) = ((run (step s b).1 bs).1, (step s b).2 ++ (run (step s b).1 bs).2) := rfl

/-- The bytes of a character are read as that character. -/
theorem run_char (c : Char) : run .start (String.utf8EncodeChar c) = (.start, [.char c]) := by
  have hvalid : c.val.toNat < 0xd800 ∨ 0xdfff < c.val.toNat ∧ c.val.toNat < 0x110000 := c.valid
  have hchar : Char.ofNat c.val.toNat = c := Char.ofNat_toNat c
  unfold String.utf8EncodeChar
  generalize c.val.toNat = v at hvalid hchar
  dsimp only
  split
  · rename_i hone
    have hnat : (UInt8.ofNat v).toNat = v := by rw [UInt8.toNat_ofNat']; omega
    have hfirst : first (UInt8.ofNat v) = (.start, [.char c]) := by
      unfold first
      rw [hnat]
      dsimp only
      rw [if_pos (by omega), hchar]
    rw [run_cons, step, hfirst]
    rfl
  · split
    · rename_i hone htwo
      have hcode : v / 64 * 64 + (v % 64 + 128 - 128) = v := by omega
      rw [run_cons, step, first_two (by omega) htwo, run_cons,
        step_inside (by omega) (by omega) (by omega), if_pos (le_refl _), hcode, hchar]
      rfl
    · split
      · rename_i hone htwo hthree
        obtain ⟨least, greatest, hfirst, hleast, hgreatest⟩ :=
          first_three (v := v) (by omega) hthree (by omega)
        have hcode : (v / 4096 * 64 + (v / 64 % 64 + 128 - 128)) * 64 + (v % 64 + 128 - 128) = v := by omega
        rw [run_cons, step, hfirst, run_cons, step_inside hleast hgreatest (by omega), if_neg (by decide),
          run_cons, step_inside (by omega) (by omega) (by omega), if_pos (le_refl _), hcode, hchar]
        rfl
      · rename_i hone htwo hthree
        obtain ⟨least, greatest, hfirst, hleast, hgreatest⟩ := first_four (v := v) (by omega) (by omega)
        have hcode : ((v / 262144 * 64 + (v / 4096 % 64 + 128 - 128)) * 64 + (v / 64 % 64 + 128 - 128)) * 64 +
            (v % 64 + 128 - 128) = v := by omega
        rw [run_cons, step, hfirst, run_cons, step_inside hleast hgreatest (by omega), if_neg (by decide),
          run_cons, step_inside (by omega) (by omega) (by omega), if_neg (by decide),
          run_cons, step_inside (by omega) (by omega) (by omega), if_pos (le_refl _), hcode, hchar]
        rfl

/-! ## The bytes of a text -/

theorem run_encode (cs : List Char) : run .start (encode cs) = (.start, cs.map .char) := by
  induction cs with
  | nil => rfl
  | cons c cs ih =>
    have hencode : encode (c :: cs) = String.utf8EncodeChar c ++ encode cs := List.flatMap_cons
    rw [hencode, run_append, run_char, ih]
    rfl

theorem pieces_encode (cs : List Char) : pieces (encode cs) = cs.map .char := by
  unfold pieces
  rw [run_encode]
  exact List.append_nil _

theorem strictFrom_chars (position : Nat) (cs : List Char) : strictFrom position (cs.map .char) = .ok cs := by
  induction cs generalizing position with
  | nil => rfl
  | cons c cs ih =>
    rw [List.map_cons, strictFrom, ih]

/-- A text that was written is read as it is. -/
theorem decode_encode (cs : List Char) : decode (encode cs) = .ok cs := by
  unfold decode
  rw [pieces_encode, strictFrom_chars]

end ScriptTree.Text.Utf8
