/-
What stands for a sensitive text: how many characters it has, and the first twelve of the sixty-four digits of its
digest (`exists_placeholder`). No text stands for itself but perhaps one of thirty-seven characters, as many as are
in what stands for it (`placeholder_ne`).
-/
import ScriptTree.Log.Redact
import Mathlib

namespace ScriptTree

namespace Digest.Sha256

/-! ## The digits of a digest -/

theorem length_hexWord (w : UInt32) : (hexWord w).length = 8 := by
  have hdigit : ∀ i, (Nat.toDigits 16 (w.toNat / Nat.pow 16 (7 - i) % 16)).length = 1 := by
    intro i
    have hlt : w.toNat / Nat.pow 16 (7 - i) % 16 < 16 := Nat.mod_lt _ (by decide)
    rw [Nat.toDigits_of_lt_base hlt, List.length_singleton]
  rw [hexWord, List.length_flatMap]
  simp only [hdigit, List.map_const', List.sum_replicate, List.length_range]
  rfl

theorem length_hex (message : List UInt8) : (hex message).toList.length = 64 := by
  rw [hex, String.toList_ofList, List.length_flatMap, digest]
  simp only [List.map_cons, List.map_nil, length_hexWord]
  rfl

end Digest.Sha256

namespace Log

open Digest (Sha256.hex)

/-! ## What stands for a text -/

theorem exists_placeholder (s : String) :
    ∃ digest : String, placeholder s = s!"[REDACTED len={s.length} sha256={digest}]" ∧
      digest.toList <+: (Sha256.hex (Text.Utf8.bytes s)).toList ∧ digest.length = 12 := by
  refine ⟨_, rfl, ?_, ?_⟩
  · rw [String.toList_ofList]
    exact List.take_prefix _ _
  · rw [String.length_ofList, List.length_take, Digest.Sha256.length_hex]
    rfl

theorem length_placeholder (s : String) :
    (placeholder s).length = (Nat.toDigits 10 s.length).length + 35 := by
  obtain ⟨digest, hform, -, hlength⟩ := exists_placeholder s
  have hnumber : (toString s.length).length = (Nat.toDigits 10 s.length).length := by
    show (Nat.repr s.length).length = _
    rw [Nat.repr, String.length_ofList]
  have hdigest : (toString digest).length = 12 := hlength
  rw [hform]
  simp only [String.length_append, hnumber, hdigest]
  show 14 + (Nat.toDigits 10 s.length).length + 8 + 12 + 1 = _
  omega

/-- A number of two digits or more is less than a power of ten with far fewer digits than it says. -/
theorem lt_pow_sub {n : Nat} (h : 100 ≤ n) : n < 10 ^ (n - 36) := by
  have hself : n - 37 < 10 ^ (n - 37) := Nat.lt_pow_self (by decide)
  have hpow : 10 ^ (n - 36) = 10 * 10 ^ (n - 37) := by
    rw [← Nat.pow_succ']
    congr 1
    omega
  omega

/-- A text of another length is not what stands for it. -/
theorem placeholder_ne {s : String} (h : s.length ≠ 37) : placeholder s ≠ s := by
  intro hsame
  have hlength := length_placeholder s
  rw [hsame] at hlength
  have hdigits (k : Nat) (hk : 0 < k) : (Nat.toDigits 10 s.length).length ≤ k ↔ s.length < 10 ^ k :=
    Nat.length_toDigits_le_iff (by decide) hk
  rcases Nat.lt_or_ge s.length 100 with hsmall | hlarge
  · have hone := hdigits 1 (by decide)
    have htwo := (hdigits 2 (by decide)).2 hsmall
    omega
  · have hmany := (hdigits (s.length - 36) (by omega)).2 (lt_pow_sub hlarge)
    omega

end Log
end ScriptTree
