import Mathlib.Data.BitVec

namespace VortexEngine
namespace Foundations

/-!
# Rounding machine words to powers of two

The unsigned rounding functions of the standard bit header.  Rounding down
never leaves the width; rounding up is meant for words whose next power of two
still fits.
-/

variable {width : Nat}

/-- The largest power of two that is not above the word, and zero for zero. -/
def bitFloor (word : BitVec width) : BitVec width :=
  if word = 0 then 0 else BitVec.ofNat width (2 ^ word.toNat.log2)

/-- The smallest power of two that is not below the word. -/
def bitCeil (word : BitVec width) : BitVec width :=
  if word.toNat ≤ 1 then BitVec.ofNat width 1
  else BitVec.ofNat width (2 ^ ((word.toNat - 1).log2 + 1))

theorem bitFloor_zero : bitFloor (0 : BitVec width) = 0 := by
  rw [bitFloor, if_pos rfl]

theorem toNat_bitFloor {word : BitVec width} (nonzero : word ≠ 0) :
    (bitFloor word).toNat = 2 ^ word.toNat.log2 := by
  have positive : word.toNat ≠ 0 := fun none => nonzero (BitVec.eq_of_toNat_eq none)
  rw [bitFloor, if_neg nonzero, BitVec.toNat_ofNat]
  exact Nat.mod_eq_of_lt (Nat.lt_of_le_of_lt (Nat.log2_self_le positive) word.isLt)

theorem bitFloor_le (word : BitVec width) : (bitFloor word).toNat ≤ word.toNat := by
  by_cases zero : word = 0
  · rw [zero, bitFloor_zero]
  · rw [toNat_bitFloor zero]
    exact Nat.log2_self_le (fun none => zero (BitVec.eq_of_toNat_eq none))

/-- A rounded word is zero or a power of two below the word's range. -/
theorem bitFloor_cases (word : BitVec width) :
    bitFloor word = 0 ∨ Exists fun exponent => exponent < width ∧
      (bitFloor word).toNat = 2 ^ exponent := by
  by_cases zero : word = 0
  · exact Or.inl (zero ▸ bitFloor_zero)
  · refine Or.inr ⟨word.toNat.log2, ?_, toNat_bitFloor zero⟩
    have below : 2 ^ word.toNat.log2 < 2 ^ width := toNat_bitFloor zero ▸ (bitFloor word).isLt
    exact (Nat.pow_lt_pow_iff_right (by decide)).mp below

/-- Rounding up gives a power of two as long as that power fits. -/
theorem bitCeil_cases {word : BitVec width} {bound : Nat} (below : word.toNat ≤ 2 ^ bound)
    (fits : bound < width) :
    Exists fun exponent => exponent ≤ bound ∧ (bitCeil word).toNat = 2 ^ exponent := by
  rw [bitCeil]
  split
  · refine ⟨0, Nat.zero_le _, ?_⟩
    rw [BitVec.toNat_ofNat, Nat.mod_eq_of_lt (Nat.one_lt_two_pow (by omega))]
    rfl
  · rename_i large
    have exponent : (word.toNat - 1).log2 + 1 ≤ bound :=
      Nat.succ_le_of_lt ((Nat.log2_lt (by omega)).mpr (by omega))
    refine ⟨_, exponent, ?_⟩
    rw [BitVec.toNat_ofNat]
    exact Nat.mod_eq_of_lt (Nat.pow_lt_pow_right (by decide) (by omega))

theorem le_bitCeil {word : BitVec width} {bound : Nat} (below : word.toNat ≤ 2 ^ bound)
    (fits : bound < width) :
    word.toNat ≤ (bitCeil word).toNat := by
  have range : 2 ^ bound < 2 ^ width := Nat.pow_lt_pow_right (by decide) fits
  rw [bitCeil]
  split
  · rw [BitVec.toNat_ofNat, Nat.mod_eq_of_lt (Nat.one_lt_two_pow (by omega))]
    assumption
  · have exponent : (word.toNat - 1).log2 + 1 ≤ bound :=
      Nat.succ_le_of_lt ((Nat.log2_lt (by omega)).mpr (by omega))
    have covers : word.toNat - 1 < 2 ^ ((word.toNat - 1).log2 + 1) := Nat.lt_log2_self
    rw [BitVec.toNat_ofNat, Nat.mod_eq_of_lt (Nat.pow_lt_pow_right (by decide) (by omega))]
    omega

end Foundations
end VortexEngine
