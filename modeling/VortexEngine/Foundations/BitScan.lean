import Mathlib.Data.BitVec

namespace VortexEngine
namespace Foundations

/-!
# Scanning the set bits of a word

Subtracting one from a word clears its lowest set bit and sets the bits below
it.  The conjunction of a word and its predecessor therefore has all set bits
but the lowest, and its trailing zeros lead to the second one.  Subtracting
two is something else: it clears the lowest set bit only when that bit is not
the first bit of the word.
-/

variable {width : Nat}

/-- A word without its lowest set bit. -/
def clearLowest (word : BitVec width) : BitVec width :=
  word &&& (word - 1)

/-- The predecessor of `2 ^ low * odd`, from the bit `low` on. -/
theorem testBit_pred {number low : Nat} (below : number % 2 ^ low = 0)
    (set : number.testBit low = true) (index : Nat) (above : low ≤ index) :
    (number - 1).testBit index = (number.testBit index && decide (index ≠ low)) := by
  have positive := Nat.two_pow_pos low
  have whole : number = 2 ^ low * (number / 2 ^ low) := by
    have split := Nat.div_add_mod number (2 ^ low)
    omega
  have odd : number / 2 ^ low % 2 = 1 := by
    rw [Nat.testBit_eq_decide_div_mod_eq] at set
    exact of_decide_eq_true set
  have quotient : (number - 1) / 2 ^ low = number / 2 ^ low - 1 := by
    generalize number / 2 ^ low = part at whole odd
    have split : number - 1 = 2 ^ low * (part - 1) + (2 ^ low - 1) := by
      have step : 2 ^ low * part = 2 ^ low * (part - 1) + 2 ^ low := by
        rw [← Nat.mul_succ]
        congr 1
        omega
      omega
    rw [split, Nat.mul_add_div positive, Nat.div_eq_of_lt (by omega), Nat.add_zero]
  rcases Nat.exists_eq_add_of_le above with ⟨rest, rfl⟩
  rw [Nat.add_comm low rest, ← Nat.testBit_div_two_pow, ← Nat.testBit_div_two_pow, quotient]
  generalize number / 2 ^ low = part at odd
  cases rest with
  | zero =>
      rw [Nat.testBit_zero, Nat.testBit_zero]
      simp
      omega
  | succ rest =>
      rw [Nat.testBit_succ, Nat.testBit_succ, show (part - 1) / 2 = part / 2 by omega,
        decide_eq_true (by omega), Bool.and_true]

theorem toNat_mod_ctz (word : BitVec width) : word.toNat % 2 ^ word.ctz.toNat = 0 := by
  apply Nat.eq_of_testBit_eq
  intro index
  rw [Nat.testBit_mod_two_pow, Nat.zero_testBit]
  by_cases below : index < word.ctz.toNat
  · have clear := BitVec.getLsbD_false_of_lt_ctz below
    rw [BitVec.getLsbD] at clear
    rw [clear, Bool.and_false]
  · rw [decide_eq_false below, Bool.false_and]

theorem getLsbD_clearLowest {word : BitVec width} (nonzero : word ≠ 0) (index : Nat) :
    (clearLowest word).getLsbD index = (word.getLsbD index && decide (index ≠ word.ctz.toNat)) := by
  have set : word.toNat.testBit word.ctz.toNat = true := BitVec.getLsbD_true_ctz_of_ne_zero nonzero
  have positive : 1 ≤ word.toNat := by
    rcases Nat.eq_zero_or_pos word.toNat with zero | positive
    · exact False.elim (nonzero (BitVec.eq_of_toNat_eq zero))
    · exact positive
  have widthPositive : 0 < width := by
    rcases Nat.eq_zero_or_pos width with rfl | widthPositive
    · have bound := word.isLt
      omega
    · exact widthPositive
  have one : (1 : BitVec width).toNat = 1 := BitVec.toNat_one widthPositive
  have predecessor : (word - 1).toNat = word.toNat - 1 := by
    have least : (1 : BitVec width) ≤ word := by
      rw [BitVec.le_def, one]
      exact positive
    rw [BitVec.toNat_sub_of_le least, one]
  rw [clearLowest, BitVec.getLsbD_and]
  rcases Nat.lt_or_ge index word.ctz.toNat with below | above
  · rw [BitVec.getLsbD_false_of_lt_ctz below, Bool.false_and, Bool.false_and]
  · rw [BitVec.getLsbD, BitVec.getLsbD, predecessor,
      testBit_pred (toNat_mod_ctz word) set index above,
      ← Bool.and_assoc, Bool.and_self]

/-- On an even word the predecessor of the predecessor adds nothing: the lowest
set bit is cleared once, and no other. -/
theorem clearLowest_and_sub_two {word : BitVec width} (nonzero : word ≠ 0)
    (even : word.getLsbD 0 = false) : clearLowest word &&& (word - 2) = clearLowest word := by
  have parity : word.toNat % 2 = 0 := by
    rw [BitVec.getLsbD, Nat.testBit_zero] at even
    have differs := of_decide_eq_false even
    omega
  have two_le : 2 ≤ word.toNat := by
    rcases Nat.eq_zero_or_pos word.toNat with zero | positive
    · exact False.elim (nonzero (BitVec.eq_of_toNat_eq zero))
    · omega
  have bound := word.isLt
  have wide : 1 < width :=
    (Nat.pow_lt_pow_iff_right (by decide : 1 < 2)).mp (by omega : 2 ^ 1 < 2 ^ width)
  have one : (1 : BitVec width).toNat = 1 := BitVec.toNat_one (by omega)
  have two : (2 : BitVec width).toNat = 2 := by
    have fits : 2 ^ 1 < 2 ^ width := Nat.pow_lt_pow_right (by decide) wide
    exact Nat.mod_eq_of_lt fits
  have first : (word - 1).toNat = word.toNat - 1 := by
    rw [BitVec.toNat_sub_of_le (by rw [BitVec.le_def, one]; omega), one]
  have second : (word - 2).toNat = word.toNat - 2 := by
    rw [BitVec.toNat_sub_of_le (by rw [BitVec.le_def, two]; exact two_le), two]
  apply BitVec.eq_of_getLsbD_eq
  intro index _
  rw [clearLowest, BitVec.getLsbD_and, BitVec.getLsbD_and]
  cases index with
  | zero => rw [even, Bool.false_and, Bool.false_and]
  | succ index =>
      have same : (word - 2).getLsbD (index + 1) = (word - 1).getLsbD (index + 1) := by
        rw [BitVec.getLsbD, BitVec.getLsbD, first, second, Nat.testBit_succ, Nat.testBit_succ,
          show (word.toNat - 2) / 2 = (word.toNat - 1) / 2 by omega]
      rw [same, Bool.and_assoc, Bool.and_self]

/-- A word with at most one set bit counts at most one. -/
theorem cpopNatRec_le_one {word : BitVec width} {low : Nat}
    (only : forall index, word.getLsbD index = true -> index = low) (count : Nat) :
    word.cpopNatRec count 0 ≤ if low < count then 1 else 0 := by
  induction count with
  | zero => exact Nat.zero_le _
  | succ count ih =>
      rw [BitVec.cpopNatRec_succ, BitVec.cpopNatRec_eq]
      cases set : word.getLsbD count with
      | true =>
          cases only count set
          rw [if_neg (Nat.lt_irrefl _)] at ih
          rw [if_pos (Nat.lt_succ_self _)]
          have one : true.toNat = 1 := rfl
          omega
      | false =>
          have zero : false.toNat = 0 := rfl
          split at ih <;> split <;> omega

theorem clearLowest_ne_zero {word : BitVec width}
    (several : 1 < word.cpop.toNat) : clearLowest word ≠ 0 := by
  intro cleared
  have only : forall index, word.getLsbD index = true -> index = word.ctz.toNat := by
    intro index set
    by_contra other
    have nonzero : word ≠ 0 := by
      intro zero
      have clear : word.getLsbD index = false := zero ▸ BitVec.getLsbD_zero
      cases clear.symm.trans set
    have kept := getLsbD_clearLowest nonzero index
    have clear : (clearLowest word).getLsbD index = false := cleared ▸ BitVec.getLsbD_zero
    rw [clear, set, decide_eq_true other] at kept
    cases kept
  have counted := cpopNatRec_le_one only width
  rw [← BitVec.toNat_cpop] at counted
  split at counted <;> omega

end Foundations
end VortexEngine
