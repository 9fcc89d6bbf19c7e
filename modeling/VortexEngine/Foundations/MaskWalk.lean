import VortexEngine.Foundations.BitScan
import Mathlib.Data.List.Chain

namespace VortexEngine
namespace Foundations

/-!
# Counting behind a mask

A ring of slots is often walked by `(index + 1) & (count - 1)`.  Below the
lowest set bit of `count` the mask has all bits, and the lowest set bit itself
is missing from it.  Starting at zero, the walk therefore counts modulo that
lowest bit, whatever the other bits of `count` are: it visits all slots when
`count` is a power of two, and only the first few when it is not.  For a
`count` of zero the mask is full, and the walk counts modulo the word size.

The second part is about any counter that is read modulo a number while it
grows by at most one at a time.
-/

variable {width : Nat}

/-- One step of the walk. -/
def maskStep (count index : BitVec width) : BitVec width :=
  (index + 1) &&& (count - 1)

/-- The number of slots that the walk visits. -/
def maskPeriod (count : BitVec width) : Nat :=
  2 ^ count.ctz.toNat

theorem maskPeriod_pos (count : BitVec width) : 0 < maskPeriod count :=
  Nat.two_pow_pos _

theorem testBit_pred_below {number low index : Nat} (positive : 0 < number)
    (below : number % 2 ^ low = 0) (inside : index < low) : (number - 1).testBit index = true := by
  have whole : number = 2 ^ low * (number / 2 ^ low) := by
    have split := Nat.div_add_mod number (2 ^ low)
    omega
  have remainder : (number - 1) % 2 ^ low = 2 ^ low - 1 := by
    have room := Nat.two_pow_pos low
    have quotient : 0 < number / 2 ^ low :=
      Nat.pos_of_ne_zero (fun none => by rw [none] at whole; omega)
    have step : 2 ^ low * (number / 2 ^ low) = 2 ^ low * (number / 2 ^ low - 1) + 2 ^ low := by
      rw [← Nat.mul_succ]
      congr 1
      omega
    rw [whole, step, Nat.add_sub_assoc room, Nat.mul_add_mod]
    exact Nat.mod_eq_of_lt (by omega)
  have masked := Nat.testBit_mod_two_pow (number - 1) low index
  rw [remainder, Nat.testBit_two_pow_sub_one, decide_eq_true inside, Bool.true_and] at masked
  exact masked.symm

theorem maskPeriod_le {count : BitVec width}
    (nonzero : count ≠ 0) : maskPeriod count ≤ count.toNat :=
  BitVec.two_pow_ctz_le_toNat_of_ne_zero nonzero

theorem maskPeriod_zero : maskPeriod (BitVec.ofNat width 0) = 2 ^ width := by
  have reversed : (BitVec.ofNat width 0).reverse = BitVec.ofNat width 0 :=
    BitVec.reverse_eq_zero_iff.mpr rfl
  have scanned : (BitVec.ofNat width 0).ctz = BitVec.ofNat width width := by
    rw [BitVec.ctz, reversed]
    exact BitVec.clz_eq_iff_eq_zero.mpr rfl
  rw [maskPeriod, scanned, BitVec.toNat_ofNat, Nat.mod_eq_of_lt Nat.lt_two_pow_self]

theorem toNat_mod_maskPeriod (count : BitVec width) : count.toNat % maskPeriod count = 0 :=
  toNat_mod_ctz count

theorem maskPeriod_eq_iff {count : BitVec width} (nonzero : count ≠ BitVec.ofNat width 0) :
    maskPeriod count = count.toNat ↔ Exists fun exponent => count.toNat = 2 ^ exponent := by
  constructor
  · intro same
    exact ⟨_, same.symm⟩
  · rintro ⟨exponent, power⟩
    have set : count.toNat.testBit count.ctz.toNat = true :=
      BitVec.getLsbD_true_ctz_of_ne_zero nonzero
    rw [power, Nat.testBit_two_pow, decide_eq_true_eq] at set
    rw [maskPeriod, power, set]

theorem maskStep_toNat {count index : BitVec width} (inside : index.toNat < maskPeriod count) :
    (maskStep count index).toNat = (index.toNat + 1) % maskPeriod count := by
  by_cases zero : count = BitVec.ofNat width 0
  · subst zero
    have full : BitVec.ofNat width 0 - 1 = BitVec.allOnes width := by
      rw [BitVec.zero_sub]
      exact BitVec.neg_one_eq_allOnes
    rw [maskStep, full, BitVec.and_allOnes, BitVec.toNat_add, maskPeriod_zero]
    exact Nat.add_mod_mod _ _ _
  · have bound := maskPeriod_le zero
    have positive := Nat.lt_of_lt_of_le (maskPeriod_pos count) bound
    have below := toNat_mod_maskPeriod count
    have set : count.toNat.testBit count.ctz.toNat = true := BitVec.getLsbD_true_ctz_of_ne_zero zero
    have range := count.isLt
    have one : (BitVec.ofNat width 1).toNat = 1 := by
      apply BitVec.toNat_one
      apply Nat.pos_of_ne_zero
      rintro rfl
      omega
    have successor : (index + BitVec.ofNat width 1).toNat = index.toNat + 1 := by
      rw [BitVec.toNat_add, one, Nat.mod_eq_of_lt (by omega)]
    have predecessor : (count - BitVec.ofNat width 1).toNat = count.toNat - 1 := by
      rw [BitVec.toNat_sub_of_le (by rw [BitVec.le_def, one]; exact positive), one]
    change (index + BitVec.ofNat width 1 &&& count - BitVec.ofNat width 1).toNat = _
    rw [BitVec.toNat_and, successor, predecessor]
    apply Nat.eq_of_testBit_eq
    intro bit
    rw [Nat.testBit_and, maskPeriod, Nat.testBit_mod_two_pow]
    rcases Nat.lt_trichotomy bit count.ctz.toNat with lower | rfl | higher
    · rw [testBit_pred_below positive below lower, decide_eq_true lower, Bool.and_true,
        Bool.true_and]
    · rw [testBit_pred below set _ (Nat.le_refl _)]
      simp
    · have small : index.toNat + 1 < 2 ^ bit :=
        Nat.lt_of_le_of_lt inside (Nat.pow_lt_pow_right (by decide) higher)
      rw [Nat.testBit_lt_two_pow small, Bool.false_and, Bool.and_false]

/-- Where a power of two of slots would go on, the walk of a shorter period goes
back to its start. -/
theorem maskStep_last {count index : BitVec width} (nonzero : count ≠ BitVec.ofNat width 0)
    (last : index.toNat + 1 = maskPeriod count) (short : maskPeriod count ≠ count.toNat) :
    (maskStep count index).toNat ≠ (index.toNat + 1) % count.toNat := by
  have bound := maskPeriod_le nonzero
  have positive := maskPeriod_pos count
  rw [maskStep_toNat (by omega), last, Nat.mod_self, Nat.mod_eq_of_lt (by omega)]
  omega

/-! ## Counters that climb -/

/-- The next reading is the same or one more. -/
def Climbs (earlier later : Nat) : Prop :=
  later = earlier ∨ later = earlier + 1

/-- A climbing counter skips nothing. -/
theorem mem_of_climbing {first value top : Nat} {rest : List Nat}
    (climbs : List.IsChain Climbs (first :: rest)) (reached : top ∈ first :: rest)
    (above : first ≤ value) (below : value ≤ top) : value ∈ first :: rest := by
  induction rest generalizing first with
  | nil =>
      have only : top = first := List.mem_singleton.mp reached
      have same : value = first := by omega
      exact same ▸ List.mem_cons_self
  | cons next rest ih =>
      rw [List.isChain_cons_cons, Climbs] at climbs
      rcases Nat.eq_or_lt_of_le above with rfl | further
      · exact List.mem_cons_self
      · have later : top ∈ next :: rest := List.mem_of_ne_of_mem (by omega) reached
        exact List.mem_cons_of_mem _ (ih climbs.2 later (by omega))

theorem pairwise_of_climbing {readings : List Nat} (climbs : List.IsChain Climbs readings) :
    readings.Pairwise (· ≤ ·) := by
  apply List.IsChain.pairwise
  apply climbs.imp
  intro earlier later climbing
  rcases climbing with rfl | rfl
  · exact Nat.le_refl _
  · exact Nat.le_succ _

/-- Between two readings of one remainder all others have been read, if any. -/
theorem mem_between_same_remainder {modulus first last other remainder : Nat} {middle : List Nat}
    (climbs : List.IsChain Climbs (first :: (middle ++ [last])))
    (same : last % modulus = first % modulus)
    (left : other ∈ middle) (different : other % modulus ≠ first % modulus)
    (inside : remainder < modulus) (wanted : remainder ≠ first % modulus) :
    remainder ∈ middle.map (· % modulus) := by
  have sorted := pairwise_of_climbing climbs
  rw [List.pairwise_cons, List.pairwise_append] at sorted
  rcases sorted with ⟨aboveFirst, _, _, belowLast⟩
  have rises : first ≤ other := aboveFirst other (List.mem_append_left _ left)
  have stays : other ≤ last := belowLast other left last List.mem_cons_self
  have moved : other ≠ first := fun equal => different (equal ▸ rfl)
  have whole : (last - first) % modulus = 0 := Nat.sub_mod_eq_zero_of_mod_eq same
  have lap : modulus ≤ last - first := Nat.le_of_dvd (by omega) (Nat.dvd_of_mod_eq_zero whole)
  have positive : 0 < modulus := Nat.lt_of_le_of_lt (Nat.zero_le _) inside
  have start := Nat.mod_lt first positive
  -- the reading with the wanted remainder in the lap that begins at `first`
  let offset := remainder + modulus - first % modulus
  have total : first + offset = remainder + modulus * (first / modulus + 1) := by
    have split := Nat.div_add_mod first modulus
    rw [Nat.mul_succ]
    omega
  have reading : (first + offset % modulus) % modulus = remainder := by
    rw [Nat.add_mod_mod, total, Nat.add_mul_mod_self_left, Nat.mod_eq_of_lt inside]
  have short : offset % modulus < modulus := Nat.mod_lt _ positive
  have proper : offset % modulus ≠ 0 := by
    intro none
    rw [none, Nat.add_zero] at reading
    exact wanted reading.symm
  have found : first + offset % modulus ∈ first :: (middle ++ [last]) := by
    apply mem_of_climbing climbs
      (List.mem_cons_of_mem _ (List.mem_append_right _ List.mem_cons_self)) <;> omega
  rw [List.mem_cons, List.mem_append, List.mem_singleton] at found
  rw [← reading]
  apply List.mem_map_of_mem
  exact (found.resolve_left (by omega)).resolve_right (by omega)

end Foundations
end VortexEngine
