import Mathlib.Data.BitVec

namespace VortexEngine
namespace Foundations

/-!
# Byte order

Unsigned numbers as byte strings.  The little-endian string of a number has a
fixed length, truncates the number to that many bytes, and is inverse to
reading; the big-endian value of a string is the little-endian value of its
reverse.
-/

/-- The value of a string whose first byte is the least significant one. -/
def littleEndian : List (BitVec 8) -> Nat
  | [] => 0
  | byte :: rest => byte.toNat + 256 * littleEndian rest

/-- The value of a string whose first byte is the most significant one. -/
def bigEndian (bytes : List (BitVec 8)) : Nat :=
  littleEndian bytes.reverse

/-- The `count` lowest bytes of a number, least significant first. -/
def toLittleEndian : Nat -> Nat -> List (BitVec 8)
  | 0, _ => []
  | count + 1, value => BitVec.ofNat 8 value :: toLittleEndian count (value / 256)

@[simp] theorem length_toLittleEndian (count value : Nat) :
    (toLittleEndian count value).length = count := by
  induction count generalizing value with
  | zero => rfl
  | succ count ih => rw [toLittleEndian, List.length_cons, ih]

theorem littleEndian_lt (bytes : List (BitVec 8)) : littleEndian bytes < 256 ^ bytes.length := by
  induction bytes with
  | nil => exact Nat.one_pos
  | cons byte rest ih =>
      have bound := byte.isLt
      rw [littleEndian, List.length_cons, Nat.pow_succ]
      omega

theorem littleEndian_toLittleEndian (count value : Nat) (fits : value < 256 ^ count) :
    littleEndian (toLittleEndian count value) = value := by
  induction count generalizing value with
  | zero =>
      rw [Nat.pow_zero] at fits
      rw [toLittleEndian, littleEndian]
      omega
  | succ count ih =>
      rw [Nat.pow_succ] at fits
      rw [toLittleEndian, littleEndian, ih (value / 256) (by omega), BitVec.toNat_ofNat]
      omega

theorem toLittleEndian_littleEndian (bytes : List (BitVec 8)) :
    toLittleEndian bytes.length (littleEndian bytes) = bytes := by
  induction bytes with
  | nil => rfl
  | cons byte rest ih =>
      have bound := byte.isLt
      rw [littleEndian, List.length_cons, toLittleEndian]
      congr 1
      · apply BitVec.eq_of_toNat_eq
        rw [BitVec.toNat_ofNat]
        omega
      · rw [show (byte.toNat + 256 * littleEndian rest) / 256 = littleEndian rest by omega]
        exact ih

theorem littleEndian_injective {left right : List (BitVec 8)}
    (sameLength : left.length = right.length)
    (sameValue : littleEndian left = littleEndian right) : left = right := by
  rw [← toLittleEndian_littleEndian left, ← toLittleEndian_littleEndian right,
    sameLength, sameValue]

/-- Reverse the four bytes of a word. -/
def byteswap (word : BitVec 32) : BitVec 32 :=
  BitVec.ofNat 32 (bigEndian (toLittleEndian 4 word.toNat))

/-- A little-endian load of four bytes, swapped, is their big-endian value. -/
theorem byteswap_littleEndian {bytes : List (BitVec 8)} (four : bytes.length = 4) :
    byteswap (BitVec.ofNat 32 (littleEndian bytes)) = BitVec.ofNat 32 (bigEndian bytes) := by
  have bound := littleEndian_lt bytes
  rw [four] at bound
  have fits : littleEndian bytes % 2 ^ 32 = littleEndian bytes := Nat.mod_eq_of_lt bound
  have again : toLittleEndian 4 (littleEndian bytes) = bytes :=
    four ▸ toLittleEndian_littleEndian bytes
  rw [byteswap, BitVec.toNat_ofNat, fits, again]

end Foundations
end VortexEngine
