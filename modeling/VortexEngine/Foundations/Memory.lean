import Mathlib.Data.BitVec

namespace VortexEngine
namespace Foundations

/-!
# Byte memory

A memory gives a byte for every address.  A store changes the bytes of one
range, a load returns the bytes of one range, and ranges that do not overlap
do not influence each other.
-/

abbrev Memory := Nat -> BitVec 8

namespace Memory

def store (memory : Memory) (address : Nat) (bytes : List (BitVec 8)) : Memory :=
  fun position =>
    if address ≤ position then bytes[position - address]?.getD (memory position) else
      memory position

def load (memory : Memory) (address count : Nat) : List (BitVec 8) :=
  (List.range count).map (fun index => memory (address + index))

/-- The two ranges have no address in common. -/
def Apart (left leftCount right rightCount : Nat) : Prop :=
  left + leftCount ≤ right ∨ right + rightCount ≤ left

variable {memory : Memory}

@[simp] theorem length_load (memory : Memory) (address count : Nat) :
    (memory.load address count).length = count := by
  rw [load, List.length_map, List.length_range]

theorem load_add (memory : Memory) (address first second : Nat) :
    memory.load address (first + second) =
      memory.load address first ++ memory.load (address + first) second := by
  rw [load, List.range_add, List.map_append, List.map_map]
  congr 1
  apply List.map_congr_left
  intro index _
  change memory (address + (first + index)) = memory (address + first + index)
  rw [Nat.add_assoc]

theorem load_store (memory : Memory) (address : Nat) (bytes : List (BitVec 8)) :
    (memory.store address bytes).load address bytes.length = bytes := by
  apply List.ext_getElem (length_load _ _ _)
  intro index _ inside
  simp only [load, List.getElem_map, List.getElem_range, store]
  rw [if_pos (Nat.le_add_right _ _), Nat.add_sub_cancel_left, List.getElem?_eq_getElem inside,
    Option.getD_some]

theorem store_outside {address position : Nat} {bytes : List (BitVec 8)}
    (outside : position < address ∨ address + bytes.length ≤ position) :
    memory.store address bytes position = memory position := by
  rw [store]
  split
  · rcases outside with before | behind
    · omega
    · rw [List.getElem?_eq_none (by omega), Option.getD_none]
  · rfl

theorem load_store_apart {address count position : Nat} {bytes : List (BitVec 8)}
    (apart : Apart address count position bytes.length) :
    (memory.store position bytes).load address count = memory.load address count := by
  apply List.map_congr_left
  intro index member
  have inside := List.mem_range.mp member
  apply store_outside
  rcases apart with before | behind
  · left
    omega
  · right
    omega

end Memory

end Foundations
end VortexEngine
