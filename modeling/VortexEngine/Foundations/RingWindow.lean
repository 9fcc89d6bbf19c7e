import Mathlib.Data.BitVec
import Mathlib.Data.Nat.ModEq
import Mathlib.Logic.Function.Basic

namespace VortexEngine
namespace Foundations

/-!
# Windows of a circular array

A ring of `capacity` cells is read through a window that begins at `start`
and holds `count` cells.  Positions are counted modulo the capacity, so the
window may wrap.  The number of cells between two positions is a distance
modulo the capacity; it never reaches the capacity itself, which is why one
cell of such a ring stays unused.

The last part relates machine words to these positions.  When the capacity is
a power of two, masking a word is reduction modulo the capacity, and the
masked difference of two wrapped words is the distance.
-/

universe u

/-! ## Distances -/

/-- Steps from `tail` forward to `head`. -/
def distance (capacity head tail : Nat) : Nat :=
  (head + capacity - tail) % capacity

theorem mod_of_lt_double {capacity position : Nat} (bound : position < 2 * capacity) :
    position % capacity = if position < capacity then position else position - capacity := by
  by_cases small : position < capacity
  · rw [if_pos small, Nat.mod_eq_of_lt small]
  · rw [if_neg small, Nat.mod_eq_sub_mod (Nat.le_of_not_lt small), Nat.mod_eq_of_lt (by omega)]

variable {capacity head tail : Nat}

theorem distance_lt (positive : 0 < capacity) : distance capacity head tail < capacity :=
  Nat.mod_lt _ positive

theorem distance_eq (headBound : head < capacity) (tailBound : tail < capacity) :
    distance capacity head tail = if tail ≤ head then head - tail else head + capacity - tail := by
  rw [distance, mod_of_lt_double (by omega)]
  by_cases ordered : tail ≤ head
  · rw [if_pos ordered, if_neg (by omega)]
    omega
  · rw [if_neg ordered, if_pos (by omega)]

theorem advance_eq {position : Nat} (bound : position < capacity) :
    (position + 1) % capacity = if position + 1 = capacity then 0 else position + 1 := by
  rw [mod_of_lt_double (by omega)]
  by_cases last : position + 1 = capacity
  · rw [if_neg (by omega), if_pos last]
    omega
  · rw [if_pos (by omega), if_neg last]

theorem distance_eq_zero_iff (headBound : head < capacity) (tailBound : tail < capacity) :
    distance capacity head tail = 0 ↔ head = tail := by
  rw [distance_eq headBound tailBound]
  split <;> omega

/-- Walking the distance from the tail arrives at the head. -/
theorem add_distance_mod (headBound : head < capacity) (tailBound : tail < capacity) :
    (tail + distance capacity head tail) % capacity = head := by
  rw [distance_eq headBound tailBound]
  split
  · rw [Nat.add_sub_cancel' (by assumption), Nat.mod_eq_of_lt headBound]
  · rw [Nat.add_sub_cancel' (by omega), Nat.add_mod_right, Nat.mod_eq_of_lt headBound]

/-- The position before the tail is the only one at the full distance. -/
theorem advance_eq_iff_distance (headBound : head < capacity) (tailBound : tail < capacity) :
    (head + 1) % capacity = tail ↔ distance capacity head tail = capacity - 1 := by
  rw [distance_eq headBound tailBound, advance_eq headBound]
  split <;> split <;> omega

theorem distance_advance_head (headBound : head < capacity) (tailBound : tail < capacity)
    (room : (head + 1) % capacity ≠ tail) :
    distance capacity ((head + 1) % capacity) tail = distance capacity head tail + 1 := by
  have positive : 0 < capacity := Nat.lt_of_le_of_lt (Nat.zero_le _) headBound
  rw [distance_eq (Nat.mod_lt _ positive) tailBound, distance_eq headBound tailBound]
  rw [advance_eq headBound] at room ⊢
  by_cases last : head + 1 = capacity
  · simp only [if_pos last] at room ⊢
    split <;> split <;> omega
  · simp only [if_neg last] at room ⊢
    split <;> split <;> omega

theorem distance_advance_tail (headBound : head < capacity) (tailBound : tail < capacity)
    (nonempty : tail ≠ head) :
    distance capacity head tail = distance capacity head ((tail + 1) % capacity) + 1 := by
  have positive : 0 < capacity := Nat.lt_of_le_of_lt (Nat.zero_le _) headBound
  rw [distance_eq headBound (Nat.mod_lt _ positive), distance_eq headBound tailBound]
  rw [advance_eq tailBound]
  by_cases last : tail + 1 = capacity
  · simp only [if_pos last]
    split <;> split <;> omega
  · simp only [if_neg last]
    split <;> split <;> omega

/-! ## Windows -/

variable {Cell : Type u} (cells : Nat -> Cell)

/-- The cells at `start`, `start + 1`, and so on, modulo the capacity. -/
def window (capacity start count : Nat) : List Cell :=
  (List.range count).map (fun offset => cells ((start + offset) % capacity))

@[simp] theorem window_zero (start : Nat) : window cells capacity start 0 = [] := rfl

@[simp] theorem length_window (start count : Nat) :
    (window cells capacity start count).length = count := by
  rw [window, List.length_map, List.length_range]

theorem window_succ_last (start count : Nat) :
    window cells capacity start (count + 1) =
      window cells capacity start count ++ [cells ((start + count) % capacity)] := by
  rw [window, List.range_succ, List.map_append]
  rfl

theorem window_succ_first (start count : Nat) :
    window cells capacity start (count + 1) =
      cells (start % capacity) :: window cells capacity ((start + 1) % capacity) count := by
  rw [window, List.range_succ_eq_map, List.map_cons, List.map_map]
  congr 1
  apply List.map_congr_left
  intro offset _
  change cells ((start + (offset + 1)) % capacity) =
    cells (((start + 1) % capacity + offset) % capacity)
  rw [Nat.mod_add_mod, Nat.add_assoc, Nat.add_comm 1 offset]

theorem mem_window {start count : Nat} {cell : Cell} :
    cell ∈ window cells capacity start count ↔
      Exists fun offset => offset < count ∧ cells ((start + offset) % capacity) = cell := by
  simp only [window, List.mem_map, List.mem_range]

/-- Writing a cell outside of the window leaves the window unchanged. -/
theorem window_update {start count position : Nat} (value : Cell)
    (outside : forall offset, offset < count -> (start + offset) % capacity ≠ position) :
    window (Function.update cells position value) capacity start count =
      window cells capacity start count := by
  apply List.map_congr_left
  intro offset member
  exact Function.update_of_ne (outside offset (List.mem_range.mp member)) _ _

theorem head_outside_window (headBound : head < capacity) (tailBound : tail < capacity)
    (offset : Nat) (inside : offset < distance capacity head tail) :
    (tail + offset) % capacity ≠ head := by
  have short : distance capacity head tail < capacity :=
    distance_lt (Nat.lt_of_le_of_lt (Nat.zero_le _) headBound)
  rw [distance_eq headBound tailBound] at inside short
  rw [mod_of_lt_double (by omega)]
  split at inside <;> split <;> omega

/-- Only the position modulo the capacity matters for where a window begins. -/
theorem window_mod_start (start count : Nat) :
    window cells capacity (start % capacity) count = window cells capacity start count := by
  apply List.map_congr_left
  intro offset _
  rw [Nat.mod_add_mod]

theorem take_window {start count short : Nat} (within : short ≤ count) :
    (window cells capacity start count).take short = window cells capacity start short := by
  rw [window, ← List.map_take, List.take_range, Nat.min_eq_left within]
  rfl

theorem drop_window {start count skipped : Nat} (within : skipped ≤ count) :
    (window cells capacity start count).drop skipped =
      window cells capacity (start + skipped) (count - skipped) := by
  induction skipped generalizing start count with
  | zero => rfl
  | succ skipped ih =>
      cases count with
      | zero => exact absurd within (Nat.not_succ_le_zero skipped)
      | succ count =>
          rw [window_succ_first, List.drop_succ_cons, window_mod_start,
            ih (Nat.le_of_succ_le_succ within), Nat.succ_sub_succ, Nat.add_assoc,
              Nat.add_comm 1 skipped]

theorem add_mod_injective {start left right : Nat} (leftBound : left < capacity)
    (rightBound : right < capacity)
    (same : (start + left) % capacity = (start + right) % capacity) : left = right :=
  Nat.ModEq.eq_of_lt_of_lt (Nat.ModEq.add_left_cancel' start same) leftBound rightBound

/-- Write a list of values to consecutive positions, modulo the capacity. -/
def writeCells (capacity : Nat) (cells : Nat -> Cell) (start : Nat) : List Cell -> Nat -> Cell
  | [] => cells
  | value :: rest =>
      writeCells capacity (Function.update cells (start % capacity) value) (start + 1) rest

theorem writeCells_mod_start (start : Nat) (values : List Cell) :
    writeCells capacity cells (start % capacity) values =
      writeCells capacity cells start values := by
  induction values generalizing cells start with
  | nil => rfl
  | cons value rest ih =>
      rw [writeCells, writeCells, Nat.mod_mod, ← ih _ (start % capacity + 1), Nat.mod_add_mod, ih]

/-- Values written behind a window extend it, as long as the ring has room. -/
theorem window_writeCells (start count : Nat) (values : List Cell)
    (room : count + values.length ≤ capacity) :
    window (writeCells capacity cells (start + count) values) capacity start
      (count + values.length) =
      window cells capacity start count ++ values := by
  induction values generalizing cells count with
  | nil => rw [List.append_nil]; rfl
  | cons value rest ih =>
      rw [List.length_cons] at room ⊢
      have outside : forall offset, offset < count ->
          (start + offset) % capacity ≠ (start + count) % capacity :=
        fun offset inside same =>
          Nat.ne_of_lt inside (add_mod_injective (by omega) (by omega) same)
      have extended :=
        ih (Function.update cells ((start + count) % capacity) value) (count + 1) (by omega)
      rw [show count + (rest.length + 1) = count + 1 + rest.length by
        omega, writeCells, Nat.add_assoc, extended,
        window_succ_last, window_update cells value outside, Function.update_self,
          List.append_assoc]
      rfl

/-! ## Masked machine words -/

section Masked

variable {width exponent : Nat} {mask : BitVec width}

theorem exponent_le_width (power : mask.toNat + 1 = 2 ^ exponent) : exponent ≤ width := by
  have bound : 2 ^ exponent ≤ 2 ^ width := power ▸ mask.isLt
  exact (Nat.pow_le_pow_iff_right (by decide)).mp bound

theorem toNat_and_mask (power : mask.toNat + 1 = 2 ^ exponent) (word : BitVec width) :
    (word &&& mask).toNat = word.toNat % 2 ^ exponent := by
  rw [BitVec.toNat_and, show mask.toNat = 2 ^ exponent - 1 by omega, Nat.and_two_pow_sub_one_eq_mod]

/-- The successor position, computed on machine words. -/
theorem toNat_succ_and_mask (power : mask.toNat + 1 = 2 ^ exponent) (word : BitVec width) :
    ((word + 1) &&& mask).toNat = (word.toNat + 1) % 2 ^ exponent := by
  have divides : 2 ^ exponent ∣ 2 ^ width := Nat.pow_dvd_pow 2 (exponent_le_width power)
  rw [toNat_and_mask power, BitVec.toNat_add, Nat.mod_mod_of_dvd _ divides]
  rw [show (1 : BitVec width).toNat = 1 % 2 ^ width from rfl, Nat.add_mod,
    Nat.mod_mod_of_dvd _ divides, ← Nat.add_mod]

/-- The wrapped difference of two positions, masked, is their distance. -/
theorem toNat_sub_and_mask (power : mask.toNat + 1 = 2 ^ exponent) {head tail : BitVec width}
    (tailBound : tail.toNat < 2 ^ exponent) :
    ((head - tail) &&& mask).toNat = distance (2 ^ exponent) head.toNat tail.toNat := by
  have divides : 2 ^ exponent ∣ 2 ^ width := Nat.pow_dvd_pow 2 (exponent_le_width power)
  rw [toNat_and_mask power, BitVec.toNat_sub, Nat.mod_mod_of_dvd _ divides, distance]
  rcases divides with ⟨factor, whole⟩
  have positive : 0 < factor := by
    apply Nat.pos_of_ne_zero
    intro none
    exact Nat.ne_of_gt (Nat.two_pow_pos width) (by rw [whole, none, Nat.mul_zero])
  have split : 2 ^ width = 2 ^ exponent + 2 ^ exponent * (factor - 1) := by
    rw [whole, Nat.add_comm, ← Nat.mul_succ, Nat.succ_eq_add_one, Nat.sub_add_cancel positive]
  have regroup : 2 ^ width - tail.toNat + head.toNat =
      head.toNat + 2 ^ exponent - tail.toNat + 2 ^ exponent * (factor - 1) := by
    omega
  rw [regroup, Nat.add_mul_mod_self_left]

end Masked

end Foundations
end VortexEngine
