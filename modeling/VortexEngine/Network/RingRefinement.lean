import VortexEngine.Network.MagicRingBuffer

open VortexEngine.Foundations

namespace VortexEngine
namespace Network

/-!
# The stash ring refines a bounded byte channel

A run of the ring is any sequence of completed reads, each of at most
`get_write_space()` bytes, and of `consume` calls of at most
`get_bytes_available()` bytes.  The trace keeps every byte ever written and
the number of bytes ever consumed; both are unbounded, while the indices of
the ring wrap modulo the width of `size_t` again and again.
-/

/-- A ring together with what has been written to and consumed from it. -/
structure RingTrace where
  ring : MagicRingBuffer
  written : List Byte
  consumed : Nat

inductive RingAction
  /-- store the bytes at `get_write_ptr()` and commit their number -/
  | write (bytes : List Byte)
  | consume (count : SizeT)

namespace RingTrace

/-- The bytes written and not yet consumed, oldest first. -/
def pending (trace : RingTrace) : List Byte :=
  trace.written.drop trace.consumed

def step (trace : RingTrace) : RingAction -> Option RingTrace
  | .write bytes =>
      if bytes.length ≤ trace.ring.getWriteSpace.toNat then
        some { trace with ring := trace.ring.receive bytes, written := trace.written ++ bytes }
      else none
  | .consume count =>
      if count ≤ trace.ring.getBytesAvailable then
        some { trace with
          ring := trace.ring.consume count, consumed := trace.consumed + count.toNat }
      else none

/-- Runs of a ring of `2 ^ exponent` bytes whose section holds anything. -/
def machine (exponent : Nat) : Machine RingTrace RingAction where
  initial := fun trace =>
    trace.ring.size.toNat = 2 ^ exponent ∧ trace.ring.head = 0 ∧ trace.ring.tail = 0 ∧
      trace.written = [] ∧ trace.consumed = 0
  step := step

/-- The ring holds the pending bytes, and no more was consumed than written. -/
structure Tracks (exponent : Nat) (trace : RingTrace) : Prop where
  represents : trace.ring.Represents exponent trace.pending
  consumed_le : trace.consumed ≤ trace.written.length

theorem Tracks.step {exponent : Nat} {before after : RingTrace} {action : RingAction}
    (holds : Tracks exponent before) (moves : before.step action = some after) :
    Tracks exponent after := by
  rcases holds with ⟨represents, consumed_le⟩
  cases action with
  | write bytes =>
      simp only [RingTrace.step] at moves
      split at moves
      · rename_i room
        cases moves
        constructor
        · simp only [pending]
          rw [List.drop_append_of_le_length consumed_le]
          exact represents.receive room
        · rw [List.length_append]
          exact Nat.le_trans consumed_le (Nat.le_add_right _ _)
      · cases moves
  | consume count =>
      simp only [RingTrace.step] at moves
      split at moves
      · rename_i available
        cases moves
        have within : count.toNat ≤ before.pending.length := represents.available ▸ available
        constructor
        · simp only [pending]
          rw [← List.drop_drop]
          exact represents.consume within
        · rw [pending, List.length_drop] at within
          change before.consumed + count.toNat ≤ before.written.length
          omega
      · cases moves

theorem tracks_of_reachable {exponent : Nat} {trace : RingTrace}
    (reached : (machine exponent).Reachable trace) : Tracks exponent trace := by
  refine reached.invariant ?_ (fun _ _ _ _ holds _ moves => holds.step moves)
  rintro start ⟨size, head, tail, written, consumed⟩
  have nothing : start.pending = [] := by rw [pending, written, List.drop_nil]
  refine ⟨⟨size, ?_, ?_, ?_⟩, ?_⟩
  · rw [MagicRingBuffer.getBytesAvailable, head, tail, nothing]
    rfl
  · rw [nothing]
    exact Nat.zero_le _
  · rw [nothing]
    rfl
  · rw [consumed]
    exact Nat.zero_le _

/-- What the ring shows in every reachable state. -/
structure IsByteFifo (trace : RingTrace) : Prop where
  /-- the two counts add up to the ring -/
  total : trace.ring.getBytesAvailable + trace.ring.getWriteSpace = trace.ring.size
  total_toNat : trace.ring.getBytesAvailable.toNat + trace.ring.getWriteSpace.toNat =
    trace.ring.size.toNat
  available : trace.ring.getBytesAvailable.toNat = trace.pending.length
  /-- every byte that a write, a view or a peek touches lies in the portal -/
  writeInside : forall index, index < trace.ring.getWriteSpace.toNat ->
    trace.ring.basePtr ≤ trace.ring.getWritePtr + index ∧
      trace.ring.getWritePtr + index < trace.ring.basePtr + 2 * trace.ring.size.toNat
  viewInside : forall (len : SizeT) index, len ≤ trace.ring.getBytesAvailable ->
    index < len.toNat ->
    trace.ring.basePtr ≤ (trace.ring.getView len).data + index ∧
      (trace.ring.getView len).data + index < trace.ring.basePtr + 2 * trace.ring.size.toNat
  peekInside : forall (usize : UInt32T) index,
    usize.toNat + 4 ≤ trace.ring.getBytesAvailable.toNat -> index < 4 ->
      trace.ring.peekOffset usize + index < 2 * trace.ring.size.toNat
  /-- a write changes no unconsumed byte -/
  writeKeeps : forall bytes : List Byte, bytes.length ≤ trace.ring.getWriteSpace.toNat ->
    ((trace.ring.storeBytes trace.ring.writeOffset bytes).getView
      trace.ring.getBytesAvailable).bytes =
      (trace.ring.getView trace.ring.getBytesAvailable).bytes
  /-- views and peeks return the unconsumed bytes in the order written -/
  view : forall len : SizeT, len ≤ trace.ring.getBytesAvailable ->
    (trace.ring.getView len).bytes = trace.pending.take len.toNat
  peek : forall usize : UInt32T, usize.toNat + 4 ≤ trace.ring.getBytesAvailable.toNat ->
    trace.ring.peek usize = BitVec.ofNat 32 (littleEndian ((trace.pending.drop usize.toNat).take 4))

end RingTrace

open RingTrace

/-- The stash ring refines a bounded byte channel, in every run. -/
theorem ring_isByteFifo {exponent : Nat} {trace : RingTrace}
    (reached : (RingTrace.machine exponent).Reachable trace) : trace.IsByteFifo := by
  have represents := (tracks_of_reachable reached).represents
  have size := represents.power
  have fits := represents.fits
  have available := represents.available
  have space := represents.space
  have write := represents.writeOffset_lt
  have read := represents.readOffset_lt
  constructor
  · exact MagicRingBuffer.available_add_space trace.ring
  · omega
  · exact available
  · intro index inside
    rw [MagicRingBuffer.getWritePtr]
    omega
  · intro len index within inside
    have bound : len.toNat ≤ trace.ring.getBytesAvailable.toNat := within
    change trace.ring.basePtr ≤ trace.ring.basePtr + trace.ring.readOffset + index ∧
      trace.ring.basePtr + trace.ring.readOffset + index < _
    omega
  · intro usize index within inside
    have below := Nat.mod_lt (trace.ring.tail.toNat + usize.toNat) (Nat.two_pow_pos exponent)
    rw [← represents.peekOffset_eq] at below
    omega
  · intro bytes room
    have kept := represents.storeBytes_keeps room
    rw [represents.getView_bytes (Nat.le_of_eq available),
      kept.getView_bytes (Nat.le_of_eq available)]
  · intro len within
    exact represents.getView_bytes (available ▸ within)
  · intro usize within
    exact represents.peek_eq usize (available ▸ within)

/-- An empty ring of 64 KiB. -/
def RingTrace.smallest : RingTrace where
  ring := { basePtr := 0x10000, size := 0x10000, head := 0, tail := 0, mapped := fun _ => 0 }
  written := []
  consumed := 0

theorem RingTrace.smallest_initial : (RingTrace.machine 16).initial RingTrace.smallest :=
  ⟨rfl, rfl, rfl, rfl, rfl⟩

/-- Three bytes are read from the network and one of them is consumed. -/
theorem ring_isByteFifo_smallest :
    (((RingTrace.machine 16).executeUnder Machine.anyAction RingTrace.smallest
      [.write [1, 2, 3], .consume 1]).get (by decide)).IsByteFifo :=
  ring_isByteFifo
    (Machine.reachableUnder_of_execute RingTrace.smallest_initial (by decide))

end Network
end VortexEngine
