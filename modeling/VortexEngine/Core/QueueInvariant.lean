import VortexEngine.Core.QueueSystem
import VortexEngine.Foundations.BoundedFifo
import VortexEngine.Foundations.PowerOfTwo

open VortexEngine.Foundations

namespace VortexEngine
namespace Core

/-!
# The ring invariant of the queue

The two threads share a ring whose capacity is a power of two.  Each thread
owns one index and works on a stale copy of the other.  The invariant relates
the copies held at every program point to the present indices: the owner of an
index holds it exactly, the producer behind its full test knows that the slot
after the head is not the tail, and the consumer behind its empty test knows
that the tail is not the head.

The producer's knowledge is not automatic for the profiles that wait.  The
invariant is therefore proved for the runs in which every exit from the wait
loop happens with room, and the profile that never waits satisfies that guard
in all of its runs.  Under the guard the queue is simulated by a bounded
channel: the store of `head` accepts, the store of `tail` delivers, and every
other step is invisible.
-/

variable {Entry : Type}

namespace LogQueue

/-- The content of one slot, if there is an array. -/
def slot (queue : LogQueue Entry) (index : SizeT) : Option Entry :=
  queue.logArray.map (fun slots => slots index.toNat)

/-- An array of `2 ^ exponent` slots with both indices inside. -/
structure IsRing (exponent : Nat) (queue : LogQueue Entry) : Prop where
  power : queue.capacityMask.toNat + 1 = 2 ^ exponent
  headBound : queue.head.toNat < 2 ^ exponent
  tailBound : queue.tail.toNat < 2 ^ exponent
  allocated : queue.logArray ≠ none

namespace IsRing

variable {exponent : Nat} {queue : LogQueue Entry}

theorem array (ring : IsRing exponent queue) : Exists fun slots => queue.logArray = some slots :=
  Option.ne_none_iff_exists'.mp ring.allocated

theorem nextIndex_toNat (ring : IsRing exponent queue) (index : SizeT) :
    (queue.nextIndex index).toNat = (index.toNat + 1) % 2 ^ exponent :=
  toNat_succ_and_mask ring.power index

theorem nextIndex_lt (ring : IsRing exponent queue) (index : SizeT) :
    (queue.nextIndex index).toNat < 2 ^ exponent := by
  rw [ring.nextIndex_toNat]
  exact Nat.mod_lt _ (Nat.two_pow_pos exponent)

/-- The masked difference of the indices counts the unread entries. -/
theorem occupiedSlots_toNat (ring : IsRing exponent queue) :
    (queue.occupiedSlots queue.head queue.tail).toNat =
      distance (2 ^ exponent) queue.head.toNat queue.tail.toNat :=
  toNat_sub_and_mask ring.power ring.tailBound

theorem contents_eq (ring : IsRing exponent queue) {slots : Nat -> Entry}
    (array : queue.logArray = some slots) :
    queue.contents = window slots (2 ^ exponent) queue.tail.toNat
      (distance (2 ^ exponent) queue.head.toNat queue.tail.toNat) := by
  rw [contents, array]
  change window slots (queue.capacityMask.toNat + 1) _ _ = _
  rw [ring.power, ring.occupiedSlots_toNat]

theorem length_contents (ring : IsRing exponent queue) :
    queue.contents.length = distance (2 ^ exponent) queue.head.toNat queue.tail.toNat := by
  rcases ring.array with ⟨slots, array⟩
  rw [ring.contents_eq array, length_window]

theorem length_contents_lt (ring : IsRing exponent queue) :
    queue.contents.length < 2 ^ exponent := by
  rw [ring.length_contents]
  exact distance_lt (Nat.two_pow_pos exponent)

theorem nextIndex_injective (ring : IsRing exponent queue) {left right : SizeT}
    (leftBound : left.toNat < 2 ^ exponent) (rightBound : right.toNat < 2 ^ exponent)
    (same : queue.nextIndex left = queue.nextIndex right) : left = right := by
  have positions := congrArg BitVec.toNat same
  rw [ring.nextIndex_toNat, ring.nextIndex_toNat, advance_eq leftBound,
    advance_eq rightBound] at positions
  apply BitVec.eq_of_toNat_eq
  split at positions <;> split at positions <;> omega

/-- The full test is exact: the slot after the head is the tail just when one
slot is left. -/
theorem full_iff (ring : IsRing exponent queue) :
    queue.nextIndex queue.head = queue.tail ↔ queue.contents.length = 2 ^ exponent - 1 := by
  rw [ring.length_contents, ← advance_eq_iff_distance ring.headBound ring.tailBound,
    ← ring.nextIndex_toNat, BitVec.toNat_inj]

theorem empty_iff (ring : IsRing exponent queue) :
    queue.tail = queue.head ↔ queue.contents = [] := by
  rw [← List.length_eq_zero_iff, ring.length_contents,
    distance_eq_zero_iff ring.headBound ring.tailBound, BitVec.toNat_inj, eq_comm]

/-! ## The three writes -/

/-- The head's slot is not read by anyone, so writing it changes no content. -/
theorem contents_writeSlot (ring : IsRing exponent queue) (logLine : Entry) :
    (queue.writeSlot queue.head logLine).contents = queue.contents := by
  rcases ring.array with ⟨slots, array⟩
  have written : IsRing exponent (queue.writeSlot queue.head logLine) :=
    ⟨ring.power, ring.headBound, ring.tailBound, by simp [writeSlot, array]⟩
  rw [ring.contents_eq array,
    written.contents_eq (show _ = some (Function.update slots queue.head.toNat logLine) by
      simp [writeSlot, array])]
  exact window_update slots logLine (head_outside_window ring.headBound ring.tailBound)

/-- Storing the head makes the entry in its former slot the newest one. -/
theorem contents_storeHead (ring : IsRing exponent queue) {logLine : Entry}
    (room : queue.nextIndex queue.head ≠ queue.tail)
    (stored : queue.slot queue.head = some logLine) :
    ({ queue with head := queue.nextIndex queue.head } : LogQueue Entry).contents =
      queue.contents ++ [logLine] := by
  rcases ring.array with ⟨slots, array⟩
  have advanced : IsRing exponent { queue with head := queue.nextIndex queue.head } :=
    ⟨ring.power, ring.nextIndex_lt _, ring.tailBound, ring.allocated⟩
  have entry : slots queue.head.toNat = logLine := by
    rw [slot, array] at stored
    exact Option.some.inj stored
  have apart : (queue.head.toNat + 1) % 2 ^ exponent ≠ queue.tail.toNat := by
    rw [← ring.nextIndex_toNat, Ne, BitVec.toNat_inj]
    exact room
  rw [ring.contents_eq array, advanced.contents_eq array]
  change window slots _ queue.tail.toNat
    (distance _ (queue.nextIndex queue.head).toNat queue.tail.toNat) = _
  rw [ring.nextIndex_toNat, distance_advance_head ring.headBound ring.tailBound apart,
    window_succ_last, add_distance_mod ring.headBound ring.tailBound, entry]

theorem contents_storeTail (ring : IsRing exponent queue) {outLog : Entry}
    (nonempty : queue.tail ≠ queue.head) (stored : queue.slot queue.tail = some outLog) :
    queue.contents =
      outLog :: ({ queue with tail := queue.nextIndex queue.tail } : LogQueue Entry).contents := by
  rcases ring.array with ⟨slots, array⟩
  have advanced : IsRing exponent { queue with tail := queue.nextIndex queue.tail } :=
    ⟨ring.power, ring.headBound, ring.nextIndex_lt _, ring.allocated⟩
  have entry : slots queue.tail.toNat = outLog := by
    rw [slot, array] at stored
    exact Option.some.inj stored
  have apart : queue.tail.toNat ≠ queue.head.toNat :=
    fun same => nonempty (BitVec.eq_of_toNat_eq same)
  rw [ring.contents_eq array, advanced.contents_eq array]
  change _ = outLog :: window slots _ (queue.nextIndex queue.tail).toNat
    (distance _ queue.head.toNat (queue.nextIndex queue.tail).toNat)
  rw [ring.nextIndex_toNat, distance_advance_tail ring.headBound ring.tailBound apart,
    window_succ_first, Nat.mod_eq_of_lt ring.tailBound, entry]

end IsRing

theorem slot_writeSlot_of_ne (queue : LogQueue Entry) {index other : SizeT} (logLine : Entry)
    (different : other ≠ index) :
    (queue.writeSlot index logLine).slot other = queue.slot other := by
  have apart : other.toNat ≠ index.toNat := fun same => different (BitVec.eq_of_toNat_eq same)
  cases array : queue.logArray with
  | none => simp [slot, writeSlot, array]
  | some slots => simp [slot, writeSlot, array, Function.update_of_ne apart]

theorem slot_writeSlot_self (queue : LogQueue Entry) (index : SizeT) (logLine : Entry)
    (allocated : queue.logArray ≠ none) :
    (queue.writeSlot index logLine).slot index = some logLine := by
  rcases Option.ne_none_iff_exists'.mp allocated with ⟨slots, array⟩
  simp [slot, writeSlot, array]

end LogQueue

/-! ## Knowledge at the program points -/

/-- What the producer knows about the indices and its slot. -/
def PushPoint.Knows (queue : LogQueue Entry) : PushPoint Entry -> Prop
  | .loadingTail _ currentHead nextHead | .waiting _ currentHead nextHead =>
      currentHead = queue.head ∧ nextHead = queue.nextIndex currentHead
  | .rechecking _ currentHead nextHead | .writing _ currentHead nextHead =>
      currentHead = queue.head ∧ nextHead = queue.nextIndex currentHead ∧ nextHead ≠ queue.tail
  | .publishing logLine currentHead nextHead =>
      currentHead = queue.head ∧ nextHead = queue.nextIndex currentHead ∧ nextHead ≠ queue.tail ∧
        queue.slot currentHead = some logLine
  | _ => True

/-- What the consumer knows about the indices and its slot. -/
def PopPoint.Knows (queue : LogQueue Entry) : PopPoint Entry -> Prop
  | .loadingHead currentTail => currentTail = queue.tail
  | .rechecking currentTail | .reading currentTail =>
      currentTail = queue.tail ∧ queue.tail ≠ queue.head
  | .releasing currentTail outLog =>
      currentTail = queue.tail ∧ queue.tail ≠ queue.head ∧ queue.slot currentTail = some outLog
  | _ => True

/-- If the loop test lets the producer out, then the slot after the head is
not the tail. -/
def PushPoint.LeavesWithRoom (queue : LogQueue Entry) : PushPoint Entry -> Prop
  | .waiting _ currentHead nextHead => currentHead ≠ queue.tail -> nextHead ≠ queue.tail
  | _ => True

instance (queue : LogQueue Entry) : (point : PushPoint Entry) ->
    Decidable (point.LeavesWithRoom queue)
  | .waiting _ currentHead nextHead =>
      inferInstanceAs (Decidable (currentHead ≠ queue.tail -> nextHead ≠ queue.tail))
  | .idle | .entered _ | .loadingHead _ | .loadingTail _ _ _ | .rechecking _ _ _ | .writing _ _ _
  | .publishing _ _ _ | .notifying _ | .counting _ | .measuring _ | .tripping =>
      inferInstanceAs (Decidable True)

namespace QueueSystem

/-- The invariant of the interleaved system on a ring of `2 ^ exponent` slots. -/
structure RingInvariant (exponent : Nat) (system : QueueSystem Entry) : Prop where
  ring : system.queue.IsRing exponent
  policy : system.queue.overflow ≠ .passCriticalDropElse
  producer : system.producer.Knows system.queue
  consumer : system.consumer.Knows system.queue

/-- Every exit from the wait loop happens in a state with a free slot. -/
def LeavesWaitWithRoom (system : QueueSystem Entry) : QueueAction Entry -> Prop
  | .producer => system.producer.LeavesWithRoom system.queue
  | _ => True

instance (system : QueueSystem Entry) :
    (action : QueueAction Entry) -> Decidable (LeavesWaitWithRoom system action)
  | .producer => inferInstanceAs (Decidable (system.producer.LeavesWithRoom system.queue))
  | .push _ | .pop | .consumer | .setFinished => inferInstanceAs (Decidable True)

variable [Leveled Entry] {exponent : Nat} {before after : QueueSystem Entry}

/-- A step of the producer under the guard.  The consumer's knowledge survives
because the store of `head` never meets the tail. -/
theorem RingInvariant.producer_step (holds : RingInvariant exponent before)
    (guarded : LeavesWaitWithRoom before .producer)
    (moves : before.step .producer = some after) : RingInvariant exponent after := by
  rcases step_producer moves with ⟨progress, move, rfl⟩
  rcases holds with ⟨ring, policy, producer, consumer⟩
  change before.producer.LeavesWithRoom before.queue at guarded
  generalize before.producer = point at move producer guarded
  cases move with
  | refuse => exact ⟨ring, policy, trivial, consumer⟩
  | enter => exact ⟨ring, policy, trivial, consumer⟩
  | loadHead => exact ⟨ring, policy, ⟨rfl, rfl⟩, consumer⟩
  | findRoom room => exact ⟨ring, policy, ⟨producer.1, producer.2, room⟩, consumer⟩
  | drop => exact ⟨ring, policy, trivial, consumer⟩
  | wait => exact ⟨ring, policy, producer, consumer⟩
  | passCritical _ passes => exact False.elim (policy passes)
  | spin => exact ⟨ring, policy, producer, consumer⟩
  | leave different =>
      exact ⟨ring, policy, ⟨producer.1, producer.2, guarded different⟩, consumer⟩
  | giveUp => exact ⟨ring, policy, trivial, consumer⟩
  | proceed => exact ⟨ring, policy, producer, consumer⟩
  | write =>
      rename_i logLine currentHead nextHead
      rcases producer with ⟨rfl, isNext, room⟩
      have written : (before.queue.writeSlot before.queue.head logLine).slot before.queue.head =
          some logLine := before.queue.slot_writeSlot_self _ _ ring.allocated
      refine ⟨⟨ring.power, ring.headBound, ring.tailBound, ?_⟩, policy,
        ⟨rfl, isNext, room, written⟩, ?_⟩
      · rcases ring.array with ⟨slots, array⟩
        simp [LogQueue.writeSlot, array]
      · generalize before.consumer = reader at consumer
        cases reader with
        | releasing currentTail outLog =>
            rcases consumer with ⟨rfl, nonempty, stored⟩
            exact ⟨rfl, nonempty, (before.queue.slot_writeSlot_of_ne logLine nonempty).trans stored⟩
        | _ => exact consumer
  | publish =>
      rcases producer with ⟨rfl, rfl, room, stored⟩
      refine ⟨⟨ring.power, ring.nextIndex_lt _, ring.tailBound, ring.allocated⟩, policy,
        trivial, ?_⟩
      generalize before.consumer = reader at consumer
      cases reader with
      | rechecking currentTail => exact ⟨consumer.1, Ne.symm room⟩
      | reading currentTail => exact ⟨consumer.1, Ne.symm room⟩
      | releasing currentTail outLog => exact ⟨consumer.1, Ne.symm room, consumer.2.2⟩
      | _ => exact consumer
  | notify => exact ⟨ring, policy, trivial, consumer⟩
  | count => exact ⟨ring, policy, trivial, consumer⟩
  | trip => exact ⟨ring, policy, trivial, consumer⟩
  | calm => exact ⟨ring, policy, trivial, consumer⟩
  | setFlag =>
      exact ⟨⟨ring.power, ring.headBound, ring.tailBound, ring.allocated⟩, policy,
        trivial, consumer⟩

/-- A step of the consumer.  The producer's knowledge survives because the
store of `tail` stays behind the head. -/
theorem RingInvariant.consumer_step (holds : RingInvariant exponent before)
    (moves : before.step .consumer = some after) : RingInvariant exponent after := by
  rcases step_consumer moves with ⟨progress, move, rfl⟩
  rcases holds with ⟨ring, policy, producer, consumer⟩
  generalize before.consumer = point at move consumer
  cases move with
  | refuse => exact ⟨ring, policy, producer, trivial⟩
  | enter => exact ⟨ring, policy, producer, trivial⟩
  | loadTail => exact ⟨ring, policy, producer, rfl⟩
  | findEmpty => exact ⟨ring, policy, producer, trivial⟩
  | findEntry nonempty =>
      rcases consumer with rfl
      exact ⟨ring, policy, producer, ⟨rfl, nonempty⟩⟩
  | giveUp => exact ⟨ring, policy, producer, trivial⟩
  | proceed => exact ⟨ring, policy, producer, consumer⟩
  | read allocated =>
      refine ⟨ring, policy, producer, ⟨consumer.1, consumer.2, ?_⟩⟩
      simp only [LogQueue.slot, allocated, Option.map_some]
  | release =>
      rcases consumer with ⟨rfl, nonempty, _⟩
      have apart : before.queue.nextIndex before.queue.head ≠
          before.queue.nextIndex before.queue.tail :=
        fun same => nonempty (ring.nextIndex_injective ring.headBound ring.tailBound same).symm
      refine ⟨⟨ring.power, ring.headBound, ring.nextIndex_lt _, ring.allocated⟩, policy,
        ?_, trivial⟩
      generalize before.producer = writer at producer
      cases writer with
      | rechecking logLine currentHead nextHead =>
          rcases producer with ⟨rfl, rfl, _⟩
          exact ⟨rfl, rfl, apart⟩
      | writing logLine currentHead nextHead =>
          rcases producer with ⟨rfl, rfl, _⟩
          exact ⟨rfl, rfl, apart⟩
      | publishing logLine currentHead nextHead =>
          rcases producer with ⟨rfl, rfl, _, stored⟩
          exact ⟨rfl, rfl, apart, stored⟩
      | _ => exact producer
  | count => exact ⟨ring, policy, producer, trivial⟩
  | settle => exact ⟨ring, policy, producer, trivial⟩
  | finish => exact ⟨ring, policy, producer, trivial⟩
  | clearFlag =>
      exact ⟨⟨ring.power, ring.headBound, ring.tailBound, ring.allocated⟩, policy,
        producer, trivial⟩

theorem RingInvariant.step (holds : RingInvariant exponent before) {action : QueueAction Entry}
    (guarded : LeavesWaitWithRoom before action) (moves : before.step action = some after) :
    RingInvariant exponent after := by
  cases action with
  | push logLine =>
      rcases step_push moves with ⟨_, rfl⟩
      exact ⟨holds.ring, holds.policy, trivial, holds.consumer⟩
  | producer => exact holds.producer_step guarded moves
  | pop =>
      rcases step_pop moves with ⟨_, rfl⟩
      exact ⟨holds.ring, holds.policy, holds.producer, trivial⟩
  | consumer => exact holds.consumer_step moves
  | setFinished =>
      rw [step_setFinished moves]
      rcases holds with ⟨ring, policy, producer, consumer⟩
      exact ⟨⟨ring.power, ring.headBound, ring.tailBound, ring.allocated⟩, policy,
        producer, consumer⟩

end QueueSystem

/-! ## Runs from an empty queue -/

/-- A queue as its constructor leaves it: an array of the given capacity, both
indices zero, running. -/
structure LogQueue.Fresh (capacity : Nat) (profile : OverflowProfile)
    (queue : LogQueue Entry) : Prop where
  capacity : queue.capacity = capacity
  profile : queue.overflow = profile
  allocated : queue.logArray ≠ none
  head : queue.head = 0
  tail : queue.tail = 0
  running : queue.isRunning = true

/-- An array has at most `2 ^ 60` slots: an entry takes 29 bytes. -/
theorem LogQueue.rawSlots_le (maxCapacity : SizeT) :
    (maxCapacity / BitVec.ofNat 64 LogEntry.size).toNat ≤ 2 ^ 60 := by
  have bound := maxCapacity.isLt
  rw [BitVec.toNat_udiv, show (BitVec.ofNat 64 LogEntry.size).toNat = 29 from rfl]
  omega

/-- Every queue that the constructor sets up has a power of two of slots and is
fresh. -/
theorem LogQueue.create_fresh [Inhabited Entry] {mainConfig : MainConfig} {initialized : Bool}
    {indeterminate : SizeT}
    (allocated : (create mainConfig initialized indeterminate : LogQueue Entry).logArray ≠ none) :
    Exists fun exponent => 1 ≤ exponent ∧
      (create mainConfig initialized indeterminate : LogQueue Entry).Fresh
        (2 ^ exponent) mainConfig.profile := by
  rw [create] at allocated ⊢
  simp only at allocated ⊢
  split at allocated
  · exact False.elim (allocated rfl)
  · split at allocated
    · exact False.elim (allocated rfl)
    · rename_i initializes enough
      rw [if_neg initializes, if_neg enough]
      have below := rawSlots_le (getMaxRamUsage mainConfig.usableRam)
      generalize getMaxRamUsage mainConfig.usableRam / BitVec.ofNat 64 LogEntry.size =
        rawSlots at enough below
      have atLeast : 2 ≤ rawSlots.toNat := Nat.not_lt.mp (fun less => enough less)
      rcases bitCeil_cases below (by decide) with ⟨exponent, small, power⟩
      have most : 2 ^ exponent ≤ 2 ^ 60 := Nat.pow_le_pow_right (by decide) small
      have positive : 0 < 2 ^ exponent := Nat.two_pow_pos exponent
      refine ⟨exponent, ?_, ?_, rfl, nofun, rfl, rfl, rfl⟩
      · have covers := le_bitCeil below (by decide)
        rw [power] at covers
        by_contra tiny
        rw [Nat.lt_one_iff.mp (Nat.not_le.mp tiny)] at covers
        omega
      · change (bitCeil rawSlots - 1).toNat + 1 = 2 ^ exponent
        rw [BitVec.toNat_sub, power, show (1 : SizeT).toNat = 1 from rfl]
        omega

/-- The interleavings of one producer and one consumer on a fresh queue. -/
def queueMachine (Entry : Type) [Leveled Entry] (capacity : Nat) (profile : OverflowProfile) :
    Machine (QueueSystem Entry) (QueueAction Entry) where
  initial := fun system => Exists fun queue => Exists fun telemetry =>
    queue.Fresh capacity profile ∧ system = QueueSystem.start queue telemetry
  step := QueueSystem.step

section Runs

variable [Leveled Entry] {exponent : Nat} {profile : OverflowProfile}

omit [Leveled Entry] in
theorem LogQueue.Fresh.isRing {queue : LogQueue Entry}
    (fresh : queue.Fresh (2 ^ exponent) profile) :
    queue.IsRing exponent :=
  ⟨fresh.capacity, fresh.head ▸ Nat.two_pow_pos exponent, fresh.tail ▸ Nat.two_pow_pos exponent,
    fresh.allocated⟩

/-- The ring invariant along every run whose wait loops end with room. -/
theorem ringInvariant_of_reachable (policy : profile ≠ .passCriticalDropElse)
    {system : QueueSystem Entry}
    (reached : (queueMachine Entry (2 ^ exponent) profile).ReachableUnder
      QueueSystem.LeavesWaitWithRoom system) :
    system.RingInvariant exponent := by
  refine reached.invariant ?_ (fun _ _ _ _ holds guarded moves => holds.step guarded moves)
  rintro _ ⟨queue, telemetry, fresh, rfl⟩
  exact ⟨fresh.isRing, fresh.profile ▸ policy, trivial, trivial⟩

end Runs

end Core
end VortexEngine
