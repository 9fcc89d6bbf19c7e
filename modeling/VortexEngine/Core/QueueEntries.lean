import VortexEngine.Core.QueueInvariant

open VortexEngine.Foundations

namespace VortexEngine
namespace Core

/-!
# What the queue may contain

The ring invariant needs a profile that leaves room.  A weaker fact holds for
every profile and every interleaving: the queue returns only what was pushed.
As long as `head` has never been stored onto the tail, the unread entries are
known and the consumer stays behind the head.  The first store of `head` onto
the tail finds every slot written, and from then on it does not matter which
slot is read.
-/

variable {Entry : Type} {P Q : Entry -> Prop} {exponent : Nat}

namespace LogQueue

/-- Every slot has been written with an admissible entry. -/
def AllSlots (P : Entry -> Prop) (exponent : Nat) (queue : LogQueue Entry) : Prop :=
  forall index : SizeT, index.toNat < 2 ^ exponent ->
    Exists fun entry => queue.slot index = some entry ∧ P entry

/-- Every unread entry is admissible. -/
def AllContents (P : Entry -> Prop) (queue : LogQueue Entry) : Prop :=
  forall entry, entry ∈ queue.contents -> P entry

/-- The slot of an index in the window from tail to head is an unread entry. -/
theorem IsRing.slot_mem_contents {queue : LogQueue Entry} (ring : queue.IsRing exponent)
    {index : SizeT} (bound : index.toNat < 2 ^ exponent)
    (inside : distance (2 ^ exponent) index.toNat queue.tail.toNat <
      distance (2 ^ exponent) queue.head.toNat queue.tail.toNat) :
    Exists fun entry => queue.slot index = some entry ∧ entry ∈ queue.contents := by
  rcases ring.array with ⟨slots, array⟩
  refine ⟨slots index.toNat, by rw [slot, array]; rfl, ?_⟩
  rw [ring.contents_eq array, mem_window]
  exact ⟨_, inside, by rw [add_distance_mod bound ring.tailBound]⟩

theorem IsRing.tail_slot_mem {queue : LogQueue Entry} (ring : queue.IsRing exponent)
    (nonempty : queue.tail ≠ queue.head) :
    Exists fun entry => queue.slot queue.tail = some entry ∧ entry ∈ queue.contents := by
  apply ring.slot_mem_contents ring.tailBound
  rw [(distance_eq_zero_iff ring.tailBound ring.tailBound).mpr rfl]
  apply Nat.pos_of_ne_zero
  intro same
  have equal := (distance_eq_zero_iff ring.headBound ring.tailBound).mp same
  exact nonempty (BitVec.eq_of_toNat_eq equal.symm)

/-- When the slot after the head is the tail, the unread entries and the head's
slot are all slots. -/
theorem IsRing.allSlots_of_full {queue : LogQueue Entry} (ring : queue.IsRing exponent)
    (full : queue.nextIndex queue.head = queue.tail) (contents : queue.AllContents P)
    {logLine : Entry} (stored : queue.slot queue.head = some logLine) (pushed : P logLine) :
    queue.AllSlots P exponent := by
  intro index bound
  by_cases atHead : index = queue.head
  · exact ⟨logLine, atHead ▸ stored, pushed⟩
  · have whole := ring.full_iff.mp full
    rw [ring.length_contents] at whole
    have most : distance (2 ^ exponent) index.toNat queue.tail.toNat < 2 ^ exponent :=
      distance_lt (Nat.two_pow_pos exponent)
    have apart : distance (2 ^ exponent) index.toNat queue.tail.toNat ≠ 2 ^ exponent - 1 := by
      intro last
      have next := (advance_eq_iff_distance bound ring.tailBound).mpr last
      rw [← ring.nextIndex_toNat, BitVec.toNat_inj, ← full] at next
      exact atHead (ring.nextIndex_injective bound ring.headBound next)
    rcases ring.slot_mem_contents bound (by omega) with ⟨entry, found, member⟩
    exact ⟨entry, found, contents entry member⟩

theorem AllSlots.writeSlot {queue : LogQueue Entry} (all : queue.AllSlots P exponent)
    (allocated : queue.logArray ≠ none) (index : SizeT) {logLine : Entry} (pushed : P logLine) :
    (queue.writeSlot index logLine).AllSlots P exponent := by
  intro other bound
  by_cases same : other = index
  · exact ⟨logLine, same ▸ queue.slot_writeSlot_self index logLine allocated, pushed⟩
  · rw [queue.slot_writeSlot_of_ne logLine same]
    exact all other bound

end LogQueue

/-! ## Knowledge at the program points, for every profile -/

/-- The producer owns the head and brings an admissible entry. -/
def PushPoint.Brings (P : Entry -> Prop) (queue : LogQueue Entry) : PushPoint Entry -> Prop
  | .entered logLine | .loadingHead logLine => P logLine
  | .loadingTail logLine currentHead nextHead | .waiting logLine currentHead nextHead
  | .rechecking logLine currentHead nextHead | .writing logLine currentHead nextHead =>
      P logLine ∧ currentHead = queue.head ∧ nextHead = queue.nextIndex currentHead
  | .publishing logLine currentHead nextHead =>
      P logLine ∧ currentHead = queue.head ∧ nextHead = queue.nextIndex currentHead ∧
        queue.slot currentHead = some logLine
  | _ => True

/-- The consumer owns the tail and returns an admissible entry. -/
def PopPoint.Takes (P : Entry -> Prop) (queue : LogQueue Entry) : PopPoint Entry -> Prop
  | .loadingHead currentTail | .rechecking currentTail | .reading currentTail =>
      currentTail = queue.tail
  | .releasing currentTail outLog => currentTail = queue.tail ∧ P outLog
  | .counting _ outLog | .measuring _ outLog | .untripping outLog | .returned (some outLog) =>
      P outLog
  | _ => True

/-- Behind its empty test the consumer has an unread entry in front of it. -/
def PopPoint.Behind (queue : LogQueue Entry) : PopPoint Entry -> Prop
  | .rechecking _ | .reading _ | .releasing _ _ => queue.tail ≠ queue.head
  | _ => True

namespace QueueSystem

/-- Only admissible entries are in the queue and on their way through it. -/
structure CarriesOnly (P : Entry -> Prop) (exponent : Nat) (system : QueueSystem Entry) : Prop where
  ring : system.queue.IsRing exponent
  producer : system.producer.Brings P system.queue
  consumer : system.consumer.Takes P system.queue
  entries : system.queue.AllSlots P exponent ∨
    (system.queue.AllContents P ∧ system.consumer.Behind system.queue)

/-- A call of `push` brings an admissible entry. -/
def Admits (P : Entry -> Prop) : QueueAction Entry -> Prop
  | .push logLine => P logLine
  | _ => True

variable {before after : QueueSystem Entry}

theorem CarriesOnly.weaken {system : QueueSystem Entry} (holds : CarriesOnly P exponent system)
    (implies : forall entry, P entry -> Q entry) : CarriesOnly Q exponent system where
  ring := holds.ring
  producer := by
    have producer := holds.producer
    generalize system.producer = point at producer
    cases point with
    | entered logLine => exact implies _ producer
    | loadingHead logLine => exact implies _ producer
    | loadingTail logLine currentHead nextHead => exact ⟨implies _ producer.1, producer.2⟩
    | waiting logLine currentHead nextHead => exact ⟨implies _ producer.1, producer.2⟩
    | rechecking logLine currentHead nextHead => exact ⟨implies _ producer.1, producer.2⟩
    | writing logLine currentHead nextHead => exact ⟨implies _ producer.1, producer.2⟩
    | publishing logLine currentHead nextHead => exact ⟨implies _ producer.1, producer.2⟩
    | _ => trivial
  consumer := by
    have consumer := holds.consumer
    generalize system.consumer = point at consumer
    cases point with
    | returned outLog =>
        cases outLog with
        | none => trivial
        | some outLog => exact implies _ consumer
    | releasing currentTail outLog => exact ⟨consumer.1, implies _ consumer.2⟩
    | counting currentTail outLog => exact implies _ consumer
    | measuring currentTail outLog => exact implies _ consumer
    | untripping outLog => exact implies _ consumer
    | _ => exact consumer
  entries := by
    rcases holds.entries with all | ⟨contents, behind⟩
    · refine Or.inl (fun index bound => ?_)
      rcases all index bound with ⟨entry, found, admissible⟩
      exact ⟨entry, found, implies _ admissible⟩
    · exact Or.inr ⟨fun entry member => implies _ (contents entry member), behind⟩

/-- The store of `head` adds the producer's entry, or it meets the tail in a
queue whose slots have all been written. -/
theorem CarriesOnly.publish (holds : CarriesOnly P exponent before) {logLine : Entry}
    {currentHead nextHead : SizeT}
    (publishes : before.producer = .publishing logLine currentHead nextHead) :
    ({ before.queue with head := nextHead } : LogQueue Entry).AllSlots P exponent ∨
      (({ before.queue with head := nextHead } : LogQueue Entry).AllContents P ∧
        before.consumer.Behind { before.queue with head := nextHead }) := by
  have producer := holds.producer
  rw [publishes] at producer
  rcases producer with ⟨pushed, rfl, rfl, stored⟩
  rcases holds.entries with all | ⟨contents, behind⟩
  · exact Or.inl all
  · by_cases full : before.queue.nextIndex before.queue.head = before.queue.tail
    · exact Or.inl (holds.ring.allSlots_of_full full contents stored pushed)
    · refine Or.inr ⟨?_, ?_⟩
      · rw [LogQueue.AllContents, holds.ring.contents_storeHead full stored]
        intro entry member
        rcases List.mem_append.mp member with earlier | last
        · exact contents entry earlier
        · exact List.mem_singleton.mp last ▸ pushed
      · generalize before.consumer = reader at behind
        cases reader with
        | rechecking currentTail => exact Ne.symm full
        | reading currentTail => exact Ne.symm full
        | releasing currentTail outLog => exact Ne.symm full
        | _ => trivial

/-- A write to the head's slot changes no unread entry, and no written slot
becomes inadmissible. -/
theorem CarriesOnly.write (holds : CarriesOnly P exponent before) {logLine : Entry}
    (pushed : P logLine) :
    (before.queue.writeSlot before.queue.head logLine).AllSlots P exponent ∨
      ((before.queue.writeSlot before.queue.head logLine).AllContents P ∧
        before.consumer.Behind (before.queue.writeSlot before.queue.head logLine)) := by
  rcases holds.entries with all | ⟨contents, behind⟩
  · exact Or.inl (all.writeSlot holds.ring.allocated _ pushed)
  · refine Or.inr ⟨?_, behind⟩
    rw [LogQueue.AllContents, holds.ring.contents_writeSlot]
    exact contents

/-- The slot that the consumer reads holds an admissible entry. -/
theorem CarriesOnly.read (holds : CarriesOnly P exponent before) {currentTail : SizeT}
    (reads : before.consumer = .reading currentTail) {slots : Nat -> Entry}
    (array : before.queue.logArray = some slots) : P (slots currentTail.toNat) := by
  have consumer := holds.consumer
  rw [reads] at consumer
  rcases consumer with rfl
  have found : Exists fun entry => before.queue.slot before.queue.tail = some entry ∧ P entry := by
    rcases holds.entries with all | ⟨contents, behind⟩
    · exact all _ holds.ring.tailBound
    · rw [reads] at behind
      rcases holds.ring.tail_slot_mem behind with ⟨entry, stored, member⟩
      exact ⟨entry, stored, contents entry member⟩
  rcases found with ⟨entry, stored, admissible⟩
  rw [LogQueue.slot, array] at stored
  cases stored
  exact admissible

theorem CarriesOnly.release (holds : CarriesOnly P exponent before) {currentTail : SizeT}
    {outLog : Entry} (releases : before.consumer = .releasing currentTail outLog) :
    ({ before.queue with tail := before.queue.nextIndex before.queue.tail } :
      LogQueue Entry).AllSlots P exponent ∨
      ({ before.queue with tail := before.queue.nextIndex before.queue.tail } :
        LogQueue Entry).AllContents P := by
  rcases holds.entries with all | ⟨contents, behind⟩
  · exact Or.inl all
  · refine Or.inr (fun entry member => contents entry ?_)
    rw [releases] at behind
    rcases holds.ring.tail_slot_mem behind with ⟨oldest, stored, _⟩
    rw [holds.ring.contents_storeTail behind stored]
    exact List.mem_cons_of_mem _ member

theorem carriesOnly_start {profile : OverflowProfile} {queue : LogQueue Entry}
    {telemetry : Telemetry} (fresh : queue.Fresh (2 ^ exponent) profile) :
      CarriesOnly P exponent (start queue telemetry) where
  ring := fresh.isRing
  producer := trivial
  consumer := trivial
  entries := by
    have empty : queue.contents = [] := fresh.isRing.empty_iff.mp (fresh.tail.trans fresh.head.symm)
    refine Or.inr ⟨fun entry member => ?_, trivial⟩
    change entry ∈ queue.contents at member
    rw [empty] at member
    cases member

variable [Leveled Entry]

theorem CarriesOnly.producer_step (holds : CarriesOnly P exponent before)
    (moves : before.step .producer = some after) : CarriesOnly P exponent after := by
  rcases step_producer moves with ⟨progress, move, rfl⟩
  have published := @CarriesOnly.publish _ _ _ _ holds
  have written := @CarriesOnly.write _ _ _ _ holds
  rcases holds with ⟨ring, producer, consumer, entries⟩
  generalize before.producer = point at move producer published
  cases move with
  | refuse => exact ⟨ring, trivial, consumer, entries⟩
  | enter => exact ⟨ring, producer, consumer, entries⟩
  | loadHead => exact ⟨ring, ⟨producer, rfl, rfl⟩, consumer, entries⟩
  | findRoom => exact ⟨ring, producer, consumer, entries⟩
  | drop => exact ⟨ring, trivial, consumer, entries⟩
  | wait => exact ⟨ring, producer, consumer, entries⟩
  | passCritical => exact ⟨ring, producer, consumer, entries⟩
  | spin => exact ⟨ring, producer, consumer, entries⟩
  | leave => exact ⟨ring, producer, consumer, entries⟩
  | giveUp => exact ⟨ring, trivial, consumer, entries⟩
  | proceed => exact ⟨ring, producer, consumer, entries⟩
  | write =>
      rcases producer with ⟨pushed, rfl, isNext⟩
      refine ⟨⟨ring.power, ring.headBound, ring.tailBound, ?_⟩, ?_, consumer, written pushed⟩
      · rcases ring.array with ⟨slots, array⟩
        simp [LogQueue.writeSlot, array]
      · exact ⟨pushed, rfl, isNext, before.queue.slot_writeSlot_self _ _ ring.allocated⟩
  | publish =>
      have stocked := published rfl
      rcases producer with ⟨_, rfl, rfl, _⟩
      exact ⟨⟨ring.power, ring.nextIndex_lt _, ring.tailBound, ring.allocated⟩, trivial,
        consumer, stocked⟩
  | notify => exact ⟨ring, trivial, consumer, entries⟩
  | count => exact ⟨ring, trivial, consumer, entries⟩
  | trip => exact ⟨ring, trivial, consumer, entries⟩
  | calm => exact ⟨ring, trivial, consumer, entries⟩
  | setFlag =>
      exact ⟨⟨ring.power, ring.headBound, ring.tailBound, ring.allocated⟩, trivial,
        consumer, entries⟩

theorem CarriesOnly.consumer_step (holds : CarriesOnly P exponent before)
    (moves : before.step .consumer = some after) : CarriesOnly P exponent after := by
  rcases step_consumer moves with ⟨progress, move, rfl⟩
  have obtained := @CarriesOnly.read _ _ _ _ holds
  have released := @CarriesOnly.release _ _ _ _ holds
  rcases holds with ⟨ring, producer, consumer, entries⟩
  generalize before.consumer = point at move consumer entries obtained released
  have calm : forall target : PopPoint Entry, target.Behind before.queue ->
      before.queue.AllSlots P exponent ∨
        (before.queue.AllContents P ∧ target.Behind before.queue) :=
    fun target behind => entries.imp_right (fun known => ⟨known.1, behind⟩)
  cases move with
  | refuse => exact ⟨ring, producer, trivial, calm _ trivial⟩
  | enter => exact ⟨ring, producer, trivial, calm _ trivial⟩
  | loadTail => exact ⟨ring, producer, rfl, calm _ trivial⟩
  | findEmpty => exact ⟨ring, producer, trivial, calm _ trivial⟩
  | findEntry nonempty =>
      rcases consumer with rfl
      exact ⟨ring, producer, rfl, calm (.rechecking _) nonempty⟩
  | giveUp => exact ⟨ring, producer, trivial, calm _ trivial⟩
  | proceed => exact ⟨ring, producer, consumer, entries⟩
  | read array => exact ⟨ring, producer, ⟨consumer, obtained rfl array⟩, entries⟩
  | release =>
      have remaining := released rfl
      rcases consumer with ⟨rfl, admissible⟩
      refine ⟨⟨ring.power, ring.headBound, ring.nextIndex_lt _, ring.allocated⟩, ?_, admissible,
        remaining.imp_right (fun contents => ⟨contents, trivial⟩)⟩
      generalize before.producer = writer at producer
      cases writer <;> exact producer
  | count => exact ⟨ring, producer, consumer, calm _ trivial⟩
  | settle => exact ⟨ring, producer, consumer, calm _ trivial⟩
  | finish => exact ⟨ring, producer, consumer, calm _ trivial⟩
  | clearFlag =>
      exact ⟨⟨ring.power, ring.headBound, ring.tailBound, ring.allocated⟩, producer,
        consumer, entries⟩

/-- Every step keeps to the admissible entries when every push does. -/
theorem CarriesOnly.step (holds : CarriesOnly P exponent before) {action : QueueAction Entry}
    (admitted : Admits P action)
    (moves : before.step action = some after) : CarriesOnly P exponent after := by
  cases action with
  | push logLine =>
      rcases step_push moves with ⟨_, rfl⟩
      exact ⟨holds.ring, admitted, holds.consumer, holds.entries⟩
  | producer => exact holds.producer_step moves
  | pop =>
      rcases step_pop moves with ⟨_, rfl⟩
      exact ⟨holds.ring, holds.producer, trivial,
        holds.entries.imp_right (fun known => ⟨known.1, trivial⟩)⟩
  | consumer => exact holds.consumer_step moves
  | setFinished =>
      rw [step_setFinished moves]
      rcases holds with ⟨ring, producer, consumer, entries⟩
      exact ⟨⟨ring.power, ring.headBound, ring.tailBound, ring.allocated⟩, producer,
        consumer, entries⟩

end QueueSystem

end Core
end VortexEngine
