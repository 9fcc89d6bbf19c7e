import VortexEngine.ThreadManager.IdleConsumer
import VortexEngine.ThreadManager.Shutdown

open VortexEngine.Foundations VortexEngine.Core

namespace VortexEngine
namespace ThreadManager

/-!
# No wakeup is lost while the queue runs

The head that the thread waits on is loaded before the retry pop, and the head
counts modulo the capacity.  Between the two loads the producer may publish, but
it may not lap: the tail stands still, and one slot always stays free.  The
distance from the tail to the loaded head is therefore never more than the
distance to the present head.  When the retry pop finds the queue empty both are
zero, so the loaded head is the tail, and it stays the tail as long as the
thread sleeps.

A publication behind that point stores a head different from the tail, and its
notification comes after it.
-/

variable {Entry : Type} {exponent : Nat}

/-- The distance from the tail to a position of the ring. -/
def ahead (queue : LogQueue Entry) (position : SizeT) : Nat :=
  distance queue.capacity position.toNat queue.tail.toNat

/-- What the retry pop knows about the loaded head. -/
def retryKnows (queue : LogQueue Entry) (currentHead : SizeT) : PopPoint Entry -> Prop
  | .returned none => currentHead = queue.tail
  | .returned (some _) | .counting _ _ | .measuring _ _ | .untripping _ => True
  | _ => currentHead.toNat < queue.capacity ∧ ahead queue currentHead ≤ ahead queue queue.head

/-- What the thread knows about the head that it has loaded. -/
def Watches (system : QueueSystem Entry) : ConsumerPoint -> Prop
  | .retrying currentHead => retryKnows system.queue currentHead system.consumer
  | .waiting currentHead => currentHead = system.queue.tail
  | .blocked currentHead => currentHead = system.queue.tail ∧
      (system.queue.head = currentHead ∨ system.producer = .notifying system.queue.head)
  | _ => True

/-- `is_running` stays true. -/
def KeepsRunning (_thread : ConsumerThread Entry) (action : ThreadAction Entry) : Prop :=
  action ≠ .setFinished

/-- A sleeping thread sleeps on an empty queue, or its notification is still to
come. -/
def NoLostWakeup (thread : ConsumerThread Entry) : Prop :=
  forall currentHead, thread.point = .blocked currentHead ->
    (thread.system.queue.head = currentHead ∧ thread.system.queue.tail = currentHead ∧
        thread.system.queue.contents = []) ∨
      (thread.system.queue.head ≠ currentHead ∧
        thread.system.producer = .notifying thread.system.queue.head)

variable [Leveled Entry]

/-- The running flag and the knowledge of the thread. -/
structure WatchInvariant (thread : ConsumerThread Entry) : Prop where
  running : thread.system.queue.isRunning = true
  watches : Watches thread.system thread.point

variable {before after : ConsumerThread Entry}

/-! ## Steps of the producing thread -/

omit [Leveled Entry] in
/-- The retry pop keeps its knowledge when the head moves away from the tail. -/
theorem retryKnows_of_ahead {queue queue' : LogQueue Entry} {currentHead : SizeT}
    {point : PopPoint Entry}
    (knows : retryKnows queue currentHead point) (tail : queue'.tail = queue.tail)
    (mask : queue'.capacityMask = queue.capacityMask)
    (farther : ahead queue queue.head ≤ ahead queue' queue'.head) :
      retryKnows queue' currentHead point := by
  have capacity : queue'.capacity = queue.capacity := by simp [LogQueue.capacity, mask]
  have same : ahead queue' currentHead = ahead queue currentHead := by simp [ahead, capacity, tail]
  have lag :
    (currentHead.toNat < queue.capacity ∧ ahead queue currentHead ≤ ahead queue queue.head) ->
      currentHead.toNat < queue'.capacity ∧
        ahead queue' currentHead ≤ ahead queue' queue'.head := by
    rintro ⟨bound, behind⟩
    rw [capacity, same]
    exact ⟨bound, Nat.le_trans behind farther⟩
  cases point with
  | returned outLog =>
      cases outLog with
      | none => exact knows.trans tail.symm
      | some outLog => trivial
  | counting | measuring | untripping => trivial
  | _ => exact lag knows

omit [Leveled Entry] in
/-- The store of `head` moves it one slot further from the tail. -/
theorem ahead_publish {system : QueueSystem Entry} (holds : system.RingInvariant exponent)
    {logLine : Entry} {currentHead nextHead : SizeT}
    (publishes : system.producer = .publishing logLine currentHead nextHead) :
    ahead { system.queue with head := nextHead } nextHead =
      ahead system.queue system.queue.head + 1 := by
  have producer := holds.producer
  rw [publishes] at producer
  rcases producer with ⟨rfl, rfl, room, _⟩
  have ring := holds.ring
  have apart : (system.queue.head.toNat + 1) % 2 ^ exponent ≠ system.queue.tail.toNat := by
    rw [← ring.nextIndex_toNat, Ne, BitVec.toNat_inj]
    exact room
  have capacity : system.queue.capacity = 2 ^ exponent := ring.power
  change distance system.queue.capacity _ _ = distance system.queue.capacity _ _ + 1
  rw [capacity, ring.nextIndex_toNat, distance_advance_head ring.headBound ring.tailBound apart]

omit [Leveled Entry] in
/-- A step that moves neither index, and that is no notification, keeps what the
thread knows. -/
theorem watches_of_frame {system system' : QueueSystem Entry} {point : ConsumerPoint}
    (watches : Watches system point) (silent : notifies system.producer = false)
    (head : system'.queue.head = system.queue.head) (tail : system'.queue.tail = system.queue.tail)
    (mask : system'.queue.capacityMask = system.queue.capacityMask)
    (consumer : system'.consumer = system.consumer) :
    Watches system' point := by
  cases point with
  | retrying currentHead =>
      change retryKnows system'.queue currentHead system'.consumer
      rw [consumer]
      apply retryKnows_of_ahead watches tail mask
      simp [ahead, LogQueue.capacity, head, tail, mask]
  | waiting currentHead => exact watches.trans tail.symm
  | blocked currentHead =>
      rcases watches with ⟨loaded, same | notifying⟩
      · exact ⟨loaded.trans tail.symm, Or.inl (head.trans same)⟩
      · rw [notifying] at silent
        cases silent
  | _ => trivial

theorem WatchInvariant.producer_step (holds : WatchInvariant before)
    (ring : before.system.RingInvariant exponent) (moves : before.step .producer = some after) :
    WatchInvariant after := by
  rcases Option.map_eq_some_iff.mp moves with ⟨system, steps, rfl⟩
  have farther := @ahead_publish _ exponent before.system ring
  have framed := fun system' => @watches_of_frame _ before.system system' _ holds.watches
  have watches := holds.watches
  rcases QueueSystem.step_producer steps with ⟨progress, move, rfl⟩
  refine ⟨move.frame.isRunning.trans holds.running, ?_⟩
  change Watches _ (if notifies before.system.producer then before.point.wake else before.point)
  generalize before.system.producer = writer at move farther framed
  cases move with
  | publish =>
      have moved := farther rfl
      generalize before.point = point at watches
      cases point with
      | retrying loaded =>
          exact retryKnows_of_ahead watches rfl rfl (Nat.le_of_lt (moved ▸ Nat.lt_succ_self _))
      | blocked loaded => exact ⟨watches.1, Or.inr rfl⟩
      | _ => exact watches
  | notify =>
      -- a thread that sleeps is sent back to its comparison
      generalize before.point = point at watches
      cases point with
      | blocked loaded => exact watches.1
      | _ => exact watches
  | _ => exact framed _ rfl rfl rfl rfl rfl

/-! ## Steps of the consumer thread -/

/-- The retry pop finds nothing only when the loaded head is the tail. -/
theorem retryKnows_consumer_step {system system' : QueueSystem Entry} {currentHead : SizeT}
    (knows : retryKnows system.queue currentHead system.consumer)
    (running : system.queue.isRunning = true)
    (ring : system.RingInvariant exponent) (moves : system.step .consumer = some system') :
    retryKnows system'.queue currentHead system'.consumer := by
  have consumer := ring.consumer
  rcases QueueSystem.step_consumer moves with ⟨progress, move, rfl⟩
  generalize system.consumer = point at move knows consumer
  cases move with
  | refuse stopped => cases running.symm.trans stopped
  | giveUp stopped => cases running.symm.trans stopped
  | findEmpty empty =>
      rcases knows with ⟨bound, behind⟩
      rcases consumer with rfl
      have capacity : system.queue.capacity = 2 ^ exponent := ring.ring.power
      have none : ahead system.queue system.queue.head = 0 := by
        rw [ahead, capacity, distance_eq_zero_iff ring.ring.headBound ring.ring.tailBound, empty]
      rw [none, Nat.le_zero, ahead, capacity,
        distance_eq_zero_iff (capacity ▸ bound) ring.ring.tailBound] at behind
      exact BitVec.eq_of_toNat_eq behind
  | release | count | settle | finish | clearFlag => trivial
  | _ => exact knows

theorem WatchInvariant.consumer_step (holds : WatchInvariant before)
    (ring : before.system.RingInvariant exponent)
    (move : ConsumerThread.ConsumerMove before after) :
    WatchInvariant after := by
  refine ⟨move.isRunning.trans holds.running, ?_⟩
  have watches := holds.watches
  cases move with
  | advance calls steps =>
      change Watches _ before.point
      rw [ConsumerThread.Calls] at calls
      generalize before.point = point at watches calls
      cases point with
      | retrying currentHead => exact retryKnows_consumer_step watches holds.running ring steps
      | popping | draining => trivial
      | _ => exact False.elim calls
  | load loads called =>
      rcases QueueSystem.step_pop called with ⟨_, rfl⟩
      have capacity : before.system.queue.capacity = 2 ^ exponent := ring.ring.power
      exact ⟨capacity ▸ ring.ring.headBound, Nat.le_refl _⟩
  | sleep retries returns =>
      rw [retries, Watches, returns] at watches
      exact watches
  | block waits same =>
      rw [waits] at watches
      exact ⟨watches, Or.inl same⟩
  | _ => trivial

theorem WatchInvariant.step (holds : WatchInvariant before)
    (ring : before.system.RingInvariant exponent)
    {action : ThreadAction Entry} (admitted : KeepsRunning before action)
    (moves : before.step action = some after) :
    WatchInvariant after := by
  cases action with
  | push logLine =>
      rcases Option.map_eq_some_iff.mp moves with ⟨system, steps, rfl⟩
      rcases QueueSystem.step_push steps with ⟨idle, rfl⟩
      refine ⟨holds.running, watches_of_frame holds.watches ?_ rfl rfl rfl rfl⟩
      rw [idle]
      rfl
  | producer => exact holds.producer_step ring moves
  | consumer => exact holds.consumer_step ring (ConsumerThread.consume_move moves)
  | setFinished => exact absurd rfl admitted

/-! ## Runs -/

section Runs

variable {thread : ConsumerThread Entry}

theorem ringInvariant_of_thread {guard : ConsumerThread Entry -> ThreadAction Entry -> Prop}
    (reached : (threadMachine Entry (2 ^ exponent) .dropAll).ReachableUnder guard thread) :
    thread.system.RingInvariant exponent :=
  ringInvariant_of_reachable (by decide) (leavesWaitWithRoom_of_dropAll (system_reachable reached))

theorem watchInvariant_of_reachable
    (reached : (threadMachine Entry (2 ^ exponent) .dropAll).ReachableUnder KeepsRunning thread) :
    WatchInvariant thread := by
  refine reached.invariant ?_ ?_
  · rintro _ ⟨queue, telemetry, fresh, rfl⟩
    exact ⟨fresh.running, trivial⟩
  · intro before action after reachedBefore holds admitted moves
    exact holds.step (ringInvariant_of_thread reachedBefore) admitted moves

theorem noLostWakeup_of_reachable
    (reached : (threadMachine Entry (2 ^ exponent) .dropAll).ReachableUnder KeepsRunning thread) :
    NoLostWakeup thread := by
  intro currentHead sleeps
  have watches := (watchInvariant_of_reachable reached).watches
  have ring := (ringInvariant_of_thread reached).ring
  rw [sleeps] at watches
  rcases watches with ⟨loaded, known⟩
  by_cases same : thread.system.queue.head = currentHead
  · exact Or.inl ⟨same, loaded.symm, ring.empty_iff.mp (loaded.symm.trans same.symm)⟩
  · exact Or.inr ⟨same, known.resolve_left same⟩

/-- While the queue runs, the thread sleeps only on an empty queue, or between
the store of another head and its notification. -/
theorem running_thread_is_woken
    (reached : (threadMachine Entry (2 ^ exponent) .dropAll).ReachableUnder KeepsRunning thread) :
    NoLostWakeup thread :=
  noLostWakeup_of_reachable reached

end Runs

/-! ## A sleeping thread -/

instance (thread : ConsumerThread Entry) : (action : ThreadAction Entry) ->
    Decidable (KeepsRunning thread action)
  | .setFinished => isFalse (fun admitted => admitted rfl)
  | .push _ | .producer | .consumer => isTrue nofun

theorem twoSlotsThread_idle : ConsumerThread.Idle twoSlotsThread := ⟨rfl, rfl⟩

/-- The thread of the smallest queue, asleep. -/
def sleepingThread : ConsumerThread LogEntry :=
  twoSlotsThread.standing (.blocked 0) 500 (.returned none)

theorem sleepingThread_reached :
    (threadMachine LogEntry (2 ^ 1) .dropAll).ReachableUnder onlyConsumer sleepingThread :=
  ⟨twoSlotsThread, twoSlotsThread_initial,
    (ConsumerThread.start_pops _ _).trans twoSlotsThread_idle.blocks⟩

theorem keepsRunning_of_onlyConsumer {thread : ConsumerThread LogEntry}
    {action : ThreadAction LogEntry}
    (only : onlyConsumer thread action) : KeepsRunning thread action := by
  cases only
  exact nofun

/-- A call of `push` stores another head, and its notification is still to come. -/
theorem running_thread_is_woken_twoSlots :
    NoLostWakeup
      (((threadMachine LogEntry (2 ^ 1) .dropAll).executeUnder KeepsRunning sleepingThread
      (.push default :: List.replicate 6 .producer)).get (by decide)) :=
  @running_thread_is_woken _ 1 _ _
    ((sleepingThread_reached.reguard (fun _ _ _ => keepsRunning_of_onlyConsumer)).continue
      (Machine.runsUnder_of_execute (Option.some_get _).symm))

end ThreadManager
end VortexEngine
