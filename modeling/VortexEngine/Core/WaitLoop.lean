import VortexEngine.Core.QueueEntries
import VortexEngine.Core.WaitingPolicies

open VortexEngine.Foundations

namespace VortexEngine
namespace Core

/-!
# Who spins

`push` enters its wait loop on a full queue, and the loop goes on as long as
the tail equals `current_head`.  On a queue of at least two slots that is never
the case while the queue is full: it is the case exactly when the queue is
empty.  A consumer that empties the queue between the full test and the test of
the loop therefore locks the producer in.  The consumer then finds nothing to
pop, nobody moves the tail again, and the loop never ends.

In the runs in which no pop empties the queue under a waiting producer, no
producer is locked in.
-/

variable {Entry : Type} {exponent : Nat}

/-- The producer is in its wait loop. -/
def PushPoint.isWaiting : PushPoint Entry -> Bool
  | waiting _ _ _ => true
  | _ => false

/-- The tail that the consumer's next step stores. -/
def PopPoint.storedTail (queue : LogQueue Entry) : PopPoint Entry -> Option SizeT
  | releasing currentTail _ => some (queue.nextIndex currentTail)
  | _ => none

/-- The consumer has not seen an entry that it could still take. -/
def PopPoint.SeesEmpty (queue : LogQueue Entry) : PopPoint Entry -> Prop
  | loadingHead currentTail => currentTail = queue.head
  | rechecking _ | reading _ | releasing _ _ => False
  | _ => True

namespace QueueSystem

/-- Whenever the loop condition is true, the queue is full, and the consumer
finds an entry in it. -/
def SpinsOnlyWhenFull (system : QueueSystem Entry) : Prop :=
  forall logLine currentHead nextHead, system.producer = .waiting logLine currentHead nextHead ->
    currentHead = system.queue.tail ->
      system.queue.nextIndex currentHead = system.queue.tail ∧ system.queue.tail ≠ system.queue.head

/-- A pop does not empty the queue while the producer is in its wait loop. -/
def KeepsBacklog (system : QueueSystem Entry) : QueueAction Entry -> Prop
  | .consumer => system.producer.isWaiting = true ->
      system.consumer.storedTail system.queue ≠ some system.queue.head
  | _ => True

instance (system : QueueSystem Entry) : (action : QueueAction Entry) ->
    Decidable (KeepsBacklog system action)
  | .consumer => inferInstanceAs (Decidable (_ -> _ ≠ _))
  | .push _ | .producer | .pop | .setFinished => inferInstanceAs (Decidable True)

/-- The producer is locked in: its loop condition is true, the queue is empty,
and no pop has an entry left. -/
structure LockedIn (system : QueueSystem Entry) : Prop where
  spins : Exists fun logLine => Exists fun nextHead =>
    system.producer = .waiting logLine system.queue.head nextHead
  empty : system.queue.tail = system.queue.head
  starves : system.consumer.SeesEmpty system.queue

/-- The ring of a queue with at least two slots, and what a waiting producer
relies on. -/
structure Backlogged (exponent : Nat) (system : QueueSystem Entry) : Prop where
  carries : system.CarriesOnly (fun _ => True) (exponent + 1)
  backlog : system.producer.isWaiting = true -> system.queue.tail ≠ system.queue.head

end QueueSystem

theorem LogQueue.IsRing.nextIndex_ne {queue : LogQueue Entry} (ring : queue.IsRing (exponent + 1))
    {index : SizeT} (bound : index.toNat < 2 ^ (exponent + 1)) : queue.nextIndex index ≠ index := by
  intro same
  have position := congrArg BitVec.toNat same
  have two : 2 ≤ 2 ^ (exponent + 1) := by
    rw [Nat.pow_succ]
    have positive := Nat.two_pow_pos exponent
    omega
  rw [ring.nextIndex_toNat, advance_eq bound] at position
  split at position <;> omega

namespace QueueSystem

variable [Leveled Entry] {before after : QueueSystem Entry}

theorem Backlogged.producer_step (holds : Backlogged exponent before)
    (moves : before.step .producer = some after) : Backlogged exponent after := by
  refine ⟨holds.carries.producer_step moves, ?_⟩
  have producer := holds.carries.producer
  have backlog := holds.backlog
  rcases step_producer moves with ⟨progress, move, rfl⟩
  intro waits
  change progress.queue.tail ≠ progress.queue.head
  change progress.point.isWaiting = true at waits
  generalize before.producer = point at move producer backlog
  cases move with
  | wait full _ =>
      -- the full test has just found the slot after the head equal to the tail
      rcases producer with ⟨_, rfl, rfl⟩
      rw [← full]
      exact holds.carries.ring.nextIndex_ne holds.carries.ring.headBound
  | spin _ => exact backlog rfl
  | _ => cases waits

theorem Backlogged.consumer_step (holds : Backlogged exponent before)
    (guarded : KeepsBacklog before .consumer)
    (moves : before.step .consumer = some after) : Backlogged exponent after := by
  refine ⟨holds.carries.consumer_step moves, ?_⟩
  have backlog := holds.backlog
  rcases step_consumer moves with ⟨progress, move, rfl⟩
  intro waits
  change progress.queue.tail ≠ progress.queue.head
  change before.producer.isWaiting = true at waits
  have kept := guarded waits
  generalize before.consumer = point at move kept
  cases move with
  | release =>
      intro same
      exact kept (congrArg some same)
  | _ => exact backlog waits

theorem Backlogged.step (holds : Backlogged exponent before) {action : QueueAction Entry}
    (guarded : KeepsBacklog before action) (moves : before.step action = some after) :
    Backlogged exponent after := by
  have admits : Admits (fun _ : Entry => True) action := by cases action <;> trivial
  cases action with
  | push logLine =>
      refine ⟨holds.carries.step admits moves, ?_⟩
      rcases step_push moves with ⟨_, rfl⟩
      exact nofun
  | producer => exact holds.producer_step moves
  | pop =>
      refine ⟨holds.carries.step admits moves, ?_⟩
      rcases step_pop moves with ⟨_, rfl⟩
      exact holds.backlog
  | consumer => exact holds.consumer_step guarded moves
  | setFinished =>
      refine ⟨holds.carries.step admits moves, ?_⟩
      rw [step_setFinished moves]
      exact holds.backlog

/-! ## A producer that is locked in -/

omit [Leveled Entry] in
/-- The loop condition is then true on an empty queue. -/
theorem LockedIn.not_spinsOnlyWhenFull {system : QueueSystem Entry} (locked : LockedIn system) :
    ¬ system.SpinsOnlyWhenFull := by
  intro full
  rcases locked.spins with ⟨logLine, nextHead, waits⟩
  exact (full _ _ _ waits locked.empty.symm).2 locked.empty

/-- A pop that empties the queue under a waiting producer locks it in. -/
theorem lockedIn_of_drains (carries : before.CarriesOnly (fun _ => True) exponent)
    (moves : before.step .consumer = some after)
    (drains : ¬ KeepsBacklog before .consumer) : LockedIn after := by
  have producer := carries.producer
  rcases step_consumer moves with ⟨progress, move, rfl⟩
  simp only [KeepsBacklog, Classical.not_imp, Decidable.not_not] at drains
  rcases drains with ⟨waits, stored⟩
  generalize before.consumer = point at move stored
  cases move with
  | release =>
      generalize before.producer = writer at producer waits
      cases writer with
      | waiting logLine currentHead nextHead =>
          rcases producer with ⟨_, rfl, rfl⟩
          exact ⟨⟨logLine, _, rfl⟩, Option.some.inj stored, trivial⟩
      | _ => cases waits
  | _ => cases stored

theorem LockedIn.step (holds : LockedIn before) {action : QueueAction Entry}
    (moves : before.step action = some after) : LockedIn after := by
  rcases holds with ⟨⟨logLine, nextHead, waits⟩, empty, starves⟩
  cases action with
  | push other => cases (step_push moves).1.symm.trans waits
  | producer =>
      rcases step_producer moves with ⟨progress, move, rfl⟩
      rw [waits] at move
      cases move with
      | spin _ => exact ⟨⟨logLine, nextHead, rfl⟩, empty, starves⟩
      | leave different => exact absurd empty.symm different
  | pop =>
      rcases step_pop moves with ⟨_, rfl⟩
      exact ⟨⟨logLine, nextHead, waits⟩, empty, trivial⟩
  | consumer =>
      rcases step_consumer moves with ⟨progress, move, rfl⟩
      generalize before.consumer = point at move starves
      cases move with
      | loadTail => exact ⟨⟨logLine, nextHead, waits⟩, empty, empty⟩
      | findEntry nonempty => exact absurd starves nonempty
      | proceed => exact False.elim starves
      | read => exact False.elim starves
      | release => exact False.elim starves
      | _ => exact ⟨⟨logLine, nextHead, waits⟩, empty, trivial⟩
  | setFinished =>
      rw [step_setFinished moves]
      refine ⟨⟨logLine, nextHead, waits⟩, empty, ?_⟩
      generalize before.consumer = point at starves
      cases point <;> exact starves

theorem LockedIn.forever {capacity : Nat} {profile : OverflowProfile}
    {guard : QueueSystem Entry -> QueueAction Entry -> Prop} (holds : LockedIn before)
    (run : (queueMachine Entry capacity profile).RunsUnder guard before after) : LockedIn after :=
  run.preserves (fun _ _ _ locked _ moves => LockedIn.step locked moves) holds

end QueueSystem

section Runs

variable [Leveled Entry] {profile : OverflowProfile} {system : QueueSystem Entry}

theorem backlogged_of_reachable
    (reached : (queueMachine Entry (2 ^ (exponent + 1)) profile).ReachableUnder
      QueueSystem.KeepsBacklog system) :
    system.Backlogged exponent := by
  refine reached.invariant ?_ (fun _ _ _ _ holds guarded moves => holds.step guarded moves)
  rintro _ ⟨queue, telemetry, fresh, rfl⟩
  exact ⟨QueueSystem.carriesOnly_start fresh, nofun⟩

omit [Leveled Entry] in
/-- On a queue with a backlog no producer spins at all. -/
theorem QueueSystem.Backlogged.spinsOnlyWhenFull (holds : system.Backlogged exponent) :
    system.SpinsOnlyWhenFull := by
  intro logLine currentHead nextHead waits spins
  have producer := holds.carries.producer
  rw [waits] at producer
  have nonempty := holds.backlog (by rw [waits]; rfl)
  exact absurd (spins.symm.trans producer.2.1) nonempty

/-- As long as no pop has emptied the queue under a waiting producer, the
producer spins only on a full queue, and the first such pop ends that. -/
theorem producer_spins_only_when_full
    (reached : (queueMachine Entry (2 ^ (exponent + 1)) profile).ReachableUnder
      QueueSystem.KeepsBacklog system) :
    system.SpinsOnlyWhenFull ∧ forall action after, system.step action = some after ->
      (after.SpinsOnlyWhenFull ↔ QueueSystem.KeepsBacklog system action) := by
  have holds := backlogged_of_reachable reached
  refine ⟨holds.spinsOnlyWhenFull, fun action after moves => ⟨fun full => ?_, fun guarded => ?_⟩⟩
  · by_contra drains
    cases action with
    | consumer =>
        exact (QueueSystem.lockedIn_of_drains holds.carries moves drains).not_spinsOnlyWhenFull full
    | _ => exact drains trivial
  · exact (holds.step guarded moves).spinsOnlyWhenFull

end Runs

/-! ## Two slots -/

/-- The second call waits on the full queue. -/
theorem producer_spins_only_when_full_twoSlots :
    let system :=
      ((queueMachine LogEntry (2 ^ (0 + 1)) .block).executeUnder QueueSystem.KeepsBacklog
      (twoSlotsStart .block) (fillSchedule (criticalEntry 1) (criticalEntry 2))).get (by decide)
    system.SpinsOnlyWhenFull ∧ forall action after, system.step action = some after ->
      (after.SpinsOnlyWhenFull ↔ QueueSystem.KeepsBacklog system action) :=
  producer_spins_only_when_full
    (Machine.reachableUnder_of_execute (twoSlotsStart_initial .block) (by decide))

/-- The second call waits on the full queue, and the only entry is popped. -/
def drainSchedule : List (QueueAction LogEntry) :=
  fillSchedule (criticalEntry 1) (criticalEntry 2) ++ .pop :: List.replicate 6 .consumer

/-- On two slots a producer comes to spin on an empty queue that is running, and
no continuation frees it. -/
def LocksProducerIn (profile : OverflowProfile) : Prop :=
  Exists fun system => (queueMachine LogEntry (2 ^ 1) profile).Reachable system ∧
    system.queue.isRunning = true ∧ ¬ system.SpinsOnlyWhenFull ∧
      forall after, (queueMachine LogEntry (2 ^ 1) profile).Runs system after -> after.LockedIn

/-- Both waiting profiles lock the producer in. -/
theorem drained_producer_spins : LocksProducerIn .block ∧ LocksProducerIn .dropNonCritical := by
  have block : (((queueMachine LogEntry (2 ^ 1) .block).executeUnder Machine.anyAction
      (twoSlotsStart .block) drainSchedule).get (by decide)).LockedIn :=
    ⟨⟨_, _, rfl⟩, by decide, trivial⟩
  have dropNonCritical :
    (((queueMachine LogEntry (2 ^ 1) .dropNonCritical).executeUnder Machine.anyAction
      (twoSlotsStart .dropNonCritical) drainSchedule).get (by decide)).LockedIn :=
    ⟨⟨_, _, rfl⟩, by decide, trivial⟩
  constructor
  · exact ⟨_, Machine.reachableUnder_of_execute (twoSlotsStart_initial .block) (by decide),
      by decide, block.not_spinsOnlyWhenFull, fun _ => block.forever⟩
  · exact ⟨_, Machine.reachableUnder_of_execute (twoSlotsStart_initial .dropNonCritical)
      (by decide), by decide, dropNonCritical.not_spinsOnlyWhenFull,
      fun _ => dropNonCritical.forever⟩

end Core
end VortexEngine
