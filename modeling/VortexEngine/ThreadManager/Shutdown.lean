import VortexEngine.ThreadManager.ConsumerThread

open VortexEngine.Foundations VortexEngine.Core

namespace VortexEngine
namespace ThreadManager

/-!
# What a shutdown leaves behind

`set_finished` clears the run flag, and `pop` refuses as soon as it sees the
flag cleared, whether entries are left or not.  The trailing loop of the
consumer thread therefore pops nothing.  Only a pop that had passed its second
look at the flag when `set_finished` came still delivers its entry.

So the queue is drained exactly when it held, at the step of `set_finished`,
no more than that one entry.
-/

variable {Entry : Type}

/-- A pop that has passed its second look at the flag and not yet stored
`tail`. -/
def committed : PopPoint Entry -> Nat
  | .reading _ => 1
  | .releasing _ _ => 1
  | _ => 0

/-- The queue holds nothing but the entry of a committed pop. -/
def Drained (system : QueueSystem Entry) : Prop :=
  system.queue.contents.length = committed system.consumer

variable [Leveled Entry]

/-- `set_finished` is called once, after the producers have stopped, and no
producer calls `push` afterwards. -/
def StopsProducersFirst (thread : ConsumerThread Entry) : ThreadAction Entry -> Prop
  | .push _ => thread.system.queue.isRunning = true
  | .setFinished => thread.system.producer = .idle ∧ thread.system.queue.isRunning = true
  | _ => True

/-! ## After `set_finished` -/

/-- What has happened since `set_finished` stopped the given system: nothing was
published, and no pop but a committed one has delivered. -/
structure Stopped (before system : QueueSystem Entry) : Prop where
  stopped : system.queue.isRunning = false
  quiet : system.producer = .idle
  published : system.history.published = before.history.published
  counted : system.history.popped.length + committed system.consumer =
    before.history.popped.length + committed before.consumer

section Steps

variable {before system after : QueueSystem Entry}

theorem Stopped.pop_step (holds : Stopped before system) (moves : system.step .pop = some after) :
    Stopped before after := by
  rcases QueueSystem.step_pop moves with ⟨⟨result, returned⟩, rfl⟩
  have counted := holds.counted
  rw [returned] at counted
  exact ⟨holds.stopped, holds.quiet, holds.published, counted⟩

/-- A pop on a stopped queue does not become committed. -/
theorem Stopped.consumer_step (holds : Stopped before system)
    (moves : system.step .consumer = some after) :
    Stopped before after := by
  rcases QueueSystem.step_consumer moves with ⟨progress, move, rfl⟩
  rcases holds with ⟨stopped, quiet, published, counted⟩
  generalize system.consumer = point at move counted
  cases move with
  | enter running => rw [stopped] at running; cases running
  | proceed running => rw [stopped] at running; cases running
  | @release currentTail outLog =>
      refine ⟨stopped, quiet, published, ?_⟩
      change (system.history.popped ++ [outLog]).length + 0 = _
      rw [List.length_append]
      exact counted
  | _ => exact ⟨stopped, quiet, published, counted⟩

end Steps

/-- The thread has left its loop. -/
def ConsumerPoint.Leaving : ConsumerPoint -> Prop
  | notifying | draining | finished => True
  | _ => False

/-- The thread leaves its loop only on a stopped queue, and ends behind a failed
pop. -/
structure ShutdownInvariant (capacity : Nat) (thread : ConsumerThread Entry) : Prop where
  running : thread.finishedAt = none -> thread.system.queue.isRunning = true
  stopped : forall before, thread.finishedAt = some before ->
    Stopped before thread.system ∧ (queueMachine Entry capacity .dropAll).Reachable before
  leaving : thread.point.Leaving -> thread.system.queue.isRunning = false
  ended : thread.point = .finished -> thread.system.consumer = .returned none

section Steps

variable {capacity : Nat} {before after : ConsumerThread Entry}

theorem ShutdownInvariant.consumer_step (holds : ShutdownInvariant capacity before)
    (move : ConsumerThread.ConsumerMove before after) : ShutdownInvariant capacity after := by
  have remembers := move.finishedAt
  have runs := move.isRunning
  constructor
  · rw [remembers, runs]
    exact holds.running
  · intro snapshot finished
    rw [remembers] at finished
    rcases holds.stopped snapshot finished with ⟨stopped, reached⟩
    rcases move.system with same | called | steps
    · exact ⟨same ▸ stopped, reached⟩
    · exact ⟨stopped.pop_step called, reached⟩
    · exact ⟨stopped.consumer_step steps, reached⟩
  · intro leaving
    rw [runs]
    cases move with
    | leave checks stopped => exact stopped
    | advance calls steps => exact holds.leaving leaving
    | drain notifying called => exact holds.leaving (by rw [notifying]; trivial)
    | drainAgain drains returns called => exact holds.leaving (by rw [drains]; trivial)
    | finish drains returns => exact holds.leaving (by rw [drains]; trivial)
    | _ => exact False.elim leaving
  · intro ended
    cases move with
    | finish drains returns => exact returns
    | advance calls steps =>
        have finished : before.point = .finished := ended
        rw [ConsumerThread.Calls, finished] at calls
        exact False.elim calls
    | _ => cases ended

omit [Leveled Entry] in
theorem wake_cases (notified : Bool) (point : ConsumerPoint) :
    (if notified then point.wake else point) = point ∨
      Exists fun currentHead =>
        (if notified then point.wake else point) = .waiting currentHead := by
  cases notified with
  | false => exact Or.inl rfl
  | true =>
      cases point with
      | blocked currentHead => exact Or.inr ⟨currentHead, rfl⟩
      | _ => exact Or.inl rfl

/-- The producing thread changes neither the flag nor what the consumer does. -/
theorem ShutdownInvariant.producer_step (holds : ShutdownInvariant capacity before)
    (moves : before.step .producer = some after) : ShutdownInvariant capacity after := by
  rcases Option.map_eq_some_iff.mp moves with ⟨system, steps, rfl⟩
  rcases QueueSystem.step_producer steps with ⟨progress, move, rfl⟩
  have runs : progress.queue.isRunning = before.system.queue.isRunning := move.frame.isRunning
  have woken := wake_cases (notifies before.system.producer) before.point
  constructor
  · intro unfinished
    exact runs.trans (holds.running unfinished)
  · intro snapshot finished
    have idle := (holds.stopped snapshot finished).1.quiet
    rw [idle] at move
    cases move
  · intro leaving
    rcases woken with same | ⟨currentHead, waits⟩
    · exact runs.trans (holds.leaving (same ▸ leaving))
    · rw [waits] at leaving
      exact False.elim leaving
  · intro ended
    rcases woken with same | ⟨currentHead, waits⟩
    · exact holds.ended (same.symm.trans ended)
    · cases waits.symm.trans ended

theorem ShutdownInvariant.step {action : ThreadAction Entry}
    (holds : ShutdownInvariant capacity before)
    (reached : (queueMachine Entry capacity .dropAll).Reachable before.system)
    (admitted : StopsProducersFirst before action) (moves : before.step action = some after) :
    ShutdownInvariant capacity after := by
  cases action with
  | push logLine =>
      rcases Option.map_eq_some_iff.mp moves with ⟨system, steps, rfl⟩
      rcases QueueSystem.step_push steps with ⟨_, rfl⟩
      have running : before.system.queue.isRunning = true := admitted
      refine ⟨holds.running, ?_, holds.leaving, holds.ended⟩
      intro snapshot finished
      cases running.symm.trans (holds.stopped snapshot finished).1.stopped
  | producer => exact holds.producer_step moves
  | consumer => exact holds.consumer_step (ConsumerThread.consume_move moves)
  | setFinished =>
      rcases admitted with ⟨idle, running⟩
      have unfinished : before.finishedAt = none := by
        cases finished : before.finishedAt with
        | none => rfl
        | some snapshot => cases running.symm.trans (holds.stopped snapshot finished).1.stopped
      cases moves
      rw [unfinished]
      refine ⟨nofun, ?_, fun _ => rfl, holds.ended⟩
      rintro _ ⟨rfl⟩
      exact ⟨⟨rfl, idle, rfl, rfl⟩, reached⟩

end Steps

section Runs

variable {capacity : Nat} {thread : ConsumerThread Entry}

theorem shutdownInvariant_of_reachable
    (reached : (threadMachine Entry capacity .dropAll).ReachableUnder StopsProducersFirst thread) :
    ShutdownInvariant capacity thread := by
  refine reached.invariant ?_ ?_
  · rintro _ ⟨queue, telemetry, fresh, rfl⟩
    have unfinished : (ConsumerThread.start queue telemetry).finishedAt = none := rfl
    have starting : (ConsumerThread.start queue telemetry).point = .starting := rfl
    constructor
    · exact fun _ => fresh.running
    · intro snapshot finished
      cases unfinished.symm.trans finished
    · intro leaving
      rw [starting] at leaving
      exact False.elim leaving
    · intro ended
      cases starting.symm.trans ended
  · intro before action after reachedBefore holds admitted moves
    exact holds.step (system_reachable reachedBefore) admitted moves

end Runs

/-- When the consumer thread has ended, it has returned every published entry and
left an empty queue exactly if the queue was drained at the step of
`set_finished`. -/
theorem shutdown_drains_iff {exponent : Nat} {thread : ConsumerThread Entry}
    (reached : (threadMachine Entry (2 ^ exponent) .dropAll).ReachableUnder
      StopsProducersFirst thread)
    (ended : thread.point = .finished) :
    Exists fun before => thread.finishedAt = some before ∧
      ((thread.system.history.popped = before.history.published ∧
          thread.system.queue.head = thread.system.queue.tail) ↔ Drained before) := by
  have holds := shutdownInvariant_of_reachable reached
  have source := system_reachable reached
  have stopped := holds.leaving (by rw [ended]; trivial)
  cases finished : thread.finishedAt with
  | none => cases (holds.running finished).symm.trans stopped
  | some before =>
      rcases holds.stopped before finished with ⟨since, reachedBefore⟩
      refine ⟨before, rfl, ?_⟩
      have returned := holds.ended ended
      have published := since.published
      have counted := since.counted
      rw [returned] at counted
      have now :=
        published_eq_popped_append_contents (by decide) (leavesWaitWithRoom_of_dropAll source)
      have earlier := published_eq_popped_append_contents (by decide)
        (leavesWaitWithRoom_of_dropAll reachedBefore)
      have ring :=
        (ringInvariant_of_reachable (by decide) (leavesWaitWithRoom_of_dropAll source)).ring
      have total := congrArg List.length now
      have totalBefore := congrArg List.length earlier
      rw [List.length_append] at total totalBefore
      rw [published] at now total
      change thread.system.history.popped.length + 0 = _ at counted
      constructor
      · rintro ⟨all, _⟩
        have delivered := congrArg List.length all
        rw [Drained]
        omega
      · intro drained
        rw [Drained] at drained
        have nothing : thread.system.queue.contents = [] := List.length_eq_zero_iff.mp (by omega)
        rw [nothing, List.append_nil] at now
        exact ⟨now.symm, (ring.empty_iff.mpr nothing).symm⟩

/-! ## A shutdown with a backlog -/

omit [Leveled Entry] in
instance [DecidableEq Entry] (thread : ConsumerThread Entry) (action : ThreadAction Entry) :
    Decidable (StopsProducersFirst thread action) :=
  match action with
  | .push _ => inferInstanceAs (Decidable (thread.system.queue.isRunning = true))
  | .setFinished =>
      inferInstanceAs
        (Decidable (thread.system.producer = .idle ∧ thread.system.queue.isRunning = true))
  | .producer => inferInstanceAs (Decidable True)
  | .consumer => inferInstanceAs (Decidable True)

/-- The consumer thread of the smallest queue, before its first step. -/
def twoSlotsThread : ConsumerThread LogEntry :=
  ConsumerThread.start (twoSlots .dropAll) {}

theorem twoSlotsThread_initial : (threadMachine LogEntry (2 ^ 1) .dropAll).initial twoSlotsThread :=
  ⟨twoSlots .dropAll, {}, twoSlots_fresh .dropAll, rfl⟩

/-- One entry is published and the queue is stopped before the thread starts;
then the thread runs to its end. -/
def backlogSchedule : List (ThreadAction LogEntry) :=
  .push default :: List.replicate 10 .producer ++ .setFinished :: List.replicate 7 .consumer

theorem shutdown_drains_iff_backlog :
    let thread := ((threadMachine LogEntry (2 ^ 1) .dropAll).executeUnder StopsProducersFirst
      twoSlotsThread backlogSchedule).get (by decide)
    Exists fun before => thread.finishedAt = some before ∧
      ((thread.system.history.popped = before.history.published ∧
          thread.system.queue.head = thread.system.queue.tail) ↔ Drained before) :=
  shutdown_drains_iff (Machine.reachableUnder_of_execute twoSlotsThread_initial (by decide))
    (by decide)

/-- The thread ends, and the entry published before `set_finished` is still in
the queue. -/
theorem shutdown_leaves_entry :
    Exists fun thread : ConsumerThread LogEntry =>
      (threadMachine LogEntry (2 ^ 1) .dropAll).ReachableUnder StopsProducersFirst thread ∧
        thread.point = .finished ∧ thread.system.history.published ≠ thread.system.history.popped ∧
          thread.system.queue.head ≠ thread.system.queue.tail :=
  ⟨((threadMachine LogEntry (2 ^ 1) .dropAll).executeUnder StopsProducersFirst
      twoSlotsThread backlogSchedule).get (by decide),
    Machine.reachableUnder_of_execute twoSlotsThread_initial (by decide), by decide,
      by decide, by decide⟩

end ThreadManager
end VortexEngine
