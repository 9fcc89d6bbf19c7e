import VortexEngine.Core.WaitFree
import VortexEngine.ThreadManager.Stranding
import VortexEngine.ThreadManager.Wakeup

open VortexEngine.Foundations VortexEngine.Core

namespace VortexEngine
namespace ThreadManager

/-!
# How long a published entry waits

On a running queue a published entry is popped after at most ten steps of the
consumer thread for each entry up to it.  The bound counts only the thread's
own steps and holds from every point of the thread, through failed polls, the
spin counter, the retry pop and the sleep on the head: while an entry is in the
queue no pop fails and the comparison of `head.wait` lets the thread through.

The thread is stuck only while it is blocked.  By the absence of lost wakeups an
entry can then be in the queue only if the producing thread is about to notify,
and that step sends the thread back to its comparison.
-/

variable {Entry : Type}

/-! ## Ranks -/

/-- At most so many steps of the consumer thread come before the next store of
`tail`, if pops do not fail. -/
def popBeforeRelease : PopPoint Entry -> Nat
  | .entered => 5
  | .loadingTail => 4
  | .loadingHead _ => 3
  | .rechecking _ => 2
  | .reading _ => 1
  | .releasing _ _ => 0
  | .counting _ _ => 9
  | .measuring _ _ => 8
  | .untripping _ => 7
  | .returned (some _) => 6
  -- a pop that has failed is behind the look at the flag and the retry pop
  | .returned none => 8

/-- The same, from a point of the thread function in its loop. -/
def ConsumerPoint.beforeRelease (consumer : PopPoint Entry) : ConsumerPoint -> Nat
  | .popping | .retrying _ => popBeforeRelease consumer
  | .checking => 7
  | .starting | .loadingHead | .waiting _ | .blocked _ => 6
  | .notifying | .draining | .finished => 0

@[simp] theorem ConsumerPoint.beforeRelease_wake (consumer : PopPoint Entry)
    (point : ConsumerPoint) :
    point.wake.beforeRelease consumer = point.beforeRelease consumer := by
  cases point <;> rfl

theorem ConsumerPoint.beforeRelease_le (consumer : PopPoint Entry) (point : ConsumerPoint) :
    point.beforeRelease consumer ≤ 9 := by
  have pop : popBeforeRelease consumer ≤ 9 := by
    cases consumer with
    | returned outLog => cases outLog <;> exact Nat.le_of_ble_eq_true rfl
    | _ => simp only [popBeforeRelease]; decide
  cases point with
  | popping => exact pop
  | retrying => exact pop
  | _ => simp only [ConsumerPoint.beforeRelease]; decide

/-! ## The loop is not left -/

section Steps

variable [Leveled Entry] {exponent : Nat} {before after : ConsumerThread Entry}

theorem loops_step (loops : ¬ before.point.Leaving) (running : before.system.queue.isRunning = true)
    {action : ThreadAction Entry}
    (moves : before.step action = some after) : ¬ after.point.Leaving := by
  cases action with
  | push logLine =>
      rcases Option.map_eq_some_iff.mp moves with ⟨system, _, rfl⟩
      exact loops
  | producer =>
      rcases Option.map_eq_some_iff.mp moves with ⟨system, _, rfl⟩
      rcases wake_cases (notifies before.system.producer) before.point with
        same | ⟨currentHead, waits⟩
      · rw [same]
        exact loops
      · rw [waits]
        exact not_false
  | consumer =>
      cases ConsumerThread.consume_move moves with
      | advance => exact loops
      | leave _ stopped => cases running.symm.trans stopped
      | drain notifying _ => exact absurd (by rw [notifying]; trivial) loops
      | drainAgain drains _ _ => exact absurd (by rw [drains]; trivial) loops
      | finish drains _ => exact absurd (by rw [drains]; trivial) loops
      | _ => exact not_false
  | setFinished =>
      cases moves
      exact loops

theorem loops_of_reachable {thread : ConsumerThread Entry}
    (reached : (threadMachine Entry (2 ^ exponent) .dropAll).ReachableUnder KeepsRunning thread) :
    ¬ thread.point.Leaving := by
  refine reached.invariant (I := fun thread => ¬ thread.point.Leaving) ?_ ?_
  · rintro _ ⟨queue, telemetry, _, rfl⟩
    exact not_false
  · intro before action after reachedBefore loops _ moves
    exact loops_step loops (watchInvariant_of_reachable reachedBefore).running moves

/-! ## Steps on a queue with an entry -/

/-- What the thread knows while there is an entry for it. -/
structure Serves (exponent : Nat) (thread : ConsumerThread Entry) : Prop where
  ring : thread.system.RingInvariant exponent
  watch : WatchInvariant thread
  loops : ¬ thread.point.Leaving
  waiting : thread.system.queue.tail ≠ thread.system.queue.head

omit [Leveled Entry] in
/-- A step of the pop on a running queue with an entry brings the store of
`tail` closer.  The store itself pays for the steps up to the next one. -/
theorem popMove_pays {queue : LogQueue Entry} {telemetry : Telemetry} {point : PopPoint Entry}
    {progress : Progress Entry (PopPoint Entry)} (history : History Entry)
    (move : PopMove queue telemetry point progress) (running : queue.isRunning = true)
    (knows : point.Knows queue) (waiting : queue.tail ≠ queue.head) :
    popBeforeRelease progress.point + 1 + 10 * history.popped.length ≤
      popBeforeRelease point + 10 * (history.afterPop point).popped.length := by
  cases move with
  | refuse stopped => cases running.symm.trans stopped
  | giveUp stopped => cases running.symm.trans stopped
  | findEmpty empty => exact absurd (knows.symm.trans empty) waiting
  | release =>
      simp only [History.afterPop, List.length_append, List.length_singleton, popBeforeRelease]
      omega
  | _ => exact Nat.add_le_add_right (by simp only [popBeforeRelease]; decide) _

/-- The rank of the thread in its present state. -/
def ConsumerThread.rank (thread : ConsumerThread Entry) : Nat :=
  thread.point.beforeRelease thread.system.consumer

theorem consumerMove_pays (serves : Serves exponent before)
    (move : ConsumerThread.ConsumerMove before after) :
    after.rank + 1 + 10 * before.system.history.popped.length ≤
      before.rank + 10 * after.system.history.popped.length := by
  have running := serves.watch.running
  have watches := serves.watch.watches
  have loops := serves.loops
  unfold ConsumerThread.rank
  cases move with
  | begin starts called =>
      rcases QueueSystem.step_pop called with ⟨_, rfl⟩
      rw [starts]
      exact Nat.le_refl _
  | advance calls steps =>
      rcases QueueSystem.step_consumer steps with ⟨progress, popMove, rfl⟩
      have pays :=
        popMove_pays before.system.history popMove running serves.ring.consumer serves.waiting
      rw [ConsumerThread.Calls] at calls
      generalize before.point = point at calls loops
      cases point with
      | popping => exact pays
      | retrying => exact pays
      | draining => exact absurd trivial loops
      | _ => exact False.elim calls
  | again inLoop returns called =>
      rcases QueueSystem.step_pop called with ⟨_, rfl⟩
      rcases inLoop with pops | ⟨head, retries⟩
      · rw [pops, returns]
        exact Nat.le_refl _
      · rw [retries, returns]
        exact Nat.le_refl _
  | miss pops returns =>
      rw [pops, returns]
      exact Nat.le_refl _
  | leave checks stopped => cases running.symm.trans stopped
  | spin checks _ called =>
      rcases QueueSystem.step_pop called with ⟨_, rfl⟩
      rw [checks]
      exact Nat.add_le_add_right (Nat.le_of_ble_eq_true rfl) _
  | rest checks _ =>
      rw [checks]
      exact Nat.le_refl _
  | load loads called =>
      rcases QueueSystem.step_pop called with ⟨_, rfl⟩
      rw [loads]
      exact Nat.le_refl _
  | sleep retries returns =>
      rw [retries, returns]
      exact Nat.add_le_add_right (Nat.le_of_ble_eq_true rfl) _
  | block waits same =>
      rw [waits] at watches
      exact absurd (watches.symm.trans same.symm) serves.waiting
  | wakeUp waits _ called =>
      rcases QueueSystem.step_pop called with ⟨_, rfl⟩
      rw [waits]
      exact Nat.le_refl _
  | drain notifying _ => exact absurd (by rw [notifying]; trivial) loops
  | drainAgain drains _ _ => exact absurd (by rw [drains]; trivial) loops
  | finish drains _ => exact absurd (by rw [drains]; trivial) loops

/-- The thread can go on unless it is blocked. -/
theorem consume_isSome {thread : ConsumerThread Entry} (between : Between thread)
    (allocated : thread.system.queue.logArray ≠ none) (loops : ¬ thread.point.Leaving)
    (awake : forall currentHead, thread.point ≠ .blocked currentHead) :
    Exists fun after => thread.consume = some after := by
  have calls : ¬ thread.Calls -> forall (spinCounter : Nat) (point : ConsumerPoint),
      Exists fun after => { thread with spinCounter := spinCounter }.callPop point =
        some after := by
    intro rests spinCounter point
    rcases between rests with ⟨outLog, returned⟩
    exact ⟨_, by simp only [ConsumerThread.callPop, QueueSystem.step, returned]; rfl⟩
  have runs : thread.Calls -> Exists fun after => thread.runPop = some after := by
    intro calls
    unfold ConsumerThread.runPop
    cases consumer : thread.system.consumer with
    | returned outLog =>
        unfold ConsumerThread.Calls at calls
        unfold ConsumerThread.afterPop
        cases point : thread.point <;> rw [point] at calls <;> try exact False.elim calls
        all_goals cases outLog <;> simp [ConsumerThread.callPop, QueueSystem.step, consumer]
    | _ =>
        have called : forall result, thread.system.consumer ≠ .returned result := by
          rw [consumer]
          intro result returned
          cases returned
        rcases QueueSystem.consumer_enabled allocated called with ⟨system, steps⟩
        exact ⟨_, by simp only [steps]; rfl⟩
  unfold ConsumerThread.consume
  cases point : thread.point with
  | starting => exact calls (by simp [ConsumerThread.Calls, point]) _ _
  | popping => exact runs (by simp [ConsumerThread.Calls, point])
  | checking =>
      simp only
      split
      · exact ⟨_, rfl⟩
      · split
        · exact calls (by simp [ConsumerThread.Calls, point]) _ _
        · exact ⟨_, rfl⟩
  | loadingHead => exact calls (by simp [ConsumerThread.Calls, point]) _ _
  | retrying => exact runs (by simp [ConsumerThread.Calls, point])
  | waiting =>
      simp only
      split
      · exact ⟨_, rfl⟩
      · exact calls (by simp [ConsumerThread.Calls, point]) _ _
  | blocked currentHead => exact absurd point (awake currentHead)
  | _ => exact absurd (by rw [point]; trivial) loops

/-- A step of the thread machine is a step of its queue system, or none. -/
theorem step_system {action : ThreadAction Entry} (moves : before.step action = some after) :
    after.system = before.system ∨
      Exists fun queueAction => before.system.step queueAction = some after.system := by
  cases action with
  | push logLine =>
      rcases Option.map_eq_some_iff.mp moves with ⟨system, steps, rfl⟩
      exact Or.inr ⟨_, steps⟩
  | producer =>
      rcases Option.map_eq_some_iff.mp moves with ⟨system, steps, rfl⟩
      exact Or.inr ⟨_, steps⟩
  | consumer =>
      rcases (ConsumerThread.consume_move moves).system with same | called | steps
      · exact Or.inl same
      · exact Or.inr ⟨_, called⟩
      · exact Or.inr ⟨_, steps⟩
  | setFinished =>
      cases moves
      exact Or.inr ⟨.setFinished, rfl⟩

omit [Leveled Entry] in
theorem afterPush_popped (history : History Entry) (queue queue' : LogQueue Entry)
    (point point' : PushPoint Entry) :
    (history.afterPush queue queue' point point').popped = history.popped := by
  unfold History.afterPush
  split <;> rfl

theorem histories_grow {system system' : QueueSystem Entry} {action : QueueAction Entry}
    (moves : system.step action = some system') :
    system.history.published <+: system'.history.published ∧
      system.history.popped <+: system'.history.popped := by
  cases action with
  | push logLine =>
      rcases QueueSystem.step_push moves with ⟨_, rfl⟩
      exact ⟨List.prefix_rfl, List.prefix_rfl⟩
  | producer =>
      rcases QueueSystem.step_producer moves with ⟨progress, move, rfl⟩
      dsimp only
      generalize system.producer = point at move
      cases move with
      | publish => exact ⟨List.prefix_append _ _, List.prefix_rfl⟩
      | _ => exact ⟨List.prefix_rfl, List.prefix_rfl⟩
  | pop =>
      rcases QueueSystem.step_pop moves with ⟨_, rfl⟩
      exact ⟨List.prefix_rfl, List.prefix_rfl⟩
  | consumer =>
      rcases QueueSystem.step_consumer moves with ⟨progress, move, rfl⟩
      dsimp only
      generalize system.consumer = point at move
      cases move with
      | release => exact ⟨List.prefix_rfl, List.prefix_append _ _⟩
      | _ => exact ⟨List.prefix_rfl, List.prefix_rfl⟩
  | setFinished =>
      rw [QueueSystem.step_setFinished moves]
      exact ⟨List.prefix_rfl, List.prefix_rfl⟩

theorem histories_grow_step {action : ThreadAction Entry}
    (moves : before.step action = some after) :
    before.system.history.published <+: after.system.history.published ∧
      before.system.history.popped <+: after.system.history.popped := by
  rcases step_system moves with same | ⟨queueAction, steps⟩
  · rw [same]
    exact ⟨List.prefix_rfl, List.prefix_rfl⟩
  · exact histories_grow steps

end Steps

/-! ## Every run -/

namespace ThreadAction

def consumerSteps : ThreadAction Entry -> Nat
  | .consumer => 1
  | _ => 0

end ThreadAction

section Runs

variable [Leveled Entry] {exponent count : Nat} {before after : ConsumerThread Entry}

theorem published_grows_run {actions : List (ThreadAction Entry)}
    (run : (threadMachine Entry (2 ^ exponent) .dropAll).Executes KeepsRunning before
      actions after) :
    before.system.history.published <+: after.system.history.published := by
  induction run with
  | done => exact List.prefix_rfl
  | step _ moves _ ih => exact (histories_grow_step moves).1.trans ih

/-- An entry that is published and not popped is in the queue. -/
theorem serves_of_reachable {thread : ConsumerThread Entry}
    (reached : (threadMachine Entry (2 ^ exponent) .dropAll).ReachableUnder KeepsRunning thread)
    (pending : thread.system.history.popped.length < thread.system.history.published.length) :
    Serves exponent thread where
  ring := ringInvariant_of_thread reached
  watch := watchInvariant_of_reachable reached
  loops := loops_of_reachable reached
  waiting := by
    intro same
    have conserved := published_eq_popped_append_contents (by decide)
      (leavesWaitWithRoom_of_dropAll (system_reachable reached))
    rw [(ringInvariant_of_thread reached).ring.empty_iff.mp same, List.append_nil] at conserved
    rw [conserved] at pending
    exact Nat.lt_irrefl _ pending

/-- Until so many entries are popped, the missing ones pay for the steps of the
consumer thread. -/
theorem deliveryBudget (Entry : Type) [Leveled Entry] (exponent count : Nat) :
    Machine.Budget (threadMachine Entry (2 ^ exponent) .dropAll) KeepsRunning
      (fun thread =>
        (threadMachine Entry (2 ^ exponent) .dropAll).ReachableUnder KeepsRunning thread ∧
        count ≤ thread.system.history.published.length)
      (fun thread => count ≤ thread.system.history.popped.length)
      (fun thread => 10 * (count - thread.system.history.popped.length - 1) + thread.rank)
      ThreadAction.consumerSteps (fun _ => 0) where
  keeps := fun _ _ _ starts admitted moves =>
    ⟨starts.1.next admitted moves, starts.2.trans (histories_grow_step moves).1.length_le⟩
  stays := fun _ _ _ achieved _ moves => achieved.trans (histories_grow_step moves).2.length_le
  pays := by
    intro before action after starts admitted moves missed
    have grown := (histories_grow_step moves).2.length_le
    have fewer : before.system.history.popped.length < count := by omega
    cases action with
    | push logLine =>
        rcases Option.map_eq_some_iff.mp moves with ⟨system, steps, rfl⟩
        rcases QueueSystem.step_push steps with ⟨_, rfl⟩
        exact Nat.le_refl _
    | producer =>
        rcases Option.map_eq_some_iff.mp moves with ⟨system, steps, rfl⟩
        rcases QueueSystem.step_producer steps with ⟨progress, _, rfl⟩
        have popped := afterPush_popped before.system.history before.system.queue progress.queue
          before.system.producer progress.point
        have woken : ConsumerPoint.beforeRelease before.system.consumer
            (if notifies before.system.producer then before.point.wake else before.point) =
              before.rank := by
          split
          · exact ConsumerPoint.beforeRelease_wake _ _
          · rfl
        dsimp only [ConsumerThread.rank, ThreadAction.consumerSteps] at woken ⊢
        rw [popped, woken]
    | consumer =>
        have serves := serves_of_reachable starts.1 (Nat.lt_of_lt_of_le fewer starts.2)
        have pays := consumerMove_pays serves (ConsumerThread.consume_move moves)
        simp only [ThreadAction.consumerSteps]
        omega
    | setFinished => exact absurd rfl admitted

/-- On a running queue every published entry is popped, in its place, after at
most ten steps of the consumer thread for each entry up to it.  While an entry
is in the queue the thread has a next step, or the producing thread is about to
wake it. -/
theorem published_entries_are_delivered {actions : List (ThreadAction Entry)}
    (reached : (threadMachine Entry (2 ^ exponent) .dropAll).ReachableUnder KeepsRunning before)
    (run : (threadMachine Entry (2 ^ exponent) .dropAll).Executes KeepsRunning before actions after)
    (published : count ≤ before.system.history.published.length)
    (enough : 10 * (count - before.system.history.popped.length) ≤
      Machine.weigh ThreadAction.consumerSteps actions) :
    before.system.history.published.take count <+: after.system.history.popped ∧
      (after.system.history.popped.length < after.system.history.published.length ->
        (Exists fun next => after.step .consumer = some next) ∨
          notifies after.system.producer = true) := by
  have ends : (threadMachine Entry (2 ^ exponent) .dropAll).ReachableUnder KeepsRunning after :=
    reached.continue run.runs
  have conserved := published_eq_popped_append_contents (by decide)
    (leavesWaitWithRoom_of_dropAll (system_reachable ends))
  constructor
  · have popped : count ≤ after.system.history.popped.length := by
      by_cases early : count ≤ before.system.history.popped.length
      · exact (deliveryBudget Entry exponent count).stays_run run early
      · apply (deliveryBudget Entry exponent count).achieves ⟨reached, published⟩ run
        have rank : before.rank ≤ 9 := ConsumerPoint.beforeRelease_le _ _
        rw [Machine.weigh_zero]
        omega
    have first : before.system.history.published.take count =
        after.system.history.popped.take count := by
      rcases published_grows_run run with ⟨later, extended⟩
      rw [← List.take_append_of_le_length published, extended, conserved,
        List.take_append_of_le_length popped]
    rw [first]
    exact List.take_prefix _ _
  · intro pending
    have serves := serves_of_reachable ends pending
    cases point : after.point with
    | blocked currentHead =>
        rcases noLostWakeup_of_reachable ends currentHead point with
          ⟨head, tail, _⟩ | ⟨_, notifying⟩
        · exact absurd (tail.trans head.symm) serves.waiting
        · exact Or.inr (by rw [notifying]; rfl)
    | _ =>
        exact Or.inl
          (consume_isSome (between_of_reachable ends) serves.ring.ring.allocated serves.loops
          (by rw [point]; exact nofun))

end Runs

/-- One entry is published while the thread sleeps. -/
def wokenThread : ConsumerThread LogEntry :=
  ((threadMachine LogEntry (2 ^ 1) .dropAll).executeUnder KeepsRunning sleepingThread
    (.push default :: List.replicate 7 .producer)).get (by decide)

/-- Ten steps of the thread deliver it. -/
theorem published_entries_are_delivered_twoSlots :
    wokenThread.system.history.published.take 1 <+:
      (((threadMachine LogEntry (2 ^ 1) .dropAll).executeUnder KeepsRunning wokenThread
        (List.replicate 10 .consumer)).get (by decide)).system.history.popped :=
  (@published_entries_are_delivered _ _ 1 1 _ _ _
    ((sleepingThread_reached.reguard (fun _ _ _ => keepsRunning_of_onlyConsumer)).continue
      (Machine.runsUnder_of_execute (Option.some_get _).symm))
    (Machine.executes_of_execute (Option.some_get _).symm) (by decide) (by decide)).1

end ThreadManager
end VortexEngine
