import VortexEngine.ThreadManager.Wakeup

open VortexEngine.Foundations VortexEngine.Core

namespace VortexEngine
namespace ThreadManager

/-!
# A shutdown and a sleeping thread

`set_finished` stores the run flag, and the thread sleeps on the head.  The
thread looks at the flag only in its loop, and nobody notifies it after the
producers have stopped: the `notify_one` of the consumer thread itself comes
when it is awake.  A thread that is on its way from the flag to its sleep when
`set_finished` comes, or that sleeps already, is therefore never woken, and
`join` does not return.

The way to the sleep is narrow.  A retry pop that still delivers an entry turns
back, and so does a thread that finds another head than the one it has loaded.
-/

variable {Entry : Type}

/-- The pop returns nothing once the queue is stopped. -/
def misses : PopPoint Entry -> Bool
  | .returned none | .entered | .loadingTail | .loadingHead _ | .rechecking _ => true
  | _ => false

/-- If the queue is stopped now, the thread comes to sleep on the present head,
or it sleeps already. -/
def AboutToSleep (thread : ConsumerThread Entry) : Prop :=
  match thread.point with
  | .loadingHead => True
  | .retrying currentHead =>
      thread.system.queue.head = currentHead ∧ misses thread.system.consumer = true
  | .waiting currentHead | .blocked currentHead => thread.system.queue.head = currentHead
  | _ => False

/-- `set_finished` has been executed, no producer is left, and the thread sleeps
on the present head. -/
structure Stranded (thread : ConsumerThread Entry) : Prop where
  stopped : thread.system.queue.isRunning = false
  quiet : thread.system.producer = .idle
  sleeps : thread.point = .blocked thread.system.queue.head

/-- The producers stop first, and `set_finished` does not come while the thread
is on its way to sleep. -/
def StopsAwake (thread : ConsumerThread Entry) (action : ThreadAction Entry) : Prop :=
  StopsProducersFirst thread action ∧ (action = .setFinished -> ¬ AboutToSleep thread)

variable [Leveled Entry] {capacity : Nat} {profile : OverflowProfile}
variable {thread before after : ConsumerThread Entry}

/-! ## A thread that stays awake -/

/-- On a stopped queue nobody sets out for sleep. -/
structure Awake (thread : ConsumerThread Entry) : Prop where
  stopped : thread.system.queue.isRunning = false
  quiet : thread.system.producer = .idle
  awake : ¬ AboutToSleep thread

omit [Leveled Entry] in
theorem misses_popMove {queue : LogQueue Entry} {telemetry : Telemetry} {point : PopPoint Entry}
    {progress : Progress Entry (PopPoint Entry)} (move : PopMove queue telemetry point progress)
    (delivers : misses point = false) : misses progress.point = false := by
  cases move <;> first | rfl | cases delivers

/-- The thread function does not turn to sleep on a stopped queue. -/
theorem Awake.consumer_step (holds : Awake before)
    (move : ConsumerThread.ConsumerMove before after) :
    ¬ AboutToSleep after := by
  rcases holds with ⟨stopped, _, awake⟩
  rw [AboutToSleep] at awake
  cases move with
  | advance calls steps =>
      rw [ConsumerThread.Calls] at calls
      cases point : before.point with
      | retrying currentHead =>
          rcases QueueSystem.step_consumer steps with ⟨progress, popMove, rfl⟩
          simp only [AboutToSleep]
          rintro ⟨same, missing⟩
          have head : before.system.queue.head = currentHead := popMove.frame.head.symm.trans same
          have delivers : misses before.system.consumer = false := by
            simpa [point, head] using awake
          rw [misses_popMove popMove delivers] at missing
          cases missing
      | popping => simp [AboutToSleep]
      | draining => simp [AboutToSleep]
      | _ => simp [point] at calls
  | spin checks running called => cases running.symm.trans stopped
  | rest checks running => cases running.symm.trans stopped
  | load loads called => simp [loads] at awake
  | sleep retries returns => simpa [AboutToSleep, retries, returns, misses] using awake
  | block waits same => simp [waits, same] at awake
  | _ => exact id

/-- No step that the shutdown leaves possible sends the thread to sleep. -/
theorem Awake.step (holds : Awake before) {action : ThreadAction Entry}
    (admitted : StopsProducersFirst before action)
    (moves : before.step action = some after) : Awake after := by
  cases action with
  | push logLine => cases holds.stopped.symm.trans admitted
  | producer =>
      rcases Option.map_eq_some_iff.mp moves with ⟨system, steps, rfl⟩
      rcases QueueSystem.step_producer steps with ⟨progress, move, rfl⟩
      rw [holds.quiet] at move
      cases move
  | consumer =>
      have move := ConsumerThread.consume_move moves
      refine ⟨move.isRunning.trans holds.stopped, ?_, holds.consumer_step move⟩
      rcases move.system with same | called | steps
      · rw [same]
        exact holds.quiet
      · rw [(QueueSystem.step_pop called).2]
        exact holds.quiet
      · rcases QueueSystem.step_consumer steps with ⟨progress, _, result⟩
        rw [result]
        exact holds.quiet
  | setFinished => cases holds.stopped.symm.trans admitted.2

omit [Leveled Entry] in
theorem Awake.not_stranded (holds : Awake thread) : ¬ Stranded thread := by
  intro stranded
  apply holds.awake
  simp [AboutToSleep, stranded.sleeps]

theorem awake_of_setFinished (idle : before.system.producer = .idle) (awake : ¬ AboutToSleep before)
    (moves : before.step .setFinished = some after) : Awake after := by
  cases moves
  exact ⟨rfl, idle, awake⟩

/-! ## A thread that goes to sleep -/

theorem pop_misses (stopped : thread.system.queue.isRunning = false) (currentHead : SizeT)
    (spinCounter : Nat) {consumer : PopPoint Entry} (missing : misses consumer = true) :
    (threadMachine Entry capacity profile).RunsUnder onlyConsumer
      (thread.standing (.retrying currentHead) spinCounter consumer)
      (thread.standing (.retrying currentHead) spinCounter (.returned none)) := by
  have refuses : (thread.standing (.retrying currentHead) spinCounter .entered).consume =
      some (thread.standing (.retrying currentHead) spinCounter (.returned none)) := by
    simp [ConsumerThread.consume, ConsumerThread.standing, ConsumerThread.runPop, QueueSystem.step,
      popStep, stopped, History.afterPop]
  have givesUp : forall currentTail,
      (thread.standing (.retrying currentHead) spinCounter (.rechecking currentTail)).consume =
        some (thread.standing (.retrying currentHead) spinCounter (.returned none)) := by
    intro currentTail
    simp [ConsumerThread.consume, ConsumerThread.standing, ConsumerThread.runPop, QueueSystem.step,
      popStep, stopped, History.afterPop]
  have compares : forall currentTail, (threadMachine Entry capacity profile).RunsUnder onlyConsumer
      (thread.standing (.retrying currentHead) spinCounter (.loadingHead currentTail))
      (thread.standing (.retrying currentHead) spinCounter (.returned none)) := by
    intro currentTail
    by_cases empty : currentTail = thread.system.queue.head
    · apply ConsumerThread.runs_consume
      simp [ConsumerThread.consume, ConsumerThread.standing, ConsumerThread.runPop,
        QueueSystem.step, popStep, empty,
        History.afterPop]
    · have finds :
        (thread.standing (.retrying currentHead) spinCounter (.loadingHead currentTail)).consume =
          some (thread.standing (.retrying currentHead) spinCounter (.rechecking currentTail)) := by
        simp [ConsumerThread.consume, ConsumerThread.standing, ConsumerThread.runPop,
          QueueSystem.step, popStep, empty,
          History.afterPop]
      exact (ConsumerThread.runs_consume finds).trans
        (ConsumerThread.runs_consume (givesUp currentTail))
  cases consumer with
  | returned outLog =>
      cases outLog with
      | none => exact Relation.ReflTransGen.refl
      | some outLog => cases missing
  | entered => exact ConsumerThread.runs_consume refuses
  | loadingTail =>
      have loads : (thread.standing (.retrying currentHead) spinCounter .loadingTail).consume =
          some (thread.standing (.retrying currentHead) spinCounter
            (.loadingHead thread.system.queue.tail)) := by
        simp [ConsumerThread.consume, ConsumerThread.standing, ConsumerThread.runPop,
          QueueSystem.step, popStep,
          History.afterPop]
      exact (ConsumerThread.runs_consume loads).trans (compares _)
  | loadingHead currentTail => exact compares currentTail
  | rechecking currentTail => exact ConsumerThread.runs_consume (givesUp currentTail)
  | _ => cases missing

theorem retry_sleeps (stopped : thread.system.queue.isRunning = false) (spinCounter : Nat)
    {consumer : PopPoint Entry} (missing : misses consumer = true) :
    (threadMachine Entry capacity profile).RunsUnder onlyConsumer
      (thread.standing (.retrying thread.system.queue.head) spinCounter consumer)
      (thread.standing (.blocked thread.system.queue.head) spinCounter (.returned none)) := by
  have sleeps :
    (thread.standing (.retrying thread.system.queue.head) spinCounter (.returned none)).consume =
      some (thread.standing (.waiting thread.system.queue.head) spinCounter (.returned none)) := rfl
  have blocks :
    (thread.standing (.waiting thread.system.queue.head) spinCounter (.returned none)).consume =
      some (thread.standing (.blocked thread.system.queue.head) spinCounter (.returned none)) := by
    simp [ConsumerThread.consume, ConsumerThread.standing]
  exact ((pop_misses stopped _ spinCounter missing).trans
    (ConsumerThread.runs_consume sleeps)).trans
    (ConsumerThread.runs_consume blocks)

/-- Between two calls the last call of `pop` has returned. -/
def Between (thread : ConsumerThread Entry) : Prop :=
  ¬ thread.Calls -> Exists fun outLog => thread.system.consumer = .returned outLog

theorem Between.consumer_step (holds : Between before)
    (move : ConsumerThread.ConsumerMove before after) :
    Between after := by
  intro rests
  cases move with
  | advance calls steps => exact absurd calls rests
  | miss pops returns => exact ⟨none, returns⟩
  | sleep retries returns => exact ⟨none, returns⟩
  | finish drains returns => exact ⟨none, returns⟩
  | leave checks stopped => exact holds (by simp [ConsumerThread.Calls, checks])
  | rest checks running => exact holds (by simp [ConsumerThread.Calls, checks])
  | block waits same => exact holds (by simp [ConsumerThread.Calls, waits])
  | _ => exact absurd trivial rests

omit [Leveled Entry] in
/-- A notification does not touch a thread in a call of `pop`. -/
theorem wake_of_calls {notified : Bool} (calls : thread.Calls) :
    (if notified then thread.point.wake else thread.point) = thread.point := by
  rw [ConsumerThread.Calls] at calls
  generalize thread.point = point at calls
  cases notified with
  | false => rfl
  | true =>
      cases point <;> first | rfl | cases calls

theorem between_of_reachable {guard : ConsumerThread Entry -> ThreadAction Entry -> Prop}
    (reached : (threadMachine Entry capacity profile).ReachableUnder guard thread) :
      Between thread := by
  apply reached.invariant
  · rintro _ ⟨queue, telemetry, fresh, rfl⟩ _
    exact ⟨none, rfl⟩
  · intro before action after _ holds _ moves
    cases action with
    | push logLine =>
        rcases Option.map_eq_some_iff.mp moves with ⟨system, steps, rfl⟩
        rcases QueueSystem.step_push steps with ⟨_, rfl⟩
        exact holds
    | producer =>
        rcases Option.map_eq_some_iff.mp moves with ⟨system, steps, rfl⟩
        rcases QueueSystem.step_producer steps with ⟨progress, _, rfl⟩
        intro rests
        apply holds
        intro calls
        apply rests
        rw [ConsumerThread.Calls, wake_of_calls calls]
        exact calls
    | consumer => exact holds.consumer_step (ConsumerThread.consume_move moves)
    | setFinished =>
        cases moves
        exact holds

/-- A thread that is about to sleep when the queue is stopped comes to its sleep
without the help of anybody. -/
theorem strands_of_aboutToSleep (between : Between thread)
    (stopped : thread.system.queue.isRunning = false)
    (quiet : thread.system.producer = .idle) (about : AboutToSleep thread) :
    Exists fun later => (threadMachine Entry capacity profile).RunsUnder onlyConsumer thread later ∧
      Stranded later := by
  have retried := fun consumer =>
    @retry_sleeps Entry _ capacity profile thread stopped thread.spinCounter consumer
  have asleep : Stranded
      (thread.standing (.blocked thread.system.queue.head) thread.spinCounter (.returned none)) :=
    ⟨stopped, quiet, rfl⟩
  have here : thread = thread.standing thread.point thread.spinCounter thread.system.consumer := rfl
  rw [AboutToSleep] at about
  cases point : thread.point with
  | loadingHead =>
      rcases between (by simp [ConsumerThread.Calls, point]) with ⟨outLog, returned⟩
      have loads : thread.consume =
          some (thread.standing (.retrying thread.system.queue.head)
            thread.spinCounter .entered) := by
        simp [ConsumerThread.consume, ConsumerThread.standing, ConsumerThread.callPop,
          QueueSystem.step, point,
          returned]
      exact ⟨_, (ConsumerThread.runs_consume loads).trans (retried .entered rfl), asleep⟩
  | retrying currentHead =>
      rw [point] at about here
      rcases about with ⟨rfl, missing⟩
      refine ⟨_, ?_, asleep⟩
      rw [here]
      exact retried thread.system.consumer missing
  | waiting currentHead =>
      rw [point] at about
      rcases about with rfl
      have blocks : thread.consume =
          some (thread.standing (.blocked thread.system.queue.head)
            thread.spinCounter thread.system.consumer) := by
        simp [ConsumerThread.consume, ConsumerThread.standing, point]
      exact ⟨_, ConsumerThread.runs_consume blocks, stopped, quiet, rfl⟩
  | blocked currentHead =>
      rw [point] at about
      exact ⟨thread, Relation.ReflTransGen.refl, stopped, quiet, about ▸ point⟩
  | _ => simp [point] at about

/-! ## Runs -/

theorem awake_of_reachable
    (reached : (threadMachine Entry capacity profile).ReachableUnder StopsAwake thread) :
    thread.system.queue.isRunning = true ∨ Awake thread := by
  apply reached.invariant
  · rintro _ ⟨queue, telemetry, fresh, rfl⟩
    exact Or.inl fresh.running
  · intro before action after _ holds admitted moves
    rcases holds with running | awake
    · cases action with
      | setFinished => exact Or.inr (awake_of_setFinished admitted.1.1 (admitted.2 rfl) moves)
      | push logLine =>
          rcases Option.map_eq_some_iff.mp moves with ⟨system, steps, rfl⟩
          rcases QueueSystem.step_push steps with ⟨_, rfl⟩
          exact Or.inl running
      | producer =>
          rcases Option.map_eq_some_iff.mp moves with ⟨system, steps, rfl⟩
          rcases QueueSystem.step_producer steps with ⟨progress, move, rfl⟩
          exact Or.inl (move.frame.isRunning.trans running)
      | consumer => exact Or.inl ((ConsumerThread.consume_move moves).isRunning.trans running)
    · exact Or.inr (awake.step admitted.1 moves)

omit [Leveled Entry] in
theorem Stranded.not_running
    (stranded : Stranded thread) : ¬ thread.system.queue.isRunning = true := by
  simp [stranded.stopped]

/-- Nothing moves a stranded thread, so `join` does not return. -/
theorem Stranded.forever (stranded : Stranded thread)
    (run : (threadMachine Entry capacity profile).RunsUnder StopsProducersFirst thread after) :
      after = thread := by
  apply run.preserves (I := fun state => state = thread)
  · rintro state action state' rfl admitted moves
    cases action with
    | push logLine => exact absurd admitted stranded.not_running
    | producer =>
        rcases Option.map_eq_some_iff.mp moves with ⟨system, steps, _⟩
        rcases QueueSystem.step_producer steps with ⟨progress, move, _⟩
        rw [stranded.quiet] at move
        cases move
    | consumer =>
        change state.consume = _ at moves
        simp [ConsumerThread.consume, stranded.sleeps] at moves
    | setFinished => exact absurd admitted.2 stranded.not_running
  · rfl

/-- No run that stops an awake thread strands it, and the thread is stranded by a
run behind `set_finished` exactly if it was about to sleep. -/
theorem stopped_thread_not_stranded
    (reached : (threadMachine Entry capacity profile).ReachableUnder StopsAwake thread) :
    ¬ Stranded thread ∧
      forall after, StopsProducersFirst thread .setFinished ->
        thread.step .setFinished = some after ->
        ((forall later,
          (threadMachine Entry capacity profile).RunsUnder StopsProducersFirst after later ->
            ¬ Stranded later) ↔ ¬ AboutToSleep thread) := by
  constructor
  · rcases awake_of_reachable reached with running | awake
    · intro stranded
      exact stranded.not_running running
    · exact awake.not_stranded
  · intro after admitted moves
    constructor
    · intro never about
      have between : Between thread := between_of_reachable reached
      cases moves
      rcases @strands_of_aboutToSleep Entry _ capacity profile
        { thread with
          system := { thread.system with queue := thread.system.queue.setFinished }
          finishedAt := thread.finishedAt.or (some thread.system) }
        between rfl admitted.1 about with ⟨later, run, stranded⟩
      exact never later (run.weaken (fun _ _ only => by cases only; trivial)) stranded
    · intro awake later run
      have holds : Awake later :=
        run.preserves (fun _ _ _ holds admitted moves => holds.step admitted moves)
          (awake_of_setFinished admitted.1 awake moves)
      exact holds.not_stranded

/-! ## Stopping an idle thread -/

/-- The thread of the smallest queue, about to look at the run flag for the last
time before it loads the head. -/
def pollingThread : ConsumerThread LogEntry :=
  twoSlotsThread.standing .checking 500 (.returned none)

theorem pollingThread_reached :
    (threadMachine LogEntry (2 ^ 1) .dropAll).ReachableUnder onlyConsumer pollingThread :=
  ⟨twoSlotsThread, twoSlotsThread_initial,
    (ConsumerThread.start_pops _ _).trans (twoSlotsThread_idle.counts 500 (Nat.le_refl _))⟩

theorem stopsAwake_of_onlyConsumer {thread : ConsumerThread LogEntry}
    {action : ThreadAction LogEntry}
    (only : onlyConsumer thread action) : StopsAwake thread action := by
  cases only
  exact ⟨trivial, nofun⟩

theorem stopped_thread_not_stranded_polling :
    ¬ Stranded pollingThread ∧
      ((forall later, (threadMachine LogEntry (2 ^ 1) .dropAll).RunsUnder StopsProducersFirst
          ((pollingThread.step .setFinished).get rfl) later -> ¬ Stranded later) ↔
        ¬ AboutToSleep pollingThread) :=
  have holds := stopped_thread_not_stranded
    (pollingThread_reached.reguard (fun _ _ _ => stopsAwake_of_onlyConsumer))
  ⟨holds.1, holds.2 _ ⟨rfl, rfl⟩ rfl⟩

/-- An idle consumer sleeps, and `set_finished` does not wake it. -/
theorem sleeping_thread_stranded :
    Exists fun thread : ConsumerThread LogEntry =>
      (threadMachine LogEntry (2 ^ 1) .dropAll).ReachableUnder StopsProducersFirst thread ∧
        Stranded thread ∧
          forall after,
            (threadMachine LogEntry (2 ^ 1) .dropAll).RunsUnder StopsProducersFirst thread after ->
            after = thread := by
  have stranded : Stranded ((sleepingThread.step .setFinished).get rfl) := ⟨rfl, rfl, rfl⟩
  have asleep :
      (threadMachine LogEntry (2 ^ 1) .dropAll).ReachableUnder StopsProducersFirst sleepingThread :=
    sleepingThread_reached.reguard (fun _ _ _ only => (stopsAwake_of_onlyConsumer only).1)
  have admitted : StopsProducersFirst sleepingThread .setFinished := ⟨rfl, rfl⟩
  exact ⟨_, asleep.next admitted rfl, stranded, fun _ => stranded.forever⟩

end ThreadManager
end VortexEngine
