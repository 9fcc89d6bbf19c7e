import VortexEngine.Core.QueueRefinement

open VortexEngine.Foundations VortexEngine.Core

namespace VortexEngine
namespace ThreadManager

/-!
# The consumer thread

Each queue has one thread that pops in a loop.  After a failed pop it looks at
the run flag: a queue that no longer runs ends the loop, and a running one is
polled up to five hundred times before the thread loads the head, pops once
more and sleeps on the head.  Behind the loop the function pops until a pop
fails.

The thread is a machine over the queue system.  A call of `pop` goes through
the points of that system, one atomic access at a time, while a producer and
`set_finished` interleave.  `head.wait` compares and blocks in one step, and a
blocked thread goes on only after a notification, when it compares again.
-/

variable {Entry : Type}

inductive ConsumerPoint
  | starting
  /-- the call of `pop` in the condition of the loop's `if` -/
  | popping
  /-- `func_is_running()` -/
  | checking
  /-- `head.notify_one()` on the way out of the loop -/
  | notifying
  | loadingHead
  /-- the call of `pop` before the thread sleeps -/
  | retrying (currentHead : SizeT)
  /-- `head.wait(currentHead)` is about to compare -/
  | waiting (currentHead : SizeT)
  | blocked (currentHead : SizeT)
  /-- the call of `pop` in the trailing loop -/
  | draining
  | finished
  deriving DecidableEq, Repr

/-- The queue system with its consuming thread.  The system just before
`set_finished` is remembered; no step reads it. -/
structure ConsumerThread (Entry : Type) where
  system : QueueSystem Entry
  point : ConsumerPoint
  spinCounter : Nat
  finishedAt : Option (QueueSystem Entry)

inductive ThreadAction (Entry : Type)
  | push (logLine : Entry)
  | producer
  | consumer
  | setFinished

/-- What a notification does to the consuming thread. -/
def ConsumerPoint.wake : ConsumerPoint -> ConsumerPoint
  | blocked currentHead => waiting currentHead
  | point => point

/-- The producing thread is about to notify. -/
def notifies : PushPoint Entry -> Bool
  | .notifying _ => true
  | _ => false

namespace ConsumerThread

def start (queue : LogQueue Entry) (telemetry : Telemetry) : ConsumerThread Entry :=
  { system := QueueSystem.start queue telemetry, point := .starting, spinCounter := 0,
    finishedAt := none }

variable [Leveled Entry]

/-- Begin a call of `pop`. -/
def callPop (thread : ConsumerThread Entry)
    (point : ConsumerPoint) : Option (ConsumerThread Entry) :=
  (thread.system.step .pop).map fun system => { thread with system := system, point := point }

/-- Where the thread goes when its call of `pop` has returned. -/
def afterPop (thread : ConsumerThread Entry) (popped : Bool) : Option (ConsumerThread Entry) :=
  match thread.point, popped with
  | .popping, true => thread.callPop .popping
  | .popping, false => some { thread with point := .checking }
  | .retrying _, true => thread.callPop .popping
  | .retrying currentHead, false => some { thread with point := .waiting currentHead }
  | .draining, true => thread.callPop .draining
  | .draining, false => some { thread with point := .finished }
  | _, _ => none

/-- The next step of a call in progress, or what follows its return. -/
def runPop (thread : ConsumerThread Entry) : Option (ConsumerThread Entry) :=
  match thread.system.consumer with
  | .returned outLog => thread.afterPop outLog.isSome
  | _ => (thread.system.step .consumer).map fun system => { thread with system := system }

/-- One step of the thread function. -/
def consume (thread : ConsumerThread Entry) : Option (ConsumerThread Entry) :=
  match thread.point with
  | .starting => thread.callPop .popping
  | .popping => thread.runPop
  | .checking =>
      if thread.system.queue.isRunning = false then some { thread with point := .notifying }
      else if thread.spinCounter < 500 then
        { thread with spinCounter := thread.spinCounter + 1 }.callPop .popping
      else some { thread with point := .loadingHead }
  | .notifying => thread.callPop .draining
  | .loadingHead => thread.callPop (.retrying thread.system.queue.head)
  | .retrying _ => thread.runPop
  | .waiting currentHead =>
      if thread.system.queue.head = currentHead then
        some { thread with point := .blocked currentHead }
      else { thread with spinCounter := 0 }.callPop .popping
  | .blocked _ => none
  | .draining => thread.runPop
  | .finished => none

def step (thread : ConsumerThread Entry) : ThreadAction Entry -> Option (ConsumerThread Entry)
  | .push logLine =>
      (thread.system.step (.push logLine)).map fun system => { thread with system := system }
  | .producer =>
      (thread.system.step .producer).map fun system =>
        { thread with
          system := system
          point := if notifies thread.system.producer then thread.point.wake else thread.point }
  | .consumer => thread.consume
  | .setFinished =>
      (thread.system.step .setFinished).map fun system =>
        { thread with system := system, finishedAt := thread.finishedAt.or (some thread.system) }

/-! ## Moves -/

/-- The points at which a call of `pop` is in progress or has just returned. -/
def Calls (thread : ConsumerThread Entry) : Prop :=
  match thread.point with
  | .popping | .retrying _ | .draining => True
  | _ => False

/-- What one step of the thread function can do. -/
inductive ConsumerMove (before : ConsumerThread Entry) : ConsumerThread Entry -> Prop
  | begin {system} (starts : before.point = .starting)
      (called : before.system.step .pop = some system) :
      ConsumerMove before { before with system := system, point := .popping }
  | advance {system} (calls : before.Calls) (steps : before.system.step .consumer = some system) :
      ConsumerMove before { before with system := system }
  | again {system outLog}
      (inLoop : before.point = .popping ∨ Exists fun head => before.point = .retrying head)
      (returns : before.system.consumer = .returned (some outLog))
      (called : before.system.step .pop = some system) :
      ConsumerMove before { before with system := system, point := .popping }
  | miss (pops : before.point = .popping) (returns : before.system.consumer = .returned none) :
      ConsumerMove before { before with point := .checking }
  | leave (checks : before.point = .checking) (stopped : before.system.queue.isRunning = false) :
      ConsumerMove before { before with point := .notifying }
  | spin {system} (checks : before.point = .checking)
      (running : before.system.queue.isRunning = true)
      (called : before.system.step .pop = some system) :
      ConsumerMove before
        { before with system := system, point := .popping, spinCounter := before.spinCounter + 1 }
  | rest (checks : before.point = .checking) (running : before.system.queue.isRunning = true) :
      ConsumerMove before { before with point := .loadingHead }
  | load {system} (loads : before.point = .loadingHead)
      (called : before.system.step .pop = some system) :
      ConsumerMove before
        { before with system := system, point := .retrying before.system.queue.head }
  | sleep {currentHead} (retries : before.point = .retrying currentHead)
      (returns : before.system.consumer = .returned none) :
      ConsumerMove before { before with point := .waiting currentHead }
  | block {currentHead} (waits : before.point = .waiting currentHead)
      (same : before.system.queue.head = currentHead) :
      ConsumerMove before { before with point := .blocked currentHead }
  | wakeUp {system currentHead} (waits : before.point = .waiting currentHead)
      (different : before.system.queue.head ≠ currentHead)
      (called : before.system.step .pop = some system) :
      ConsumerMove before { before with system := system, point := .popping, spinCounter := 0 }
  | drain {system} (notifying : before.point = .notifying)
      (called : before.system.step .pop = some system) :
      ConsumerMove before { before with system := system, point := .draining }
  | drainAgain {system outLog} (drains : before.point = .draining)
      (returns : before.system.consumer = .returned (some outLog))
      (called : before.system.step .pop = some system) :
      ConsumerMove before { before with system := system, point := .draining }
  | finish (drains : before.point = .draining) (returns : before.system.consumer = .returned none) :
      ConsumerMove before { before with point := .finished }

variable {before after : ConsumerThread Entry}

theorem callPop_eq {thread : ConsumerThread Entry} {point : ConsumerPoint}
    (moves : thread.callPop point = some after) :
    Exists fun system => thread.system.step .pop = some system ∧
      after = { thread with system := system, point := point } := by
  rcases Option.map_eq_some_iff.mp moves with ⟨system, called, result⟩
  exact ⟨system, called, result.symm⟩

theorem afterPop_move {outLog : Option Entry} (returns : before.system.consumer = .returned outLog)
    (moves : before.afterPop outLog.isSome = some after) : ConsumerMove before after := by
  unfold afterPop at moves
  cases outLog with
  | none =>
      cases point : before.point <;> rw [point] at moves <;> cases moves
      · exact .miss point returns
      · exact .sleep point returns
      · exact .finish point returns
  | some outLog =>
      cases point : before.point <;> rw [point] at moves <;> try cases moves
      · rcases callPop_eq moves with ⟨system, called, rfl⟩
        exact .again (Or.inl point) returns called
      · rcases callPop_eq moves with ⟨system, called, rfl⟩
        exact .again (Or.inr ⟨_, point⟩) returns called
      · rcases callPop_eq moves with ⟨system, called, rfl⟩
        exact .drainAgain point returns called

theorem runPop_move (calls : before.Calls) (moves : before.runPop = some after) :
    ConsumerMove before after := by
  rw [runPop] at moves
  cases progress : before.system.consumer with
  | returned outLog =>
      rw [progress] at moves
      exact afterPop_move progress moves
  | _ =>
      rw [progress] at moves
      rcases Option.map_eq_some_iff.mp moves with ⟨system, steps, rfl⟩
      exact .advance calls steps

theorem consume_move (moves : before.consume = some after) : ConsumerMove before after := by
  rw [consume] at moves
  cases point : before.point with
  | starting =>
      rw [point] at moves
      rcases callPop_eq moves with ⟨system, called, rfl⟩
      exact .begin point called
  | popping =>
      rw [point] at moves
      exact runPop_move (by rw [Calls, point]; trivial) moves
  | checking =>
      rw [point] at moves
      simp only at moves
      split at moves
      · cases moves
        exact .leave point (by assumption)
      · rename_i runs
        split at moves
        · rcases callPop_eq moves with ⟨system, called, rfl⟩
          exact .spin point (Bool.eq_true_of_not_eq_false runs) called
        · cases moves
          exact .rest point (Bool.eq_true_of_not_eq_false runs)
  | notifying =>
      rw [point] at moves
      rcases callPop_eq moves with ⟨system, called, rfl⟩
      exact .drain point called
  | loadingHead =>
      rw [point] at moves
      rcases callPop_eq moves with ⟨system, called, rfl⟩
      exact .load point called
  | retrying currentHead =>
      rw [point] at moves
      exact runPop_move (by rw [Calls, point]; trivial) moves
  | waiting currentHead =>
      rw [point] at moves
      simp only at moves
      split at moves
      · cases moves
        exact .block point (by assumption)
      · rcases callPop_eq moves with ⟨system, called, rfl⟩
        exact .wakeUp point (by assumption) called
  | blocked currentHead =>
      rw [point] at moves
      cases moves
  | draining =>
      rw [point] at moves
      exact runPop_move (by rw [Calls, point]; trivial) moves
  | finished =>
      rw [point] at moves
      cases moves

/-- The thread function leaves the queue system alone, or performs one of its
consumer's steps. -/
theorem ConsumerMove.system (move : ConsumerMove before after) :
    after.system = before.system ∨ before.system.step .pop = some after.system ∨
      before.system.step .consumer = some after.system := by
  cases move with
  | begin _ called => exact Or.inr (Or.inl called)
  | advance _ steps => exact Or.inr (Or.inr steps)
  | again _ _ called => exact Or.inr (Or.inl called)
  | spin _ _ called => exact Or.inr (Or.inl called)
  | load _ called => exact Or.inr (Or.inl called)
  | wakeUp _ _ called => exact Or.inr (Or.inl called)
  | drain _ called => exact Or.inr (Or.inl called)
  | drainAgain _ _ called => exact Or.inr (Or.inl called)
  | _ => exact Or.inl rfl

theorem ConsumerMove.isRunning (move : ConsumerMove before after) :
    after.system.queue.isRunning = before.system.queue.isRunning := by
  rcases move.system with same | called | steps
  · rw [same]
  · rw [(QueueSystem.step_pop called).2]
  · rcases QueueSystem.step_consumer steps with ⟨progress, popMove, result⟩
    rw [result]
    exact popMove.frame.isRunning

theorem ConsumerMove.finishedAt (move : ConsumerMove before after) :
    after.finishedAt = before.finishedAt := by
  cases move <;> rfl

end ConsumerThread

/-- The interleavings of one producer, `set_finished` and the consumer thread on
a fresh queue. -/
def threadMachine (Entry : Type) [Leveled Entry] (capacity : Nat) (profile : OverflowProfile) :
    Machine (ConsumerThread Entry) (ThreadAction Entry) where
  initial := fun thread => Exists fun queue => Exists fun telemetry =>
    queue.Fresh capacity profile ∧ thread = ConsumerThread.start queue telemetry
  step := ConsumerThread.step

/-- The queue under the thread is a queue with one producer and one consumer. -/
def threadSimulation (Entry : Type) [Leveled Entry] (capacity : Nat) (profile : OverflowProfile)
    (guard : ConsumerThread Entry -> ThreadAction Entry -> Prop) :
    Machine.Simulation (threadMachine Entry capacity profile) guard
      (queueMachine Entry capacity profile) Machine.anyAction where
  view := ConsumerThread.system
  initial := by
    rintro _ ⟨queue, telemetry, fresh, rfl⟩
    exact ⟨queue, telemetry, fresh, rfl⟩
  step := by
    intro before action after _ _ moves
    cases action with
    | push logLine =>
        rcases Option.map_eq_some_iff.mp moves with ⟨system, steps, rfl⟩
        exact Or.inr ⟨.push logLine, trivial, steps⟩
    | producer =>
        rcases Option.map_eq_some_iff.mp moves with ⟨system, steps, rfl⟩
        exact Or.inr ⟨.producer, trivial, steps⟩
    | consumer =>
        rcases (ConsumerThread.consume_move moves).system with same | called | steps
        · exact Or.inl same
        · exact Or.inr ⟨.pop, trivial, called⟩
        · exact Or.inr ⟨.consumer, trivial, steps⟩
    | setFinished =>
        cases moves
        exact Or.inr ⟨.setFinished, trivial, rfl⟩

/-- Under the thread the queue runs as it does with any consumer. -/
theorem system_reachable [Leveled Entry] {capacity : Nat} {profile : OverflowProfile}
    {guard : ConsumerThread Entry -> ThreadAction Entry -> Prop} {thread : ConsumerThread Entry}
    (reached : (threadMachine Entry capacity profile).ReachableUnder guard thread) :
    (queueMachine Entry capacity profile).Reachable thread.system :=
  (threadSimulation Entry capacity profile guard).reachable reached

end ThreadManager
end VortexEngine
