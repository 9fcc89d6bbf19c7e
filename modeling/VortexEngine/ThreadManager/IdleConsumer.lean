import VortexEngine.ThreadManager.ConsumerThread

open VortexEngine.Foundations VortexEngine.Core

namespace VortexEngine
namespace ThreadManager

/-!
# A consumer thread with nothing to do

On a running queue that stays empty every pop fails.  The thread polls until
its counter has reached five hundred, loads the head, pops in vain once more,
and blocks in `head.wait`.  Neither the queue nor the producing thread takes
part in this.
-/

variable {Entry : Type} [Leveled Entry] {capacity : Nat} {profile : OverflowProfile}

/-- Only the consumer thread moves. -/
def onlyConsumer (_thread : ConsumerThread Entry) (action : ThreadAction Entry) : Prop :=
  action = .consumer

namespace ConsumerThread

/-- The thread at another point, with another counter and another point of its
pop. -/
def standing (thread : ConsumerThread Entry) (point : ConsumerPoint) (spinCounter : Nat)
    (consumer : PopPoint Entry) : ConsumerThread Entry :=
  { thread with
    system := { thread.system with consumer := consumer }
    point := point
    spinCounter := spinCounter }

/-- The queue runs and is empty. -/
structure Idle (thread : ConsumerThread Entry) : Prop where
  running : thread.system.queue.isRunning = true
  empty : thread.system.queue.tail = thread.system.queue.head

variable {thread after : ConsumerThread Entry}

theorem runs_consume (moves : thread.consume = some after) :
    (threadMachine Entry capacity profile).RunsUnder onlyConsumer thread after :=
  Relation.ReflTransGen.single ⟨.consumer, rfl, moves⟩

theorem Idle.pop_fails (idle : Idle thread) {point : ConsumerPoint} (spinCounter : Nat)
    (calls : point = .popping ∨ Exists fun head => point = .retrying head) :
    (threadMachine Entry capacity profile).RunsUnder onlyConsumer
      (thread.standing point spinCounter .entered)
        (thread.standing point spinCounter (.returned none)) := by
  have enter : (thread.standing point spinCounter .entered).consume =
      some (thread.standing point spinCounter .loadingTail) := by
    rcases calls with rfl | ⟨head, rfl⟩ <;>
      simp [consume, standing, runPop, QueueSystem.step, popStep, idle.running, History.afterPop]
  have load : (thread.standing point spinCounter .loadingTail).consume =
      some (thread.standing point spinCounter (.loadingHead thread.system.queue.tail)) := by
    rcases calls with rfl | ⟨head, rfl⟩ <;>
      simp [consume, standing, runPop, QueueSystem.step, popStep, History.afterPop]
  have compare :
    (thread.standing point spinCounter (.loadingHead thread.system.queue.tail)).consume =
      some (thread.standing point spinCounter (.returned none)) := by
    rcases calls with rfl | ⟨head, rfl⟩ <;>
      simp [consume, standing, runPop, QueueSystem.step, popStep, idle.empty, History.afterPop]
  exact ((runs_consume enter).trans (runs_consume load)).trans (runs_consume compare)

/-- A pop of the loop fails, and the thread looks at the run flag. -/
theorem Idle.polls (idle : Idle thread) (spinCounter : Nat) :
    (threadMachine Entry capacity profile).RunsUnder onlyConsumer
      (thread.standing .popping spinCounter .entered)
        (thread.standing .checking spinCounter (.returned none)) := by
  have missed : (thread.standing .popping spinCounter (.returned none)).consume =
      some (thread.standing .checking spinCounter (.returned none)) := rfl
  exact (idle.pop_fails spinCounter (Or.inl rfl)).trans (runs_consume missed)

/-- The thread polls until the counter has its bound. -/
theorem Idle.counts (idle : Idle thread) (spinCounter : Nat) (bound : spinCounter ≤ 500) :
    (threadMachine Entry capacity profile).RunsUnder onlyConsumer
      (thread.standing .popping 0 .entered)
        (thread.standing .checking spinCounter (.returned none)) := by
  induction spinCounter with
  | zero => exact idle.polls 0
  | succ spinCounter ih =>
      have spins : (thread.standing .checking spinCounter (.returned none)).consume =
          some (thread.standing .popping (spinCounter + 1) .entered) := by
        simp [consume, standing, idle.running, Nat.lt_of_succ_le bound, callPop, QueueSystem.step]
      exact ((ih (Nat.le_of_succ_le bound)).trans (runs_consume spins)).trans
        (idle.polls (spinCounter + 1))

/-- The thread has polled often enough and is about to load the head. -/
theorem Idle.rests (idle : Idle thread) :
    (threadMachine Entry capacity profile).RunsUnder onlyConsumer
      (thread.standing .popping 0 .entered)
        (thread.standing .loadingHead 500 (.returned none)) := by
  have rests : (thread.standing .checking 500 (.returned none)).consume =
      some (thread.standing .loadingHead 500 (.returned none)) := by
    simp [consume, standing, idle.running]
  exact (idle.counts 500 (Nat.le_refl _)).trans (runs_consume rests)

theorem Idle.waits (idle : Idle thread) :
    (threadMachine Entry capacity profile).RunsUnder onlyConsumer
      (thread.standing .popping 0 .entered)
      (thread.standing (.waiting thread.system.queue.head) 500 (.returned none)) := by
  have loads : (thread.standing .loadingHead 500 (.returned none)).consume =
      some (thread.standing (.retrying thread.system.queue.head) 500 .entered) := by
    simp [consume, standing, callPop, QueueSystem.step]
  have sleeps :
    (thread.standing (.retrying thread.system.queue.head) 500 (.returned none)).consume =
      some (thread.standing (.waiting thread.system.queue.head) 500 (.returned none)) := rfl
  exact ((idle.rests.trans (runs_consume loads)).trans (idle.pop_fails 500 (Or.inr ⟨_, rfl⟩))).trans
    (runs_consume sleeps)

/-- The head is still the loaded one, and the thread blocks. -/
theorem Idle.blocks (idle : Idle thread) :
    (threadMachine Entry capacity profile).RunsUnder onlyConsumer
      (thread.standing .popping 0 .entered)
      (thread.standing (.blocked thread.system.queue.head) 500 (.returned none)) := by
  have compares :
    (thread.standing (.waiting thread.system.queue.head) 500 (.returned none)).consume =
      some (thread.standing (.blocked thread.system.queue.head) 500 (.returned none)) := by
    simp [consume, standing]
  exact idle.waits.trans (runs_consume compares)

/-- A thread on a fresh queue that nobody uses comes to every point of its idle
round. -/
theorem start_pops (queue : LogQueue Entry) (telemetry : Telemetry) :
    (threadMachine Entry capacity profile).RunsUnder onlyConsumer (start queue telemetry)
      ((start queue telemetry).standing .popping 0 .entered) :=
  runs_consume rfl

end ConsumerThread

end ThreadManager
end VortexEngine
