import VortexEngine.Core.QueueCalls
import VortexEngine.Core.QueueRefinement

open VortexEngine.Foundations

namespace VortexEngine
namespace Core

/-!
# Calls that nothing interrupts

A call of `push` under `DropAll` returns within ten steps, and a call of `pop`
within nine.  When no step of the other thread comes between, a call is one
change of the queue.  A sequence of such calls is one of the interleavings of
the two threads, and what it leaves behind each call is what the queue is
between two calls.
-/

variable {Entry : Type}

/-- As many steps of a call of `push` as are left, up to a number. -/
def runPush [Leveled Entry] : Nat -> Progress Entry (PushPoint Entry) ->
    Progress Entry (PushPoint Entry)
  | 0, progress => progress
  | steps + 1, progress =>
      match pushStep progress.queue progress.telemetry progress.point with
      | none => progress
      | some after => runPush steps after

/-- As many steps of a call of `pop` as are left, up to a number. -/
def runPop : Nat -> Progress Entry (PopPoint Entry) -> Progress Entry (PopPoint Entry)
  | 0, progress => progress
  | steps + 1, progress =>
      match popStep progress.queue progress.telemetry progress.point with
      | none => progress
      | some after => runPop steps after

namespace LogQueue

/-- A call of `push` on its own. -/
def callPush [Leveled Entry] (queue : LogQueue Entry) (telemetry : Telemetry) (logLine : Entry) :
    Progress Entry (PushPoint Entry) :=
  runPush 10 ⟨queue, telemetry, .entered logLine⟩

/-- A call of `pop` on its own. -/
def callPop (queue : LogQueue Entry) (telemetry : Telemetry) : Progress Entry (PopPoint Entry) :=
  runPop 9 ⟨queue, telemetry, .entered⟩

/-- The entries between tail and head, as the code counts them. -/
def occupancy (queue : LogQueue Entry) : Nat :=
  (queue.occupiedSlots queue.head queue.tail).toNat

/-- The queue behind the store of `head`. -/
def published (queue : LogQueue Entry) (logLine : Entry) : LogQueue Entry :=
  { queue.writeSlot queue.head logLine with head := queue.nextIndex queue.head }

/-- The test behind the count of a published entry. -/
def markHigh (queue : LogQueue Entry) : LogQueue Entry :=
  if queue.highWatermark ≤ queue.occupiedSlots queue.head queue.tail then
    { queue with highWatermarkTripped := true }
  else queue

/-- The queue behind the store of `tail`. -/
def released (queue : LogQueue Entry) : LogQueue Entry :=
  { queue with tail := queue.nextIndex queue.tail }

/-- The test behind the count of a popped entry, with the tail loaded at the
beginning of the call. -/
def markLow (queue : LogQueue Entry) (currentTail : SizeT) : LogQueue Entry :=
  if queue.totalSlots - queue.occupiedSlots queue.head currentTail ≤ queue.lowWatermark then
    { queue with highWatermarkTripped := false }
  else queue

end LogQueue

/-! ## What a call does -/

section Steps

variable [Leveled Entry] {queue : LogQueue Entry} {telemetry : Telemetry}

theorem runPush_step {steps : Nat} {point : PushPoint Entry}
    {after : Progress Entry (PushPoint Entry)}
    (stepped : pushStep queue telemetry point = some after) :
    runPush (steps + 1) ⟨queue, telemetry, point⟩ = runPush steps after := by
  rw [runPush, stepped]

theorem runPush_idle (steps : Nat) :
    runPush steps ⟨queue, telemetry, .idle⟩ =
      (⟨queue, telemetry, .idle⟩ : Progress Entry (PushPoint Entry)) := by
  cases steps <;> rfl

omit [Leveled Entry] in
theorem runPop_step {steps : Nat} {point : PopPoint Entry} {after : Progress Entry (PopPoint Entry)}
    (stepped : popStep queue telemetry point = some after) :
    runPop (steps + 1) ⟨queue, telemetry, point⟩ = runPop steps after := by
  rw [runPop, stepped]

omit [Leveled Entry] in
theorem runPop_returned (steps : Nat) (outLog : Option Entry) :
    runPop steps ⟨queue, telemetry, .returned outLog⟩ = ⟨queue, telemetry, .returned outLog⟩ := by
  cases steps <;> rfl

theorem runPush_measuring (queue : LogQueue Entry) (telemetry : Telemetry) :
    runPush 2 ⟨queue, telemetry, .measuring queue.head⟩ =
      (⟨queue.markHigh, telemetry, .idle⟩ : Progress Entry (PushPoint Entry)) := by
  rw [LogQueue.markHigh]
  split
  · rename_i high
    have trips : pushStep queue telemetry (.measuring queue.head) =
        some ⟨queue, telemetry, .tripping⟩ :=
      if_pos high
    rw [runPush_step trips, runPush_step rfl, runPush]
  · rename_i low
    have calms : pushStep queue telemetry (.measuring queue.head) =
        some ⟨queue, telemetry, .idle⟩ :=
      if_neg low
    rw [runPush_step calms, runPush_idle]

omit [Leveled Entry] in
theorem runPop_measuring (queue : LogQueue Entry) (telemetry : Telemetry) (currentTail : SizeT)
    (outLog : Entry) :
    runPop 2 ⟨queue, telemetry, .measuring currentTail outLog⟩ =
      ⟨queue.markLow currentTail, telemetry, .returned (some outLog)⟩ := by
  rw [LogQueue.markLow]
  split
  · rename_i low
    have settles : popStep queue telemetry (.measuring currentTail outLog) =
        some ⟨queue, telemetry, .untripping outLog⟩ := if_pos low
    rw [runPop_step settles, runPop_step rfl, runPop]
  · rename_i high
    have finishes : popStep queue telemetry (.measuring currentTail outLog) =
        some ⟨queue, telemetry, .returned (some outLog)⟩ := if_neg high
    rw [runPop_step finishes, runPop_returned]

namespace LogQueue

variable {exponent : Nat}

variable (telemetry : Telemetry)

theorem callPush_begins (ring : queue.IsRing exponent) (running : queue.isRunning = true)
    (logLine : Entry) :
    queue.callPush telemetry logLine =
      runPush 8
        ⟨queue, telemetry, .loadingTail logLine queue.head (queue.nextIndex queue.head)⟩ := by
  have enters : pushStep queue telemetry (.entered logLine) =
      some ⟨queue, telemetry, .loadingHead logLine⟩ := by
    rcases ring.array with ⟨slots, array⟩
    simp [pushStep, array, running]
  rw [callPush, runPush_step enters]
  exact runPush_step rfl

theorem callPush_full (ring : queue.IsRing exponent) (running : queue.isRunning = true)
    (profile : queue.overflow = .dropAll) (full : queue.nextIndex queue.head = queue.tail)
    (logLine : Entry) :
    queue.callPush telemetry logLine = ⟨queue, telemetry, .idle⟩ := by
  have drops :
    pushStep queue telemetry (.loadingTail logLine queue.head (queue.nextIndex queue.head)) =
      some ⟨queue, telemetry, .idle⟩ := by
    simp only [pushStep, if_pos full, profile]
  rw [callPush_begins telemetry ring running, runPush_step drops, runPush_idle]

/-- A queue with room takes the entry, counts it, and then looks at the high
mark. -/
theorem callPush_room (ring : queue.IsRing exponent) (running : queue.isRunning = true)
    (room : queue.nextIndex queue.head ≠ queue.tail) (logLine : Entry) :
    queue.callPush telemetry logLine =
      ⟨(queue.published logLine).markHigh, telemetry.registerPushed, .idle⟩ := by
  have tests :
    pushStep queue telemetry (.loadingTail logLine queue.head (queue.nextIndex queue.head)) =
      some ⟨queue, telemetry, .rechecking logLine queue.head (queue.nextIndex queue.head)⟩ :=
    if_neg room
  have rechecks :
    pushStep queue telemetry (.rechecking logLine queue.head (queue.nextIndex queue.head)) =
      some ⟨queue, telemetry, .writing logLine queue.head (queue.nextIndex queue.head)⟩ :=
    if_neg (by rw [running]; decide)
  rw [callPush_begins telemetry ring running, runPush_step tests, runPush_step rechecks]
  exact runPush_measuring (queue.published logLine) telemetry.registerPushed

omit [Leveled Entry] in
theorem callPop_empty (running : queue.isRunning = true) (empty : queue.tail = queue.head) :
    queue.callPop telemetry = ⟨queue, telemetry, .returned none⟩ := by
  have enters : popStep queue telemetry .entered = some ⟨queue, telemetry, .loadingTail⟩ :=
    if_neg (by rw [running]; decide)
  have finds : popStep queue telemetry (.loadingHead queue.tail) =
      some ⟨queue, telemetry, .returned none⟩ :=
    if_pos empty
  rw [callPop, runPop_step enters, runPop_step rfl, runPop_step finds, runPop_returned]

omit [Leveled Entry] in
/-- Any other queue releases its oldest entry, counts it, and then looks at the
low mark. -/
theorem callPop_entry (ring : queue.IsRing exponent) (running : queue.isRunning = true)
    (nonempty : queue.tail ≠ queue.head) :
    Exists fun outLog => queue.callPop telemetry =
      ⟨queue.released.markLow queue.tail, telemetry.registerEliminated,
        .returned (some outLog)⟩ := by
  rcases ring.array with ⟨slots, array⟩
  have enters : popStep queue telemetry .entered = some ⟨queue, telemetry, .loadingTail⟩ :=
    if_neg (by rw [running]; decide)
  have finds : popStep queue telemetry (.loadingHead queue.tail) =
      some ⟨queue, telemetry, .rechecking queue.tail⟩ :=
    if_neg nonempty
  have rechecks : popStep queue telemetry (.rechecking queue.tail) =
      some ⟨queue, telemetry, .reading queue.tail⟩ :=
    if_neg (by rw [running]; decide)
  have reads : popStep queue telemetry (.reading queue.tail) =
      some ⟨queue, telemetry, .releasing queue.tail (slots queue.tail.toNat)⟩ := by
    rw [popStep, array]
    rfl
  refine ⟨slots queue.tail.toNat, ?_⟩
  rw [callPop, runPop_step enters, runPop_step rfl, runPop_step finds, runPop_step rechecks,
    runPop_step reads]
  exact runPop_measuring queue.released telemetry.registerEliminated queue.tail _

end LogQueue

end Steps

/-! ## Occupancies -/

namespace LogQueue

variable {exponent : Nat} {queue : LogQueue Entry}

namespace IsRing

theorem occupancy_eq (ring : queue.IsRing exponent) :
    queue.occupancy = distance (2 ^ exponent) queue.head.toNat queue.tail.toNat :=
  ring.occupiedSlots_toNat

/-- The code counts the entries that the queue holds. -/
theorem occupancy_eq_length
    (ring : queue.IsRing exponent) : queue.occupancy = queue.contents.length := by
  rw [ring.occupancy_eq, ring.length_contents]

theorem occupancy_lt (ring : queue.IsRing exponent) : queue.occupancy < 2 ^ exponent := by
  rw [ring.occupancy_eq_length]
  exact ring.length_contents_lt

theorem occupancy_full (ring : queue.IsRing exponent) :
    queue.nextIndex queue.head = queue.tail ↔ queue.occupancy = 2 ^ exponent - 1 := by
  rw [ring.occupancy_eq_length]
  exact ring.full_iff

theorem occupancy_zero (ring : queue.IsRing exponent) : queue.tail = queue.head ↔
    queue.occupancy = 0 := by
  rw [ring.occupancy_eq_length, List.length_eq_zero_iff]
  exact ring.empty_iff

theorem published (ring : queue.IsRing exponent) (room : queue.nextIndex queue.head ≠ queue.tail)
    (logLine : Entry) :
    (queue.published logLine).IsRing exponent ∧
    (queue.published logLine).occupancy = queue.occupancy + 1 := by
  have after : (queue.published logLine).IsRing exponent := by
    refine ⟨ring.power, ring.nextIndex_lt _, ring.tailBound, ?_⟩
    rcases ring.array with ⟨slots, array⟩
    simp [LogQueue.published, writeSlot, array]
  have apart : (queue.head.toNat + 1) % 2 ^ exponent ≠ queue.tail.toNat := by
    rw [← ring.nextIndex_toNat, Ne, BitVec.toNat_inj]
    exact room
  refine ⟨after, ?_⟩
  rw [after.occupancy_eq, ring.occupancy_eq,
    ← distance_advance_head ring.headBound ring.tailBound apart,
    ← ring.nextIndex_toNat]
  rfl

theorem released (ring : queue.IsRing exponent) (nonempty : queue.tail ≠ queue.head) :
    queue.released.IsRing exponent ∧ queue.occupancy = queue.released.occupancy + 1 := by
  have after : queue.released.IsRing exponent :=
    ⟨ring.power, ring.headBound, ring.nextIndex_lt _, ring.allocated⟩
  have apart : queue.tail.toNat ≠ queue.head.toNat :=
    fun same => nonempty (BitVec.eq_of_toNat_eq same)
  refine ⟨after, ?_⟩
  rw [after.occupancy_eq, ring.occupancy_eq,
    distance_advance_tail ring.headBound ring.tailBound apart,
    ← ring.nextIndex_toNat]
  rfl

end IsRing

end LogQueue

/-! ## Sequences of calls -/

inductive Operation (Entry : Type)
  | push (logLine : Entry)
  | pop

/-- The queue between two calls, with the occupancies since the beginning,
oldest first. -/
structure SequentialRun (Entry : Type) where
  queue : LogQueue Entry
  telemetry : Telemetry
  occupancies : List Nat

namespace SequentialRun

def completed (run : SequentialRun Entry) (queue : LogQueue Entry)
    (telemetry : Telemetry) : SequentialRun Entry :=
  { queue := queue, telemetry := telemetry, occupancies := run.occupancies ++ [queue.occupancy] }

/-- A whole call.  There is no step for a call that does not return. -/
def step [Leveled Entry] (run : SequentialRun Entry) : Operation Entry ->
    Option (SequentialRun Entry)
  | .push logLine =>
      let done := run.queue.callPush run.telemetry logLine
      match done.point with
      | .idle => some (run.completed done.queue done.telemetry)
      | _ => none
  | .pop =>
      let done := run.queue.callPop run.telemetry
      match done.point with
      | .returned _ => some (run.completed done.queue done.telemetry)
      | _ => none

end SequentialRun

/-- The sequences of calls on one queue. -/
def sequentialMachine [Leveled Entry]
    (queue : LogQueue Entry) : Machine (SequentialRun Entry) (Operation Entry) where
  initial := fun run => run.queue = queue ∧ run.occupancies = [queue.occupancy]
  step := SequentialRun.step

/-! ### Sequences are interleavings -/

section Interleavings

variable [Leveled Entry] {capacity : Nat} {profile : OverflowProfile}

/-- The steps of a call of `push`, as a run of the system. -/
theorem runPush_runs (steps : Nat) (system : QueueSystem Entry) :
    Exists fun after => (queueMachine Entry capacity profile).Runs system after ∧
      (⟨after.queue, after.telemetry, after.producer⟩ : Progress Entry (PushPoint Entry)) =
        runPush steps ⟨system.queue, system.telemetry, system.producer⟩ ∧
      after.consumer = system.consumer := by
  induction steps generalizing system with
  | zero => exact ⟨system, Relation.ReflTransGen.refl, rfl, rfl⟩
  | succ steps ih =>
      cases stepped : pushStep system.queue system.telemetry system.producer with
      | none =>
          refine ⟨system, Relation.ReflTransGen.refl, ?_, rfl⟩
          simp only [runPush, stepped]
      | some progress =>
          have first := @QueueSystem.producer_runs _ _ capacity profile system progress stepped
          rcases ih _ with ⟨after, rest, done, reads⟩
          refine ⟨after, (first.weaken fun _ _ _ => trivial).trans rest, ?_, reads⟩
          exact done.trans (runPush_step stepped).symm

theorem runPop_runs (steps : Nat) (system : QueueSystem Entry) :
    Exists fun after => (queueMachine Entry capacity profile).Runs system after ∧
      (⟨after.queue, after.telemetry, after.consumer⟩ : Progress Entry (PopPoint Entry)) =
        runPop steps ⟨system.queue, system.telemetry, system.consumer⟩ ∧
      after.producer = system.producer := by
  induction steps generalizing system with
  | zero => exact ⟨system, Relation.ReflTransGen.refl, rfl, rfl⟩
  | succ steps ih =>
      cases stepped : popStep system.queue system.telemetry system.consumer with
      | none =>
          refine ⟨system, Relation.ReflTransGen.refl, ?_, rfl⟩
          simp only [runPop, stepped]
      | some progress =>
          have first := @QueueSystem.consumer_runs _ _ capacity profile system progress stepped
          rcases ih _ with ⟨after, rest, done, idles⟩
          refine ⟨after, (first.weaken fun _ _ _ => trivial).trans rest, ?_, idles⟩
          exact done.trans (runPop_step stepped).symm

/-- No call is in progress, and queue and counters are those of the sequence. -/
structure SequentialRun.Between (run : SequentialRun Entry)
    (system : QueueSystem Entry) : Prop where
  queue : system.queue = run.queue
  telemetry : system.telemetry = run.telemetry
  producer : system.producer = .idle
  consumer : Exists fun outLog => system.consumer = .returned outLog

theorem SequentialRun.Between.next {run later : SequentialRun Entry} {system : QueueSystem Entry}
    {operation : Operation Entry} (between : run.Between system)
    (moves : run.step operation = some later) :
    Exists fun after => (queueMachine Entry capacity profile).Runs system after ∧
      later.Between after := by
  rcases between with ⟨queue, telemetry, producer, outLog, consumer⟩
  cases operation with
  | push logLine =>
      let called : QueueSystem Entry :=
        { system with
          producer := .entered logLine
          history := { system.history with atCall := system.queue } }
      have begins : system.step (.push logLine) = some called := by
        simp only [QueueSystem.step, producer]
        rfl
      rcases @runPush_runs _ _ capacity profile 10 called with ⟨after, rest, done, reads⟩
      change _ = system.queue.callPush system.telemetry logLine at done
      rw [queue, telemetry] at done
      simp only [step, ← done] at moves
      cases point : after.producer <;> rw [point] at moves <;> cases moves
      refine ⟨after, (Relation.ReflTransGen.single ⟨.push logLine, trivial, begins⟩).trans rest,
        rfl, rfl, point, ?_⟩
      exact ⟨outLog, reads.trans consumer⟩
  | pop =>
      let called : QueueSystem Entry := { system with consumer := .entered }
      have begins : system.step .pop = some called := by
        simp only [QueueSystem.step, consumer]
        rfl
      rcases @runPop_runs _ _ capacity profile 9 called with ⟨after, rest, done, idles⟩
      change _ = system.queue.callPop system.telemetry at done
      rw [queue, telemetry] at done
      simp only [step, ← done] at moves
      cases point : after.consumer <;> rw [point] at moves <;> cases moves
      exact ⟨after, (Relation.ReflTransGen.single ⟨.pop, trivial, begins⟩).trans rest, rfl, rfl,
        idles.trans producer, _, point⟩

end Interleavings

end Core
end VortexEngine
