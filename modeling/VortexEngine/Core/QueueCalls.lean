import VortexEngine.Core.QueueInvariant

open VortexEngine.Foundations

namespace VortexEngine
namespace Core

/-!
# Calls that nobody disturbs

A call of `push` on a running queue with room publishes its entry, and a call
of `pop` on a running queue returns the oldest one, when the other thread
stands still meanwhile.  Both calls end after finitely many steps of their own
thread.
-/

variable {Entry : Type} [Leveled Entry] {exponent capacity : Nat} {profile : OverflowProfile}

theorem pushStep_isSome {queue : LogQueue Entry} {telemetry : Telemetry} {point : PushPoint Entry}
    (called : point ≠ .idle) :
      Exists fun progress => pushStep queue telemetry point = some progress := by
  cases point with
  | idle => exact absurd rfl called
  | entered logLine =>
      rw [pushStep]
      split
      · exact ⟨_, rfl⟩
      · split <;> exact ⟨_, rfl⟩
  | loadingTail logLine currentHead nextHead =>
      rw [pushStep]
      split
      · cases queue.overflow with
        | block => exact ⟨_, rfl⟩
        | dropAll => exact ⟨_, rfl⟩
        | dropNonCritical => simp only; split <;> exact ⟨_, rfl⟩
        | passCriticalDropElse => simp only; split <;> exact ⟨_, rfl⟩
      · exact ⟨_, rfl⟩
  | waiting logLine currentHead nextHead =>
      rw [pushStep]
      split <;> exact ⟨_, rfl⟩
  | rechecking logLine currentHead nextHead =>
      rw [pushStep]
      split <;> exact ⟨_, rfl⟩
  | measuring nextHead =>
      rw [pushStep]
      split <;> exact ⟨_, rfl⟩
  | _ => exact ⟨_, rfl⟩

namespace QueueSystem

/-- Only the producing thread moves. -/
def onlyProducer (_system : QueueSystem Entry) (action : QueueAction Entry) : Prop :=
  action = .producer

/-- Only the consuming thread moves. -/
def onlyConsumer (_system : QueueSystem Entry) (action : QueueAction Entry) : Prop :=
  action = .consumer

variable {system : QueueSystem Entry}

theorem producer_runs {progress : Progress Entry (PushPoint Entry)}
    (stepped : pushStep system.queue system.telemetry system.producer = some progress) :
    (queueMachine Entry capacity profile).RunsUnder onlyProducer system
      { system with
        queue := progress.queue
        telemetry := progress.telemetry
        producer := progress.point
        history := system.history.afterPush system.queue progress.queue system.producer
          progress.point } := by
  refine Relation.ReflTransGen.single ⟨.producer, rfl, ?_⟩
  change (pushStep system.queue system.telemetry system.producer).map _ = _
  rw [stepped]
  rfl

theorem consumer_runs {progress : Progress Entry (PopPoint Entry)}
    (stepped : popStep system.queue system.telemetry system.consumer = some progress) :
    (queueMachine Entry capacity profile).RunsUnder onlyConsumer system
      { system with
        queue := progress.queue
        telemetry := progress.telemetry
        consumer := progress.point
        history := system.history.afterPop system.consumer } := by
  refine Relation.ReflTransGen.single ⟨.consumer, rfl, ?_⟩
  change (popStep system.queue system.telemetry system.consumer).map _ = _
  rw [stepped]
  rfl

/-- A running queue with the given unread entries, between two calls of `push`
and with the consumer at a given point. -/
structure Holds (exponent : Nat) (entries : List Entry) (consumer : PopPoint Entry)
    (system : QueueSystem Entry) : Prop where
  ring : system.queue.IsRing exponent
  running : system.queue.isRunning = true
  contents : system.queue.contents = entries
  producer : system.producer = .idle
  consumer : system.consumer = consumer

/-- What is left of a call behind the store of `head` changes no entry. -/
theorem notifying_returns {entries : List Entry} {consumer : PopPoint Entry} {nextHead : SizeT}
    (holds : Holds exponent entries consumer { system with producer := .idle })
    (notifies : system.producer = .notifying nextHead) :
    Exists fun after => (queueMachine Entry capacity profile).RunsUnder onlyProducer system after ∧
      Holds exponent entries consumer after := by
  rcases system with ⟨queue, telemetry, producer, reader, history⟩
  cases notifies
  rcases holds with ⟨ring, running, contents, _, reads⟩
  have counted := @producer_runs _ _ capacity profile
    ⟨queue, telemetry, .notifying nextHead, reader, history⟩ _ rfl
  have measured := counted.trans (producer_runs rfl)
  by_cases high : queue.highWatermark ≤ queue.occupiedSlots nextHead queue.tail
  · have tripping := measured.trans (producer_runs
      (show _ = some ⟨queue, telemetry.registerPushed, .tripping⟩ from if_pos high))
    exact ⟨_, tripping.trans (producer_runs rfl),
      ⟨⟨ring.power, ring.headBound, ring.tailBound, ring.allocated⟩, running, contents, rfl, reads⟩⟩
  · have returned := measured.trans (producer_runs
      (show _ = some ⟨queue, telemetry.registerPushed, .idle⟩ from if_neg high))
    exact ⟨_, returned, ⟨ring, running, contents, rfl, reads⟩⟩

/-- A call of `push` on a running queue with room publishes its entry. -/
theorem push_publishes {logLine : Entry} {entries : List Entry} {consumer : PopPoint Entry}
    (holds : Holds exponent entries consumer { system with producer := .idle })
    (room : entries.length ≠ 2 ^ exponent - 1) (entered : system.producer = .entered logLine) :
    Exists fun after => (queueMachine Entry capacity profile).RunsUnder onlyProducer system after ∧
      Holds exponent (entries ++ [logLine]) consumer after := by
  rcases system with ⟨queue, telemetry, producer, reader, history⟩
  cases entered
  rcases holds with ⟨ring, running, contents, _, reads⟩
  change queue.contents = entries at contents
  change queue.IsRing exponent at ring
  change queue.isRunning = true at running
  have notFull : queue.nextIndex queue.head ≠ queue.tail := fun full =>
    room (contents ▸ ring.full_iff.mp full)
  have checked : pushStep queue telemetry (.entered logLine) =
      some ⟨queue, telemetry, .loadingHead logLine⟩ := by
    rcases ring.array with ⟨slots, array⟩
    simp [pushStep, array, running]
  have tested :
    pushStep queue telemetry (.loadingTail logLine queue.head (queue.nextIndex queue.head)) =
      some ⟨queue, telemetry, .rechecking logLine queue.head (queue.nextIndex queue.head)⟩ :=
    if_neg notFull
  have rechecked :
    pushStep queue telemetry (.rechecking logLine queue.head (queue.nextIndex queue.head)) =
      some ⟨queue, telemetry, .writing logLine queue.head (queue.nextIndex queue.head)⟩ :=
    if_neg (by rw [running]; decide)
  have entering := @producer_runs _ _ capacity profile
    ⟨queue, telemetry, .entered logLine, reader, history⟩ _ checked
  have testing := (entering.trans (producer_runs rfl)).trans (producer_runs tested)
  have published :=
    ((testing.trans (producer_runs rechecked)).trans (producer_runs rfl)).trans (producer_runs rfl)
  have written : (queue.writeSlot queue.head logLine).IsRing exponent := by
    refine ⟨ring.power, ring.headBound, ring.tailBound, ?_⟩
    rcases ring.array with ⟨slots, array⟩
    simp [LogQueue.writeSlot, array]
  have stored := queue.slot_writeSlot_self queue.head logLine ring.allocated
  have extended := written.contents_storeHead notFull stored
  rw [ring.contents_writeSlot, contents] at extended
  have reached : Exists fun middle => (queueMachine Entry capacity profile).RunsUnder onlyProducer
      ⟨queue, telemetry, .entered logLine, reader, history⟩ middle ∧
      middle.producer = .notifying (queue.nextIndex queue.head) ∧
      Holds exponent (entries ++ [logLine]) consumer { middle with producer := .idle } :=
    ⟨_, published, rfl,
      ⟨⟨written.power, ring.nextIndex_lt _, written.tailBound, written.allocated⟩, running,
        extended, rfl, reads⟩⟩
  rcases reached with ⟨middle, first, notifies, held⟩
  rcases notifying_returns held notifies with ⟨after, rest, done⟩
  exact ⟨after, first.trans rest, done⟩

/-- A whole call of `push`, from its beginning to its return. -/
structure PushCall (capacity : Nat) (profile : OverflowProfile) (logLine : Entry)
    (before after : QueueSystem Entry) : Prop where
  runs : Exists fun called => before.step (.push logLine) = some called ∧
    (queueMachine Entry capacity profile).RunsUnder onlyProducer called after
  returned : after.producer = .idle

/-- One thread on its own has one way to go. -/
theorem PushCall.unique {logLine : Entry} {before left right : QueueSystem Entry}
    (leftCall : PushCall capacity profile logLine before left)
    (rightCall : PushCall capacity profile logLine before right) : left = right := by
  have deterministic :
      Relator.RightUnique ((queueMachine Entry capacity profile).StepUnder onlyProducer) := by
    rintro state next next' ⟨action, rfl, moves⟩ ⟨action', rfl, moves'⟩
    exact Option.some.inj (moves.symm.trans moves')
  have ends : forall {state next : QueueSystem Entry}, state.producer = .idle ->
      (queueMachine Entry capacity profile).RunsUnder onlyProducer state next -> next = state := by
    intro state next idle run
    rcases Relation.ReflTransGen.cases_head run with same | ⟨middle, ⟨action, rfl, moves⟩, _⟩
    · exact same.symm
    · change (pushStep state.queue state.telemetry state.producer).map _ = _ at moves
      rw [idle] at moves
      cases moves
  rcases leftCall.runs with ⟨called, begins, leftRun⟩
  rcases rightCall.runs with ⟨called', begins', rightRun⟩
  cases begins.symm.trans begins'
  rcases Relation.ReflTransGen.total_of_right_unique deterministic leftRun rightRun with
    further | further
  · exact (ends leftCall.returned further).symm
  · exact ends rightCall.returned further

theorem Holds.push_call {entries : List Entry} {consumer : PopPoint Entry}
    (holds : Holds exponent entries consumer system) (room : entries.length ≠ 2 ^ exponent - 1)
    (logLine : Entry) :
    Exists fun after => PushCall capacity profile logLine system after ∧
      Holds exponent (entries ++ [logLine]) consumer after := by
  have called : system.step (.push logLine) = some
      { system with
        producer := .entered logLine
        history := { system.history with atCall := system.queue } } := by
    simp only [step, holds.producer]
  have held : Holds exponent entries consumer
      { system with
        producer := .idle, history := { system.history with atCall := system.queue } } :=
    ⟨holds.ring, holds.running, holds.contents, rfl, holds.consumer⟩
  rcases @push_publishes _ _ exponent capacity profile
    { system with
      producer := .entered logLine
      history := { system.history with atCall := system.queue } }
    logLine entries consumer held room rfl with ⟨after, run, done⟩
  exact ⟨after, ⟨⟨_, called, run⟩, done.producer⟩, done⟩

theorem pop_returns {outLog : Entry} {entries : List Entry}
    (holds : Holds exponent (outLog :: entries) .entered system) :
    Exists fun after => (queueMachine Entry capacity profile).RunsUnder onlyConsumer system after ∧
      Holds exponent entries (.returned (some outLog)) after := by
  rcases system with ⟨queue, telemetry, producer, consumer, history⟩
  rcases holds with ⟨ring, running, contents, rfl, rfl⟩
  change queue.contents = outLog :: entries at contents
  change queue.IsRing exponent at ring
  change queue.isRunning = true at running
  have nonempty : queue.tail ≠ queue.head := by
    intro empty
    rw [ring.empty_iff.mp empty] at contents
    cases contents
  rcases ring.array with ⟨slots, array⟩
  have stored : queue.slot queue.tail = some (slots queue.tail.toNat) := by
    rw [LogQueue.slot, array]
    rfl
  have oldest := ring.contents_storeTail nonempty stored
  rw [contents] at oldest
  rcases List.cons.inj oldest with ⟨same, remaining⟩
  have reads : popStep queue telemetry (.reading queue.tail) =
      some ⟨queue, telemetry, .releasing queue.tail outLog⟩ := by
    rw [popStep, array, same]
    rfl
  have stopped : ¬ queue.isRunning = false := by rw [running]; decide
  have checking := @consumer_runs _ _ capacity profile
    ⟨queue, telemetry, .idle, .entered, history⟩ _ (if_neg stopped)
  have testing := (checking.trans (consumer_runs rfl)).trans (consumer_runs (if_neg nonempty))
  have reading := (testing.trans (consumer_runs (if_neg stopped))).trans (consumer_runs reads)
  have measuring := (reading.trans (consumer_runs rfl)).trans (consumer_runs rfl)
  have advanced :
      ({ queue with tail := queue.nextIndex queue.tail } : LogQueue Entry).IsRing exponent :=
    ⟨ring.power, ring.headBound, ring.nextIndex_lt _, ring.allocated⟩
  by_cases low : queue.totalSlots - queue.occupiedSlots queue.head queue.tail ≤ queue.lowWatermark
  · have settled := (measuring.trans (consumer_runs (if_pos low))).trans (consumer_runs rfl)
    exact ⟨_, settled,
      ⟨⟨advanced.power, advanced.headBound, advanced.tailBound, advanced.allocated⟩, running,
      remaining.symm, rfl, rfl⟩⟩
  · exact ⟨_, measuring.trans (consumer_runs (if_neg low)),
      ⟨advanced, running, remaining.symm, rfl, rfl⟩⟩

end QueueSystem

end Core
end VortexEngine
