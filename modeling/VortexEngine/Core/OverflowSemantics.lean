import VortexEngine.Core.QueueCalls
import VortexEngine.Core.WaitLoop
import VortexEngine.Foundations.LossyBuffer

open VortexEngine.Foundations

namespace VortexEngine
namespace Core

/-!
# What each overflow profile means

Calls that do not overlap make every profile a bounded buffer that may
overwrite.  The profiles differ in the entries that a full queue stores.  The
store moves the head onto the tail, so the queue counts as empty behind it: it
has lost every entry that it held, and the stored one with them.

The two profiles that wait store too.  Their loop compares the tail with the
head's own index, which a full queue of at least two slots never makes equal,
so a call that nobody disturbs leaves the loop at its first test.
-/

variable {Entry : Type} [Leveled Entry] {exponent capacity : Nat} {profile : OverflowProfile}

/-- The entries that `push` stores although the queue is full. -/
def OverflowProfile.Overwrites (profile : OverflowProfile) (logLine : Entry) : Prop :=
  match profile with
  | .block => True
  | .dropAll => False
  | .dropNonCritical | .passCriticalDropElse => Leveled.level logLine = .critical

instance : (profile : OverflowProfile) -> DecidablePred (profile.Overwrites : Entry -> Prop)
  | .block => fun _ => inferInstanceAs (Decidable True)
  | .dropAll => fun _ => inferInstanceAs (Decidable False)
  | .dropNonCritical | .passCriticalDropElse => fun logLine =>
      inferInstanceAs (Decidable (Leveled.level logLine = .critical))

/-- The buffer that a queue of `2 ^ exponent` slots should be. -/
def bufferAfter (exponent : Nat) (profile : OverflowProfile)
    (calls : List (LossyCall Entry)) : LossyBuffer Entry :=
  LossyBuffer.empty.callAll (2 ^ exponent - 1) profile.Overwrites calls

namespace QueueSystem

/-- A whole call of `pop` with its result. -/
structure PopCall (capacity : Nat) (profile : OverflowProfile) (outLog : Option Entry)
    (before after : QueueSystem Entry) : Prop where
  runs : Exists fun called => before.step .pop = some called ∧
    (queueMachine Entry capacity profile).RunsUnder onlyConsumer called after
  returned : after.consumer = .returned outLog

theorem PopCall.unique {first second : Option Entry} {before left right : QueueSystem Entry}
    (leftCall : PopCall capacity profile first before left)
    (rightCall : PopCall capacity profile second before right) : first = second ∧ left = right := by
  have ends : forall {state : QueueSystem Entry} {outLog : Option Entry},
    state.consumer = .returned outLog ->
      forall next, ¬ (queueMachine Entry capacity profile).StepUnder onlyConsumer state next := by
    rintro state outLog returned next ⟨action, rfl, moves⟩
    change (popStep state.queue state.telemetry state.consumer).map _ = _ at moves
    rw [returned] at moves
    cases moves
  rcases leftCall.runs with ⟨called, begins, leftRun⟩
  rcases rightCall.runs with ⟨called', begins', rightRun⟩
  cases begins.symm.trans begins'
  have same : left = right := by
    apply Machine.RunsUnder.ends_alike _ leftRun rightRun (ends leftCall.returned)
      (ends rightCall.returned)
    rintro _ action action' rfl rfl
    rfl
  have results := leftCall.returned.symm.trans (same ▸ rightCall.returned)
  cases results
  exact ⟨rfl, same⟩

/-- Calls one after another, each one returned before the next begins, with
what the calls of `pop` have returned. -/
inductive InTurn (capacity : Nat) (profile : OverflowProfile) :
    List (LossyCall Entry) -> List (Option Entry) -> QueueSystem Entry -> QueueSystem Entry -> Prop
  | nothing {system} : InTurn capacity profile [] [] system system
  | push {logLine calls answers before middle after}
      (call : PushCall capacity profile logLine before middle)
      (rest : InTurn capacity profile calls answers middle after) :
      InTurn capacity profile (.write logLine :: calls) answers before after
  | pop {outLog calls answers before middle after}
      (call : PopCall capacity profile outLog before middle)
      (rest : InTurn capacity profile calls answers middle after) :
      InTurn capacity profile (.read :: calls) (outLog :: answers) before after
  | finish {calls answers before middle after} (stops : before.step .setFinished = some middle)
      (rest : InTurn capacity profile calls answers middle after) :
      InTurn capacity profile (.close :: calls) answers before after

/-! ## The queue as a buffer -/

/-- No call is in progress, and the queue, its counters and its history are
those of the buffer. -/
structure Represents (exponent : Nat) (profile : OverflowProfile) (telemetry : Telemetry)
    (buffer : LossyBuffer Entry) (system : QueueSystem Entry) : Prop where
  ring : system.queue.IsRing exponent
  policy : system.queue.overflow = profile
  running : system.queue.isRunning = !buffer.closed
  contents : system.queue.contents = buffer.pending
  pushed : system.telemetry.pushedLogs =
    telemetry.pushedLogs + BitVec.ofNat 64 buffer.accepted.length
  eliminated : system.telemetry.eliminatedLogs =
    telemetry.eliminatedLogs + BitVec.ofNat 64 buffer.delivered.length
  published : system.history.published = buffer.accepted
  popped : system.history.popped = buffer.delivered
  producer : system.producer = .idle
  consumer : Exists fun outLog => system.consumer = .returned outLog

variable {telemetry : Telemetry} {buffer : LossyBuffer Entry} {system : QueueSystem Entry}

omit [Leveled Entry] in
theorem counted_append (counter : UInt64T) (entries : List Entry) (entry : Entry) :
    counter + BitVec.ofNat 64 (entries ++ [entry]).length =
      counter + BitVec.ofNat 64 entries.length + 1 := by
  rw [List.length_append, List.length_singleton, BitVec.ofNat_add, ← BitVec.add_assoc]
  rfl

omit [Leveled Entry] in
/-- The store of `head` appends the entry, or it empties a full queue. -/
theorem contents_stored {queue : LogQueue Entry} (ring : queue.IsRing exponent) (logLine : Entry) :
    ({ queue.writeSlot queue.head logLine with head := queue.nextIndex queue.head } :
      LogQueue Entry).contents =
      if queue.nextIndex queue.head = queue.tail then [] else queue.contents ++ [logLine] := by
  have written : (queue.writeSlot queue.head logLine).IsRing exponent := by
    refine ⟨ring.power, ring.headBound, ring.tailBound, ?_⟩
    rcases ring.array with ⟨slots, array⟩
    simp [LogQueue.writeSlot, array]
  split
  · rename_i full
    have advanced :
      ({ queue.writeSlot queue.head logLine with head := queue.nextIndex queue.head } :
        LogQueue Entry).IsRing exponent :=
      ⟨written.power, ring.nextIndex_lt _, written.tailBound, written.allocated⟩
    exact advanced.empty_iff.mp full.symm
  · rename_i room
    have stored := queue.slot_writeSlot_self queue.head logLine ring.allocated
    have extended := written.contents_storeHead room stored
    rw [ring.contents_writeSlot] at extended
    exact extended

/-- A call behind its full test stores the entry and returns. -/
theorem Represents.stores {logLine : Entry}
    (represents : Represents exponent profile telemetry buffer { system with producer := .idle })
    (opened : buffer.closed = false)
    (stands : system.producer =
      .rechecking logLine system.queue.head (system.queue.nextIndex system.queue.head))
    {pending : List Entry}
    (holds : (if system.queue.nextIndex system.queue.head = system.queue.tail then []
      else buffer.pending ++ [logLine]) = pending) (lost : Nat) :
    Exists fun after => (queueMachine Entry capacity profile).RunsUnder onlyProducer system after ∧
      Represents exponent profile telemetry
        { buffer with pending := pending, accepted := buffer.accepted ++ [logLine], lost := lost }
          after := by
  rcases system with ⟨queue, counters, producer, reader, history⟩
  change producer = .rechecking logLine queue.head (queue.nextIndex queue.head) at stands
  subst stands
  rcases represents with
    ⟨ring, policy, running, contents, pushed, eliminated, published, popped, _, consumer⟩
  change queue.IsRing exponent at ring
  change queue.overflow = profile at policy
  change queue.isRunning = !buffer.closed at running
  change queue.contents = buffer.pending at contents
  rw [opened] at running
  have stored := contents_stored ring logLine
  rw [contents, holds] at stored
  have rechecks :
    pushStep queue counters (.rechecking logLine queue.head (queue.nextIndex queue.head)) =
      some ⟨queue, counters, .writing logLine queue.head (queue.nextIndex queue.head)⟩ :=
    if_neg (by rw [running]; decide)
  have writing := @producer_runs _ _ capacity profile
    ⟨queue, counters, .rechecking logLine queue.head (queue.nextIndex queue.head), reader, history⟩
      _ rechecks
  have publishing := (writing.trans (producer_runs rfl)).trans (producer_runs rfl)
  have measuring := (publishing.trans (producer_runs rfl)).trans (producer_runs rfl)
  have allocated : (queue.writeSlot queue.head logLine).logArray ≠ none := by
    rcases ring.array with ⟨slots, array⟩
    simp [LogQueue.writeSlot, array]
  have after : ({ queue.writeSlot queue.head logLine with head := queue.nextIndex queue.head } :
      LogQueue Entry).IsRing exponent :=
        ⟨ring.power, ring.nextIndex_lt _, ring.tailBound, allocated⟩
  have counts : counters.pushedLogs + 1 =
      telemetry.pushedLogs + BitVec.ofNat 64 (buffer.accepted ++ [logLine]).length := by
    rw [counted_append]
    exact congrArg (· + 1) pushed
  have adds : history.published ++ [logLine] = buffer.accepted ++ [logLine] :=
    congrArg (· ++ [logLine]) published
  have runs : queue.isRunning = !buffer.closed := by rw [running, opened]
  by_cases high : queue.highWatermark ≤ queue.occupiedSlots (queue.nextIndex queue.head) queue.tail
  · have tripping := measuring.trans (producer_runs (if_pos high))
    exact ⟨_, tripping.trans (producer_runs rfl),
      ⟨⟨after.power, after.headBound, after.tailBound, after.allocated⟩, policy, runs, stored,
        counts, eliminated, adds, popped, rfl, consumer⟩⟩
  · exact ⟨_, measuring.trans (producer_runs (if_neg high)),
      ⟨after, policy, runs, stored, counts, eliminated, adds, popped, rfl, consumer⟩⟩

/-- The full test drops an entry that is not to overwrite. -/
theorem loadingTail_drops {queue : LogQueue Entry} {counters : Telemetry} {logLine : Entry}
    {currentHead nextHead : SizeT} (full : nextHead = queue.tail)
    (drops : ¬ queue.overflow.Overwrites logLine) :
    pushStep queue counters (.loadingTail logLine currentHead nextHead) =
      some ⟨queue, counters, .idle⟩ := by
  rw [pushStep, if_pos full]
  cases policy : queue.overflow with
  | block => exact absurd (policy ▸ trivial) drops
  | dropAll => rfl
  | dropNonCritical =>
      rw [policy] at drops
      exact if_pos drops
  | passCriticalDropElse =>
      rw [policy] at drops
      exact if_pos drops

/-- Behind the full test the call goes on to the store when there is room or
the entry is to overwrite, at once or through the first test of the wait
loop. -/
theorem loadingTail_goesOn {logLine : Entry}
    (represents : Represents (exponent + 1) profile telemetry buffer
      { system with producer := .idle })
    (stands : system.producer =
      .loadingTail logLine system.queue.head (system.queue.nextIndex system.queue.head))
    (goesOn : system.queue.nextIndex system.queue.head = system.queue.tail ->
      system.queue.overflow.Overwrites logLine) :
    Exists fun middle =>
      (queueMachine Entry capacity profile).RunsUnder onlyProducer system middle ∧
      Represents (exponent + 1) profile telemetry buffer { middle with producer := .idle } ∧
        middle.queue = system.queue ∧
          middle.producer = .rechecking logLine system.queue.head
            (system.queue.nextIndex system.queue.head) := by
  rcases system with ⟨queue, counters, producer, reader, history⟩
  change producer = .loadingTail logLine queue.head (queue.nextIndex queue.head) at stands
  subst stands
  rcases represents with
    ⟨ring, policy, running, contents, pushed, eliminated, published, popped, _, consumer⟩
  change queue.IsRing (exponent + 1) at ring
  change queue.nextIndex queue.head = queue.tail -> queue.overflow.Overwrites logLine at goesOn
  by_cases full : queue.nextIndex queue.head = queue.tail
  · have stores := goesOn full
    have apart : queue.head ≠ queue.tail :=
      fun same => ring.nextIndex_ne ring.headBound (full.trans same.symm)
    have leaves :
      pushStep queue counters (.waiting logLine queue.head (queue.nextIndex queue.head)) =
        some ⟨queue, counters, .rechecking logLine queue.head (queue.nextIndex queue.head)⟩ :=
          if_neg apart
    have through :
      pushStep queue counters (.loadingTail logLine queue.head (queue.nextIndex queue.head)) =
          some ⟨queue, counters, .waiting logLine queue.head (queue.nextIndex queue.head)⟩ ∨
        pushStep queue counters (.loadingTail logLine queue.head (queue.nextIndex queue.head)) =
          some ⟨queue, counters, .rechecking logLine queue.head (queue.nextIndex queue.head)⟩ := by
      rw [pushStep, if_pos full]
      cases policed : queue.overflow <;> rw [policed] at stores
      · exact Or.inl rfl
      · exact absurd stores not_false
      · exact Or.inl (if_neg (fun differs => differs stores))
      · exact Or.inr (if_neg (fun differs => differs stores))
    rcases through with waits | passes
    · have waiting := @producer_runs _ _ capacity profile
        ⟨queue, counters, .loadingTail logLine queue.head (queue.nextIndex queue.head), reader,
          history⟩ _ waits
      exact ⟨_, waiting.trans (producer_runs leaves),
        ⟨ring, policy, running, contents, pushed, eliminated, published, popped, rfl, consumer⟩,
          rfl, rfl⟩
    · have passing := @producer_runs _ _ capacity profile
        ⟨queue, counters, .loadingTail logLine queue.head (queue.nextIndex queue.head), reader,
          history⟩ _ passes
      exact ⟨_, passing,
        ⟨ring, policy, running, contents, pushed, eliminated, published, popped, rfl, consumer⟩,
          rfl, rfl⟩
  · have finds :
      pushStep queue counters (.loadingTail logLine queue.head (queue.nextIndex queue.head)) =
        some ⟨queue, counters, .rechecking logLine queue.head (queue.nextIndex queue.head)⟩ :=
          if_neg full
    have finding := @producer_runs _ _ capacity profile
      ⟨queue, counters, .loadingTail logLine queue.head (queue.nextIndex queue.head), reader,
        history⟩ _ finds
    exact ⟨_, finding,
      ⟨ring, policy, running, contents, pushed, eliminated, published, popped, rfl, consumer⟩, rfl,
        rfl⟩

omit [Leveled Entry] in
/-- The full test is the bound of the buffer. -/
theorem Represents.full_iff
    (represents : Represents exponent profile telemetry buffer system) :
    system.queue.nextIndex system.queue.head = system.queue.tail ↔
      ¬ buffer.pending.length < 2 ^ exponent - 1 := by
  have short := represents.ring.length_contents_lt
  rw [represents.ring.full_iff, represents.contents]
  rw [represents.contents] at short
  omega

theorem Represents.push_call
    (represents : Represents (exponent + 1) profile telemetry buffer system) (logLine : Entry) :
    Exists fun after => PushCall capacity profile logLine system after ∧
      Represents (exponent + 1) profile telemetry
        (buffer.write (2 ^ (exponent + 1) - 1) profile.Overwrites logLine) after := by
  have full_iff := represents.full_iff
  rcases system with ⟨queue, counters, producer, reader, history⟩
  rcases represents with
    ⟨ring, policy, running, contents, pushed, eliminated, published, popped, rfl, consumer⟩
  change queue.IsRing (exponent + 1) at ring
  change queue.overflow = profile at policy
  change queue.isRunning = !buffer.closed at running
  change queue.nextIndex queue.head = queue.tail ↔ _ at full_iff
  subst policy
  rcases ring.array with ⟨slots, array⟩
  cases closed : buffer.closed with
  | true =>
      rw [LossyBuffer.write_closed closed]
      have refuses : pushStep queue counters (.entered logLine) =
          some ⟨queue, counters, .idle⟩ := by
        simp [pushStep, array, running, closed]
      exact ⟨_, ⟨⟨_, rfl, producer_runs refuses⟩, rfl⟩,
        ⟨ring, rfl, running, contents, pushed, eliminated, published, popped, rfl, consumer⟩⟩
  | false =>
      have enters : pushStep queue counters (.entered logLine) =
          some ⟨queue, counters, .loadingHead logLine⟩ := by
        simp [pushStep, array, running, closed]
      have entering := @producer_runs _ _ capacity queue.overflow
        ⟨queue, counters, .entered logLine, reader, { history with atCall := queue }⟩ _ enters
      have loading := entering.trans (producer_runs rfl)
      by_cases goesOn : queue.nextIndex queue.head = queue.tail -> queue.overflow.Overwrites logLine
      · rcases @loadingTail_goesOn _ _ exponent capacity queue.overflow telemetry buffer
          ⟨queue, counters, .loadingTail logLine queue.head (queue.nextIndex queue.head), reader,
            { history with atCall := queue }⟩ logLine
          ⟨ring, rfl, running, contents, pushed, eliminated, published, popped, rfl, consumer⟩
            rfl goesOn with
          ⟨middle, onward, held, same, stands⟩
        change middle.queue = queue at same
        rw [← same] at stands
        by_cases room : buffer.pending.length < 2 ^ (exponent + 1) - 1
        · rw [LossyBuffer.write_room closed room]
          have notFull : middle.queue.nextIndex middle.queue.head ≠ middle.queue.tail := by
            rw [same]
            exact fun full => full_iff.mp full room
          rcases held.stores closed stands (if_neg notFull) buffer.lost with ⟨after, rest, done⟩
          exact ⟨after, ⟨⟨_, rfl, (loading.trans onward).trans rest⟩, done.producer⟩, done⟩
        · have full : middle.queue.nextIndex middle.queue.head = middle.queue.tail := by
            rw [same]
            exact full_iff.mpr room
          rw [LossyBuffer.write_over closed room (goesOn (full_iff.mpr room))]
          rcases held.stores closed stands (if_pos full)
              (buffer.lost + (buffer.pending.length + 1)) with
            ⟨after, rest, done⟩
          exact ⟨after, ⟨⟨_, rfl, (loading.trans onward).trans rest⟩, done.producer⟩, done⟩
      · rcases Classical.not_imp.mp goesOn with ⟨full, drops⟩
        rw [LossyBuffer.write_refused (full_iff.mp full) drops]
        exact ⟨_, ⟨⟨_, rfl, loading.trans (producer_runs (loadingTail_drops full drops))⟩, rfl⟩,
          ⟨ring, rfl, running, contents, pushed, eliminated, published, popped, rfl, consumer⟩⟩

theorem Represents.pop_call (represents : Represents exponent profile telemetry buffer system) :
    Exists fun outLog => Exists fun after => PopCall capacity profile outLog system after ∧
      buffer.read.answers = buffer.answers ++ [outLog] ∧
        Represents exponent profile telemetry buffer.read after := by
  rcases system with ⟨queue, counters, producer, reader, history⟩
  rcases represents with
    ⟨ring, policy, running, contents, pushed, eliminated, published, popped, idle, ⟨last, rfl⟩⟩
  change queue.IsRing exponent at ring
  change queue.isRunning = !buffer.closed at running
  change queue.contents = buffer.pending at contents
  have unread :
    Represents exponent profile telemetry { buffer with answers := buffer.answers ++ [none] }
      ⟨queue, counters, producer, .returned none, history⟩ := by
    rw [← LossyBuffer.delivered_none buffer] at eliminated popped
    exact ⟨ring, policy, running, contents, pushed, eliminated, published, popped, idle, none, rfl⟩
  cases closed : buffer.closed with
  | true =>
      rw [LossyBuffer.read_closed closed]
      have refuses : popStep queue counters .entered = some ⟨queue, counters, .returned none⟩ :=
        if_pos (by rw [running, closed]; rfl)
      exact ⟨none, _, ⟨⟨_, rfl, consumer_runs refuses⟩, rfl⟩, rfl, unread⟩
  | false =>
      have stopped : ¬ queue.isRunning = false := by
        rw [running, closed]
        decide
      have entering :=
        @consumer_runs _ _ capacity profile ⟨queue, counters, producer, .entered, history⟩ _
        (if_neg stopped)
      have loading := entering.trans (consumer_runs rfl)
      cases pending : buffer.pending with
      | nil =>
          rw [LossyBuffer.read_empty pending]
          have empty : queue.tail = queue.head := ring.empty_iff.mpr (contents.trans pending)
          exact ⟨none, _, ⟨⟨_, rfl, loading.trans (consumer_runs (if_pos empty))⟩, rfl⟩,
            rfl, unread⟩
      | cons outLog rest =>
          rw [LossyBuffer.read_first closed pending]
          have nonempty : queue.tail ≠ queue.head := by
            intro empty
            have none := (ring.empty_iff.mp empty).symm.trans (contents.trans pending)
            cases none
          rcases ring.array with ⟨slots, array⟩
          have stored : queue.slot queue.tail = some (slots queue.tail.toNat) := by
            unfold LogQueue.slot
            rw [array]
            rfl
          have oldest :=
            (ring.contents_storeTail nonempty stored).symm.trans (contents.trans pending)
          rcases List.cons.inj oldest with ⟨same, remaining⟩
          have reads : popStep queue counters (.reading queue.tail) =
              some ⟨queue, counters, .releasing queue.tail outLog⟩ := by
            rw [popStep, array, ← same]
            rfl
          have reading :=
            (loading.trans (consumer_runs (if_neg nonempty))).trans (consumer_runs (if_neg stopped))
          have releasing := (reading.trans (consumer_runs reads)).trans (consumer_runs rfl)
          have measuring := releasing.trans (consumer_runs rfl)
          have advanced :
              ({ queue with tail := queue.nextIndex queue.tail } : LogQueue Entry).IsRing
              exponent :=
            ⟨ring.power, ring.headBound, ring.nextIndex_lt _, ring.allocated⟩
          have takes :
            ({ buffer with pending := rest, answers := buffer.answers ++ [some outLog] } :
              LossyBuffer Entry).delivered = buffer.delivered ++ [outLog] :=
                LossyBuffer.delivered_some buffer outLog
          have counts : counters.eliminatedLogs + 1 =
              telemetry.eliminatedLogs + BitVec.ofNat 64 (buffer.delivered ++ [outLog]).length := by
            rw [counted_append]
            exact congrArg (· + 1) eliminated
          have adds : history.popped ++ [outLog] = buffer.delivered ++ [outLog] :=
            congrArg (· ++ [outLog]) popped
          rw [← takes] at counts adds
          by_cases low : queue.totalSlots - queue.occupiedSlots queue.head queue.tail ≤
            queue.lowWatermark
          · have settling :=
              (measuring.trans (consumer_runs (if_pos low))).trans (consumer_runs rfl)
            exact ⟨some outLog, _, ⟨⟨_, rfl, settling⟩, rfl⟩, rfl,
              ⟨⟨advanced.power, advanced.headBound, advanced.tailBound, advanced.allocated⟩,
                policy, running, remaining, pushed, counts, published, adds, idle, _, rfl⟩⟩
          · have settling := measuring.trans (consumer_runs (if_neg low))
            exact ⟨some outLog, _, ⟨⟨_, rfl, settling⟩, rfl⟩, rfl,
              ⟨advanced, policy, running, remaining, pushed, counts, published, adds, idle, _, rfl⟩⟩

theorem Represents.setFinished (represents : Represents exponent profile telemetry buffer system) :
    Exists fun after => system.step .setFinished = some after ∧
      Represents exponent profile telemetry { buffer with closed := true } after := by
  rcases represents with
    ⟨ring, policy, _, contents, pushed, eliminated, published, popped, producer, consumer⟩
  exact ⟨_, rfl,
    ⟨⟨ring.power, ring.headBound, ring.tailBound, ring.allocated⟩, policy, rfl, contents, pushed,
    eliminated, published, popped, producer, consumer⟩⟩

/-! ## Sequences of calls -/

/-- Calls in turn leave one state and one list of results behind. -/
theorem InTurn.unique {calls : List (LossyCall Entry)} {answers answers' : List (Option Entry)}
    {before after after' : QueueSystem Entry}
    (first : InTurn capacity profile calls answers before after)
    (second : InTurn capacity profile calls answers' before after') :
      answers = answers' ∧ after = after' := by
  induction first generalizing answers' after' with
  | nothing =>
      cases second
      exact ⟨rfl, rfl⟩
  | push call _ ih =>
      cases second with
      | push call' rest' =>
          cases call.unique call'
          exact ih rest'
  | pop call _ ih =>
      cases second with
      | pop call' rest' =>
          rcases call.unique call' with ⟨rfl, rfl⟩
          rcases ih rest' with ⟨rfl, rfl⟩
          exact ⟨rfl, rfl⟩
  | finish stops _ ih =>
      cases second with
      | finish stops' rest' =>
          cases stops.symm.trans stops'
          exact ih rest'

/-- Every sequence of calls can be made, and the buffer goes along. -/
theorem Represents.inTurn (represents : Represents (exponent + 1) profile telemetry buffer system)
    (calls : List (LossyCall Entry)) :
    Exists fun answers => Exists fun after => InTurn capacity profile calls answers system after ∧
      (buffer.callAll (2 ^ (exponent + 1) - 1) profile.Overwrites calls).answers =
        buffer.answers ++ answers ∧
        Represents (exponent + 1) profile telemetry
          (buffer.callAll (2 ^ (exponent + 1) - 1) profile.Overwrites calls) after := by
  induction calls generalizing buffer system with
  | nil => exact ⟨[], system, .nothing, (List.append_nil _).symm, represents⟩
  | cons call calls ih =>
      cases call with
      | write logLine =>
          rcases represents.push_call logLine with ⟨middle, called, held⟩
          rcases ih held with ⟨answers, after, rest, same, done⟩
          refine ⟨answers, after, .push called rest, same.trans (congrArg (· ++ answers) ?_), done⟩
          unfold LossyBuffer.write
          split
          · rfl
          · split
            · rfl
            · split <;> rfl
      | read =>
          rcases represents.pop_call with ⟨outLog, middle, called, adds, held⟩
          rcases ih held with ⟨answers, after, rest, same, done⟩
          refine ⟨outLog :: answers, after, .pop called rest, same.trans ?_, done⟩
          rw [adds]
          exact (List.append_cons _ _ _).symm
      | close =>
          rcases represents.setFinished with ⟨middle, stops, held⟩
          rcases ih held with ⟨answers, after, rest, same, done⟩
          exact ⟨answers, after, .finish stops rest, same, done⟩

/-- What a fresh queue and its counters have become behind a sequence of
calls. -/
structure ActsAsBuffer (exponent : Nat) (profile : OverflowProfile) (telemetry : Telemetry)
    (calls : List (LossyCall Entry)) (answers : List (Option Entry))
    (after : QueueSystem Entry) : Prop where
  /-- the calls have returned what the buffer returns -/
  results : answers = (bufferAfter exponent profile calls).answers
  contents : after.queue.contents = (bufferAfter exponent profile calls).pending
  /-- the published entries are those that the buffer takes -/
  accepted : after.history.published = (bufferAfter exponent profile calls).accepted
  popped : after.history.popped = answers.reduceOption
  counters : after.telemetry =
    { pushedLogs := telemetry.pushedLogs + BitVec.ofNat 64 after.history.published.length
      eliminatedLogs := telemetry.eliminatedLogs + BitVec.ofNat 64 after.history.popped.length }
  /-- entries come out in the order in which they were published -/
  ordered : (after.history.popped ++ after.queue.contents).Sublist after.history.published
  /-- what does not come out has been overwritten, a whole array at a time -/
  accounted : Exists fun overruns => after.history.published.length =
    after.history.popped.length + after.queue.contents.length + overruns * 2 ^ exponent
  /-- every entry that may overwrite is published, and only pushed ones are -/
  published :
    ((LossyBuffer.offered calls).filter fun logLine => decide (profile.Overwrites logLine)).Sublist
      after.history.published ∧ after.history.published.Sublist (LossyBuffer.offered calls)
  lossless : profile = .dropAll ->
    after.history.published = after.history.popped ++ after.queue.contents

/-- From a fresh queue of two slots or more every sequence of whole calls has
exactly one outcome, and under each profile it is that of a bounded buffer that
overwrites the entries of this profile. -/
theorem profiles_are_lossy_buffers {queue : LogQueue Entry}
    (fresh : queue.Fresh (2 ^ (exponent + 1)) profile)
    (telemetry : Telemetry) (calls : List (LossyCall Entry)) :
    Exists fun answers => Exists fun after =>
      (forall answers' after',
        InTurn (2 ^ (exponent + 1)) profile calls answers' (start queue telemetry) after' ↔
        answers' = answers ∧ after' = after) ∧
      ActsAsBuffer (exponent + 1) profile telemetry calls answers after := by
  have nothing : queue.contents = [] := fresh.isRing.empty_iff.mp (fresh.tail.trans fresh.head.symm)
  have begins :
      Represents (exponent + 1) profile telemetry LossyBuffer.empty (start queue telemetry) :=
    ⟨fresh.isRing, fresh.profile, fresh.running, nothing, (BitVec.add_zero _).symm,
      (BitVec.add_zero _).symm, rfl,
      rfl, rfl, none, rfl⟩
  rcases @Represents.inTurn _ _ exponent
      (2 ^ (exponent + 1)) profile telemetry _ _ begins calls with
    ⟨answers, after, made, same, represents⟩
  have single : forall answers' after',
      InTurn (2 ^ (exponent + 1)) profile calls answers' (start queue telemetry) after' ↔
        answers' = answers ∧ after' = after := by
    intro answers' after'
    constructor
    · exact fun made' => made'.unique made
    · rintro ⟨rfl, rfl⟩
      exact made
  refine ⟨answers, after, single, ?_⟩
  change (bufferAfter (exponent + 1) profile calls).answers = answers at same
  change Represents _ _ _ (bufferAfter (exponent + 1) profile calls) _ at represents
  have sound : (bufferAfter (exponent + 1) profile calls).Sound (2 ^ (exponent + 1) - 1) :=
    (LossyBuffer.empty_sound _).callAll calls
  rcases @LossyBuffer.accepted_callAll _
    (2 ^ (exponent + 1) - 1) profile.Overwrites _ LossyBuffer.empty rfl calls
    with ⟨taken, accepted, within, beyond⟩
  change (bufferAfter (exponent + 1) profile calls).accepted = taken at accepted
  rw [← accepted, ← represents.published] at within beyond
  constructor
  · exact same.symm
  · exact represents.contents
  · exact represents.published
  · rw [represents.popped]
    unfold LossyBuffer.delivered
    rw [same]
  · rw [represents.published, represents.popped, ← represents.pushed, ← represents.eliminated]
  · rw [represents.popped, represents.contents, represents.published]
    exact sound.ordered
  · rcases sound.whole with ⟨overruns, lost⟩
    rw [Nat.sub_add_cancel (Nat.two_pow_pos _), Nat.mul_comm] at lost
    refine ⟨overruns, ?_⟩
    rw [represents.popped, represents.contents, represents.published, ← lost]
    exact sound.accounted
  · exact ⟨beyond, within⟩
  · rintro rfl
    rw [represents.popped, represents.contents, represents.published]
    exact sound.conserved (LossyBuffer.lossless_callAll (fun _ stores => stores) calls)

/-- The second critical entry finds two slots full and costs both entries; the
third one is read. -/
theorem profiles_are_lossy_buffers_twoSlots :
    Exists fun after => InTurn (2 ^ 1) .passCriticalDropElse
      [.write (criticalEntry 1), .write (criticalEntry 2), .read, .write (criticalEntry 3), .read]
      [none, some (criticalEntry 3)] (twoSlotsStart .passCriticalDropElse) after := by
  rcases profiles_are_lossy_buffers (twoSlots_fresh .passCriticalDropElse) {}
    [.write (criticalEntry 1), .write (criticalEntry 2), .read,
      .write (criticalEntry 3), .read] with
    ⟨answers, after, single, acts⟩
  have made := (single answers after).mpr ⟨rfl, rfl⟩
  rw [acts.results] at made
  exact ⟨after, made⟩

end QueueSystem

end Core
end VortexEngine
