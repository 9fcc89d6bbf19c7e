import VortexEngine.Pipeline.SessionDelivery

open VortexEngine.Foundations VortexEngine.Core VortexEngine.Network

namespace VortexEngine
namespace Pipeline

/-!
# After a disconnect

`disconnect` sets a flag and posts the closing of the socket.  Nothing but
`disconnect` and `handle_error` looks at the flag.  A framing error leaves `process_stash`,
but an error of the parser does not: the loop goes on behind the refused record
with whatever else is in the stash.  `read_header` starts the next read in both
cases, and a read that completes before the posted closing runs is processed
like any other.

So a disconnected session still pushes whatever well-formed record its framing
loop comes upon.  The runs below are those in which it comes upon none.
-/

namespace RecordSystem

/-- The records of one connection that have a region. -/
def regionsOf (system : RecordSystem) (source : Nat) : List StoredRecord :=
  system.regions.filter (fun record => decide (record.source = source))

/-- The entries of one connection that `push` has been called with. -/
def pushesOf (system : RecordSystem) (source : Nat) : List TaggedEntry :=
  system.queue.begun.filter (TaggedEntry.comesFrom source)

/-- The parser accepts the record, and the pool has a region for its message. -/
def places (parser : ParserFunc) (system : RecordSystem) (clock : UInt64T)
    (rawData : StringView) : Bool :=
  match parser.fields clock rawData with
  | some (.ok fields) => (system.slabPool.getNextSlab fields.message).isSome
  | _ => false

variable {parser : ParserFunc} {before after : RecordSystem} {action : RecordAction} {source : Nat}

theorem places_of_taken {clock : UInt64T} {rawData : StringView} {fields : RecordFields}
    {slabPool : SlabPool} {slab : Slab} (parsed : parser.fields clock rawData = some (.ok fields))
    (taken : before.slabPool.getNextSlab fields.message = some (slabPool, slab)) :
    before.places parser clock rawData = true := by
  simp [places, parsed, taken]

theorem regionsOf_step (moves : before.step parser action = some after)
    (refused : forall clock rawData, action = .record source clock rawData ->
      before.places parser clock rawData = false) :
    after.regionsOf source = before.regionsOf source := by
  unfold regionsOf
  rcases (step_move moves).regions_eq with ⟨same, _⟩ |
    ⟨other, clock, rawData, fields, slabPool, slab, rfl, parsed, taken, _, extended⟩
  · rw [same]
  · have differs : other ≠ source := by
      rintro rfl
      have placed := places_of_taken parsed taken
      rw [refused clock rawData rfl] at placed
      cases placed
    simp [extended, place, differs]

theorem regionsOf_of_places {clock : UInt64T} {rawData : StringView}
    (moves : before.step parser (.record source clock rawData) = some after)
    (placed : before.places parser clock rawData = true) :
      after.regionsOf source ≠ before.regionsOf source := by
  unfold regionsOf
  cases step_move moves with
  | refuse _ refuses =>
      unfold places at placed
      rcases refuses with parsed | ⟨_, fields, parsed, none⟩
      · rw [parsed] at placed
        cases placed
      · rw [parsed] at placed
        simp [none] at placed
  | allocate returned parsed taken => simp [regions_allocated returned, place]
  | other outside => cases outside

theorem pushesOf_step (moves : before.step parser action = some after)
    (foreign : forall record, before.point = .written record -> record.source ≠ source) :
    after.pushesOf source = before.pushesOf source := by
  unfold pushesOf
  cases step_move moves with
  | @call record queue written called =>
      have other : record.tagged.comesFrom source = false :=
        decide_eq_false (foreign record written)
      simp [QueueSystem.begun_step called, QueueAction.pushes, other]
  | push _ pushed => simp [QueueSystem.begun_step pushed, QueueAction.pushes]
  | other outside moved => simp [QueueSystem.begun_step moved, outside.pushes]
  | _ => rfl

end RecordSystem

namespace Worker

/-- The record that the next step of a handler takes out of its stash. -/
def nextRecord (trace : SessionTrace) : Option StashRecord :=
  match trace.point, trace.session.stashIteration with
  | .processing _, .handOver record => some record
  | _, _ => none

/-- The handler of a closing session does not come upon a record that the parser
accepts at this time and the pool has a region for. -/
def HeedsClosing (parser : ParserFunc) (worker : Worker) : WorkerAction -> Prop
  | .handler clock => forall source, worker.active = some source ->
      (worker.sessions source).session.isClosing = true ->
        forall record, nextRecord (worker.sessions source) = some record ->
          worker.records.places parser clock record.logData = false
  | _ => True

/-- The sessions that are closing take no region and push nothing. -/
def SilentWhileClosing (before after : Worker) : Prop :=
  forall source, (before.sessions source).session.isClosing = true ->
    after.records.regionsOf source = before.records.regionsOf source ∧
      after.records.pushesOf source = before.records.pushesOf source

/-- The parser works for the active session, which is not closing. -/
def Attended (worker : Worker) : Prop :=
  forall record, worker.records.point.current = some record ->
    worker.active = some record.source ∧ (worker.sessions record.source).session.isClosing = false

/-! ## Steps -/

section Steps

variable {parser : ParserFunc} {before after : Worker} {action : WorkerAction}

theorem nextRecord_eq_some {trace : SessionTrace} {record : StashRecord} :
    nextRecord trace = some record ↔
      (Exists fun caller => trace.point = .processing caller) ∧
        trace.session.stashIteration = .handOver record := by
  unfold nextRecord
  cases trace.point <;> cases trace.session.stashIteration <;> simp

theorem closing_step {before after : SessionTrace} {action : SessionAction}
    (moves : before.step action = some after)
    (closing : before.session.isClosing = true) : after.session.isClosing = true := by
  cases SessionTrace.step_move moves with
  | giveUp => exact NetworkSession.disconnect_isClosing _ _
  | oversize => exact NetworkSession.disconnect_isClosing _ _
  | fail => exact NetworkSession.closeWith_isClosing _ _
  | @consume verdict =>
      cases verdict with
      | none => exact closing
      | some reason => exact NetworkSession.disconnect_isClosing _ _
  | _ => exact closing

/-- What a step of the worker does to its pipeline: nothing, a step of the parser
or the consumer, or a call of the parser with the next record of the active session. -/
theorem step_records (moves : before.step parser action = some after) :
    after.records = before.records ∨
      (Exists fun inner => (inner = .producer ∨ inner = .pop ∨ inner = .consumer) ∧
        before.records.step parser inner = some after.records) ∨
      Exists fun source => Exists fun clock => Exists fun record => action = .handler clock ∧
        before.active = some source ∧ nextRecord (before.sessions source) = some record ∧
          before.records.step parser (.record source clock record.logData) =
            some after.records := by
  cases action with
  | start source =>
      rcases step_start moves with ⟨_, _, _, _, rfl⟩
      exact Or.inl rfl
  | complete source bytes =>
      rcases step_complete moves with ⟨_, _, _, rfl⟩
      exact Or.inl rfl
  | fail source =>
      rcases step_fail moves with ⟨_, _, _, rfl⟩
      exact Or.inl rfl
  | pop =>
      rcases Option.map_eq_some_iff.mp moves with ⟨records, inner, rfl⟩
      exact Or.inr (Or.inl ⟨.pop, Or.inr (Or.inl rfl), inner⟩)
  | consumer =>
      rcases Option.map_eq_some_iff.mp moves with ⟨records, inner, rfl⟩
      exact Or.inr (Or.inl ⟨.consumer, Or.inr (Or.inr rfl), inner⟩)
  | handler clock =>
      rcases step_handler moves with
        ⟨source, runs, ⟨_, _, _, _, _, _, _, rfl⟩ | ⟨records, _, _, inner, rfl⟩ |
        ⟨session, _, moved, framed⟩⟩
      · exact Or.inl rfl
      · exact Or.inr (Or.inl ⟨.producer, Or.inl rfl, inner⟩)
      · rw [afterFraming] at framed
        cases point : session.point with
        | parsing caller record =>
            rw [point] at framed
            rcases Option.map_eq_some_iff.mp framed with ⟨records, called, rfl⟩
            rcases found_of_parsing moved point with ⟨processes, iteration, _⟩
            exact Or.inr (Or.inr ⟨source, clock, record, rfl, runs,
              nextRecord_eq_some.mpr ⟨⟨caller, processes⟩, iteration⟩, called⟩)
        | _ =>
            rw [point] at framed
            cases framed
            exact Or.inl rfl

/-- A handler that comes upon a record calls the parser with it. -/
theorem handler_calls {source : Nat} {clock : UInt64T} {record : StashRecord}
    (runs : before.active = some source) (next : nextRecord (before.sessions source) = some record)
    (moves : before.step parser (.handler clock) = some after) :
    before.records.step parser (.record source clock record.logData) = some after.records := by
  rcases nextRecord_eq_some.mp next with ⟨⟨caller, processes⟩, iteration⟩
  have moved := (@SessionTrace.Move.handOver _ none _ _ processes iteration).step
  rw [step, runs] at moves
  change before.handle parser source clock = some after at moves
  rw [handle, processes] at moves
  change ((before.sessions source).step (.proceed none)).bind _ = some after at moves
  rw [moved] at moves
  rcases Option.map_eq_some_iff.mp moves with ⟨records, called, rfl⟩
  exact called

/-- A step that heeds the closing sessions takes no region for them and pushes
nothing of them. -/
theorem Attended.silent (holds : before.Attended) (heeds : HeedsClosing parser before action)
    (moves : before.step parser action = some after) : SilentWhileClosing before after := by
  intro source closing
  have foreign : forall record, before.records.point = .written record ->
      record.source ≠ source := by
    rintro record written rfl
    have working : before.records.point.current = some record := by rw [written]; rfl
    cases closing.symm.trans (holds record working).2
  rcases step_records moves with
    same | ⟨inner, inside, moved⟩ | ⟨other, clock, record, rfl, runs, next, called⟩
  · rw [same]
    exact ⟨rfl, rfl⟩
  · refine ⟨RecordSystem.regionsOf_step moved ?_, RecordSystem.pushesOf_step moved foreign⟩
    rintro clock rawData rfl
    rcases inside with inside | inside | inside <;> cases inside
  · refine ⟨RecordSystem.regionsOf_step called ?_, RecordSystem.pushesOf_step called foreign⟩
    intro clock' rawData same
    cases same
    exact heeds source runs closing record next

theorem heeds_of_silent (silent : SilentWhileClosing before after)
    (moves : before.step parser action = some after) :
    HeedsClosing parser before action := by
  cases action with
  | handler clock =>
      intro source runs closing record next
      apply Bool.eq_false_iff.mpr
      intro placed
      exact RecordSystem.regionsOf_of_places (handler_calls runs next moves) placed
        (silent source closing).1
  | _ => trivial

/-- While the parser works, the active session waits for it. -/
theorem Exclusive.parses (exclusive : before.Exclusive) {record : StoredRecord}
    (working : before.records.point.current = some record) :
    Exists fun source => Exists fun caller => Exists fun stash =>
      before.active = some source ∧ (before.sessions source).point = .parsing caller stash := by
  apply exclusive.parsing.resolve_left
  rintro ⟨verdict, returned⟩
  rw [returned] at working
  cases working

theorem Attended.step (holds : before.Attended) (exclusive : before.Exclusive)
    (heeds : HeedsClosing parser before action) (moves : before.step parser action = some after) :
    after.Attended := by
  intro record current
  cases step_move moves with
  | @session source _ session active moved silent turn =>
      have working : before.records.point.current = some record := current
      rcases holds record working with ⟨runs, isOpen⟩
      rcases exclusive.parses working with ⟨other, caller, stash, runs', parses⟩
      cases runs.symm.trans runs'
      -- the active session waits for its parser, so it is another one that moves
      have apart : record.source ≠ source ∧ active = before.active := by
        cases turn with
        | start inactive _ => exact ⟨fun same => inactive (same ▸ runs), rfl⟩
        | complete free => cases free.symm.trans runs
        | fail free => cases free.symm.trans runs
        | advance active elsewhere _ =>
            cases runs.symm.trans active
            exact absurd parses (elsewhere caller stash)
        | finish active elsewhere _ =>
            cases runs.symm.trans active
            exact absurd parses (elsewhere caller stash)
        | consume _ _ returned =>
            rw [returned] at working
            cases working
      refine ⟨apart.2.trans runs, ?_⟩
      change (Function.update before.sessions source session record.source).session.isClosing =
        false
      rw [Function.update_of_ne apart.1]
      exact isOpen
  | @handOver source clock session caller stash records runs moved parses hands called =>
      have silent := holds.silent heeds moves source
      cases RecordSystem.step_move called with
      | refuse => cases current
      | allocate _ parsed taken =>
          cases current
          refine ⟨runs, ?_⟩
          change (Function.update before.sessions source session source).session.isClosing = false
          rw [Function.update_self, (found_of_parsing moved parses).2.2]
          apply Bool.eq_false_iff.mpr
          intro closing
          exact RecordSystem.regionsOf_of_places called (RecordSystem.places_of_taken parsed taken)
            (silent closing).1
      | other outside => cases outside
  | records moved inside => exact holds record (RecordSystem.current_step moved inside current)

end Steps

/-! ## Runs -/

section Runs

variable {parser : ParserFunc} {maxSlabs slabsSize : SizeT} {basePtr capacity : Nat}
    {profile : OverflowProfile}
variable {middle after : Worker}

theorem attended_of_reachable
    (reached : (machine parser maxSlabs slabsSize basePtr capacity profile).ReachableUnder
      (HeedsClosing parser) middle) : middle.Attended := by
  refine reached.invariant ?_ (fun _ _ _ reached holds heeds moves =>
    holds.step (exclusive_of_reachable reached) heeds moves)
  rintro worker ⟨_, _, queue, telemetry, memory, _, records⟩ record working
  rw [records] at working
  cases working

/-- What a run keeps that begins in the middle of another one. -/
structure SilentSince (middle worker : Worker) : Prop where
  exclusive : worker.Exclusive
  attended : worker.Attended
  closing : forall source, (middle.sessions source).session.isClosing = true ->
    (worker.sessions source).session.isClosing = true
  silent : SilentWhileClosing middle worker

theorem SilentSince.step {before : Worker} {action : WorkerAction}
    (holds : SilentSince middle before)
    (heeds : HeedsClosing parser before action) (moves : before.step parser action = some after) :
    SilentSince middle after := by
  refine ⟨holds.exclusive.step moves, holds.attended.step holds.exclusive heeds moves, ?_, ?_⟩
  · intro source closing
    rcases (step_move moves).sessions source with same | ⟨_, moved⟩
    · exact same ▸ holds.closing source closing
    · exact closing_step moved (holds.closing source closing)
  · intro source closing
    rcases holds.silent source closing with ⟨regions, pushes⟩
    rcases holds.attended.silent heeds moves source (holds.closing source closing) with
      ⟨regions', pushes'⟩
    exact ⟨regions'.trans regions, pushes'.trans pushes⟩

end Runs

end Worker

/-- In every run in which no closing session comes upon a record that its parser
accepts and a slab has room for, a session that has been disconnected takes no
region and pushes nothing from then on.  The condition is exact: a step is silent
only when it meets it. -/
theorem disconnected_sessions_silent {parser : ParserFunc} {maxSlabs slabsSize : SizeT}
    {basePtr capacity : Nat} {profile : OverflowProfile} {middle : Worker}
    (reached : (Worker.machine parser maxSlabs slabsSize basePtr capacity profile).ReachableUnder
      (Worker.HeedsClosing parser) middle) :
    (forall after, (Worker.machine parser maxSlabs slabsSize basePtr capacity profile).RunsUnder
        (Worker.HeedsClosing parser) middle after -> Worker.SilentWhileClosing middle after) ∧
      forall action after, middle.step parser action = some after ->
        (Worker.SilentWhileClosing middle after ↔ Worker.HeedsClosing parser middle action) := by
  have exclusive := Worker.exclusive_of_reachable reached
  have attended := Worker.attended_of_reachable reached
  constructor
  · intro after run
    have start : Worker.SilentSince middle middle :=
      ⟨exclusive, attended, fun _ closing => closing, fun _ _ => ⟨rfl, rfl⟩⟩
    exact (run.preserves (fun _ _ _ holds heeds moves => Worker.SilentSince.step holds heeds moves)
      start).silent
  · intro action after moves
    exact ⟨fun silent => Worker.heeds_of_silent silent moves,
      fun heeds => attended.silent heeds moves⟩

/-! ## A refused line and a well-formed one -/

instance (parser : ParserFunc) (worker : Worker) :
    (action : WorkerAction) -> Decidable (Worker.HeedsClosing parser worker action)
  | .handler clock => inferInstanceAs (Decidable (forall source, source ∈ worker.active ->
      (worker.sessions source).session.isClosing = true ->
        forall record, record ∈ Worker.nextRecord (worker.sessions source) ->
          worker.records.places parser clock record.logData = false))
  | .start _ | .complete _ _ | .fail _ | .pop | .consumer => inferInstanceAs (Decidable True)

/-- The interleavings of sessions of the default size on the default queue. -/
abbrev defaultWorkers : Machine Worker WorkerAction :=
  Worker.machine .parseAndPush 10 1 0x10000 (2 ^ 20) .dropAll

/-- A line without any space. -/
def refusedLine : List Byte := [0x61, 0x62, 0x63, 0x64, 0x0A]

/-- One read brings both lines, and the first one disconnects the session. -/
def bothRead : Worker :=
  (defaultWorkers.executeUnder Machine.anyAction defaultWorker
    [.start 0, .complete 0 (refusedLine ++ shortLine 0x61), .handler 1000, .handler 1000]).get
      (by decide +kernel)

/-- The framing loop goes on. -/
def bothHandled : Worker :=
  (defaultWorkers.executeUnder Machine.anyAction bothRead (List.replicate 4 (.handler 1000))).get
    (by decide +kernel)

/-- The refused line has disconnected the session, and the next read is issued. -/
def refusedRead : Worker :=
  (defaultWorkers.executeUnder (Worker.HeedsClosing .parseAndPush) defaultWorker
    [.start 0, .complete 0 refusedLine, .handler 1000, .handler 1000, .handler 1000,
      .handler 1000]).get
      (by decide +kernel)

/-- That read completes before the posted closing runs. -/
def laterHandled : Worker :=
  (defaultWorkers.executeUnder Machine.anyAction refusedRead
    (.complete 0 (shortLine 0x61) :: List.replicate 4 (.handler 1000))).get (by decide +kernel)

theorem disconnected_sessions_silent_refusedRead :
    (forall after, defaultWorkers.RunsUnder (Worker.HeedsClosing .parseAndPush) refusedRead after ->
        Worker.SilentWhileClosing refusedRead after) ∧
      forall action after, refusedRead.step .parseAndPush action = some after ->
        (Worker.SilentWhileClosing refusedRead after ↔
          Worker.HeedsClosing .parseAndPush refusedRead action) :=
  disconnected_sessions_silent
    ⟨defaultWorker, defaultWorker_initial, Machine.runsUnder_of_execute (Option.some_get _).symm⟩

/-- A session that has been disconnected pushes an entry from the bytes in its
stash, and another one from a read that completes before it is closed. -/
theorem disconnected_session_pushes :
    (Exists fun middle => Exists fun after => defaultWorkers.Reachable middle ∧
      defaultWorkers.Runs middle after ∧
      (middle.sessions 0).session.isClosing = true ∧
        (after.sessions 0).received = (middle.sessions 0).received ∧
          after.records.regionsOf 0 ≠ middle.records.regionsOf 0 ∧
            after.records.pushesOf 0 ≠ middle.records.pushesOf 0) ∧
      Exists fun middle => Exists fun after => defaultWorkers.Reachable middle ∧
        defaultWorkers.Runs middle after ∧
        (middle.sessions 0).session.isClosing = true ∧
          (middle.sessions 0).session.stashBuffer.getBytesAvailable = 0 ∧
            after.records.regionsOf 0 ≠ middle.records.regionsOf 0 ∧
              after.records.pushesOf 0 ≠ middle.records.pushesOf 0 := by
  constructor
  · refine ⟨bothRead, bothHandled, ⟨defaultWorker, defaultWorker_initial, ?_⟩, ?_, ?_, ?_, ?_, ?_⟩
    · exact Machine.runsUnder_of_execute (Option.some_get _).symm
    · exact Machine.runsUnder_of_execute (Option.some_get _).symm
    · decide +kernel
    · decide +kernel
    · decide +kernel
    · decide +kernel
  · refine ⟨refusedRead, laterHandled, ⟨defaultWorker, defaultWorker_initial, ?_⟩, ?_,
      ?_, ?_, ?_, ?_⟩
    · have heeding :
          defaultWorkers.RunsUnder (Worker.HeedsClosing .parseAndPush) defaultWorker refusedRead :=
        Machine.runsUnder_of_execute (Option.some_get _).symm
      exact heeding.weaken (fun _ _ _ => trivial)
    · exact Machine.runsUnder_of_execute (Option.some_get _).symm
    · decide +kernel
    · decide +kernel
    · decide +kernel
    · decide +kernel

end Pipeline
end VortexEngine
