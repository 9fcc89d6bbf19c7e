import VortexEngine.Pipeline.Worker

open VortexEngine.Foundations VortexEngine.Core VortexEngine.Network

namespace VortexEngine
namespace Pipeline

/-!
# Delivery from end to end

The records of a connection pass through the framing loop, the parser and the
queue.  The framing loop hands the parser exactly the reference decode of the
stream, the parser is called once for every record handed over, every accepted
record is pushed once, and the queue loses only the entries whose push saw every
usable slot occupied.  All of this keeps the order, and handlers of different
sessions do not interfere, because only the worker's thread touches the
pipeline's producing side.
-/

namespace Worker

variable {parser : ParserFunc} {before after : Worker}

/-- The parser calls of a connection are the records that its session has
handed over. -/
def Calls (worker : Worker) : Prop :=
  forall source, (worker.records.callsOf source).map ParserCall.rawData =
    (worker.sessions source).handed.map StashRecord.logData

theorem calls_step {before after : RecordSystem} {action : RecordAction}
    (moves : before.step parser action = some after) :
    match action with
    | .record source clock rawData => Exists fun outcome =>
        after.calls = before.calls ++ [⟨source, clock, rawData, outcome⟩]
    | _ => after.calls = before.calls := by
  cases RecordSystem.step_move moves with
  | refuse _ _ => exact ⟨_, rfl⟩
  | allocate _ _ _ => exact ⟨_, rfl⟩
  | other outside _ => cases outside <;> rfl
  | _ => rfl

/-- Every step calls the parser of a session exactly with what the session
hands over. -/
theorem Calls.step (holds : before.Calls) {action : WorkerAction}
    (moves : before.step parser action = some after) : after.Calls := by
  intro other
  cases step_move moves with
  | @session source action session active moved silent turn =>
      change _ = ((Function.update before.sessions source session other).handed).map _
      by_cases same : other = source
      · subst same
        rw [Function.update_self, silent]
        exact holds other
      · rw [Function.update_of_ne same]
        exact holds other
  | @handOver source clock session caller record records runs moved parses hands called =>
      rcases calls_step called with ⟨outcome, extended⟩
      change (records.callsOf other).map _ =
        ((Function.update before.sessions source session other).handed).map _
      rw [RecordSystem.callsOf, extended, List.filter_append, List.map_append]
      by_cases same : other = source
      · subst same
        rw [Function.update_self, hands, List.map_append, ← holds other,
          List.filter_cons_of_pos
            (show ParserCall.comesFrom other ⟨other, _, _, _⟩ = true from decide_eq_true rfl)]
        rfl
      · rw [Function.update_of_ne same, ← holds other,
          List.filter_cons_of_neg (by simpa [ParserCall.comesFrom] using Ne.symm same)]
        exact List.append_nil _
  | @records action records moved inside =>
      have kept : records.calls = before.records.calls := by
        have extended := calls_step moved
        rcases inside with rfl | rfl | rfl <;> exact extended
      change (records.callsOf other).map _ = _
      rw [RecordSystem.callsOf, kept]
      exact holds other

/-- What the system promises to one connection, on a queue of `2 ^ exponent`
slots. -/
structure DeliversInOrder (parser : ParserFunc) (slabSize : SizeT) (exponent : Nat)
    (worker : Worker) (source : Nat) : Prop where
  /-- the popped entries and the content are the decided calls of `push` without
  those that saw a full queue -/
  delivered : (worker.records.queue.history.popped ++ worker.records.queue.queue.contents).filter
      (TaggedEntry.comesFrom source) =
    (worker.records.queue.history.admitted exponent).filter (TaggedEntry.comesFrom source)
  /-- the decided calls, and the entry in flight, are the accepted records in
  their order and once each -/
  pushed :
    (worker.records.queue.history.pushes.map PushRecord.logLine ++ worker.records.inFlight).filter
      (TaggedEntry.comesFrom source) =
    (worker.records.acceptedOf source).map StoredRecord.tagged
  /-- at most one entry is in flight, and none outside of a parser call -/
  inFlight : worker.records.inFlight.length ≤ 1 ∧
    ((Exists fun verdict => worker.records.point = .returned verdict) ->
      worker.records.inFlight = [])
  /-- the parser is called once for each record of the stream, in order -/
  called : (worker.records.callsOf source).map (fun call => call.rawData.bytes) =
    (worker.sessions source).payloads
  /-- a call accepts a record exactly as its parser does -/
  sound : forall call, call ∈ worker.records.callsOf source -> call.Sound parser slabSize
  /-- the records are those of the reference decode of the stream -/
  framed : (worker.sessions source).IsExactFraming

section Runs

variable {maxSlabs slabsSize : SizeT} {basePtr exponent : Nat}

theorem calls_of_reachable {capacity : Nat} {profile : OverflowProfile} {worker : Worker}
    (reached : (machine parser maxSlabs slabsSize basePtr capacity profile).Reachable worker) :
      worker.Calls := by
  refine reached.invariant ?_ (fun _ _ _ _ holds _ moves => holds.step moves)
  rintro worker ⟨sessions, _, queue, telemetry, memory, _, records⟩ source
  rcases sessions source with ⟨session, _, begins⟩
  rw [records, begins]
  rfl

end Runs

end Worker

theorem Worker.delivers_of_reachable {parser : ParserFunc} {maxSlabs slabsSize : SizeT}
    {basePtr exponent : Nat} {worker : Worker}
    (reached : (Worker.machine parser maxSlabs slabsSize basePtr (2 ^ exponent) .dropAll).Reachable
      worker)
    (source : Nat) : worker.DeliversInOrder parser (slabsSize * 1024 * 1024) exponent source := by
  have pipeline := Worker.pipelineOf.reachable reached
  have queue := RecordSystem.queueOf.reachable pipeline
  have session := (Worker.sessionOf source).reachable reached
  have ledger := RecordSystem.callLedger_of_reachable pipeline
  have conserved : worker.records.queue.history.popped ++ worker.records.queue.queue.contents =
      worker.records.queue.history.admitted exponent := popped_append_contents_eq_admitted queue
  refine ⟨by rw [conserved], ledger.pushes_eq source, ledger.inFlight_le, ?_, ?_, ?_⟩
  · have calls := congrArg (List.map StringView.bytes) (Worker.calls_of_reachable reached source)
    rw [List.map_map, List.map_map] at calls
    exact calls
  · exact fun call member => ledger.sound call (List.mem_of_mem_filter member)
  · exact (SessionTrace.framed_of_reachable session).isExactFraming

/-- For any sessions on one worker, any streams, any chunking and any
interleaving with the consumer, every connection's records are delivered in
order and at most once, and only the explicit drop loses any. -/
theorem sessions_deliveredInOrder {parser : ParserFunc} {maxSlabs slabsSize : SizeT}
    {basePtr exponent : Nat} {worker : Worker}
    (reached : (Worker.machine parser maxSlabs slabsSize basePtr (2 ^ exponent) .dropAll).Reachable
      worker)
    (source : Nat) : worker.DeliversInOrder parser (slabsSize * 1024 * 1024) exponent source :=
  Worker.delivers_of_reachable reached source

/-! ## Two connections -/

/-- Sessions of the default size on the default queue. -/
def defaultWorker : Worker :=
  { sessions := fun _ => SessionTrace.start NetworkSession.oneMebibyte
    active := none
    records := RecordSystem.start defaultQueue {} (freshPool 10 1) (fun _ => 0) }

theorem defaultWorker_initial :
    (Worker.machine .parseAndPush 10 1 0x10000 (2 ^ 20) .dropAll).initial defaultWorker :=
  ⟨fun _ => SessionTrace.oneMebibyte_initial, rfl, defaultMachine_initial⟩

/-- The line `1000 1 7 ` with one more character, and its newline. -/
def shortLine (char : Byte) : List Byte :=
  [0x31, 0x30, 0x30, 0x30, 0x20, 0x31, 0x20, 0x37, 0x20, char, 0x0A]

/-- Two connections send one line each, and the first entry is popped. -/
theorem sessions_deliveredInOrder_twoLines :
    (((Worker.machine .parseAndPush 10 1 0x10000 (2 ^ 20) .dropAll).executeUnder Machine.anyAction
      defaultWorker
      (.start 0 :: .start 1 :: .complete 1 (shortLine 0x61) :: List.replicate 17 (.handler 1000) ++
        .complete 0 (shortLine 0x62) :: List.replicate 17 (.handler 1000) ++
          .pop :: List.replicate 8 .consumer)).get (by decide)).DeliversInOrder .parseAndPush
            (1 * 1024 * 1024) 20 1 :=
  sessions_deliveredInOrder (Machine.reachableUnder_of_execute defaultWorker_initial (by decide)) 1

end Pipeline
end VortexEngine
