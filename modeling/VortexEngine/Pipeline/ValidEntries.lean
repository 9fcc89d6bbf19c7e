import VortexEngine.Core.Provenance
import VortexEngine.Network.RecordGrammar
import VortexEngine.Pipeline.SessionDelivery

open VortexEngine.Foundations VortexEngine.Core VortexEngine.Network

namespace VortexEngine
namespace Pipeline

/-!
# Where a popped entry comes from

Under `DropAll` no interleaving and no parser lets anything into the log that a
client has not sent.  Behind every entry that the consumer pops there is one
call of the parser, with a payload of the reference decode of what its
connection has received.  The call has found three numbers, each of which
passed its check at the time of the call, and a message that ends the payload.

Under the other profiles the consumer may copy a slot while the producer writes
it, and then no single call need vouch for what it has got.
-/

/-- The three checks of a record at the time of its parser call. -/
structure Validated (clock : UInt64T) (fields : RecordFields) : Prop where
  time : CheckLogEntry.validateTimestamp clock fields.time = true
  level : CheckLogEntry.validateLevel fields.level = true
  id : CheckLogEntry.validateID fields.id = true

/-- What an accepting parser has established about the text of a record. -/
structure Extracted (clock : UInt64T) (text : List Byte) (fields : RecordFields) : Prop where
  validated : Validated clock fields
  message : fields.message <:+ text

theorem scalarFields_extracted {clock : UInt64T} {text : List Byte} {fields : RecordFields}
    (accepted : scalarFields clock text = .ok fields) : Extracted clock text fields := by
  unfold scalarFields at accepted
  simp only at accepted
  split at accepted
  · cases accepted
  · split at accepted
    · cases accepted
    · rename_i timeValid
      split at accepted
      · cases accepted
      · split at accepted
        · cases accepted
        · rename_i levelValid
          split at accepted
          · cases accepted
          · split at accepted
            · cases accepted
            · rename_i idValid
              cases accepted
              refine ⟨⟨?_, ?_, ?_⟩, ?_⟩
              · exact Bool.eq_true_of_not_eq_false timeValid
              · exact Bool.eq_true_of_not_eq_false levelValid
              · exact Bool.eq_true_of_not_eq_false idValid
              · exact ((List.drop_suffix _ _).trans (List.drop_suffix _ _)).trans
                  (List.drop_suffix _ _)

theorem simdFields_extracted {clock : UInt64T} {text : List Byte} {fields : RecordFields}
    (accepted : simdFields clock text = some (.ok fields)) : Extracted clock text fields := by
  unfold simdFields at accepted
  rcases Option.bind_eq_some_iff.mp accepted with ⟨time, _, accepted⟩
  split at accepted
  · cases accepted
  · split at accepted
    · cases accepted
    · rename_i timeValid
      rcases Option.bind_eq_some_iff.mp accepted with ⟨level, _, accepted⟩
      split at accepted
      · cases accepted
      · split at accepted
        · cases accepted
        · rename_i levelValid
          rcases Option.bind_eq_some_iff.mp accepted with ⟨id, _, accepted⟩
          split at accepted
          · cases accepted
          · split at accepted
            · cases accepted
            · rename_i idValid
              cases accepted
              refine ⟨⟨?_, ?_, ?_⟩, ?_⟩
              · exact Bool.eq_true_of_not_eq_false timeValid
              · exact Bool.eq_true_of_not_eq_false levelValid
              · exact Bool.eq_true_of_not_eq_false idValid
              · exact List.drop_suffix _ _

/-- Both parsers check the same, whatever they cut. -/
theorem ParserFunc.extracted {parser : ParserFunc} {clock : UInt64T} {rawData : StringView}
    {fields : RecordFields} (parsed : parser.fields clock rawData = some (.ok fields)) :
      Extracted clock rawData.bytes fields := by
  cases parser with
  | parseAndPush => exact scalarFields_extracted (Option.some.inj parsed)
  | parseAndPushSimd =>
      rw [ParserFunc.fields] at parsed
      split at parsed
      · exact scalarFields_extracted (Option.some.inj parsed)
      · exact simdFields_extracted parsed

/-! ## Calls behind entries -/

namespace RecordSystem

variable {parser : ParserFunc} {slabSize : SizeT} {system : RecordSystem}

theorem CallLedger.call_of_begun (ledger : system.CallLedger parser slabSize) {tagged : TaggedEntry}
    (begun : tagged ∈ system.queue.begun) :
    Exists fun record => Exists fun call => tagged = record.tagged ∧ call ∈ system.calls ∧
      call.outcome = .ok record := by
  rcases ledger.stored_of_begun begun with ⟨record, written, rfl⟩
  have accepted : record ∈ system.calls.filterMap ParserCall.accepted := by
    rw [ledger.accepted]
    exact List.mem_append_left _ written
  rcases List.mem_filterMap.mp accepted with ⟨call, member, accepts⟩
  refine ⟨record, call, rfl, member, ?_⟩
  unfold ParserCall.accepted at accepts
  split at accepts
  · cases accepts
  · rename_i outcome
    cases accepts
    exact outcome

end RecordSystem

namespace Worker

/-- The call of the parser that an entry owes its existence to. -/
structure Vouches (worker : Worker) (tagged : TaggedEntry) (record : StoredRecord)
    (call : ParserCall) : Prop where
  made : tagged = record.tagged
  called : call ∈ worker.records.calls
  accepted : call.outcome = .ok record
  source : record.source = call.source
  /-- the connection has sent the payload -/
  framed : call.rawData.bytes ∈
    referencePayloads (worker.sessions call.source).limit (worker.sessions call.source).received
  extracted : Extracted call.clock call.rawData.bytes record.fields
  /-- the level of the entry is the number of the record -/
  level : tagged.entry.level.toByte.toNat = record.fields.level.toNat

/-- Every popped entry has such a call. -/
def OnlyVouched (worker : Worker) : Prop :=
  forall tagged, tagged ∈ worker.records.queue.history.popped ->
    Exists fun record => Exists fun call => worker.Vouches tagged record call

variable {parser : ParserFunc} {slabSize : SizeT} {worker : Worker}

/-- The payload of a call is one that its session has framed. -/
theorem Calls.framed (calls : worker.Calls)
    (framing : forall source, (worker.sessions source).IsExactFraming) {call : ParserCall}
    (member : call ∈ worker.records.calls) :
    call.rawData.bytes ∈
      referencePayloads (worker.sessions call.source).limit
        (worker.sessions call.source).received := by
  have own : call ∈ worker.records.callsOf call.source :=
    List.mem_filter.mpr ⟨member, decide_eq_true rfl⟩
  have handed : call.rawData ∈ (worker.sessions call.source).handed.map StashRecord.logData := by
    rw [← calls call.source]
    exact List.mem_map_of_mem own
  rcases List.mem_map.mp handed with ⟨record, found, same⟩
  refine (framing call.source).isPrefix.subset ?_
  exact List.mem_map.mpr ⟨record, found, congrArg StringView.bytes same⟩

theorem vouches_of_call (ledger : worker.records.CallLedger parser slabSize) (calls : worker.Calls)
    (framing : forall source, (worker.sessions source).IsExactFraming) {record : StoredRecord}
    {call : ParserCall}
    (member : call ∈ worker.records.calls) (outcome : call.outcome = .ok record) :
    worker.Vouches record.tagged record call := by
  have sound := ledger.sound call member
  rw [ParserCall.Sound, outcome] at sound
  have extracted := ParserFunc.extracted sound.2
  have known := validateLevel_iff.mp extracted.validated.level
  exact
    { made := rfl
      called := member
      accepted := outcome
      source := sound.1
      framed := calls.framed framing member
      extracted := extracted
      level := LogLevel.toByte_ofSize known }

end Worker

/-- With any parser, an entry of a queue that drops what it has no room for is
popped only if a client has sent a payload whose fields passed every check, and
the entry was made from it. -/
theorem popped_entries_are_vouched {parser : ParserFunc} {maxSlabs slabsSize : SizeT}
    {basePtr exponent : Nat} {worker : Worker}
    (reached : (Worker.machine parser maxSlabs slabsSize basePtr (2 ^ exponent) .dropAll).Reachable
      worker) :
    worker.OnlyVouched := by
  intro tagged popped
  have pipeline := Worker.pipelineOf.reachable reached
  have ledger := RecordSystem.callLedger_of_reachable pipeline
  have queue := (RecordSystem.queueOf.reachable pipeline).reguard (fun _ _ _ _ => trivial)
  have begun := (QueueSystem.onlyPushed_of_reachable queue).popped tagged popped
  rcases ledger.call_of_begun begun with ⟨record, call, rfl, member, outcome⟩
  refine ⟨record, call,
    Worker.vouches_of_call ledger (Worker.calls_of_reachable reached) ?_ member outcome⟩
  intro source
  exact (SessionTrace.framed_of_reachable
    ((Worker.sessionOf source).reachable reached)).isExactFraming

/-- The second of two connections has sent the entry that is popped first. -/
theorem popped_entries_are_vouched_twoLines :
    (((Worker.machine .parseAndPush 10 1 0x10000 (2 ^ 20) .dropAll).executeUnder Machine.anyAction
      defaultWorker
      (.start 0 :: .start 1 :: .complete 1 (shortLine 0x61) :: List.replicate 17 (.handler 1000) ++
        .complete 0 (shortLine 0x62) :: List.replicate 17 (.handler 1000) ++
          .pop :: List.replicate 8 .consumer)).get (by decide)).OnlyVouched :=
  popped_entries_are_vouched (Machine.reachableUnder_of_execute defaultWorker_initial (by decide))

end Pipeline
end VortexEngine
