import VortexEngine.Core.PushLedger
import VortexEngine.Core.QueueCalls
import VortexEngine.Pipeline.RecordSystem

open VortexEngine.Foundations VortexEngine.Core VortexEngine.Network

namespace VortexEngine
namespace Pipeline

/-!
# From parser calls to pushes

Every parser call either disconnects or takes one region, and every record with
a region is handed to `push` once, in the order of the calls.  Only the call in
progress has a record that is not decided yet.
-/

namespace ParserCall

/-- What the outcome of a call says about its record.  An accepted record keeps
the connection; a refused one is malformed or too large for a slab. -/
def Sound (parser : ParserFunc) (slabSize : SizeT) (call : ParserCall) : Prop :=
  match call.outcome with
  | .ok record => record.source = call.source ∧
      parser.fields call.clock call.rawData = some (.ok record.fields)
  | .error reason => parser.fields call.clock call.rawData = some (.error reason) ∨
      (reason = .messageTooBig ∧ Exists fun fields =>
        parser.fields call.clock call.rawData = some (.ok fields) ∧
          slabSize < SlabPool.totalNeeded fields.message)

def comesFrom (source : Nat) (call : ParserCall) : Bool :=
  decide (call.source = source)

end ParserCall

/-- The entry was made from a record of the connection. -/
def TaggedEntry.comesFrom (source : Nat) (tagged : TaggedEntry) : Bool :=
  match tagged.tag with
  | none => false
  | some record => decide (record.source = source)

namespace RecordSystem

/-- The parser calls of one connection. -/
def callsOf (system : RecordSystem) (source : Nat) : List ParserCall :=
  system.calls.filter (ParserCall.comesFrom source)

/-- The records of one connection that its parser has accepted. -/
def acceptedOf (system : RecordSystem) (source : Nat) : List StoredRecord :=
  (system.callsOf source).filterMap ParserCall.accepted

/-- The record that is written and about to be handed to `push`. -/
def awaitingPush (system : RecordSystem) : List StoredRecord :=
  match system.point with
  | .written record => [record]
  | _ => []

/-- The accepted entry that is not decided yet. -/
def inFlight (system : RecordSystem) : List TaggedEntry :=
  system.queue.producer.undecided ++
    (system.awaitingPush ++ system.inProgress).map StoredRecord.tagged

structure CallLedger (parser : ParserFunc) (slabSize : SizeT) (system : RecordSystem) : Prop where
  size : system.slabPool.slabSize = slabSize
  sound : forall call, call ∈ system.calls -> call.Sound parser slabSize
  accepted : system.calls.filterMap ParserCall.accepted = system.regions
  begun : system.stored.map StoredRecord.tagged =
    system.queue.begun ++ system.awaitingPush.map StoredRecord.tagged
  /-- outside of the call of `push` the queue's producer stands still -/
  idle : (Exists fun record => system.point = .pushing record) ∨ system.queue.producer = .idle

variable {parser : ParserFunc} {slabSize : SizeT} {before after : RecordSystem}

theorem sound_append {calls : List ParserCall} {call : ParserCall}
    (sound : forall call, call ∈ calls -> call.Sound parser slabSize)
    (last : call.Sound parser slabSize) :
    forall other, other ∈ calls ++ [call] -> other.Sound parser slabSize := by
  intro other member
  rcases List.mem_append.mp member with earlier | final
  · exact sound other earlier
  · exact List.mem_singleton.mp final ▸ last

/-- The calls of `push` come from the parser only. -/
theorem OnQueue.pushes {action : RecordAction} {queueAction : QueueAction TaggedEntry}
    (outside : OnQueue action queueAction) : queueAction.pushes = [] := by
  cases outside <;> rfl

theorem OnQueue.producer {action : RecordAction} {queueAction : QueueAction TaggedEntry}
    (outside : OnQueue action queueAction) {queue queue' : QueueSystem TaggedEntry}
    (moves : queue.step queueAction = some queue') : queue'.producer = queue.producer := by
  cases outside with
  | pop =>
      rcases QueueSystem.step_pop moves with ⟨_, rfl⟩
      rfl
  | consumer =>
      rcases QueueSystem.step_consumer moves with ⟨_, _, rfl⟩
      rfl
  | setFinished =>
      rw [QueueSystem.step_setFinished moves]

/-- Outside of the call of `push` the queue's producer is idle. -/
theorem CallLedger.producer_idle {system : RecordSystem} (holds : CallLedger parser slabSize system)
    (elsewhere : forall record, system.point ≠ .pushing record) : system.queue.producer = .idle :=
  holds.idle.resolve_left (fun ⟨record, pushes⟩ => elsewhere record pushes)

/-- An argument of `push` was made from a record in the memory. -/
theorem CallLedger.stored_of_begun {system : RecordSystem}
    (ledger : CallLedger parser slabSize system)
    {tagged : TaggedEntry} (begun : tagged ∈ system.queue.begun) :
    Exists fun record => record ∈ system.stored ∧ tagged = record.tagged := by
  have stored : tagged ∈ system.stored.map StoredRecord.tagged := by
    rw [ledger.begun]
    exact List.mem_append_left _ begun
  rcases List.mem_map.mp stored with ⟨record, written, rfl⟩
  exact ⟨record, written, rfl⟩

theorem CallLedger.step (holds : CallLedger parser slabSize before) {action : RecordAction}
    (moves : before.step parser action = some after) : CallLedger parser slabSize after := by
  have rest := holds.producer_idle
  rcases holds with ⟨size, sound, accepted, begun, idle⟩
  cases step_move moves with
  | @refuse source clock rawData verdict reason returned refuses =>
      have rest := rest (fun record pushes => by cases returned.symm.trans pushes)
      refine ⟨size, sound_append sound ?_, ?_, ?_, Or.inr rest⟩
      · rcases refuses with refuses | ⟨large, fields, parsed, none⟩
        · exact Or.inl refuses
        · exact Or.inr ⟨large, fields, parsed, size ▸ SlabPool.getNextSlab_eq_none.mp none⟩
      · rw [regions_of_calm (show before.inProgress = [] by rw [inProgress, returned])] at accepted
        change (before.calls ++ [_]).filterMap _ = before.stored ++ []
        rw [List.filterMap_append, accepted]
        rfl
      · rw [awaitingPush, returned] at begun
        exact begun
  | @allocate source clock rawData verdict fields slabPool slab returned parsed taken =>
      have rest := rest (fun record pushes => by cases returned.symm.trans pushes)
      refine ⟨?_, sound_append sound ⟨rfl, parsed⟩, ?_, ?_, Or.inr rest⟩
      · exact (SlabPool.getNextSlab_geometry taken).slabSize.trans size
      · rw [regions_of_calm (show before.inProgress = [] by rw [inProgress, returned])] at accepted
        change (before.calls ++ [_]).filterMap _ =
          before.stored ++ [before.place source fields slab]
        rw [List.filterMap_append, accepted]
        rfl
      · rw [awaitingPush, returned] at begun
        exact begun
  | writeHeader allocated =>
      rw [regions, inProgress, allocated] at accepted
      rw [awaitingPush, allocated] at begun
      exact ⟨size, sound, accepted, begun,
        Or.inr (rest (fun record pushes => by cases allocated.symm.trans pushes))⟩
  | @writeMessage record headed =>
      rw [regions, inProgress, headed] at accepted
      rw [awaitingPush, headed] at begun
      refine ⟨size, sound, accepted.trans (List.append_nil _).symm, ?_,
        Or.inr (rest (fun record pushes => by cases headed.symm.trans pushes))⟩
      change (before.stored ++ [record]).map _ = before.queue.begun ++ [record].map _
      rw [List.map_append, begun, List.map_nil, List.append_nil]
  | @call record queue written called =>
      rw [regions, inProgress, written] at accepted
      rw [awaitingPush, written] at begun
      refine ⟨size, sound, accepted, ?_, Or.inl ⟨record, rfl⟩⟩
      change before.stored.map _ = queue.begun ++ []
      rw [QueueSystem.begun_step called, List.append_nil]
      exact begun
  | @push record queue pushes pushed =>
      refine ⟨size, sound, accepted, ?_, Or.inl ⟨record, pushes⟩⟩
      change before.stored.map _ = queue.begun ++ before.awaitingPush.map _
      rw [QueueSystem.begun_step pushed]
      exact begun.trans (congrArg (· ++ _) (List.append_nil _).symm)
  | @finish record pushes rest =>
      rw [regions, inProgress, pushes] at accepted
      rw [awaitingPush, pushes] at begun
      exact ⟨size, sound, accepted, begun, Or.inr rest⟩
  | @other _ queueAction queue outside moved =>
      refine ⟨size, sound, accepted, ?_, ?_⟩
      · change before.stored.map _ = queue.begun ++ before.awaitingPush.map _
        rw [QueueSystem.begun_step moved, outside.pushes, List.append_nil]
        exact begun
      · change _ ∨ queue.producer = .idle
        rw [outside.producer moved]
        exact idle

/-! ## One connection -/

/-- The accepted record of a sound call comes from the connection of the call. -/
theorem comesFrom_tagged {call : ParserCall} {record : StoredRecord}
    (sound : call.Sound parser slabSize) (outcome : call.outcome = .ok record) (source : Nat) :
    record.tagged.comesFrom source = call.comesFrom source := by
  rw [ParserCall.Sound, outcome] at sound
  change decide (record.source = source) = decide (call.source = source)
  rw [sound.1]

/-- Accepted records keep their connection, so it does not matter whether calls
or records are selected. -/
theorem filterMap_accepted_filter {calls : List ParserCall}
    (sound : forall call, call ∈ calls -> call.Sound parser slabSize) (source : Nat) :
    ((calls.filter (ParserCall.comesFrom source)).filterMap ParserCall.accepted).map
      StoredRecord.tagged =
      ((calls.filterMap ParserCall.accepted).map StoredRecord.tagged).filter
        (TaggedEntry.comesFrom source) := by
  induction calls with
  | nil => rfl
  | cons call rest ih =>
      have remaining := ih (fun other member => sound other (List.mem_cons_of_mem _ member))
      have first := sound call List.mem_cons_self
      cases outcome : call.outcome with
      | error reason =>
          have none : call.accepted = none := by rw [ParserCall.accepted, outcome]
          rw [List.filterMap_cons_none none, ← remaining, List.filter_cons]
          split
          · rw [List.filterMap_cons_none none]
          · rfl
      | ok record =>
          have some : call.accepted = some record := by rw [ParserCall.accepted, outcome]
          rw [List.filterMap_cons_some some, List.map_cons, List.filter_cons, List.filter_cons,
            comesFrom_tagged first outcome, ← remaining]
          split
          · rw [List.filterMap_cons_some some, List.map_cons]
          · rfl

/-- The decided calls of `push` and the entry in flight are the accepted
records, connection by connection. -/
theorem CallLedger.pushes_eq {system : RecordSystem} (holds : CallLedger parser slabSize system)
    (source : Nat) :
    (system.queue.history.pushes.map PushRecord.logLine ++ system.inFlight).filter
    (TaggedEntry.comesFrom source) =
      (system.acceptedOf source).map StoredRecord.tagged := by
  rw [acceptedOf, callsOf, filterMap_accepted_filter holds.sound source, holds.accepted, regions,
    List.map_append, holds.begun, QueueSystem.begun, inFlight, List.map_append]
  simp only [List.append_assoc]

/-- At most one entry is in flight, and none when no parser call is in progress. -/
theorem CallLedger.inFlight_le {system : RecordSystem} (holds : CallLedger parser slabSize system) :
    system.inFlight.length ≤ 1 ∧
      ((Exists fun verdict => system.point = .returned verdict) -> system.inFlight = []) := by
  rw [inFlight, awaitingPush, inProgress]
  cases point : system.point with
  | pushing record =>
      constructor
      · simp only [List.append_nil, List.map_nil]
        cases system.queue.producer <;> simp [PushPoint.undecided]
      · rintro ⟨_, returned⟩
        cases returned
  | _ =>
      have rest := holds.producer_idle (fun record pushes => by cases point.symm.trans pushes)
      simp [rest, PushPoint.undecided]

theorem CallLedger.produce_isSome {system : RecordSystem}
    (ledger : system.CallLedger parser slabSize)
    (called : forall verdict, system.point ≠ .returned verdict) :
    Exists fun after => system.produce = some after := by
  rw [produce]
  cases point : system.point with
  | returned verdict => exact absurd point (called verdict)
  | allocated record => exact ⟨_, rfl⟩
  | headed record => exact ⟨_, rfl⟩
  | written record =>
      have idle := ledger.producer_idle (fun record pushes => by cases point.symm.trans pushes)
      simp only [QueueSystem.step, idle]
      exact ⟨_, rfl⟩
  | pushing record =>
      simp only
      split
      · exact ⟨_, rfl⟩
      · rename_i busy
        rcases @pushStep_isSome _ _ system.queue.queue system.queue.telemetry _ busy with
          ⟨progress, stepped⟩
        simp only [QueueSystem.step, stepped]
        exact ⟨_, rfl⟩

/-! ## Runs -/

/-- The queue is not told to finish. -/
def KeepsRunning (_system : RecordSystem) (action : RecordAction) : Prop :=
  action ≠ .setFinished

section Runs

variable {maxSlabs slabsSize : SizeT} {basePtr capacity : Nat} {profile : OverflowProfile}

theorem callLedger_of_reachable {guard : RecordSystem -> RecordAction -> Prop}
    {system : RecordSystem}
    (reached : (machine parser maxSlabs slabsSize basePtr capacity profile).ReachableUnder
      guard system) :
    system.CallLedger parser (slabsSize * 1024 * 1024) := by
  refine reached.invariant ?_ (fun _ _ _ _ holds _ moves => holds.step moves)
  rintro _ ⟨queue, telemetry, memory, fresh, rfl⟩
  exact ⟨rfl, fun call member => False.elim (List.not_mem_nil member), rfl, rfl, Or.inr rfl⟩

/-- The queue inside of the system is a queue with one producer and one
consumer, and it keeps running when nobody ends it. -/
def queueOf :
    Machine.Simulation (machine parser maxSlabs slabsSize basePtr capacity profile) KeepsRunning
    (queueMachine TaggedEntry capacity profile) QueueSystem.KeepsRunning where
  view := queue
  initial := by
    rintro _ ⟨queue, telemetry, memory, fresh, rfl⟩
    exact ⟨queue, telemetry, fresh, rfl⟩
  step := by
    intro before action after _ admitted moves
    cases step_move moves with
    | @call record _ _ called => exact Or.inr ⟨.push record.tagged, nofun, called⟩
    | push _ pushed => exact Or.inr ⟨.producer, nofun, pushed⟩
    | other outside moved =>
        refine Or.inr ⟨_, ?_, moved⟩
        rintro rfl
        cases outside
        exact admitted rfl
    | _ => exact Or.inl rfl

end Runs

end RecordSystem

end Pipeline
end VortexEngine
