import VortexEngine.Network.RecordGrammar
import VortexEngine.Pipeline.RecordCalls

open VortexEngine.Foundations VortexEngine.Core VortexEngine.Network

namespace VortexEngine
namespace Pipeline

/-!
# Records that are not enqueued

A record takes its region before `push` decides about its entry, and nothing
ever gives a region back: neither the pool nor `push` has a way to do so, and
`push` does not even report what it has decided.  A call that ends before
`get_next_slab` hands out a region leaves pool and memory as they were.  A
record with a region keeps it, and its bytes stay there, whether its entry is
published, dropped or refused.
-/

/-- A call in progress works on the record. -/
def RecordPoint.concerns (record : StoredRecord) : RecordPoint -> Prop
  | .returned _ => True
  | .allocated current | .headed current | .written current | .pushing current => current = record

namespace RecordSystem

/-- Until the next record is handed over. -/
def NoNewRecord (_system : RecordSystem) : RecordAction -> Prop
  | .record _ _ _ => False
  | _ => True

/-- The call has ended without a region, and nothing has changed. -/
structure Untouched (before system : RecordSystem) : Prop where
  returned : Exists fun verdict => system.point = .returned verdict
  slabPool : system.slabPool = before.slabPool
  memory : system.memory = before.memory

/-- The pool is as the allocation has left it, and only the region of the record
has been written. -/
structure KeepsRegion (before : RecordSystem) (slabPool : SlabPool) (record : StoredRecord)
    (system : RecordSystem) : Prop where
  concerns : RecordPoint.concerns record system.point
  slabPool : system.slabPool = slabPool
  outside : forall address, address < record.slab.destination ∨
    record.slab.destination + record.bytes.length ≤ address ->
      system.memory address = before.memory address

variable {parser : ParserFunc} {before system after : RecordSystem} {record : StoredRecord}
variable {slabPool : SlabPool} {slab : Slab}

theorem Untouched.step {action : RecordAction} (holds : Untouched before system)
    (admitted : NoNewRecord system action) (move : Move parser system action after) :
    Untouched before after := by
  rcases holds with ⟨⟨verdict, returned⟩, pool, memory⟩
  cases move with
  | refuse | allocate => exact False.elim admitted
  | writeHeader current => cases returned.symm.trans current
  | writeMessage current => cases returned.symm.trans current
  | call current => cases returned.symm.trans current
  | push current => cases returned.symm.trans current
  | finish current => cases returned.symm.trans current
  | other => exact ⟨⟨verdict, returned⟩, pool, memory⟩

theorem writeHeader_outside {memory : Memory} {address : Nat}
    (outside : address < record.slab.destination ∨
      record.slab.destination + record.bytes.length ≤ address) :
    record.writeHeader memory address = memory address := by
  rw [StoredRecord.length_bytes] at outside
  apply Memory.store_outside
  rw [SharedLogEntryHeader.length_encode]
  omega

theorem writeMessage_outside {memory : Memory} {address : Nat}
    (outside : address < record.slab.destination ∨
      record.slab.destination + record.bytes.length ≤ address) :
    record.writeMessage memory address = memory address := by
  rw [StoredRecord.length_bytes] at outside
  apply Memory.store_outside
  omega

theorem KeepsRegion.step {action : RecordAction} (holds : KeepsRegion before slabPool record system)
    (admitted : NoNewRecord system action) (move : Move parser system action after) :
    KeepsRegion before slabPool record after := by
  rcases holds with ⟨concerns, pool, outside⟩
  cases move with
  | refuse | allocate => exact False.elim admitted
  | writeHeader current =>
      rw [current] at concerns
      cases concerns
      exact ⟨rfl, pool, fun address away => (writeHeader_outside away).trans (outside address away)⟩
  | writeMessage current =>
      rw [current] at concerns
      cases concerns
      exact ⟨rfl, pool, fun address away =>
        (writeMessage_outside away).trans (outside address away)⟩
  | call current =>
      rw [current] at concerns
      exact ⟨concerns, pool, outside⟩
  | push => exact ⟨concerns, pool, outside⟩
  | finish => exact ⟨trivial, pool, outside⟩
  | other => exact ⟨concerns, pool, outside⟩

/-- A call that ends before it has a region changes nothing.  A record with a
region keeps it until the next call, whatever `push` decides. -/
theorem calls_keep_their_regions {maxSlabs slabsSize : SizeT} {basePtr capacity : Nat}
    {profile : OverflowProfile} {later : RecordSystem} (source : Nat) (clock : UInt64T)
    (rawData : StringView) (called : before.step parser (.record source clock rawData) = some after)
    (run : (machine parser maxSlabs slabsSize basePtr capacity profile).RunsUnder NoNewRecord
      after later) :
    (forall reason, parser.fields clock rawData = some (.error reason) -> Untouched before later) ∧
      forall fields, parser.fields clock rawData = some (.ok fields) ->
        (before.slabPool.getNextSlab fields.message = none -> Untouched before later) ∧
          forall slabPool slab, before.slabPool.getNextSlab fields.message =
            some (slabPool, slab) ->
            KeepsRegion before slabPool (before.place source fields slab) later := by
  have untouched : Untouched before after -> Untouched before later := fun start =>
    run.preserves (fun _ _ _ holds admitted moves => holds.step admitted (step_move moves)) start
  have move := step_move called
  refine ⟨?_, ?_⟩
  · intro reason refuses
    apply untouched
    cases move with
    | refuse => exact ⟨⟨_, rfl⟩, rfl, rfl⟩
    | allocate _ parsed _ => cases refuses.symm.trans parsed
    | other outside => cases outside
  · intro fields accepts
    constructor
    · intro large
      apply untouched
      cases move with
      | refuse => exact ⟨⟨_, rfl⟩, rfl, rfl⟩
      | allocate _ parsed taken =>
          cases accepts.symm.trans parsed
          cases large.symm.trans taken
      | other outside => cases outside
    · intro slabPool slab taken
      have start : KeepsRegion before slabPool (before.place source fields slab) after := by
        cases move with
        | refuse _ refuses =>
            rcases refuses with parsed | ⟨_, _, parsed, large⟩
            · cases accepts.symm.trans parsed
            · cases accepts.symm.trans parsed
              cases large.symm.trans taken
        | allocate _ parsed taken' =>
            cases accepts.symm.trans parsed
            cases taken.symm.trans taken'
            exact ⟨rfl, rfl, fun _ _ => rfl⟩
        | other outside => cases outside
      exact run.preserves (fun _ _ _ holds admitted moves => holds.step admitted (step_move moves))
        start

end RecordSystem

/-! ## A record on a stopped queue -/

instance (system : RecordSystem) : (action : RecordAction) ->
    Decidable (RecordSystem.NoNewRecord system action)
  | .record _ _ _ => inferInstanceAs (Decidable False)
  | .producer | .pop | .consumer | .setFinished => inferInstanceAs (Decidable True)

/-- The default queue, which `set_finished` has stopped. -/
def stoppedSystem : RecordSystem :=
  { RecordSystem.start defaultQueue {} (freshPool 10 1) (fun _ => 0) with
    queue := { QueueSystem.start defaultQueue {} with queue := defaultQueue.setFinished } }

theorem stoppedSystem_reached : (defaultMachine 10 1).Reachable stoppedSystem := by
  have stops : (defaultMachine 10 1).step
      (RecordSystem.start defaultQueue {} (freshPool 10 1) (fun _ => 0)) .setFinished =
        some stoppedSystem := rfl
  exact (Machine.ReachableUnder.start defaultMachine_initial).next trivial stops

/-- The parser has taken a region for the record. -/
def recordOnStopped : RecordSystem :=
  (stoppedSystem.step .parseAndPush (.record 0 1000 shortRecord)).get (by decide +kernel)

/-- The stopped queue refuses the record, and the call ends without an entry. -/
def recordRefused : RecordSystem :=
  ((defaultMachine 10 1).executeUnder RecordSystem.NoNewRecord recordOnStopped
    (List.replicate 5 .producer)).get (by decide +kernel)

theorem recordRefused_run :
    (defaultMachine 10 1).RunsUnder RecordSystem.NoNewRecord recordOnStopped recordRefused :=
  Machine.runsUnder_of_execute (Option.some_get _).symm

theorem calls_keep_their_regions_stopped :
    (forall reason, ParserFunc.parseAndPush.fields 1000 shortRecord = some (.error reason) ->
        RecordSystem.Untouched stoppedSystem recordRefused) ∧
      forall fields, ParserFunc.parseAndPush.fields 1000 shortRecord = some (.ok fields) ->
        (stoppedSystem.slabPool.getNextSlab fields.message = none ->
          RecordSystem.Untouched stoppedSystem recordRefused) ∧
          forall slabPool slab, stoppedSystem.slabPool.getNextSlab fields.message =
            some (slabPool, slab) ->
            RecordSystem.KeepsRegion stoppedSystem slabPool
              (stoppedSystem.place 0 fields slab) recordRefused :=
  RecordSystem.calls_keep_their_regions 0 1000 shortRecord
    (Option.some_get _).symm recordRefused_run

/-- The entry of a well-formed record is refused because the queue is finished.
Its region stays taken, and its bytes stay written. -/
theorem stopped_queue_keeps_region :
    Exists fun before => Exists fun called => Exists fun after =>
      (defaultMachine 10 1).Reachable before ∧
        before.step .parseAndPush (.record 0 1000 shortRecord) = some called ∧
          (defaultMachine 10 1).RunsUnder RecordSystem.NoNewRecord called after ∧
            after.point = .returned none ∧
              after.queue.history.published = before.queue.history.published ∧
              after.slabPool.currentOffset ≠ before.slabPool.currentOffset ∧
                Exists fun address => after.memory address ≠ before.memory address := by
  refine ⟨stoppedSystem, recordOnStopped, recordRefused, stoppedSystem_reached,
    (Option.some_get _).symm,
    recordRefused_run, ?_, ?_, ?_, 0x100dd, ?_⟩
  · decide +kernel
  · decide +kernel
  · decide +kernel
  · decide +kernel

end Pipeline
end VortexEngine
