import VortexEngine.Network.FieldStrictness
import VortexEngine.Network.RecordGrammar
import VortexEngine.Pipeline.RecordSystem

open VortexEngine.Foundations VortexEngine.Core VortexEngine.Network

namespace VortexEngine
namespace Pipeline

/-!
# A call of the parser and its steps

The properties of the parsers are about calls: what a call makes of a record, a
pool and the memory.  The pipeline takes the same call apart, because the
consumer and the owner of the queue go on between the parser's writes to the
shared memory.

Up to the call of `push` they touch nothing that the parser looks at.  However
the threads interleave, the steps of the parser end with the pool, the memory
and the entry of the call, or with the reason for which the call disconnects.
-/

theorem ParserFunc.call_eq (parser : ParserFunc) (clock : UInt64T) (rawData : StringView)
    (state : ParserState) :
    parser.call clock rawData state = (parser.fields clock rawData).map (finish · state) := by
  cases parser with
  | parseAndPush => rfl
  | parseAndPushSimd => exact parseAndPushSimd_eq clock rawData state

theorem StoredRecord.write_eq (record : StoredRecord) (memory : Memory) :
    record.fields.write record.slab memory = record.writeMessage (record.writeHeader memory) :=
  rfl

def RecordAction.isParserStep : RecordAction -> Bool
  | .producer => true
  | _ => false

namespace RecordSystem

/-- The parser of the present call goes on, up to its call of `push`, and the
other threads do anything. -/
def WithinCall (system : RecordSystem) : RecordAction -> Prop
  | .record _ _ _ => False
  | .producer => forall record, system.point ≠ .written record
  | _ => True

/-- The call is over, or about to push, and has done what it does as a whole. -/
structure AsCalled (source : Nat) (session : NetworkSession) (outcome : ParseOutcome)
    (after : RecordSystem) :
    Prop where
  pool : after.slabPool = outcome.state.slabPool
  memory : after.memory = outcome.state.memory
  verdict : (Exists fun reason => after.point = .returned (some reason) ∧
      outcome.state.session = session.disconnect reason ∧ outcome.pushed = none) ∨
    Exists fun record => after.point = .written record ∧ record.source = source ∧
      outcome.state.session = session ∧ outcome.pushed = some record.entry

/-- The writes of a call that are still to come. -/
inductive Underway (record : StoredRecord) (memory : Memory) (system : RecordSystem) : Nat -> Prop
  | allocated (point : system.point = .allocated record) (same : system.memory = memory) :
      Underway record memory system 2
  | headed (point : system.point = .headed record)
      (same : system.memory = record.writeHeader memory) :
      Underway record memory system 1
  | written (point : system.point = .written record)
      (same : system.memory = record.writeMessage (record.writeHeader memory)) :
        Underway record memory system 0

variable {parser : ParserFunc} {maxSlabs slabsSize : SizeT} {basePtr capacity : Nat}
    {profile : OverflowProfile}
variable {before after called : RecordSystem} {record : StoredRecord} {memory : Memory}
    {writes : Nat}
variable {source : Nat} {session : NetworkSession} {outcome : ParseOutcome}

theorem OnQueue.frame {action : RecordAction} {queueAction : QueueAction TaggedEntry}
    {queue : QueueSystem TaggedEntry}
    (outside : OnQueue action queueAction) (underway : Underway record memory before writes) :
    action.isParserStep = false ∧ Underway record memory { before with queue := queue } writes := by
  refine ⟨by cases outside <;> rfl, ?_⟩
  cases underway with
  | allocated point same => exact .allocated point same
  | headed point same => exact .headed point same
  | written point same => exact .written point same

theorem Underway.step (underway : Underway record memory before writes) {action : RecordAction}
    (within : WithinCall before action) (moves : before.step parser action = some after) :
    after.slabPool = before.slabPool ∧ Exists fun left =>
      Underway record memory after left ∧
        left + [action].countP RecordAction.isParserStep = writes := by
  cases step_move moves with
  | refuse | allocate => exact absurd within not_false
  | writeHeader point =>
      cases underway with
      | allocated stands same =>
          cases point.symm.trans stands
          exact ⟨rfl, 1, .headed rfl (congrArg record.writeHeader same), rfl⟩
      | headed stands _ | written stands _ => cases point.symm.trans stands
  | writeMessage point =>
      cases underway with
      | headed stands same =>
          cases point.symm.trans stands
          exact ⟨rfl, 0, .written rfl (congrArg record.writeMessage same), rfl⟩
      | allocated stands _ | written stands _ => cases point.symm.trans stands
  | call point _ => exact absurd point (within _)
  | push point _ | finish point _ =>
      cases underway with
      | allocated stands _ | headed stands _ | written stands _ => cases point.symm.trans stands
  | @other _ _ queue outside _ =>
      rcases OnQueue.frame outside underway with ⟨silent, still⟩
      refine ⟨rfl, writes, still, ?_⟩
      rw [List.countP_singleton, silent]
      rfl

/-- A call that has its region makes both writes. -/
theorem Underway.run (underway : Underway record memory before writes) {actions : List RecordAction}
    (run : (machine parser maxSlabs slabsSize basePtr capacity profile).Executes WithinCall before
      actions after) :
    after.slabPool = before.slabPool ∧ Exists fun left =>
      Underway record memory after left ∧
        left + actions.countP RecordAction.isParserStep = writes := by
  induction run generalizing writes with
  | done => exact ⟨rfl, writes, underway, rfl⟩
  | step within moves _ ih =>
      rcases underway.step within moves with ⟨first, left, still, counted⟩
      rcases ih still with ⟨others, last, rest, all⟩
      refine ⟨others.trans first, last, rest, ?_⟩
      rw [← counted, ← all, ← List.singleton_append, List.countP_append]
      omega

theorem refused_run {reason : DisconnectReason} (returned : before.point = .returned (some reason))
    {actions : List RecordAction}
    (run : (machine parser maxSlabs slabsSize basePtr capacity profile).Executes WithinCall before
      actions after) :
    after.slabPool = before.slabPool ∧ after.memory = before.memory ∧
      after.point = .returned (some reason) := by
  induction run with
  | done => exact ⟨rfl, rfl, returned⟩
  | step within moves _ ih =>
      cases step_move moves with
      | refuse | allocate => exact absurd within not_false
      | writeHeader point | writeMessage point | call point _ | push point _ | finish point _ =>
          cases returned.symm.trans point
      | other _ _ => exact ih returned

/-- Writing in two steps is what the parser does as one call: the pool, the
memory and the pushed entry are the same. -/
theorem steps_agree (system : RecordSystem) (source : Nat) (fields : RecordFields)
    (session : NetworkSession) {slabPool : SlabPool} {slab : Slab}
    (taken : system.slabPool.getNextSlab fields.message = some (slabPool, slab)) :
    fields.store ⟨session, system.slabPool, system.memory⟩ =
      { state :=
          { session := session
            slabPool := slabPool
            memory := (system.place source fields slab).writeMessage
              ((system.place source fields slab).writeHeader system.memory) }
        pushed := some (system.place source fields slab).entry } := by
  rw [RecordFields.store, taken, ← StoredRecord.write_eq]
  rfl

/-- The first step of a call decides about its outcome. -/
theorem step_outcome
    (called : parser.call clock rawData ⟨session, before.slabPool, before.memory⟩ = some outcome)
    (moves : before.step parser (.record source clock rawData) = some after) :
    (AsCalled source session outcome after ∧ Exists fun reason =>
      after.point = .returned (some reason)) ∨
      Exists fun record => record.source = source ∧ Underway record before.memory after 2 ∧
        outcome =
          ⟨⟨session, after.slabPool, record.writeMessage (record.writeHeader before.memory)⟩,
            some record.entry⟩ := by
  rw [ParserFunc.call_eq] at called
  rcases Option.map_eq_some_iff.mp called with ⟨parsed, fields, rfl⟩
  cases step_move moves with
  | @refuse _ _ _ _ reason _ refuses =>
      refine Or.inl ⟨?_, reason, rfl⟩
      rcases refuses with refused | ⟨rfl, message, accepted, none⟩
      · cases fields.symm.trans refused
        exact ⟨rfl, rfl, Or.inl ⟨reason, rfl, rfl, rfl⟩⟩
      · cases fields.symm.trans accepted
        have large : finish (.ok message) ⟨session, before.slabPool, before.memory⟩ =
            ParserState.refuse ⟨session, before.slabPool, before.memory⟩ .messageTooBig := by
          rw [finish, RecordFields.store, none]
        rw [large]
        exact ⟨rfl, rfl, Or.inl ⟨_, rfl, rfl, rfl⟩⟩
  | @allocate _ _ _ _ message slabPool slab _ accepted taken =>
      cases fields.symm.trans accepted
      exact Or.inr ⟨before.place source message slab, rfl, .allocated rfl rfl,
        steps_agree before source message session taken⟩
  | other outside _ => cases outside

/-- A call has a first step exactly when it has a result, and however the other
threads interleave, at most two more steps of the parser bring it to the pool, the
memory and the entry of this result, or to its disconnect. -/
theorem call_is_its_steps (parser : ParserFunc) {verdict : Option DisconnectReason}
    (returned : before.point = .returned verdict) (source : Nat) (clock : UInt64T)
    (rawData : StringView) (session : NetworkSession) :
    ((parser.call clock rawData ⟨session, before.slabPool, before.memory⟩).isSome =
      (before.step parser (.record source clock rawData)).isSome) ∧
    forall outcome called actions after,
      parser.call clock rawData ⟨session, before.slabPool, before.memory⟩ = some outcome ->
        before.step parser (.record source clock rawData) = some called ->
          (machine parser maxSlabs slabsSize basePtr capacity profile).Executes WithinCall called
            actions after ->
            AsCalled source session outcome after ∨
              (actions.countP RecordAction.isParserStep < 2 ∧ WithinCall after .producer ∧
                Exists fun next => after.step parser .producer = some next) := by
  constructor
  · rw [ParserFunc.call_eq, Option.isSome_map]
    simp only [step, returned, Option.isSome_map]
  · intro outcome called actions after whole first run
    rcases step_outcome whole first with
      ⟨⟨pool, memory, verdict⟩, reason, refused⟩ | ⟨record, own, underway, rfl⟩
    · rcases refused_run refused run with ⟨samePool, sameMemory, samePoint⟩
      refine Or.inl ⟨samePool.trans pool, sameMemory.trans memory, ?_⟩
      rw [samePoint, ← refused]
      exact verdict
    · rcases underway.run run with ⟨pool, left, rest, counted⟩
      cases rest with
      | written point same =>
          exact Or.inl ⟨pool, same, Or.inr ⟨record, point, own, rfl, rfl⟩⟩
      | allocated point _ | headed point _ =>
          refine Or.inr ⟨by omega, ?_, ?_⟩
          · intro other written
            cases point.symm.trans written
          · rw [step, produce, point]
            exact ⟨_, rfl⟩

end RecordSystem

/-- A call on the fresh default queue. -/
theorem call_is_its_steps_shortRecord :
    let before := RecordSystem.start defaultQueue {} (freshPool 10 1) (fun _ => 0)
    let whole := ParserFunc.parseAndPush.call 1000 shortRecord
      ⟨NetworkSession.oneMebibyte, before.slabPool, before.memory⟩
    (whole.isSome = (before.step .parseAndPush (.record 0 1000 shortRecord)).isSome) ∧
    forall outcome called actions after, whole = some outcome ->
      before.step .parseAndPush (.record 0 1000 shortRecord) = some called ->
        (defaultMachine 10 1).Executes RecordSystem.WithinCall called actions after ->
          RecordSystem.AsCalled 0 NetworkSession.oneMebibyte outcome after ∨
            (actions.countP RecordAction.isParserStep < 2 ∧
              RecordSystem.WithinCall after .producer ∧
              Exists fun next => after.step .parseAndPush .producer = some next) :=
  RecordSystem.call_is_its_steps .parseAndPush rfl 0 1000 shortRecord NetworkSession.oneMebibyte

end Pipeline
end VortexEngine
