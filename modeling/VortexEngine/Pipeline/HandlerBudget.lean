import VortexEngine.Core.WaitFree
import VortexEngine.Network.StashPass
import VortexEngine.Pipeline.SessionDelivery

open VortexEngine.Foundations VortexEngine.Core VortexEngine.Network

namespace VortexEngine
namespace Pipeline

/-!
# A handler returns to its event loop

A worker thread runs one handler at a time, so a handler that did not return
would silence every other session of the worker.  Under a profile that never
waits it returns after a number of its own steps that is linear in the bytes
that are in its ring: a record takes at least one byte, its parser and its call
of `push` take a bounded number of steps, and behind the last complete record
only the tests of the write space are left.

The steps are those of the handler, each one shared access or one part of the
framing code.  The consumer, the accepting thread and the other sessions may do
anything in between.
-/

namespace RecordSystem

/-- At most so many steps of the parser are left. -/
def stepsLeft (system : RecordSystem) : Nat :=
  match system.point with
  | .returned _ => 0
  | .allocated _ => 14
  | .headed _ => 13
  | .written _ => 12
  | .pushing _ => 1 + system.queue.producer.stepsLeft

variable {parser : ParserFunc} {before after : RecordSystem}

theorem stepsLeft_producer (never : before.queue.NeverWaits)
    (moves : before.step parser .producer = some after) :
    after.stepsLeft < before.stepsLeft := by
  unfold stepsLeft
  cases step_move moves with
  | writeHeader allocated =>
      rw [allocated]
      exact Nat.lt_succ_self _
  | writeMessage headed =>
      rw [headed]
      exact Nat.lt_succ_self _
  | call written called =>
      rcases QueueSystem.step_push called with ⟨_, rfl⟩
      rw [written]
      exact Nat.lt_succ_self _
  | push pushes pushed =>
      rcases QueueSystem.step_producer pushed with ⟨progress, move, rfl⟩
      simp only [pushes]
      exact Nat.add_lt_add_left (move.stepsLeft_lt never.policy never.outside).1 1
  | finish pushes idle =>
      rw [pushes, idle]
      exact Nat.lt_succ_self _
  | other outside _ => cases outside

/-- A call of the parser takes at most fourteen steps. -/
theorem stepsLeft_le (system : RecordSystem) : system.stepsLeft ≤ 14 := by
  have push : system.queue.producer.stepsLeft ≤ 10 := by
    cases system.queue.producer <;> exact Nat.le_of_ble_eq_true rfl
  unfold stepsLeft
  cases system.point with
  | pushing record => exact Nat.le_trans (Nat.add_le_add_left push 1) (by decide)
  | _ => exact Nat.le_of_ble_eq_true rfl

theorem stepsLeft_other {action : RecordAction} (consumes : action = .pop ∨ action = .consumer)
    (moves : before.step parser action = some after) : after.stepsLeft = before.stepsLeft := by
  unfold stepsLeft
  rcases consumes with rfl | rfl
  · rcases Option.map_eq_some_iff.mp moves with ⟨queue, inner, rfl⟩
    rw [OnQueue.pop.producer inner]
  · rcases Option.map_eq_some_iff.mp moves with ⟨queue, inner, rfl⟩
    rw [OnQueue.consumer.producer inner]

end RecordSystem

/-! ## A session and its parser -/

/-- The bytes in the session's ring. -/
def buffered (trace : SessionTrace) : Nat :=
  trace.session.stashBuffer.getBytesAvailable.toNat

/-- The parts of a handler from the loop of `process_stash` on, without its
records. -/
def partsLeft : ProcessCaller -> Nat
  | .completion => 4
  | .readHeader => 2

/-- At most so many steps of the handler are left: sixteen for each byte, those
of the parser that is running, and the remaining parts. -/
def handlerStepsLeft (trace : SessionTrace) (parser : Nat) : Nat :=
  match trace.point with
  | .readingHeader => 16 * buffered trace + 3
  | .processing caller => 16 * buffered trace + partsLeft caller
  | .parsing caller record =>
      16 * (buffered trace - record.framed.toNat) + partsLeft caller + 1 + parser
  | .rechecking => 16 * buffered trace + 1
  | .awaiting _ | .stopped => 0

section Sessions

variable {trace after : SessionTrace}

/-- The record that the parser works on is still in the ring. -/
theorem framed_record_within (framed : trace.Framed) {caller : ProcessCaller} {record : StashRecord}
    (parses : trace.point = .parsing caller record) :
    1 ≤ record.framed.toNat ∧ record.framed.toNat ≤ buffered trace := by
  rcases framed with ⟨exponent, emitted, inFlight, pending, holds⟩
  have knows := holds.point
  rw [parses] at knows
  rcases knows with ⟨frame, _, found, carries⟩
  rw [carries.2, buffered, holds.represents.available]
  exact ⟨framedSize_pos found, framedSize_le found⟩

theorem stepsLeft_resume (session : NetworkSession) (caller : ProcessCaller) (received : List Byte)
    (handed : List StashRecord) (sizeDisconnects : List DisconnectReason) (parser : Nat) :
    handlerStepsLeft ⟨session, caller.resume, received, handed, sizeDisconnects⟩ parser <
      16 * session.stashBuffer.getBytesAvailable.toNat + partsLeft caller := by
  cases caller with
  | readHeader => exact Nat.lt_succ_self _
  | completion => exact Nat.lt_succ_self _

/-- A step of the framing code lowers the rank, also when it calls a parser of
at most fourteen steps. -/
theorem framing_pays (fitting : trace.session.Fitting)
    (elsewhere : forall caller record, trace.point ≠ .parsing caller record)
    {verdict : Option DisconnectReason} (moves : trace.step (.proceed verdict) = some after)
    {parser parser' : Nat} (bound : parser' ≤ 14) :
    handlerStepsLeft after parser' < handlerStepsLeft trace parser := by
  cases SessionTrace.step_move moves with
  | retry reads _ =>
      simp only [handlerStepsLeft, reads]
      exact Nat.lt_succ_self _
  | await reads _ =>
      rcases reads with reads | reads
      · simp only [handlerStepsLeft, reads]
        exact Nat.succ_pos _
      · simp only [handlerStepsLeft, reads]
        exact Nat.succ_pos _
  | giveUp rechecks _ =>
      simp only [handlerStepsLeft, rechecks]
      exact Nat.succ_pos _
  | @leave _ caller processes _ =>
      rw [show handlerStepsLeft trace parser = 16 * buffered trace + partsLeft caller by
        rw [handlerStepsLeft, processes]]
      exact stepsLeft_resume trace.session caller _ _ _ parser'
  | @oversize _ caller reason processes _ =>
      rw [show handlerStepsLeft trace parser = 16 * buffered trace + partsLeft caller by
        rw [handlerStepsLeft, processes]]
      have left :=
        stepsLeft_resume (trace.session.disconnect reason) caller trace.received trace.handed
        (trace.sizeDisconnects ++ [reason]) parser'
      rw [NetworkSession.disconnect_stashBuffer] at left
      exact left
  | @handOver _ caller record processes iteration =>
      rcases NetworkSession.handOver_framed fitting iteration with ⟨some, within⟩
      simp only [handlerStepsLeft, processes, buffered]
      omega
  | consume parses => exact absurd parses (elsewhere _ _)

theorem consume_pays (framed : trace.Framed) {caller : ProcessCaller} {record : StashRecord}
    (parses : trace.point = .parsing caller record) {verdict : Option DisconnectReason}
    (moves : trace.step (.proceed verdict) = some after) (parser parser' : Nat) :
    handlerStepsLeft after parser' < handlerStepsLeft trace parser := by
  have within := (framed_record_within framed parses).2
  cases SessionTrace.step_move moves with
  | @consume _ origin taken takes =>
      cases parses.symm.trans takes
      have left : buffered (trace.consumeRecord verdict caller record) =
          buffered trace - record.framed.toNat := by
        have stash := (NetworkSession.consumeRecord_frame trace.session record verdict).1
        change (trace.session.consumeRecord record verdict).stashBuffer.getBytesAvailable.toNat = _
        rw [stash, NetworkSession.available_consume within]
        rfl
      have point : (trace.consumeRecord verdict caller record).point = .processing caller := rfl
      simp only [handlerStepsLeft, point, parses, left]
      omega
  | retry reads _ => cases parses.symm.trans reads
  | await reads _ => rcases reads with reads | reads <;> cases parses.symm.trans reads
  | giveUp rechecks _ => cases parses.symm.trans rechecks
  | leave processes _ => cases parses.symm.trans processes
  | oversize processes _ => cases parses.symm.trans processes
  | handOver processes _ => cases parses.symm.trans processes

/-- Sixteen steps for each byte in the ring and four more. -/
theorem handlerStepsLeft_le (framed : trace.Framed) {parser : Nat} (bound : parser ≤ 14) :
    handlerStepsLeft trace parser ≤ 16 * buffered trace + 4 := by
  have parts : forall caller : ProcessCaller, partsLeft caller ≤ 4 := fun caller => by
    cases caller <;> exact Nat.le_of_ble_eq_true rfl
  unfold handlerStepsLeft
  cases point : trace.point with
  | readingHeader => exact Nat.le_succ _
  | processing caller => exact Nat.add_le_add_left (parts caller) _
  | parsing caller record =>
      rcases framed_record_within framed point with ⟨some, within⟩
      have few := parts caller
      simp only
      omega
  | rechecking => exact Nat.add_le_add_left (by decide) _
  | awaiting space => exact Nat.zero_le _
  | stopped => exact Nat.zero_le _

end Sessions

/-! ## The worker -/

def WorkerAction.handlerSteps : WorkerAction -> Nat
  | .handler _ => 1
  | _ => 0

namespace Worker

/-- The handler of the session is running. -/
def Running (source : Nat) (worker : Worker) (_action : WorkerAction) : Prop :=
  worker.active = some source

instance (source : Nat) (worker : Worker)
    (action : WorkerAction) : Decidable (Running source worker action) :=
  inferInstanceAs (Decidable (worker.active = some source))

/-- At most so many steps of the session's handler are left. -/
def stepsLeft (source : Nat) (worker : Worker) : Nat :=
  handlerStepsLeft (worker.sessions source) worker.records.stepsLeft

variable {parser : ParserFunc} {before after : Worker} {source : Nat}

theorem afterFraming_pays {clock : UInt64T} {session : SessionTrace}
    (framed : (before.sessions source).Framed)
    (elsewhere : forall caller record, (before.sessions source).point ≠ .parsing caller record)
    (moved : (before.sessions source).step (.proceed none) = some session)
    (framing : before.afterFraming parser source clock session = some after) :
    stepsLeft source after < stepsLeft source before := by
  have pays := fun parser' => @framing_pays _ _
    (SessionTrace.fitting_of_framed framed) elsewhere _ moved before.records.stepsLeft parser'
  unfold stepsLeft
  unfold afterFraming at framing
  cases point : session.point with
  | parsing caller record =>
      rw [point] at framing
      rcases Option.map_eq_some_iff.mp framing with ⟨records, called, rfl⟩
      rw [sessions_withSession]
      exact pays _ records.stepsLeft_le
  | _ =>
      rw [point] at framing
      cases framing
      rw [sessions_withSession]
      exact pays _ before.records.stepsLeft_le

/-- Every step of the running handler lowers the rank, and nobody else raises it. -/
theorem step_pays (framed : (before.sessions source).Framed)
    (never : before.records.queue.NeverWaits)
    (runs : before.active = some source) {action : WorkerAction}
    (moves : before.step parser action = some after) :
    stepsLeft source after + action.handlerSteps ≤ stepsLeft source before := by
  cases action with
  | start other =>
      rcases step_start moves with ⟨inactive, _, session, _, rfl⟩
      have differs : source ≠ other := fun same => inactive (same ▸ runs)
      refine Nat.le_of_eq ?_
      change handlerStepsLeft (Function.update before.sessions other session source) _ = _
      rw [Function.update_of_ne differs]
      rfl
  | complete other bytes =>
      rcases step_complete moves with ⟨free, _⟩
      cases free.symm.trans runs
  | fail other =>
      rcases step_fail moves with ⟨free, _⟩
      cases free.symm.trans runs
  | handler clock =>
      rcases step_handler moves with ⟨other, active, parts⟩
      cases runs.symm.trans active
      rcases parts with ⟨caller, record, verdict, session, parses, _, consumed, rfl⟩ |
        ⟨records, ⟨caller, record, parses⟩, _, inner, rfl⟩ | ⟨session, elsewhere, moved, framing⟩
      · change handlerStepsLeft ((before.withSession source session).sessions source) _ < _
        rw [sessions_withSession]
        exact consume_pays framed parses consumed _ _
      · have pays := RecordSystem.stepsLeft_producer never inner
        change handlerStepsLeft (before.sessions source) records.stepsLeft <
          handlerStepsLeft (before.sessions source) before.records.stepsLeft
        simp only [handlerStepsLeft, parses]
        exact Nat.add_lt_add_left pays _
      · exact afterFraming_pays framed elsewhere moved framing
  | pop =>
      rcases Option.map_eq_some_iff.mp moves with ⟨records, inner, rfl⟩
      exact Nat.le_of_eq
        (congrArg (handlerStepsLeft _) (RecordSystem.stepsLeft_other (Or.inl rfl) inner))
  | consumer =>
      rcases Option.map_eq_some_iff.mp moves with ⟨records, inner, rfl⟩
      exact Nat.le_of_eq
        (congrArg (handlerStepsLeft _) (RecordSystem.stepsLeft_other (Or.inr rfl) inner))

/-! ## Every run of a handler -/

section Runs

variable {maxSlabs slabsSize : SizeT} {basePtr capacity : Nat} {profile : OverflowProfile}

theorem queue_neverWaits {worker : Worker} (never : profile.NeverWaits)
    (reached : (machine parser maxSlabs slabsSize basePtr capacity profile).Reachable worker) :
    worker.records.queue.NeverWaits := by
  have pipeline := pipelineOf.reachable reached
  have queue := RecordSystem.queueOf.reachable pipeline
  exact QueueSystem.neverWaits_of_reachable never (queue.reguard (fun _ _ _ _ => trivial))

theorem handlerBudget (source : Nat) (never : profile.NeverWaits) :
    Machine.Budget (machine parser maxSlabs slabsSize basePtr capacity profile) (Running source)
      (machine parser maxSlabs slabsSize basePtr capacity profile).Reachable (fun _ => False)
        (stepsLeft source)
      WorkerAction.handlerSteps (fun _ => 0) where
  keeps := fun _ _ _ reached _ moves => reached.next trivial moves
  stays := fun _ _ _ achieved _ _ => achieved
  pays := fun _ _ _ reached runs moves _ =>
    step_pays (SessionTrace.framed_of_reachable ((sessionOf source).reachable reached))
      (queue_neverWaits never reached) runs moves

/-- While a session's handler runs, the worker thread takes at most sixteen
steps for each byte in the session's ring and four more, whatever the other
threads do.  As long as its parser has a result it is never stuck before it
returns. -/
theorem running_handler_returns {actions : List WorkerAction} (never : profile.NeverWaits)
    (reached : (machine parser maxSlabs slabsSize basePtr capacity profile).Reachable before)
    (run : (machine parser maxSlabs slabsSize basePtr capacity profile).Executes
      (Running source) before actions after) :
    Machine.weigh WorkerAction.handlerSteps actions ≤ 16 * buffered (before.sessions source) + 4 ∧
      (after.active = some source -> forall clock,
        (forall record, (after.sessions source).session.stashIteration = .handOver record ->
          parser.fields clock record.logData ≠ none) ->
        Exists fun next => after.step parser (.handler clock) = some next) := by
  have ends : (machine parser maxSlabs slabsSize basePtr capacity profile).Reachable after :=
    reached.continue (run.runs.weaken (fun _ _ _ => trivial))
  have within := (handlerBudget source never).total reached run not_false
  have framed := SessionTrace.framed_of_reachable ((sessionOf source).reachable reached)
  have first : stepsLeft source before ≤ 16 * buffered (before.sessions source) + 4 :=
    handlerStepsLeft_le framed before.records.stepsLeft_le
  rw [Machine.weigh_zero] at within
  exact ⟨by omega, fun runs clock defined => handler_proceeds clock ends runs defined⟩

end Runs

/-- A line has been received, and its handler runs. -/
def lineRead : Worker :=
  ((machine .parseAndPush 10 1 0x10000 (2 ^ 20) .dropAll).executeUnder Machine.anyAction
    defaultWorker
    [.start 0, .complete 0 (shortLine 0x61)]).get (by decide +kernel)

/-- Seventeen steps of the handler, in which the consumer pops in vain. -/
def lineSchedule : List WorkerAction :=
  .handler 1000 :: .pop :: List.replicate 3 .consumer ++ List.replicate 16 (.handler 1000)

theorem running_handler_returns_line :
    Machine.weigh WorkerAction.handlerSteps lineSchedule ≤ 16 *
      buffered (lineRead.sessions 0) + 4 :=
  (running_handler_returns (Or.inl rfl)
    ⟨defaultWorker, defaultWorker_initial, Machine.runsUnder_of_execute (Option.some_get _).symm⟩
    (Machine.executes_of_execute (Option.some_get
      (show ((machine .parseAndPush 10 1 0x10000 (2 ^ 20) .dropAll).executeUnder
        (Running 0) lineRead
        lineSchedule).isSome = true by decide +kernel)).symm)).1

end Worker

end Pipeline
end VortexEngine
