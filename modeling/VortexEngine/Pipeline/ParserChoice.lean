import VortexEngine.Foundations.StepBudget
import VortexEngine.Network.ParserAgreement
import VortexEngine.Pipeline.Disconnection

open VortexEngine.Foundations

namespace VortexEngine

/-!
# The choice of the parser

`GetBestParser` looks at the processor, once for each session, and the two
parsers do not accept the same records.  What a worker does with them is compared
here over whole runs: with the same connections, the same reads, the same clock
and the same interleaving.

The two parsers name the same defect of a record differently, and they may find
different defects, so the texts of their refusals are compared up to the field
that they name.  Everything else has to be the same: the bytes that are consumed,
the sessions that are closed, the regions, the memory, the entries that are
pushed and popped, and the numbers of all calls.
-/

namespace Network

/-- The reason of a refusal up to the field of the record that it names. -/
def DisconnectReason.coarse : DisconnectReason -> DisconnectReason
  | .packageExceedsLimit => .packageExceedsLimit
  | .packageExceedsEstablished => .packageExceedsEstablished
  | .textWithoutDelimiter => .textWithoutDelimiter
  | .messageTooBig => .messageTooBig
  | _ => .malformedTime

def Diagnostic.coarse : Diagnostic -> Diagnostic
  | .disconnecting reason => .disconnecting reason.coarse
  | .asioError => .asioError

namespace NetworkSession

def coarse (session : NetworkSession) : NetworkSession :=
  { session with diagnostics := session.diagnostics.map Diagnostic.coarse }

theorem closeWith_coarse (session : NetworkSession) (report : Diagnostic) :
    session.coarse.closeWith report.coarse = (session.closeWith report).coarse := by
  rw [closeWith, closeWith]
  by_cases closing : session.isClosing = true
  · rw [if_pos closing, if_pos (show session.coarse.isClosing = true from closing)]
  · rw [if_neg closing, if_neg (show ¬ session.coarse.isClosing = true from closing)]
    simp [coarse]

/-- The framing code closes sessions for a size only. -/
theorem oversized_coarse {session : NetworkSession} {reason : DisconnectReason}
    (oversized : session.stashIteration = .oversized reason) : reason.coarse = reason := by
  unfold stashIteration at oversized
  simp only at oversized
  repeat' split at oversized
  all_goals cases oversized
  all_goals rfl

end NetworkSession

namespace SessionAction

def coarse : SessionAction -> SessionAction
  | .proceed verdict => .proceed (verdict.map DisconnectReason.coarse)
  | .complete bytes => .complete bytes
  | .fail => .fail

end SessionAction

namespace SessionTrace

def coarse (trace : SessionTrace) : SessionTrace :=
  { trace with session := trace.session.coarse }

theorem sizeDisconnect_coarse (trace : SessionTrace) {reason : DisconnectReason}
    (same : reason.coarse = reason)
    (next : SessionPoint) : trace.coarse.sizeDisconnect reason next =
    (trace.sizeDisconnect reason next).coarse := by
  have closed := trace.session.closeWith_coarse (.disconnecting reason)
  rw [Diagnostic.coarse, same] at closed
  simp only [sizeDisconnect, coarse, NetworkSession.disconnect, closed]

theorem consumeRecord_coarse (trace : SessionTrace) (verdict : Option DisconnectReason)
    (caller : ProcessCaller) (record : StashRecord) :
    trace.coarse.consumeRecord (verdict.map DisconnectReason.coarse) caller record =
      (trace.consumeRecord verdict caller record).coarse := by
  cases verdict with
  | none => rfl
  | some reason =>
      have closed := trace.session.closeWith_coarse (.disconnecting reason)
      simp only [consumeRecord, coarse, Option.map_some, Option.elim_some,
        NetworkSession.disconnect]
      rw [← Diagnostic.coarse, closed]
      rfl

/-- A session does the same whatever its refusals say. -/
theorem step_coarse (trace : SessionTrace) (action : SessionAction) :
    trace.coarse.step action.coarse = (trace.step action).map coarse := by
  have same : trace.coarse.point = trace.point := rfl
  cases action with
  | proceed verdict =>
      change trace.coarse.proceed (verdict.map DisconnectReason.coarse) =
        (trace.proceed verdict).map coarse
      have space : trace.coarse.session.stashBuffer.getWriteSpace =
        trace.session.stashBuffer.getWriteSpace := rfl
      have iteration : trace.coarse.session.stashIteration = trace.session.stashIteration := rfl
      rw [proceed, proceed, same]
      cases point : trace.point with
      | readingHeader =>
          by_cases narrow : trace.session.stashBuffer.getWriteSpace < 1024
          · simp only [space, if_pos narrow, Option.map_some]
            rfl
          · simp only [space, if_neg narrow, Option.map_some]
            rfl
      | rechecking =>
          by_cases narrow : trace.session.stashBuffer.getWriteSpace < 1024
          · simp only [space, if_pos narrow, Option.map_some]
            exact congrArg some (trace.sizeDisconnect_coarse rfl .stopped)
          · simp only [space, if_neg narrow, Option.map_some]
            rfl
      | processing caller =>
          simp only [iteration]
          cases found : trace.session.stashIteration with
          | leave => rfl
          | oversized reason =>
              exact congrArg some (trace.sizeDisconnect_coarse
                (NetworkSession.oversized_coarse found) caller.resume)
          | handOver record => rfl
      | parsing caller record =>
          exact congrArg some (trace.consumeRecord_coarse verdict caller record)
      | awaiting space => rfl
      | stopped => rfl
  | complete bytes =>
      change trace.coarse.step (.complete bytes) = _
      rw [step, step, same]
      cases trace.point with
      | awaiting space =>
          by_cases fits : bytes ≠ [] ∧ bytes.length ≤ space.toNat
          · simp only [if_pos fits]
            rfl
          · simp only [if_neg fits]
            rfl
      | _ => rfl
  | fail =>
      change trace.coarse.step .fail = _
      rw [step, step, same]
      cases trace.point with
      | awaiting space =>
          have closed : trace.session.coarse.closeWith .asioError =
              (trace.session.closeWith .asioError).coarse :=
            trace.session.closeWith_coarse .asioError
          simp only [Option.map_some, coarse, NetworkSession.handleError, closed]
      | _ => rfl

end SessionTrace

end Network

namespace Pipeline

open VortexEngine.Core VortexEngine.Network

/-! ## The two parsers -/

namespace ParserFunc

/-- What a parser makes of a record, up to the text of a refusal. -/
def verdict (parser : ParserFunc) (clock : UInt64T) (rawData : StringView) :
    Option (Except DisconnectReason RecordFields) :=
  (parser.fields clock rawData).map (Except.mapError DisconnectReason.coarse)

/-- The record is left to the scalar parser, or the AVX2 parser refuses it for its
time or its level, because no number that passes stands in front of the field. -/
def OnCommonGround (clock : UInt64T) (rawData : StringView) : Prop :=
  takesScalarPath rawData = true ∨ ¬ PassesTimeAndLevel clock rawData.bytes

theorem scalarFields_coarse {clock : UInt64T} {rawData : List Byte} {reason : DisconnectReason}
    (refuses : scalarFields clock rawData = .error reason) : reason.coarse = .malformedTime := by
  rw [scalarFields] at refuses
  simp only at refuses
  repeat' split at refuses
  all_goals cases refuses
  all_goals rfl

theorem simdFields_coarse {clock : UInt64T} {rawData : List Byte} {reason : DisconnectReason}
    (refuses : simdFields clock rawData = some (.error reason)) :
      reason.coarse = .malformedTime := by
  rw [simdFields] at refuses
  rcases Option.bind_eq_some_iff.mp refuses with ⟨time, _, refuses⟩
  repeat' split at refuses
  all_goals try cases refuses
  all_goals try rfl
  rcases Option.bind_eq_some_iff.mp refuses with ⟨level, _, refuses⟩
  repeat' split at refuses
  all_goals try cases refuses
  all_goals try rfl
  rcases Option.bind_eq_some_iff.mp refuses with ⟨id, _, refuses⟩
  repeat' split at refuses
  all_goals try cases refuses
  all_goals rfl

/-- The AVX2 parser has a result exactly on common ground. -/
theorem simd_defined_iff (clock : UInt64T) (rawData : StringView) :
    parseAndPushSimd.fields clock rawData ≠ none ↔ OnCommonGround clock rawData := by
  unfold fields OnCommonGround
  cases fast : takesScalarPath rawData with
  | true => simp
  | false =>
      rcases simdFields_of_fastPath clock fast with ⟨passes, refuses⟩
      simp only [Bool.false_eq_true, if_false, false_or]
      constructor
      · intro defined passed
        exact defined (passes passed)
      · intro refused
        rcases refuses refused with ⟨reason, result⟩
        rw [result]
        exact Option.some_ne_none _

theorem verdict_eq {clock : UInt64T} {rawData : StringView}
    (common : OnCommonGround clock rawData) :
    parseAndPushSimd.verdict clock rawData = parseAndPush.verdict clock rawData := by
  unfold verdict fields
  cases fast : takesScalarPath rawData with
  | true => rfl
  | false =>
      have refused := common.resolve_left (by rw [fast]; decide)
      rcases (simdFields_of_fastPath clock fast).2 refused with ⟨reason, simd⟩
      rcases scalarFields_of_not_passes refused with ⟨reason', scalar⟩
      simp only [Bool.false_eq_true, if_false, simd, scalar, Option.map_some, Except.mapError,
        simdFields_coarse simd, scalarFields_coarse scalar]

end ParserFunc

/-! ## Workers up to the texts of refusals -/

def ParserCall.coarse (call : ParserCall) : ParserCall :=
  { call with outcome := call.outcome.mapError DisconnectReason.coarse }

def RecordPoint.coarse : RecordPoint -> RecordPoint
  | .returned verdict => .returned (verdict.map DisconnectReason.coarse)
  | point => point

namespace RecordSystem

def coarse (system : RecordSystem) : RecordSystem :=
  { system with calls := system.calls.map ParserCall.coarse, point := system.point.coarse }

theorem refused_coarse (system : RecordSystem) (source : Nat) (clock : UInt64T)
    (rawData : StringView) (reason : DisconnectReason) :
    (system.refused source clock rawData reason).coarse =
      system.coarse.refused source clock rawData reason.coarse := by
  simp only [coarse, refused, List.map_append, List.map_cons, List.map_nil]
  rfl

theorem parse_coarse (system : RecordSystem) (source : Nat) (clock : UInt64T) (rawData : StringView)
    (parsed : Except DisconnectReason RecordFields) :
    (system.parse source clock rawData parsed).coarse =
      system.coarse.parse source clock rawData (parsed.mapError DisconnectReason.coarse) := by
  cases parsed with
  | error reason => exact system.refused_coarse source clock rawData reason
  | ok fields =>
      have pool : system.coarse.slabPool = system.slabPool := rfl
      simp only [Except.mapError, parse, pool]
      cases taken : system.slabPool.getNextSlab fields.message with
      | none => exact system.refused_coarse source clock rawData .messageTooBig
      | some region =>
          simp only [coarse, allocated, List.map_append, List.map_cons, List.map_nil]
          rfl

theorem record_coarse (system : RecordSystem) (parser : ParserFunc) (source : Nat) (clock : UInt64T)
    (rawData : StringView) {verdict : Option DisconnectReason}
    (returned : system.point = .returned verdict) :
    (system.step parser (.record source clock rawData)).map coarse =
      (parser.verdict clock rawData).map (system.coarse.parse source clock rawData) := by
  simp only [step, returned, ParserFunc.verdict, Option.map_map, Function.comp_def, parse_coarse]

theorem produce_coarse (system : RecordSystem) :
    system.coarse.produce = system.produce.map coarse := by
  have point : system.coarse.point = system.point.coarse := rfl
  have queue : system.coarse.queue = system.queue := rfl
  rw [produce, produce, point]
  cases standing : system.point with
  | returned verdict => rfl
  | allocated record => rfl
  | headed record => rfl
  | written record =>
      simp only [RecordPoint.coarse, queue, Option.map_map]
      rfl
  | pushing record =>
      simp only [RecordPoint.coarse, queue]
      cases system.queue.producer with
      | idle => rfl
      | _ =>
          simp only [Option.map_map, Function.comp_def, coarse, standing, RecordPoint.coarse]

/-- Parsers that decide alike do alike. -/
theorem record_alike {left right : RecordSystem} (alike : left.coarse = right.coarse)
    {parser parser' : ParserFunc} {clock : UInt64T} {rawData : StringView}
    (decides : parser.verdict clock rawData = parser'.verdict clock rawData) (source : Nat) :
    (left.step parser (.record source clock rawData)).map coarse =
      (right.step parser' (.record source clock rawData)).map coarse := by
  have points : left.point.coarse = right.point.coarse := congrArg point alike
  cases leftPoint : left.point with
  | returned verdict =>
      cases rightPoint : right.point with
      | returned verdict' =>
          rw [left.record_coarse parser source clock rawData leftPoint,
            right.record_coarse parser' source clock rawData rightPoint, decides, alike]
      | _ =>
          rw [leftPoint, rightPoint] at points
          cases points
  | _ =>
      cases rightPoint : right.point with
      | returned verdict' =>
          rw [leftPoint, rightPoint] at points
          cases points
      | _ => simp only [step, leftPoint, rightPoint]

end RecordSystem

namespace Worker

def coarse (worker : Worker) : Worker :=
  { sessions := fun source => (worker.sessions source).coarse
    active := worker.active
    records := worker.records.coarse }

theorem withSession_coarse (worker : Worker) (source : Nat) (session : SessionTrace) :
    (worker.withSession source session).coarse =
      worker.coarse.withSession source session.coarse := by
  refine congrArg (fun sessions => Worker.mk sessions _ _) (funext fun other => ?_)
  by_cases same : other = source
  · subst same
    simp only [withSession, Function.update_self]
  · simp only [withSession, Function.update_of_ne same]
    rfl

theorem session_coarse (worker : Worker) (source : Nat) (action : SessionAction) :
    (worker.coarse.sessions source).step action.coarse =
    ((worker.sessions source).step action).map SessionTrace.coarse :=
  (worker.sessions source).step_coarse action

theorem step_coarse (worker : Worker) (parser parser' : ParserFunc) {action : WorkerAction}
    (outside : forall clock, action ≠ .handler clock) :
    (worker.step parser action).map coarse = worker.coarse.step parser' action := by
  cases action with
  | handler clock => exact absurd rfl (outside clock)
  | start source =>
      have moves := worker.session_coarse source (.proceed none)
      rw [step, step]
      by_cases runs : worker.active = some source
      · rw [if_pos runs, if_pos (show worker.coarse.active = some source from runs)]
        rfl
      · rw [if_neg runs, if_neg (show ¬ worker.coarse.active = some source from runs)]
        by_cases reads : (worker.sessions source).point = .readingHeader
        · rw [if_pos reads, if_pos (show (worker.coarse.sessions source).point = _ from reads)]
          rw [show (worker.coarse.sessions source).step (.proceed none) = _ from moves,
            Option.map_map, Option.map_map]
          exact congrArg (fun after => Option.map after _)
            (funext fun session => worker.withSession_coarse source session)
        · rw [if_neg reads, if_neg (show ¬ (worker.coarse.sessions source).point = _ from reads)]
          rfl
  | complete source bytes =>
      have moves := worker.session_coarse source (.complete bytes)
      rw [step, step]
      by_cases free : worker.active = none
      · rw [if_pos free, if_pos (show worker.coarse.active = none from free),
          show (worker.coarse.sessions source).step (.complete bytes) = _ from moves,
            Option.map_map, Option.map_map]
        refine congrArg (fun after => Option.map after _) (funext fun session => ?_)
        exact congrArg (fun after : Worker => { after with active := some source })
          (worker.withSession_coarse source session)
      · rw [if_neg free, if_neg (show ¬ worker.coarse.active = none from free)]
        rfl
  | fail source =>
      have moves := worker.session_coarse source .fail
      rw [step, step]
      by_cases free : worker.active = none
      · rw [if_pos free, if_pos (show worker.coarse.active = none from free),
          show (worker.coarse.sessions source).step .fail = _ from moves, Option.map_map,
            Option.map_map]
        exact congrArg (fun after => Option.map after _)
          (funext fun session => worker.withSession_coarse source session)
      · rw [if_neg free, if_neg (show ¬ worker.coarse.active = none from free)]
        rfl
  | pop =>
      simp only [step, RecordSystem.step, Option.map_map]
      rfl
  | consumer =>
      simp only [step, RecordSystem.step, Option.map_map]
      rfl

theorem handle_coarse (worker : Worker) (parser parser' : ParserFunc) {source : Nat}
    (clock : UInt64T) {caller : ProcessCaller} {record : StashRecord}
    (parses : (worker.sessions source).point = .parsing caller record) :
    (worker.handle parser source clock).map coarse = worker.coarse.handle parser' source clock := by
  have parses' : (worker.coarse.sessions source).point = .parsing caller record := parses
  have standing : worker.coarse.records.point = worker.records.point.coarse := rfl
  rw [handle, handle, parses, parses']
  simp only [standing]
  cases point : worker.records.point with
  | returned verdict =>
      have moves := worker.session_coarse source (.proceed verdict)
      simp only [RecordPoint.coarse]
      rw [show (worker.coarse.sessions source).step
        (.proceed (verdict.map DisconnectReason.coarse)) = _ from moves,
        Option.map_map, Option.map_map]
      exact congrArg (fun after => Option.map after _)
        (funext fun session => worker.withSession_coarse source session)
  | _ =>
      simp only [RecordPoint.coarse, RecordSystem.step]
      rw [show worker.coarse.records.produce = _ from worker.records.produce_coarse, Option.map_map,
        Option.map_map]
      rfl

variable {left right : Worker}

theorem afterFraming_alike (alike : left.coarse = right.coarse) {parser parser' : ParserFunc}
    (source : Nat)
    {clock : UInt64T} {session session' : SessionTrace} (same : session.coarse = session'.coarse)
    (decides : forall caller record, session.point = .parsing caller record ->
      parser.verdict clock record.logData = parser'.verdict clock record.logData) :
    (left.afterFraming parser source clock session).map coarse =
      (right.afterFraming parser' source clock session').map coarse := by
  have points : session'.point = session.point := by
    change session'.coarse.point = session.coarse.point
    rw [same]
  have placed : (left.withSession source session).coarse =
      (right.withSession source session').coarse := by
    rw [withSession_coarse, withSession_coarse, alike, same]
  rw [afterFraming, afterFraming, points]
  cases point : session.point with
  | parsing caller record =>
      have called :=
        RecordSystem.record_alike (congrArg records alike) (decides caller record point) source
      have after := congrArg
        (Option.map fun records =>
          ({ (right.withSession source session').coarse with records := records } : Worker))
        called
      rw [Option.map_map, Option.map_map] at after
      simp only [Option.map_map]
      refine Eq.trans ?_ after
      rw [← placed]
      rfl
  | awaiting space =>
      exact congrArg (fun after : Worker => some { after with active := none }) placed
  | stopped => exact congrArg (fun after : Worker => some { after with active := none }) placed
  | _ => exact congrArg some placed

theorem handle_of_elsewhere (worker : Worker) (parser : ParserFunc) (source : Nat) (clock : UInt64T)
    (elsewhere : forall caller record, (worker.sessions source).point ≠ .parsing caller record) :
    worker.handle parser source clock =
      ((worker.sessions source).step (.proceed none)).bind fun session =>
        worker.afterFraming parser source clock session := by
  rw [handle]
  cases point : (worker.sessions source).point with
  | parsing caller record => exact absurd point (elsewhere caller record)
  | _ => rfl

/-- Workers that are alike stay alike when their parsers decide alike on the
record that is taken out next. -/
theorem step_alike (alike : left.coarse = right.coarse) {parser parser' : ParserFunc}
    {action : WorkerAction}
    (decides : forall source clock record, action = .handler clock -> left.active = some source ->
      nextRecord (left.sessions source) = some record ->
        parser.verdict clock record.logData = parser'.verdict clock record.logData) :
    (left.step parser action).map coarse = (right.step parser' action).map coarse := by
  have quiet : (forall clock, action ≠ .handler clock) ->
      (left.step parser action).map coarse = (right.step parser' action).map coarse := by
    intro outside
    rw [left.step_coarse parser parser' outside, alike, right.step_coarse parser' parser' outside]
  cases action with
  | handler clock =>
      have actives : left.active = right.active := by
        change left.coarse.active = right.coarse.active
        rw [alike]
      rw [step, step, ← actives]
      cases runs : left.active with
      | none => rfl
      | some source =>
          change (left.handle parser source clock).map coarse =
            (right.handle parser' source clock).map coarse
          have sessions : (left.sessions source).coarse = (right.sessions source).coarse :=
            congrFun (congrArg Worker.sessions alike) source
          have points : (left.sessions source).point = (right.sessions source).point := by
            change (left.sessions source).coarse.point = (right.sessions source).coarse.point
            rw [sessions]
          by_cases parses : Exists fun caller => Exists fun record =>
              (left.sessions source).point = .parsing caller record
          · rcases parses with ⟨caller, record, parses⟩
            rw [left.handle_coarse parser parser' clock parses, alike,
              right.handle_coarse parser' parser' clock (points ▸ parses)]
          · have elsewhere : forall caller record,
                (left.sessions source).point ≠ .parsing caller record :=
              fun caller record point => parses ⟨caller, record, point⟩
            rw [handle_of_elsewhere left parser source clock elsewhere,
              handle_of_elsewhere right parser' source clock (points ▸ elsewhere), Option.map_bind,
                Option.map_bind]
            have moves : ((left.sessions source).step (.proceed none)).map SessionTrace.coarse =
                ((right.sessions source).step (.proceed none)).map SessionTrace.coarse := by
              rw [← left.session_coarse, ← right.session_coarse, alike]
            cases moved : (left.sessions source).step (.proceed none) with
            | none =>
                rw [moved] at moves
                rw [Option.map_eq_none_iff.mp moves.symm]
                rfl
            | some session =>
                rw [moved] at moves
                rcases Option.map_eq_some_iff.mp moves.symm with ⟨session', moved', same⟩
                rw [moved']
                refine afterFraming_alike alike source same.symm (fun caller record parses => ?_)
                rcases found_of_parsing moved parses with ⟨processes, found, _⟩
                exact decides source clock record rfl runs
                  (nextRecord_eq_some.mpr ⟨⟨caller, processes⟩, found⟩)
  | _ =>
      apply quiet
      intro clock same
      cases same

/-! ## Runs -/

/-- Every parser call so far was on common ground. -/
def KeepsCommonGround (worker : Worker) : Prop :=
  forall call, call ∈ worker.records.calls -> ParserFunc.OnCommonGround call.clock call.rawData

variable {parser : ParserFunc} {before after : Worker} {action : WorkerAction}

theorem call_of_next {source : Nat} {clock : UInt64T} {record : StashRecord}
    (runs : before.active = some source) (next : nextRecord (before.sessions source) = some record)
    (moves : before.step parser (.handler clock) = some after) :
    parser.fields clock record.logData ≠ none ∧
      Exists fun call => call ∈ after.records.calls ∧ call.clock = clock ∧
        call.rawData = record.logData := by
  have called := handler_calls runs next moves
  constructor
  · intro undefined
    rw [RecordSystem.step] at called
    split at called
    · rw [undefined] at called
      cases called
    · cases called
  · rcases calls_step called with ⟨outcome, calls⟩
    exact ⟨_, calls ▸ List.mem_append_right _ (List.mem_singleton_self _), rfl, rfl⟩

theorem KeepsCommonGround.earlier (keeps : after.KeepsCommonGround)
    (moves : before.step parser action = some after) :
    before.KeepsCommonGround := by
  intro call member
  apply keeps
  rcases (step_move moves).pipeline with same | ⟨inner, _, moved⟩
  · exact same ▸ member
  · have calls := calls_step moved
    cases inner with
    | record source clock rawData =>
        rcases calls with ⟨outcome, calls⟩
        exact calls ▸ List.mem_append_left _ member
    | _ => exact calls ▸ member

/-- The AVX2 parser keeps to common ground, because elsewhere it does nothing
that is defined. -/
theorem KeepsCommonGround.step (keeps : before.KeepsCommonGround)
    (moves : before.step .parseAndPushSimd action = some after) : after.KeepsCommonGround := by
  rcases (step_move moves).pipeline with same | ⟨inner, _, moved⟩
  · intro call member
    exact keeps call (same ▸ member)
  · have calls := calls_step moved
    cases inner with
    | record source clock rawData =>
        rcases calls with ⟨outcome, calls⟩
        intro call member
        rw [calls] at member
        rcases List.mem_append.mp member with old | new
        · exact keeps call old
        · cases List.mem_singleton.mp new
          refine (ParserFunc.simd_defined_iff clock rawData).mp fun undefined => ?_
          rw [RecordSystem.step, undefined] at moved
          split at moved <;> cases moved
    | _ =>
        intro call member
        exact keeps call (calls ▸ member)

/-- Workers that are alike keep to common ground together. -/
theorem KeepsCommonGround.alike (keeps : left.KeepsCommonGround)
    (alike : left.coarse = right.coarse) :
    right.KeepsCommonGround := by
  have same : left.records.calls.map ParserCall.coarse =
      right.records.calls.map ParserCall.coarse := by
    change left.coarse.records.calls = right.coarse.records.calls
    rw [alike]
  intro call member
  have common : call.coarse ∈ left.records.calls.map ParserCall.coarse :=
    same ▸ List.mem_map_of_mem member
  rcases List.mem_map.mp common with ⟨original, placed, matching⟩
  have clocks : original.clock = call.clock := by
    change original.coarse.clock = call.coarse.clock
    rw [matching]
  have records : original.rawData = call.rawData := by
    change original.coarse.rawData = call.coarse.rawData
    rw [matching]
  exact clocks ▸ records ▸ keeps original placed

/-- The scalar parser follows the AVX2 parser. -/
theorem simd_followed (alike : left.coarse = right.coarse)
    (moves : left.step .parseAndPushSimd action = some after) :
    Exists fun after' => right.step .parseAndPush action = some after' ∧
      after.coarse = after'.coarse := by
  have decides : forall source clock record, action = .handler clock -> left.active = some source ->
      nextRecord (left.sessions source) = some record ->
        ParserFunc.parseAndPushSimd.verdict clock record.logData =
          ParserFunc.parseAndPush.verdict clock record.logData := by
    intro source clock record handles runs next
    subst handles
    have defined := (call_of_next runs next moves).1
    exact ParserFunc.verdict_eq ((ParserFunc.simd_defined_iff clock record.logData).mp defined)
  have moved := step_alike alike decides
  rw [moves] at moved
  rcases Option.map_eq_some_iff.mp moved.symm with ⟨after', moves', same⟩
  exact ⟨after', moves', same.symm⟩

/-- And the AVX2 parser follows the scalar parser where the calls stay on common
ground. -/
theorem scalar_followed (alike : left.coarse = right.coarse)
    (moves : left.step .parseAndPush action = some after) (keeps : after.KeepsCommonGround) :
    Exists fun after' => right.step .parseAndPushSimd action = some after' ∧
      after.coarse = after'.coarse := by
  have decides : forall source clock record, action = .handler clock -> left.active = some source ->
      nextRecord (left.sessions source) = some record ->
        ParserFunc.parseAndPush.verdict clock record.logData =
          ParserFunc.parseAndPushSimd.verdict clock record.logData := by
    intro source clock record handles runs next
    subst handles
    rcases (call_of_next runs next moves).2 with ⟨call, member, clocks, records⟩
    have common := keeps call member
    rw [clocks, records] at common
    exact (ParserFunc.verdict_eq common).symm
  have moved := step_alike alike decides
  rw [moves] at moved
  rcases Option.map_eq_some_iff.mp moved.symm with ⟨after', moves', same⟩
  exact ⟨after', moves', same.symm⟩

variable {maxSlabs slabsSize : SizeT} {basePtr capacity : Nat} {profile : OverflowProfile}

theorem KeepsCommonGround.run {actions : List WorkerAction}
    (run : (machine .parseAndPushSimd maxSlabs slabsSize basePtr capacity profile).Executes
      Machine.anyAction before actions after)
        (keeps : before.KeepsCommonGround) : after.KeepsCommonGround := by
  induction run with
  | done => exact keeps
  | step _ moves _ ih => exact ih (keeps.step moves)

/-- Under every schedule of reads, handlers, pops and consumer steps, a worker
with the AVX2 parser shows exactly what a worker with the scalar parser shows
when its records keep to common ground. -/
theorem simd_views_are_scalar_views {start : Worker}
    (starts : (machine .parseAndPush maxSlabs slabsSize basePtr capacity profile).initial start)
    (actions : List WorkerAction) (view : Worker) :
    (Exists fun after =>
      (machine .parseAndPushSimd maxSlabs slabsSize basePtr capacity profile).Executes
        Machine.anyAction start actions after ∧ after.coarse = view) ↔
      Exists fun after =>
        (machine .parseAndPush maxSlabs slabsSize basePtr capacity profile).Executes
        Machine.anyAction start actions after ∧ after.coarse = view ∧ after.KeepsCommonGround := by
  have fresh : start.KeepsCommonGround := by
    rcases starts.2.2 with ⟨queue, telemetry, memory, _, records⟩
    intro call member
    rw [records] at member
    cases member
  constructor
  · rintro ⟨after, run, same⟩
    rcases run.follow (machine .parseAndPush maxSlabs slabsSize basePtr capacity profile)
      (fun left right : Worker => left.coarse = right.coarse) (fun _ => True)
      (fun _ _ _ _ alike moves _ => simd_followed alike moves)
        (fun _ _ _ _ _ => trivial) trivial rfl with
      ⟨after', run', alike⟩
    exact ⟨after', run', alike ▸ same, (fresh.run run).alike alike⟩
  · rintro ⟨after, run, same, keeps⟩
    rcases run.follow (machine .parseAndPushSimd maxSlabs slabsSize basePtr capacity profile)
      (fun left right : Worker => left.coarse = right.coarse) KeepsCommonGround
      (fun _ _ _ _ alike moves keeps => scalar_followed alike moves keeps)
      (fun _ _ _ moves keeps => keeps.earlier moves) keeps rfl with ⟨after', run', alike⟩
    exact ⟨after', run', alike ▸ same⟩

end Worker

/-- A line whose time is the letter `x`, which the two parsers refuse in
different words. -/
def wordyLine : List Byte :=
  [0x78, 0x20, 0x31, 0x20, 0x37, 0x20] ++ List.replicate 60 0x78 ++ [0x0A]

/-- One connection sends the line and is closed, another one sends a short line,
and its entry is popped. -/
def wordySchedule : List WorkerAction :=
  .start 0 :: .start 1 :: .complete 0 wordyLine :: List.replicate 4 (.handler 1000) ++
    .complete 1 (shortLine 0x62) :: List.replicate 17 (.handler 1000) ++ .pop ::
      List.replicate 8 .consumer

def wordySimd : Worker :=
  ((Worker.machine .parseAndPushSimd 10 1 0x10000 (2 ^ 20) .dropAll).executeUnder Machine.anyAction
    defaultWorker
    wordySchedule).get (by decide +kernel)

theorem simd_views_are_scalar_views_wordy :
    Exists fun after => (Worker.machine .parseAndPush 10 1 0x10000 (2 ^ 20) .dropAll).Executes
      Machine.anyAction defaultWorker wordySchedule after ∧ after.coarse = wordySimd.coarse ∧
        after.KeepsCommonGround :=
  (Worker.simd_views_are_scalar_views defaultWorker_initial wordySchedule wordySimd.coarse).mp
    ⟨wordySimd, Machine.executes_of_execute (Option.some_get _).symm, rfl⟩

end Pipeline
end VortexEngine
