import VortexEngine.Pipeline.Disconnection

open VortexEngine.Foundations VortexEngine.Core VortexEngine.Network

namespace VortexEngine
namespace Pipeline

/-!
# Why a session closes

`disconnect` and `handle_error` compare and exchange `is_closing`, so the first
of them reports a line, posts the closing of the socket, and leaves nothing for
the others to do.  They are called at four places: when the framing loop comes
upon a frame that cannot be, when the session gives up reading because its ring
is nearly full, when the parser has refused a record, and when a read fails.
The second of them may befall a client that has done nothing wrong.

In a run of a worker with many sessions each of these steps belongs to one
session.  A session that is closing has reported the line of the first such
step of its own, and posted one closing.  A session that is not closing has
come to no such step.
-/

/-! ## One session -/

/-- The fields that `disconnect` and `handle_error` write. -/
structure SameBooks (left right : NetworkSession) : Prop where
  isClosing : left.isClosing = right.isClosing
  diagnostics : left.diagnostics = right.diagnostics
  postedCloses : left.postedCloses = right.postedCloses

/-- The session has not been closed, and nothing has been reported. -/
structure Unclosed (session : NetworkSession) : Prop where
  isOpen : session.isClosing = false
  diagnostics : session.diagnostics = []
  postedCloses : session.postedCloses = 0

/-- The session has been closed once, with this line. -/
structure ClosedWith (session : NetworkSession) (report : Diagnostic) : Prop where
  closing : session.isClosing = true
  diagnostics : session.diagnostics = [report]
  postedCloses : session.postedCloses = 1

variable {session after : NetworkSession} {report : Diagnostic}

theorem SameBooks.unclosed (books : SameBooks after session)
    (unclosed : Unclosed session) : Unclosed after :=
  ⟨books.isClosing.trans unclosed.isOpen, books.diagnostics.trans unclosed.diagnostics,
    books.postedCloses.trans unclosed.postedCloses⟩

theorem SameBooks.closedWith (books : SameBooks after session)
    (closed : ClosedWith session report) :
    ClosedWith after report :=
  ⟨books.isClosing.trans closed.closing, books.diagnostics.trans closed.diagnostics,
    books.postedCloses.trans closed.postedCloses⟩

theorem Unclosed.closeWith (unclosed : Unclosed session) (report : Diagnostic) :
    ClosedWith (session.closeWith report) report := by
  unfold NetworkSession.closeWith
  rw [unclosed.isOpen]
  constructor
  · rfl
  · change session.diagnostics ++ [report] = [report]
    rw [unclosed.diagnostics, List.nil_append]
  · change session.postedCloses + 1 = 1
    rw [unclosed.postedCloses]

theorem ClosedWith.closeWith (closed : ClosedWith session report) (later : Diagnostic) :
    session.closeWith later = session := by
  unfold NetworkSession.closeWith
  rw [if_pos closed.closing]

/-! ## The sessions of a worker -/

namespace Worker

/-- A parser call of the connection has refused its record. -/
def Refused (worker : Worker) (source : Nat) (reason : DisconnectReason) : Prop :=
  Exists fun call => call ∈ worker.records.callsOf source ∧ call.outcome = .error reason

/-- The last parser call of the connection has refused its record. -/
def LastRefused (worker : Worker) (source : Nat) (reason : DisconnectReason) : Prop :=
  Exists fun call => (worker.records.callsOf source).getLast? = some call ∧
    call.outcome = .error reason

/-- The handler of the connection is about to return from a parser call that has
refused its record. -/
structure Sentenced (worker : Worker) (source : Nat) (reason : DisconnectReason) : Prop where
  runs : worker.active = some source
  parses : Exists fun caller => Exists fun record =>
    (worker.sessions source).point = .parsing caller record
  returned : worker.records.point = .returned (some reason)

/-- A step that disconnects the session or handles its error, and the line with
which it does so. -/
inductive Cause (worker : Worker) (source : Nat) : WorkerAction -> Diagnostic -> Prop
  /-- `process_stash` comes upon a frame that cannot be -/
  | oversized {clock caller reason} (runs : worker.active = some source)
      (processes : (worker.sessions source).point = .processing caller)
      (iteration : (worker.sessions source).session.stashIteration = .oversized reason) :
      Cause worker source (.handler clock) (.disconnecting reason)
  /-- `read_header` has called `process_stash`, and there is still no room -/
  | giveUp {clock} (runs : worker.active = some source)
      (rechecks : (worker.sessions source).point = .rechecking)
      (narrow : (worker.sessions source).session.stashBuffer.getWriteSpace < 1024) :
      Cause worker source (.handler clock) (.disconnecting .packageExceedsLimit)
  /-- the parser has refused the record of its last call, and returns -/
  | refused {clock reason} (sentenced : worker.Sentenced source reason)
      (refused : worker.LastRefused source reason) :
        Cause worker source (.handler clock) (.disconnecting reason)
  /-- a read has failed -/
  | failedRead : Cause worker source (.fail source) .asioError

/-- The action is a step of that kind. -/
def Closes (source : Nat) (worker : Worker) (action : WorkerAction) : Prop :=
  Exists fun report => worker.Cause source action report

/-- Whether the session is closing at the end of a run, and why. -/
structure Explained (worker : Worker) (machine : Machine Worker WorkerAction) (start : Worker)
    (actions : List WorkerAction) (source : Nat) : Prop where
  /-- an open session has reported and posted nothing, no step of the run was to
  close it, and the only refusal is the one that its handler is about to hear of -/
  isOpen : (worker.sessions source).session.isClosing = false ->
    Unclosed (worker.sessions source).session ∧
      machine.Avoids Machine.anyAction (Closes source) start actions ∧
      forall reason, worker.Refused source reason -> worker.Sentenced source reason
  /-- a closing session has reported what the first such step of the run says, and
  posted one closing -/
  closing : (worker.sessions source).session.isClosing = true ->
    Exists fun before => Exists fun action => Exists fun report =>
      machine.First Machine.anyAction (Closes source) start actions worker before action ∧
        before.Cause source action report ∧ ClosedWith (worker.sessions source).session report

section Steps

variable {parser : ParserFunc} {before after : Worker} {source : Nat}

/-- The turn of one session leaves the others as active as they were. -/
theorem Turn.others {moved other : Nat} {action : SessionAction} {session : SessionTrace}
    {active : Option Nat}
    (turn : Turn before moved action session active) (differs : other ≠ moved) :
    active = some other ↔ before.active = some other := by
  have apart : some moved ≠ some other := fun same => differs (Option.some.inj same).symm
  cases turn with
  | complete free =>
      rw [free]
      exact ⟨fun runs => absurd runs apart, nofun⟩
  | finish runs _ _ =>
      rw [runs]
      exact ⟨nofun, fun active => absurd active apart⟩
  | _ => exact Iff.rfl

/-- A sentenced session goes on with its verdict. -/
theorem Sentenced.turn {reason : DisconnectReason} {action : SessionAction} {session : SessionTrace}
    {active : Option Nat} (sentenced : before.Sentenced source reason)
    (turn : Turn before source action session active) : action = .proceed (some reason) := by
  rcases sentenced.parses with ⟨caller, record, parses⟩
  cases turn with
  | start inactive _ => exact absurd sentenced.runs inactive
  | complete free => cases free.symm.trans sentenced.runs
  | fail free => cases free.symm.trans sentenced.runs
  | advance _ elsewhere _ => exact absurd parses (elsewhere caller record)
  | finish _ elsewhere _ => exact absurd parses (elsewhere caller record)
  | consume _ _ returned =>
      cases returned.symm.trans sentenced.returned
      rfl

/-! ## Refusals and the handlers that hear of them -/

/-- A handler hears of the last refusal, and an open session of no other one. -/
structure Heard (worker : Worker) (source : Nat) : Prop where
  refused : forall reason, worker.Sentenced source reason -> worker.LastRefused source reason
  sentenced : (worker.sessions source).session.isClosing = false ->
    forall reason, worker.Refused source reason -> worker.Sentenced source reason

/-- Nothing changes for a connection whose session, calls and verdicts are the same. -/
theorem Heard.frame (heard : before.Heard source)
    (session : after.sessions source = before.sessions source)
    (calls : after.records.callsOf source = before.records.callsOf source)
    (verdicts : forall reason, after.Sentenced source reason ↔ before.Sentenced source reason) :
    after.Heard source := by
  constructor
  · intro reason sentenced
    unfold LastRefused
    rw [calls]
    exact heard.refused reason ((verdicts reason).mp sentenced)
  · intro isOpen reason refused
    rw [session] at isOpen
    unfold Refused at refused
    rw [calls] at refused
    exact (verdicts reason).mpr (heard.sentenced isOpen reason refused)

theorem Heard.turn (heard : before.Heard source) {action : SessionAction} {session : SessionTrace}
    {active : Option Nat} (moves : (before.sessions source).step action = some session)
    (silent : session.handed = (before.sessions source).handed)
    (turn : Turn before source action session active) (now : after.sessions source = session)
    (records : after.records = before.records) : after.Heard source := by
  constructor
  · rintro reason ⟨_, ⟨caller, record, parses⟩, _⟩
    rw [now] at parses
    rcases step_handed moves with ⟨_, elsewhere⟩ | ⟨_, record', _, _, _, hands⟩
    · exact absurd parses (elsewhere caller record)
    · rw [silent] at hands
      exact absurd (List.self_eq_append_right.mp hands) (List.cons_ne_nil record' [])
  · intro isOpen reason refused
    rw [now] at isOpen
    unfold Refused at refused
    rw [records] at refused
    have wasOpen : (before.sessions source).session.isClosing = false := by
      apply Bool.eq_false_iff.mpr
      intro closing
      cases isOpen.symm.trans (closing_step moves closing)
    -- the session goes on with the verdict, and is closed
    have sentenced := heard.sentenced wasOpen reason refused
    have proceeds := sentenced.turn turn
    rcases sentenced.parses with ⟨caller, record, parses⟩
    subst proceeds
    cases SessionTrace.step_move moves with
    | consume _ => cases isOpen.symm.trans (NetworkSession.disconnect_isClosing _ _)
    | await reads _ => rcases reads with reads | reads <;> cases parses.symm.trans reads
    | retry elsewhere _ | giveUp elsewhere _ | leave elsewhere _ | oversize elsewhere _
    | handOver elsewhere _ =>
        cases parses.symm.trans elsewhere

theorem call_verdict {before after : RecordSystem} {source : Nat} {clock : UInt64T}
    {rawData : StringView}
    (called : before.step parser (.record source clock rawData) = some after) :
    Exists fun outcome => after.calls = before.calls ++ [⟨source, clock, rawData, outcome⟩] ∧
      forall reason, outcome = .error reason ↔ after.point = .returned (some reason) := by
  cases RecordSystem.step_move called with
  | @refuse _ _ _ _ given _ _ =>
      refine ⟨.error given, rfl, ?_⟩
      intro reason
      constructor
      · rintro ⟨⟩
        rfl
      · rintro ⟨⟩
        rfl
  | allocate _ _ _ => exact ⟨_, rfl, fun reason => ⟨nofun, nofun⟩⟩
  | other outside _ => cases outside

theorem Heard.handOver (heard : before.Heard source) {session : SessionTrace} {clock : UInt64T}
    {caller : ProcessCaller} {record : StashRecord} (runs : before.active = some source)
    (moves : (before.sessions source).step (.proceed none) = some session)
    (parses : session.point = .parsing caller record) (now : after.sessions source = session)
    (active : after.active = before.active)
    (called : before.records.step parser (.record source clock record.logData) =
      some after.records) :
    after.Heard source := by
  subst now
  rcases found_of_parsing moves parses with ⟨processes, iteration, kept⟩
  rcases call_verdict called with ⟨outcome, extended, verdict⟩
  have calls : after.records.callsOf source =
      before.records.callsOf source ++ [⟨source, clock, record.logData, outcome⟩] := by
    unfold RecordSystem.callsOf
    rw [extended, List.filter_append]
    simp [ParserCall.comesFrom]
  constructor
  · intro reason sentenced
    refine ⟨⟨source, clock, record.logData, outcome⟩, ?_, (verdict reason).mpr sentenced.returned⟩
    rw [calls, List.getLast?_concat]
  · rintro isOpen reason ⟨call, member, refused⟩
    rw [kept] at isOpen
    rw [calls] at member
    rcases List.mem_append.mp member with earlier | last
    · rcases (heard.sentenced isOpen reason ⟨call, earlier, refused⟩).parses with
        ⟨caller', record', waits⟩
      cases processes.symm.trans waits
    · cases List.mem_singleton.mp last
      exact ⟨active.trans runs, ⟨caller, record, parses⟩, (verdict reason).mp refused⟩

/-- The pipeline's other steps neither call the parser nor let it return. -/
theorem quiet_records {before after : RecordSystem} {action : RecordAction}
    (moves : before.step parser action = some after)
    (inside : action = .producer ∨ action = .pop ∨ action = .consumer) :
    after.calls = before.calls ∧
      forall reason, after.point = .returned (some reason) ↔
        before.point = .returned (some reason) := by
  have standing : forall {left right : RecordPoint} {reason : DisconnectReason},
      (forall verdict, left ≠ .returned verdict) -> right ≠ .returned (some reason) ->
        (right = .returned (some reason) ↔ left = .returned (some reason)) := by
    intro left right reason neither nor
    exact ⟨fun returned => absurd returned nor, fun returned => absurd returned (neither _)⟩
  cases RecordSystem.step_move moves with
  | refuse | allocate => rcases inside with inside | inside | inside <;> cases inside
  | writeHeader point => exact ⟨rfl, fun _ => standing (by rw [point]; exact nofun) nofun⟩
  | writeMessage point => exact ⟨rfl, fun _ => standing (by rw [point]; exact nofun) nofun⟩
  | call point => exact ⟨rfl, fun _ => standing (by rw [point]; exact nofun) nofun⟩
  | push => exact ⟨rfl, fun _ => Iff.rfl⟩
  | finish point => exact ⟨rfl, fun _ => standing (by rw [point]; exact nofun) nofun⟩
  | other => exact ⟨rfl, fun _ => Iff.rfl⟩

theorem Heard.step (heard : before.Heard source) {action : WorkerAction}
    (moves : before.step parser action = some after) : after.Heard source := by
  cases step_move moves with
  | @session moved inner session active stepped silent turn =>
      by_cases same : source = moved
      · subst same
        exact heard.turn stepped silent turn (Function.update_self _ _ _) rfl
      · have session' :
          ({ before.withSession moved session with active := active } : Worker).sessions source =
            before.sessions source := Function.update_of_ne same _ _
        refine heard.frame session' rfl ?_
        intro reason
        constructor
        · rintro ⟨runs, parses, returned⟩
          exact ⟨(turn.others same).mp runs, session' ▸ parses, returned⟩
        · rintro ⟨runs, parses, returned⟩
          exact ⟨(turn.others same).mpr runs, session'.symm ▸ parses, returned⟩
  | @handOver moved clock session caller record records runs stepped parses hands called =>
      by_cases same : source = moved
      · subst same
        exact heard.handOver runs stepped parses (Function.update_self _ _ _) rfl called
      · rcases calls_step called with ⟨outcome, extended⟩
        have idle : ¬ before.active = some source := by
          intro active
          exact same (Option.some.inj (active.symm.trans runs))
        refine heard.frame (Function.update_of_ne same _ _) ?_ ?_
        · change records.callsOf source = _
          unfold RecordSystem.callsOf
          rw [extended, List.filter_append,
            List.filter_cons_of_neg (by simpa [ParserCall.comesFrom] using Ne.symm same)]
          exact List.append_nil _
        · intro reason
          exact ⟨fun sentenced => absurd sentenced.runs idle,
            fun sentenced => absurd sentenced.runs idle⟩
  | records stepped inside =>
      rcases quiet_records stepped inside with ⟨calls, points⟩
      refine heard.frame rfl ?_ ?_
      · unfold RecordSystem.callsOf
        rw [calls]
      · intro reason
        constructor
        · rintro ⟨runs, parses, returned⟩
          exact ⟨runs, parses, (points reason).mp returned⟩
        · rintro ⟨runs, parses, returned⟩
          exact ⟨runs, parses, (points reason).mpr returned⟩

theorem initial_unclosed {maxSlabs slabsSize : SizeT} {basePtr capacity : Nat}
    {profile : OverflowProfile} {worker : Worker}
    (starts : (machine parser maxSlabs slabsSize basePtr capacity profile).initial worker)
    (source : Nat) : Unclosed (worker.sessions source).session ∧ worker.Heard source := by
  rcases starts with ⟨sessions, idle, queue, telemetry, memory, _, records⟩
  rcases sessions source with ⟨session, ⟨api, mapped, maxSize, created⟩, begins⟩
  rcases Option.map_eq_some_iff.mp created with ⟨stash, _, rfl⟩
  refine ⟨?_, ?_, ?_⟩
  · rw [begins]
    exact ⟨rfl, rfl, rfl⟩
  · intro reason sentenced
    cases idle.symm.trans sentenced.runs
  · rintro _ reason ⟨call, member, _⟩
    rw [records] at member
    cases member

theorem heard_of_reachable {maxSlabs slabsSize : SizeT} {basePtr capacity : Nat}
    {profile : OverflowProfile} {guard : Worker -> WorkerAction -> Prop} {worker : Worker}
    (reached : (machine parser maxSlabs slabsSize basePtr capacity profile).ReachableUnder
      guard worker) :
    worker.Heard source :=
  reached.invariant (fun _ starts => (initial_unclosed starts source).2)
    (fun _ _ _ _ heard _ moves => heard.step moves)

/-! ## One step -/

/-- The session is closed if the action is a cause to do so, and its books are
left alone in every other case. -/
def WritesBooks (worker : Worker) (source : Nat) (action : WorkerAction)
    (session : NetworkSession) : Prop :=
  (SameBooks session (worker.sessions source).session ∧ ¬ Closes source worker action) ∨
    Exists fun report => worker.Cause source action report ∧
      SameBooks session ((worker.sessions source).session.closeWith report)

theorem books_of_other {other : Nat} {session : SessionTrace} (differs : source ≠ other) :
    SameBooks (Function.update before.sessions other session source).session
      (before.sessions source).session := by
  rw [Function.update_of_ne differs]
  exact ⟨rfl, rfl, rfl⟩

/-- A step of the framing code, or the return from a parser, writes the books if
it is a cause, and only then. -/
theorem handler_books (heard : before.Heard source) {clock : UInt64T}
    (runs : before.active = some source)
    {verdict : Option DisconnectReason} {session : SessionTrace}
    (moves : (before.sessions source).step (.proceed verdict) = some session)
    (verdicts : forall caller record, (before.sessions source).point = .parsing caller record ->
      before.records.point = .returned verdict) :
    before.WritesBooks source (.handler clock) session.session := by
  have silentAt : forall {point : SessionPoint}, (before.sessions source).point = point ->
      (forall caller reason, point = .processing caller ->
        (before.sessions source).session.stashIteration ≠ .oversized reason) ->
      (point = .rechecking ->
        ¬ (before.sessions source).session.stashBuffer.getWriteSpace < 1024) ->
      (forall caller record reason, point = .parsing caller record ->
        before.records.point ≠ .returned (some reason)) ->
        ¬ Closes source before (.handler clock) := by
    rintro point rfl fitting roomy accepting ⟨report, cause⟩
    cases cause with
    | oversized _ processes iteration => exact fitting _ _ processes iteration
    | giveUp _ rechecks narrow => exact roomy rechecks narrow
    | refused sentenced _ =>
        rcases sentenced.parses with ⟨caller, record, parses⟩
        exact accepting caller record _ parses sentenced.returned
  cases SessionTrace.step_move moves with
  | retry reads _ => exact Or.inl ⟨⟨rfl, rfl, rfl⟩, silentAt reads nofun nofun nofun⟩
  | await reads wide =>
      rcases reads with reads | reads
      · exact Or.inl ⟨⟨rfl, rfl, rfl⟩, silentAt reads nofun nofun nofun⟩
      · exact Or.inl ⟨⟨rfl, rfl, rfl⟩, silentAt reads nofun (fun _ => wide) nofun⟩
  | giveUp rechecks narrow => exact Or.inr ⟨_, .giveUp runs rechecks narrow, rfl, rfl, rfl⟩
  | leave processes iteration =>
      refine Or.inl ⟨⟨rfl, rfl, rfl⟩, silentAt processes ?_ nofun nofun⟩
      intro caller reason _ oversized
      cases iteration.symm.trans oversized
  | oversize processes iteration =>
      exact Or.inr ⟨_, .oversized runs processes iteration, rfl, rfl, rfl⟩
  | handOver processes iteration =>
      refine Or.inl ⟨⟨rfl, rfl, rfl⟩, silentAt processes ?_ nofun nofun⟩
      intro caller reason _ oversized
      cases iteration.symm.trans oversized
  | consume parses =>
      have returned := verdicts _ _ parses
      cases verdict with
      | none =>
          refine Or.inl ⟨⟨rfl, rfl, rfl⟩, silentAt parses nofun nofun ?_⟩
          intro caller record reason _ refused
          cases returned.symm.trans refused
      | some reason =>
          have sentenced : before.Sentenced source reason := ⟨runs, ⟨_, _, parses⟩, returned⟩
          exact Or.inr ⟨_, .refused sentenced (heard.refused reason sentenced), rfl, rfl, rfl⟩

/-- The handler that runs writes the books of its own session. -/
theorem running_books (heard : before.Heard source) {clock : UInt64T}
    (moves : before.step parser (.handler clock) = some after) :
    before.WritesBooks source (.handler clock) (after.sessions source).session := by
  rcases step_handler moves with ⟨other, runs, handled⟩
  by_cases same : source = other
  · subst same
    rcases handled with ⟨caller, record, verdict, session, parses, returned, consumed, rfl⟩ |
      ⟨records, ⟨caller, record, parses⟩, busy, _, rfl⟩ | ⟨session, elsewhere, moved, framed⟩
    · rw [sessions_withSession]
      exact handler_books heard runs consumed (fun _ _ _ => returned)
    · -- the parser has not returned yet, so that no verdict can be heard
      refine Or.inl ⟨⟨rfl, rfl, rfl⟩, ?_⟩
      rintro ⟨report, cause⟩
      cases cause with
      | oversized _ elsewhere _ | giveUp _ elsewhere _ => cases parses.symm.trans elsewhere
      | refused sentenced _ => exact busy _ sentenced.returned
    · rw [(afterFraming_frame framed).1, Function.update_self]
      exact handler_books heard runs moved (fun _ _ parses => absurd parses (elsewhere _ _))
  · have idle : ¬ Closes source before (.handler clock) := by
      rintro ⟨report, cause⟩
      have active : before.active = some source := by
        cases cause with
        | oversized active _ _ | giveUp active _ _ => exact active
        | refused sentenced _ => exact sentenced.runs
      exact same (Option.some.inj (active.symm.trans runs))
    rcases handled with ⟨_, _, _, _, _, _, _, rfl⟩ | ⟨_, _, _, _, rfl⟩ | ⟨session, _, _, framed⟩
    · exact Or.inl ⟨books_of_other same, idle⟩
    · exact Or.inl ⟨⟨rfl, rfl, rfl⟩, idle⟩
    · rw [(afterFraming_frame framed).1]
      exact Or.inl ⟨books_of_other same, idle⟩

/-- A step of the worker closes a session if it is a cause to do so, and touches
its books in no other case. -/
theorem step_books (heard : before.Heard source) {action : WorkerAction}
    (moves : before.step parser action = some after) :
    before.WritesBooks source action (after.sessions source).session := by
  cases action with
  | start other =>
      rcases step_start moves with ⟨_, reads, session, moved, rfl⟩
      refine Or.inl ⟨?_, nofun⟩
      by_cases same : source = other
      · subst same
        rw [sessions_withSession]
        cases SessionTrace.step_move moved with
        | retry _ _ | await _ _ => exact ⟨rfl, rfl, rfl⟩
        | giveUp elsewhere _ | leave elsewhere _ | oversize elsewhere _ | handOver elsewhere _
        | consume elsewhere =>
            cases reads.symm.trans elsewhere
      · exact books_of_other same
  | complete other bytes =>
      rcases step_complete moves with ⟨_, session, moved, rfl⟩
      refine Or.inl ⟨?_, nofun⟩
      by_cases same : source = other
      · subst same
        change SameBooks ((before.withSession source session).sessions source).session _
        rw [sessions_withSession]
        cases SessionTrace.step_move moved with
        | receive _ _ _ => exact ⟨rfl, rfl, rfl⟩
      · exact books_of_other same
  | fail other =>
      rcases step_fail moves with ⟨_, session, moved, rfl⟩
      by_cases same : source = other
      · subst same
        rw [sessions_withSession]
        cases SessionTrace.step_move moved with
        | fail _ => exact Or.inr ⟨_, .failedRead, rfl, rfl, rfl⟩
      · refine Or.inl ⟨books_of_other same, ?_⟩
        rintro ⟨report, cause⟩
        cases cause
        exact same rfl
  | handler clock => exact running_books heard moves
  | pop =>
      rcases Option.map_eq_some_iff.mp moves with ⟨records, _, rfl⟩
      exact Or.inl ⟨⟨rfl, rfl, rfl⟩, nofun⟩
  | consumer =>
      rcases Option.map_eq_some_iff.mp moves with ⟨records, _, rfl⟩
      exact Or.inl ⟨⟨rfl, rfl, rfl⟩, nofun⟩

/-! ## Runs -/

section Runs

variable {maxSlabs slabsSize : SizeT} {basePtr capacity : Nat} {profile : OverflowProfile}
variable {start worker : Worker} {actions : List WorkerAction}

theorem unclosed_of_avoids
    (starts : (machine parser maxSlabs slabsSize basePtr capacity profile).initial start)
    (run : (machine parser maxSlabs slabsSize basePtr capacity profile).Executes Machine.anyAction
      start actions
      worker)
    (avoids : (machine parser maxSlabs slabsSize basePtr capacity profile).Avoids Machine.anyAction
      (Closes source) start actions) :
    Unclosed (worker.sessions source).session ∧ worker.Heard source := by
  refine run.preserves_avoiding
    (I := fun worker => Unclosed (worker.sessions source).session ∧ worker.Heard source) avoids ?_
    (initial_unclosed starts source)
  intro before action after holds silent moves
  rcases step_books holds.2 moves with ⟨books, _⟩ | ⟨report, cause, _⟩
  · exact ⟨books.unclosed holds.1, holds.2.step moves⟩
  · exact absurd ⟨report, cause⟩ silent

/-- The line of a session that is closing is the only one. -/
theorem closedWith_of_run {report : Diagnostic} (heard : start.Heard source)
    (run : (machine parser maxSlabs slabsSize basePtr capacity profile).Runs start worker)
    (closed : ClosedWith (start.sessions source).session report) :
    ClosedWith (worker.sessions source).session report := by
  have both : ClosedWith (worker.sessions source).session report ∧ worker.Heard source := by
    refine run.preserves (I := fun worker => ClosedWith (worker.sessions source).session report ∧
      worker.Heard source) ?_ ⟨closed, heard⟩
    intro before action after holds _ moves
    refine ⟨?_, holds.2.step moves⟩
    rcases step_books holds.2 moves with ⟨books, _⟩ | ⟨later, _, books⟩
    · exact books.closedWith holds.1
    · rw [holds.1.closeWith later] at books
      exact books.closedWith holds.1
  exact both.1

end Runs

end Steps

end Worker

/-- In every run of any sessions on a worker, each session reports and posts its
closing at most once: at the first step of the run at which a frame of its own
cannot be, its ring has no room left, its parser has refused a record or its read
has failed.  As long as there has been no such step, it is open. -/
theorem closing_is_explained {parser : ParserFunc} {maxSlabs slabsSize : SizeT}
    {basePtr capacity : Nat}
    {profile : OverflowProfile} {start worker : Worker} {actions : List WorkerAction}
    (starts : (Worker.machine parser maxSlabs slabsSize basePtr capacity profile).initial start)
    (run : (Worker.machine parser maxSlabs slabsSize basePtr capacity profile).Executes
      Machine.anyAction start
      actions worker) :
    forall source,
      worker.Explained (Worker.machine parser maxSlabs slabsSize basePtr capacity profile)
        start actions source := by
  intro source
  rcases run.avoids_or_first (Worker.Closes source) with avoids | ⟨before, action, first⟩
  · rcases Worker.unclosed_of_avoids starts run avoids with ⟨unclosed, heard⟩
    constructor
    · intro isOpen
      exact ⟨unclosed, avoids, heard.sentenced isOpen⟩
    · intro closing
      cases closing.symm.trans unclosed.isOpen
  · rcases first.within with ⟨earlier, middle, later, _, toBefore, moves, onward, avoids⟩
    rcases Worker.unclosed_of_avoids starts toBefore avoids with ⟨unclosed, heard⟩
    rcases Worker.step_books heard moves with ⟨_, silent⟩ | ⟨report, cause, books⟩
    · exact absurd first.occurs silent
    · have closed : ClosedWith (middle.sessions source).session report :=
        books.closedWith (unclosed.closeWith report)
      have finally' := Worker.closedWith_of_run (heard.step moves) onward.runs closed
      constructor
      · intro isOpen
        cases isOpen.symm.trans finally'.closing
      · intro _
        exact ⟨before, action, report, first, cause, finally'⟩

/-- One read brings two lines, and the first of them has no space. -/
def twoLinesSchedule : List WorkerAction :=
  .start 0 :: .complete 0 (refusedLine ++ shortLine 0x61) :: List.replicate 6 (.handler 1000)

def twoLinesHandled : Worker :=
  (defaultWorkers.executeUnder Machine.anyAction defaultWorker twoLinesSchedule).get
    (by decide +kernel)

theorem closing_is_explained_twoLines :
    twoLinesHandled.Explained defaultWorkers defaultWorker twoLinesSchedule 0 :=
  closing_is_explained defaultWorker_initial
    (Machine.executes_of_execute (Option.some_get _).symm) 0

end Pipeline
end VortexEngine
