import VortexEngine.Network.FrameDelivery
import VortexEngine.Pipeline.CallLedger

open VortexEngine.Foundations VortexEngine.Core VortexEngine.Network

namespace VortexEngine
namespace Pipeline

/-!
# One worker thread and its sessions

`LogServer` runs each `io_context` on one thread.  The handlers of all sessions
of such a context run there, one after the other and each to its end, and they
push into one queue.  The first read of a session is started by the accepting
thread, before the session has any handler, and the queue's consumer runs at
any time.

A handler calls its parser in the middle of the framing loop.  The session
waits at that point until the parser has returned, and then consumes the record.
-/

/-- The sessions of one worker by their connection numbers, the one whose
handler is running, and the pipeline into the queue. -/
structure Worker where
  sessions : Nat -> SessionTrace
  active : Option Nat
  records : RecordSystem

inductive WorkerAction
  /-- the accepting thread calls `start` on a new session -/
  | start (source : Nat)
  /-- the thread picks up a completed read and calls its handler -/
  | complete (source : Nat) (bytes : List Byte)
  /-- the thread picks up a failed read -/
  | fail (source : Nat)
  /-- the next step of the handler; a parser that is called now reads the clock -/
  | handler (clock : UInt64T)
  | pop
  | consumer

namespace Worker

def withSession (worker : Worker) (source : Nat) (session : SessionTrace) : Worker :=
  { worker with sessions := Function.update worker.sessions source session }

@[simp] theorem sessions_withSession (worker : Worker) (source : Nat) (session : SessionTrace) :
    (worker.withSession source session).sessions source = session :=
  Function.update_self _ _ _

/-- What the handler does behind a step of its framing code: it calls the
parser with a record that has been found, ends, or goes on. -/
def afterFraming (parser : ParserFunc) (worker : Worker) (source : Nat) (clock : UInt64T)
    (session : SessionTrace) : Option Worker :=
  match session.point with
  | .parsing _ record =>
      (worker.records.step parser (.record source clock record.logData)).map fun records =>
        { worker.withSession source session with records := records }
  | .awaiting _ => some { worker.withSession source session with active := none }
  | .stopped => some { worker.withSession source session with active := none }
  | _ => some (worker.withSession source session)

/-- The next step of the running handler. -/
def handle (parser : ParserFunc) (worker : Worker) (source : Nat)
    (clock : UInt64T) : Option Worker :=
  match (worker.sessions source).point with
  | .parsing _ _ =>
      match worker.records.point with
      | .returned verdict =>
          ((worker.sessions source).step (.proceed verdict)).map fun session =>
            worker.withSession source session
      | _ =>
          (worker.records.step parser .producer).map fun records =>
            { worker with records := records }
  | _ =>
      ((worker.sessions source).step (.proceed none)).bind fun session =>
        worker.afterFraming parser source clock session

def step (parser : ParserFunc) (worker : Worker) : WorkerAction -> Option Worker
  | .start source =>
      if worker.active = some source then none
      else if (worker.sessions source).point = .readingHeader then
        ((worker.sessions source).step (.proceed none)).map fun session =>
          worker.withSession source session
      else none
  | .complete source bytes =>
      if worker.active = none then
        ((worker.sessions source).step (.complete bytes)).map fun session =>
          { worker.withSession source session with active := some source }
      else none
  | .fail source =>
      if worker.active = none then
        ((worker.sessions source).step .fail).map fun session => worker.withSession source session
      else none
  | .handler clock =>
      match worker.active with
      | none => none
      | some source => worker.handle parser source clock
  | .pop => (worker.records.step parser .pop).map fun records => { worker with records := records }
  | .consumer =>
      (worker.records.step parser .consumer).map fun records => { worker with records := records }

/-- Any sessions, just constructed, on a fresh queue. -/
def machine (parser : ParserFunc) (maxSlabs slabsSize : SizeT) (basePtr capacity : Nat)
    (profile : OverflowProfile) : Machine Worker WorkerAction where
  initial := fun worker =>
    (forall source, SessionTrace.machine.initial (worker.sessions source)) ∧ worker.active = none ∧
      (RecordSystem.machine parser maxSlabs slabsSize basePtr capacity profile).initial
        worker.records
  step := step parser

/-! ## Moves -/

/-- When a session may take a step that calls no parser, and whose handler is
running afterwards. -/
inductive Turn (before : Worker)
    (source : Nat) : SessionAction -> SessionTrace -> Option Nat -> Prop
  | start {session} (inactive : before.active ≠ some source)
      (reads : (before.sessions source).point = .readingHeader) :
      Turn before source (.proceed none) session before.active
  | complete {bytes session} (free : before.active = none) :
      Turn before source (.complete bytes) session (some source)
  | fail {session} (free : before.active = none) : Turn before source .fail session before.active
  | advance {session} (runs : before.active = some source)
      (elsewhere : forall caller record, (before.sessions source).point ≠ .parsing caller record)
      (goesOn : (forall space, session.point ≠ .awaiting space) ∧ session.point ≠ .stopped) :
      Turn before source (.proceed none) session before.active
  | finish {session} (runs : before.active = some source)
      (elsewhere : forall caller record, (before.sessions source).point ≠ .parsing caller record)
      (ends : (Exists fun space => session.point = .awaiting space) ∨ session.point = .stopped) :
      Turn before source (.proceed none) session none
  /-- the parser has returned, and its record is consumed -/
  | consume {verdict caller record session} (runs : before.active = some source)
      (parses : (before.sessions source).point = .parsing caller record)
      (returned : before.records.point = .returned verdict) :
      Turn before source (.proceed verdict) session before.active

/-- What one step of the worker can do to its sessions and its pipeline. -/
inductive Move (parser : ParserFunc) (before : Worker) : Worker -> Prop
  /-- a session takes a step that hands nothing to the parser -/
  | session {source action session active}
      (moves : (before.sessions source).step action = some session)
      (silent : session.handed = (before.sessions source).handed)
      (turn : Turn before source action session active) :
      Move parser before { before.withSession source session with active := active }
  /-- a session finds a record and calls the parser with it -/
  | handOver {source clock session caller record records} (runs : before.active = some source)
      (moves : (before.sessions source).step (.proceed none) = some session)
      (parses : session.point = .parsing caller record)
      (hands : session.handed = (before.sessions source).handed ++ [record])
      (called : before.records.step parser (.record source clock record.logData) = some records) :
      Move parser before { before.withSession source session with records := records }
  /-- the parser or the consumer takes a step -/
  | records {action records} (moves : before.records.step parser action = some records)
      (inside : action = .producer ∨ action = .pop ∨ action = .consumer) :
      Move parser before { before with records := records }

variable {parser : ParserFunc} {before after : Worker}

/-- A session hands a record over only from inside of the framing loop, and then
it waits for the parser. -/
theorem step_handed {before after : SessionTrace} {action : SessionAction}
    (moves : before.step action = some after) :
    (after.handed = before.handed ∧ forall caller record, after.point ≠ .parsing caller record) ∨
      Exists fun caller => Exists fun record => before.point = .processing caller ∧
        (Exists fun verdict => action = .proceed verdict) ∧
          after.point = .parsing caller record ∧ after.handed = before.handed ++ [record] := by
  have resumes : forall (caller origin : ProcessCaller) (record : StashRecord),
      caller.resume ≠ .parsing origin record := by
    intro caller origin record
    cases caller <;> exact nofun
  cases SessionTrace.step_move moves with
  | handOver processes iteration => exact Or.inr ⟨_, _, processes, ⟨_, rfl⟩, rfl, rfl⟩
  | leave processes iteration => exact Or.inl ⟨rfl, resumes _⟩
  | oversize processes iteration => exact Or.inl ⟨rfl, resumes _⟩
  | _ => exact Or.inl ⟨rfl, nofun⟩

/-- The parser is called with what the framing loop has found. -/
theorem found_of_parsing {before after : SessionTrace} {action : SessionAction}
    {caller : ProcessCaller} {record : StashRecord} (moves : before.step action = some after)
    (parses : after.point = .parsing caller record) :
    before.point = .processing caller ∧ before.session.stashIteration = .handOver record ∧
      after.session = before.session := by
  cases SessionTrace.step_move moves with
  | handOver processes iteration =>
      cases parses
      exact ⟨processes, iteration, rfl⟩
  | @leave _ origin => cases origin <;> cases parses
  | @oversize _ origin => cases origin <;> cases parses
  | _ => cases parses

theorem silent_step {before after : SessionTrace} {action : SessionAction}
    (moves : before.step action = some after)
    (outside : (forall caller, before.point ≠ .processing caller) ∨ forall verdict,
      action ≠ .proceed verdict) :
    after.handed = before.handed := by
  rcases step_handed moves with ⟨silent, _⟩ | ⟨caller, _, processes, ⟨verdict, proceeds⟩, _⟩
  · exact silent
  · rcases outside with elsewhere | otherwise
    · exact absurd processes (elsewhere caller)
    · exact absurd proceeds (otherwise verdict)

theorem afterFraming_move {source : Nat} {clock : UInt64T} {session : SessionTrace}
    (runs : before.active = some source)
    (elsewhere : forall caller record, (before.sessions source).point ≠ .parsing caller record)
    (moved : (before.sessions source).step (.proceed none) = some session)
    (moves : before.afterFraming parser source clock session = some after) :
      Move parser before after := by
  rw [afterFraming] at moves
  rcases step_handed moved with ⟨silent, notParsing⟩ | ⟨caller, record, _, _, parses, hands⟩
  · cases point : session.point with
    | parsing caller record => exact absurd point (notParsing caller record)
    | awaiting space =>
        rw [point] at moves
        cases moves
        exact .session moved silent (.finish runs elsewhere (Or.inl ⟨space, point⟩))
    | stopped =>
        rw [point] at moves
        cases moves
        exact .session moved silent (.finish runs elsewhere (Or.inr point))
    | _ =>
        rw [point] at moves
        cases moves
        exact .session moved silent (.advance runs elsewhere (by rw [point]; exact ⟨nofun, nofun⟩))
  · rw [parses] at moves
    rcases Option.map_eq_some_iff.mp moves with ⟨records, called, rfl⟩
    exact .handOver runs moved parses hands called

/-- A handler touches its own session only. -/
theorem afterFraming_frame {source : Nat} {clock : UInt64T} {session : SessionTrace}
    (moves : before.afterFraming parser source clock session = some after) :
    after.sessions = Function.update before.sessions source session ∧
      (after.active = before.active ∨ after.active = none) := by
  rw [afterFraming] at moves
  cases point : session.point with
  | parsing caller record =>
      rw [point] at moves
      rcases Option.map_eq_some_iff.mp moves with ⟨records, _, rfl⟩
      exact ⟨rfl, Or.inl rfl⟩
  | awaiting space =>
      rw [point] at moves
      cases moves
      exact ⟨rfl, Or.inr rfl⟩
  | stopped =>
      rw [point] at moves
      cases moves
      exact ⟨rfl, Or.inr rfl⟩
  | _ =>
      rw [point] at moves
      cases moves
      exact ⟨rfl, Or.inl rfl⟩

theorem step_start {source : Nat} (moves : before.step parser (.start source) = some after) :
    before.active ≠ some source ∧ (before.sessions source).point = .readingHeader ∧
      Exists fun session => (before.sessions source).step (.proceed none) = some session ∧
        after = before.withSession source session := by
  rw [step] at moves
  split at moves
  · cases moves
  · rename_i inactive
    split at moves
    · rename_i reads
      rcases Option.map_eq_some_iff.mp moves with ⟨session, moved, rfl⟩
      exact ⟨inactive, reads, session, moved, rfl⟩
    · cases moves

theorem step_complete {source : Nat} {bytes : List Byte}
    (moves : before.step parser (.complete source bytes) = some after) :
    before.active = none ∧ Exists fun session =>
      (before.sessions source).step (.complete bytes) = some session ∧
      after = { before.withSession source session with active := some source } := by
  rw [step] at moves
  split at moves
  · rename_i free
    rcases Option.map_eq_some_iff.mp moves with ⟨session, moved, rfl⟩
    exact ⟨free, session, moved, rfl⟩
  · cases moves

theorem step_fail {source : Nat} (moves : before.step parser (.fail source) = some after) :
    before.active = none ∧ Exists fun session =>
      (before.sessions source).step .fail = some session ∧
      after = before.withSession source session := by
  rw [step] at moves
  split at moves
  · rename_i free
    rcases Option.map_eq_some_iff.mp moves with ⟨session, moved, rfl⟩
    exact ⟨free, session, moved, rfl⟩
  · cases moves

/-- The handler of the active session consumes a record whose parser has
returned, lets the parser go on, or takes a step of its framing code. -/
theorem step_handler {clock : UInt64T} (moves : before.step parser (.handler clock) = some after) :
    Exists fun source => before.active = some source ∧
      ((Exists fun caller => Exists fun record => Exists fun verdict => Exists fun session =>
        (before.sessions source).point = .parsing caller record ∧
          before.records.point = .returned verdict ∧
          (before.sessions source).step (.proceed verdict) = some session ∧
            after = before.withSession source session) ∨
      (Exists fun records => (Exists fun caller => Exists fun record =>
          (before.sessions source).point = .parsing caller record) ∧
        (forall verdict, before.records.point ≠ .returned verdict) ∧
          before.records.step parser .producer = some records ∧
            after = { before with records := records }) ∨
      Exists fun session =>
        (forall caller record, (before.sessions source).point ≠ .parsing caller record) ∧
        (before.sessions source).step (.proceed none) = some session ∧
          before.afterFraming parser source clock session = some after) := by
  rw [step] at moves
  split at moves
  · cases moves
  · rename_i source runs
    refine ⟨source, runs, ?_⟩
    rw [handle] at moves
    split at moves
    · rename_i caller record parses
      split at moves
      · rename_i verdict returned
        rcases Option.map_eq_some_iff.mp moves with ⟨session, consumed, rfl⟩
        exact Or.inl ⟨caller, record, verdict, session, parses, returned, consumed, rfl⟩
      · rename_i busy
        rcases Option.map_eq_some_iff.mp moves with ⟨records, inner, rfl⟩
        exact Or.inr (Or.inl ⟨records, ⟨caller, record, parses⟩, busy, inner, rfl⟩)
    · rename_i elsewhere
      rcases Option.bind_eq_some_iff.mp moves with ⟨session, moved, framed⟩
      exact Or.inr (Or.inr ⟨session, elsewhere, moved, framed⟩)

/-- A session takes at most one step of its own, and its reads are those of the
worker. -/
theorem step_session {source : Nat} {action : WorkerAction}
    (moves : before.step parser action = some after) :
    after.sessions source = before.sessions source ∨ Exists fun inner =>
      (before.sessions source).step inner = some (after.sessions source) ∧
        (forall bytes, inner = .complete bytes -> action = .complete source bytes) ∧
          (inner = .fail -> action = .fail source) := by
  have updated : forall {other : Nat} {inner : SessionAction} {session : SessionTrace},
      (before.sessions other).step inner = some session ->
        after.sessions = Function.update before.sessions other session ->
          (forall bytes, inner = .complete bytes -> action = .complete other bytes) ->
            (inner = .fail -> action = .fail other) ->
              after.sessions source = before.sessions source ∨ Exists fun inner =>
                (before.sessions source).step inner = some (after.sessions source) ∧
                  (forall bytes, inner = .complete bytes -> action = .complete source bytes) ∧
                    (inner = .fail -> action = .fail source) := by
    intro other inner session moved sessions reads fails
    by_cases same : source = other
    · subst same
      rw [sessions, Function.update_self]
      exact Or.inr ⟨inner, moved, reads, fails⟩
    · rw [sessions, Function.update_of_ne same]
      exact Or.inl rfl
  cases action with
  | start other =>
      rcases step_start moves with ⟨_, _, session, moved, rfl⟩
      exact updated moved rfl nofun nofun
  | complete other bytes =>
      rcases step_complete moves with ⟨_, session, moved, rfl⟩
      exact updated moved rfl (fun _ same => by cases same; rfl) nofun
  | fail other =>
      rcases step_fail moves with ⟨_, session, moved, rfl⟩
      exact updated moved rfl nofun (fun _ => rfl)
  | handler clock =>
      rcases step_handler moves with
        ⟨other, _, ⟨_, _, _, session, _, _, moved, rfl⟩ | ⟨records, _, _, _, rfl⟩ |
        ⟨session, _, moved, framed⟩⟩
      · exact updated moved rfl nofun nofun
      · exact Or.inl rfl
      · exact updated moved (afterFraming_frame framed).1 nofun nofun
  | pop =>
      rcases Option.map_eq_some_iff.mp moves with ⟨records, _, rfl⟩
      exact Or.inl rfl
  | consumer =>
      rcases Option.map_eq_some_iff.mp moves with ⟨records, _, rfl⟩
      exact Or.inl rfl

theorem step_move {action : WorkerAction} (moves : before.step parser action = some after) :
    Move parser before after := by
  cases action with
  | start source =>
      rcases step_start moves with ⟨inactive, reads, session, moved, rfl⟩
      refine .session moved (silent_step moved (Or.inl (fun caller processes => ?_)))
        (.start inactive reads)
      cases reads.symm.trans processes
  | complete source bytes =>
      rcases step_complete moves with ⟨free, session, moved, rfl⟩
      exact .session moved (silent_step moved (Or.inr nofun)) (.complete free)
  | fail source =>
      rcases step_fail moves with ⟨free, session, moved, rfl⟩
      exact .session moved (silent_step moved (Or.inr nofun)) (.fail free)
  | handler clock =>
      rcases step_handler moves with
        ⟨source, runs, ⟨caller, record, verdict, session, parses, returned, consumed, rfl⟩ |
        ⟨records, _, _, inner, rfl⟩ | ⟨session, elsewhere, moved, framed⟩⟩
      · refine .session consumed (silent_step consumed (Or.inl (fun other processes => ?_)))
          (.consume runs parses returned)
        cases parses.symm.trans processes
      · exact .records inner (Or.inl rfl)
      · exact afterFraming_move runs elsewhere moved framed
  | pop =>
      rcases Option.map_eq_some_iff.mp moves with ⟨records, inner, rfl⟩
      exact .records inner (Or.inr (Or.inl rfl))
  | consumer =>
      rcases Option.map_eq_some_iff.mp moves with ⟨records, inner, rfl⟩
      exact .records inner (Or.inr (Or.inr rfl))

/-! ## The parts -/

theorem Move.sessions (move : Move parser before after) (source : Nat) :
    after.sessions source = before.sessions source ∨
      Exists fun action => (before.sessions source).step action = some (after.sessions source) := by
  have updated : forall (other : Nat) (action : SessionAction) (session : SessionTrace),
      (before.sessions other).step action = some session ->
        Function.update before.sessions other session source = before.sessions source ∨
          Exists fun action => (before.sessions source).step action =
            some (Function.update before.sessions other session source) := by
    intro other action session moves
    by_cases same : source = other
    · rw [same, Function.update_self]
      exact Or.inr ⟨action, moves⟩
    · exact Or.inl (Function.update_of_ne same _ _)
  cases move with
  | session moves _ _ => exact updated _ _ _ moves
  | handOver _ moves _ _ _ => exact updated _ _ _ moves
  | records _ _ => exact Or.inl rfl

/-- The pipeline takes at most one of its own steps, and nobody ends the queue. -/
theorem Move.pipeline (move : Move parser before after) :
    after.records = before.records ∨
      Exists fun action => action ≠ .setFinished ∧
        before.records.step parser action = some after.records := by
  cases move with
  | session _ _ _ => exact Or.inl rfl
  | @handOver source clock _ _ record _ _ _ _ _ called =>
      exact Or.inr ⟨.record source clock record.logData, nofun, called⟩
  | records moves inside =>
      refine Or.inr ⟨_, ?_, moves⟩
      rcases inside with rfl | rfl | rfl <;> exact nofun

section Projections

variable {maxSlabs slabsSize : SizeT} {basePtr capacity : Nat} {profile : OverflowProfile}

/-- Each session on its own. -/
def sessionOf (source : Nat) :
    Machine.Simulation (machine parser maxSlabs slabsSize basePtr capacity profile)
    Machine.anyAction SessionTrace.machine Machine.anyAction where
  view := fun worker => worker.sessions source
  initial := fun _ starts => starts.1 source
  step := by
    intro before action after _ _ moves
    rcases (step_move moves).sessions source with same | ⟨action, moved⟩
    · exact Or.inl same
    · exact Or.inr ⟨action, trivial, moved⟩

/-- The pipeline on its own. -/
def pipelineOf : Machine.Simulation (machine parser maxSlabs slabsSize basePtr capacity profile)
    Machine.anyAction (RecordSystem.machine parser maxSlabs slabsSize basePtr capacity profile)
    RecordSystem.KeepsRunning where
  view := records
  initial := fun _ starts => starts.2.2
  step := by
    intro before action after _ _ moves
    rcases (step_move moves).pipeline with same | ⟨action, continues, moved⟩
    · exact Or.inl same
    · exact Or.inr ⟨action, continues, moved⟩

end Projections

/-! ## Handlers are never blocked -/

/-- The parser is running only for the active session, which waits for it; the
active session is in the middle of its handler; and every other one is new,
waits for a read, or has stopped. -/
structure Exclusive (worker : Worker) : Prop where
  parsing : (Exists fun verdict => worker.records.point = .returned verdict) ∨
    Exists fun source => Exists fun caller => Exists fun record =>
      worker.active = some source ∧ (worker.sessions source).point = .parsing caller record
  running : forall source, worker.active = some source ->
    (forall space, (worker.sessions source).point ≠ .awaiting space) ∧
    (worker.sessions source).point ≠ .stopped
  waiting : forall source, worker.active ≠ some source ->
    (Exists fun session => SessionTrace.Created session ∧
      worker.sessions source = SessionTrace.start session) ∨
      (Exists fun space => (worker.sessions source).point = .awaiting space) ∨
        (worker.sessions source).point = .stopped

theorem start_awaits {session : NetworkSession} {verdict : Option DisconnectReason}
    {after : SessionTrace} (created : SessionTrace.Created session)
    (moves : (SessionTrace.start session).step (.proceed verdict) = some after) :
    Exists fun space => after.point = .awaiting space := by
  have room := SessionTrace.start_space created
  cases SessionTrace.step_move moves with
  | retry reads narrow =>
      have less : session.stashBuffer.getWriteSpace.toNat < 1024 := narrow
      omega
  | await reads wide => exact ⟨_, rfl⟩
  | giveUp rechecks _ => cases rechecks
  | leave processes _ => cases processes
  | oversize processes _ => cases processes
  | handOver processes _ => cases processes
  | consume parses => cases parses

theorem Exclusive.returned (exclusive : before.Exclusive)
    (elsewhere : forall source, before.active = some source ->
      forall caller record, (before.sessions source).point ≠ .parsing caller record) :
    Exists fun verdict => before.records.point = .returned verdict := by
  rcases exclusive.parsing with returned | ⟨source, caller, record, runs, parses⟩
  · exact returned
  · exact absurd parses (elsewhere source runs caller record)

theorem Exclusive.update (exclusive : before.Exclusive) {source : Nat} {session : SessionTrace}
    {active : Option Nat} {records : RecordSystem}
    (others : forall other, other ≠ source -> (active = some other ↔ before.active = some other))
    (parsing : (Exists fun verdict => records.point = .returned verdict) ∨
      Exists fun other => Exists fun caller => Exists fun record => active = some other ∧
        (Function.update before.sessions source session other).point = .parsing caller record)
    (running : active = some source ->
      (forall space, session.point ≠ .awaiting space) ∧ session.point ≠ .stopped)
    (waiting : active ≠ some source ->
      (Exists fun space => session.point = .awaiting space) ∨ session.point = .stopped) :
    Exclusive
      { sessions := Function.update before.sessions source session, active := active,
        records := records } := by
  refine ⟨parsing, ?_, ?_⟩
  · intro other runs
    change active = some other at runs
    by_cases same : other = source
    · subst same
      simp only [Function.update_self]
      exact running runs
    · simp only [Function.update_of_ne same]
      exact exclusive.running other ((others other same).mp runs)
  · intro other inactive
    change active ≠ some other at inactive
    by_cases same : other = source
    · subst same
      simp only [Function.update_self]
      exact Or.inr (waiting inactive)
    · simp only [Function.update_of_ne same]
      exact exclusive.waiting other (fun runs => inactive ((others other same).mpr runs))

/-- Every turn of a session keeps the handlers apart. -/
theorem Exclusive.turn (exclusive : before.Exclusive) {source : Nat} {action : SessionAction}
    {session : SessionTrace} {active : Option Nat}
    (moves : (before.sessions source).step action = some session)
    (turn : Turn before source action session active) :
    Exclusive { before.withSession source session with active := active } := by
  cases turn with
  | start inactive reads =>
      refine exclusive.update (fun _ _ => Iff.rfl) ?_ (fun runs => absurd runs inactive)
        (fun _ => Or.inl ?_)
      · rcases exclusive.parsing with returned | ⟨other, caller, record, runs, parses⟩
        · exact Or.inl returned
        · have differs : other ≠ source := fun same => inactive (same ▸ runs)
          exact Or.inr
            ⟨other, caller, record, runs, by rw [Function.update_of_ne differs]; exact parses⟩
      · rcases exclusive.waiting source inactive with
          ⟨fresh, created, begins⟩ | ⟨space, awaits⟩ | stopped
        · exact start_awaits created (begins ▸ moves)
        · cases reads.symm.trans awaits
        · cases reads.symm.trans stopped
  | complete free =>
      have returned := exclusive.returned (fun other runs => absurd (free.symm.trans runs) nofun)
      refine exclusive.update ?_ (Or.inl returned) (fun _ => ?_) (fun idle => absurd rfl idle)
      · intro other differs
        rw [free]
        exact ⟨fun runs => absurd (Option.some.inj runs).symm differs, nofun⟩
      · cases SessionTrace.step_move moves with
        | receive _ _ _ => exact ⟨nofun, nofun⟩
  | fail free =>
      have returned := exclusive.returned (fun other runs => absurd (free.symm.trans runs) nofun)
      refine exclusive.update (fun _ _ => Iff.rfl) (Or.inl returned)
        (fun runs => absurd (free.symm.trans runs) nofun) (fun _ => Or.inr ?_)
      cases SessionTrace.step_move moves with
      | fail _ => rfl
  | advance runs elsewhere goesOn =>
      have returned := exclusive.returned
        (fun other active => Option.some.inj (runs.symm.trans active) ▸ elsewhere)
      exact exclusive.update (fun _ _ => Iff.rfl) (Or.inl returned) (fun _ => goesOn)
        (fun idle => absurd runs idle)
  | finish runs elsewhere ends =>
      have returned := exclusive.returned
        (fun other active => Option.some.inj (runs.symm.trans active) ▸ elsewhere)
      refine exclusive.update ?_ (Or.inl returned) nofun (fun _ => ends)
      intro other differs
      rw [runs]
      exact ⟨nofun, fun active => absurd (Option.some.inj active).symm differs⟩
  | consume runs parses returned =>
      refine exclusive.update (fun _ _ => Iff.rfl) (Or.inl ⟨_, returned⟩) (fun _ => ?_)
        (fun idle => absurd runs idle)
      cases SessionTrace.step_move moves with
      | consume _ => exact ⟨nofun, nofun⟩
      | retry reads _ => cases parses.symm.trans reads
      | await reads _ => rcases reads with reads | reads <;> cases parses.symm.trans reads
      | giveUp rechecks _ => cases parses.symm.trans rechecks
      | leave processes _ => cases parses.symm.trans processes
      | oversize processes _ => cases parses.symm.trans processes
      | handOver processes _ => cases parses.symm.trans processes

theorem Exclusive.step (exclusive : before.Exclusive) {action : WorkerAction}
    (moves : before.step parser action = some after) : after.Exclusive := by
  cases step_move moves with
  | session moved _ turn => exact exclusive.turn moved turn
  | @handOver source _ session caller record _ runs moved parses _ _ =>
      refine exclusive.update (fun _ _ => Iff.rfl) (Or.inr ⟨source, caller, record, runs, ?_⟩)
        (fun _ => ?_)
        (fun idle => absurd runs idle)
      · rw [Function.update_self]
        exact parses
      · rw [parses]
        exact ⟨nofun, nofun⟩
  | records moved inside =>
      refine ⟨?_, exclusive.running, exclusive.waiting⟩
      rcases exclusive.parsing with returned | active
      · exact Or.inl (RecordSystem.returned_step moved inside returned)
      · exact Or.inr active

/-- What follows a step of the framing code is defined when a parser that is
called has a result. -/
theorem afterFraming_isSome {worker : Worker} {source : Nat} {clock : UInt64T}
    {session : SessionTrace}
    (called : forall caller record, session.point = .parsing caller record ->
      Exists fun records => worker.records.step parser (.record source clock record.logData) =
        some records) :
    Exists fun after => worker.afterFraming parser source clock session = some after := by
  rw [afterFraming]
  cases point : session.point with
  | parsing caller record =>
      rcases called caller record point with ⟨records, moved⟩
      simp only [moved]
      exact ⟨_, rfl⟩
  | _ => exact ⟨_, rfl⟩

section Runs

variable {maxSlabs slabsSize : SizeT} {basePtr capacity : Nat} {profile : OverflowProfile}
variable {guard : Worker -> WorkerAction -> Prop} {worker : Worker}

theorem exclusive_of_reachable
    (reached : (machine parser maxSlabs slabsSize basePtr capacity profile).ReachableUnder
      guard worker) :
    worker.Exclusive := by
  refine reached.invariant ?_ (fun _ _ _ _ exclusive _ moves => exclusive.step moves)
  rintro worker ⟨sessions, idle, queue, telemetry, memory, _, records⟩
  refine ⟨Or.inl ⟨none, by rw [records]; rfl⟩,
    fun source runs => absurd (idle.symm.trans runs) nofun, ?_⟩
  intro source _
  rcases sessions source with ⟨session, created, begins⟩
  exact Or.inl ⟨session, created, begins⟩

/-- A running handler goes on, whatever the other sessions and the consumer do,
as long as its parser has a result for the record that it takes next. -/
theorem handler_proceeds {source : Nat} (clock : UInt64T)
    (reached : (machine parser maxSlabs slabsSize basePtr capacity profile).Reachable worker)
    (runs : worker.active = some source)
    (defined : forall record, (worker.sessions source).session.stashIteration = .handOver record ->
      parser.fields clock record.logData ≠ none) :
    Exists fun after => worker.step parser (.handler clock) = some after := by
  have exclusive := exclusive_of_reachable reached
  have ledger : worker.records.CallLedger parser (slabsSize * 1024 * 1024) :=
    RecordSystem.callLedger_of_reachable (pipelineOf.reachable reached)
  rcases exclusive.running source runs with ⟨waits, stops⟩
  simp only [step, runs, handle]
  split
  · split
    · rcases SessionTrace.proceed_isSome _ waits stops with ⟨session, moved⟩
      exact ⟨_, by rw [moved]; rfl⟩
    · rename_i busy
      rcases ledger.produce_isSome busy with ⟨records, moved⟩
      exact ⟨_, by rw [RecordSystem.step, moved]; rfl⟩
  · rename_i elsewhere
    rcases SessionTrace.proceed_isSome none waits stops with ⟨session, moved⟩
    have returned : Exists fun verdict => worker.records.point = .returned verdict := by
      apply exclusive.returned
      intro other active
      cases runs.symm.trans active
      exact elsewhere
    rw [moved]
    apply afterFraming_isSome
    intro caller record parses
    rcases returned with ⟨verdict, returned⟩
    rcases Option.ne_none_iff_exists'.mp (defined record (found_of_parsing moved parses).2.1) with
      ⟨parsed, result⟩
    rw [RecordSystem.step, returned, result]
    exact ⟨_, rfl⟩

end Runs

end Worker

end Pipeline
end VortexEngine
