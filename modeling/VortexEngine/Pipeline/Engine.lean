import VortexEngine.Network.LogServer
import VortexEngine.Pipeline.ValidEntries

open VortexEngine.Foundations VortexEngine.Core VortexEngine.Network

namespace VortexEngine
namespace Pipeline

/-!
# The running engine

`LogServer` accepts connections on one thread.  Each accept has taken its turn
among the worker contexts before it completes, and a connection that has been
accepted gets a session on the context of that turn and the queue of the same
index.  The contexts run on threads of their own, and every queue has its
consumer.

The whole engine is one machine: the acceptor and, for every queue, the worker
that produces for it.  Connections are numbered in the order of their accepts.
A queue whose index no context has is never pushed to.
-/

namespace Worker

/-- Nobody has started the session of this connection. -/
structure Untouched (worker : Worker) (source : Nat) : Prop where
  inactive : worker.active ≠ some source
  fresh : Exists fun session => SessionTrace.Created session ∧
    worker.sessions source = SessionTrace.start session

variable {parser : ParserFunc} {before after : Worker}

theorem Untouched.other {source other : Nat} {session : SessionTrace}
    (untouched : before.Untouched source) (differs : source ≠ other)
    (sessions : after.sessions = Function.update before.sessions other session)
    (inactive : after.active ≠ some source) : after.Untouched source := by
  refine ⟨inactive, ?_⟩
  rw [sessions, Function.update_of_ne differs]
  exact untouched.fresh

theorem Untouched.step {source : Nat} (untouched : before.Untouched source) {action : WorkerAction}
    (elsewhere : action ≠ .start source) (moves : before.step parser action = some after) :
    after.Untouched source := by
  rcases untouched.fresh with ⟨session, created, begins⟩
  have reads : (before.sessions source).point = .readingHeader := by
    rw [begins]
    rfl
  cases action with
  | start other =>
      have differs : source ≠ other := by
        rintro rfl
        exact elsewhere rfl
      rcases step_start moves with ⟨_, _, started, _, rfl⟩
      exact untouched.other differs rfl untouched.inactive
  | complete other bytes =>
      rcases step_complete moves with ⟨_, received, moved, rfl⟩
      have differs : source ≠ other := by
        rintro rfl
        cases SessionTrace.step_move moved with
        | receive awaits _ _ => cases reads.symm.trans awaits
      exact untouched.other differs rfl (fun runs => differs (Option.some.inj runs).symm)
  | fail other =>
      rcases step_fail moves with ⟨_, failed, moved, rfl⟩
      have differs : source ≠ other := by
        rintro rfl
        cases SessionTrace.step_move moved with
        | fail awaits => cases reads.symm.trans awaits
      exact untouched.other differs rfl untouched.inactive
  | handler clock =>
      rcases step_handler moves with ⟨other, runs, handled⟩
      have differs : source ≠ other := by
        rintro rfl
        exact untouched.inactive runs
      rcases handled with
        ⟨_, _, _, consumed, _, _, _, rfl⟩ | ⟨_, _, _, _, rfl⟩ | ⟨stepped, _, _, framed⟩
      · exact untouched.other differs rfl untouched.inactive
      · exact ⟨untouched.inactive, untouched.fresh⟩
      · rcases afterFraming_frame framed with ⟨sessions, active⟩
        refine untouched.other differs sessions ?_
        rcases active with same | idle
        · rw [same]
          exact untouched.inactive
        · rw [idle]
          exact nofun
  | pop =>
      rcases Option.map_eq_some_iff.mp moves with ⟨records, _, rfl⟩
      exact ⟨untouched.inactive, untouched.fresh⟩
  | consumer =>
      rcases Option.map_eq_some_iff.mp moves with ⟨records, _, rfl⟩
      exact ⟨untouched.inactive, untouched.fresh⟩

/-- The accepting thread can start an untouched session at any moment. -/
theorem Untouched.starts {worker : Worker} {source : Nat} (untouched : worker.Untouched source)
    (parser : ParserFunc) :
    Exists fun after => worker.step parser (.start source) = some after := by
  rcases untouched.fresh with ⟨session, _, begins⟩
  have reads : (worker.sessions source).point = .readingHeader := by
    rw [begins]
    rfl
  have waits : forall space, (worker.sessions source).point ≠ .awaiting space := by
    intro space awaits
    cases reads.symm.trans awaits
  have stops : (worker.sessions source).point ≠ .stopped := by
    intro stopped
    cases reads.symm.trans stopped
  rcases SessionTrace.proceed_isSome none waits stops with ⟨started, moved⟩
  refine ⟨worker.withSession source started, ?_⟩
  rw [Worker.step, if_neg untouched.inactive, if_pos reads, moved]
  rfl

end Worker

/-! ## The machine -/

/-- The acceptor with the turn of its pending accept, and the workers by their
queues. -/
structure Engine where
  server : LogServer
  /-- the `worker_index` that the pending accept's handler has captured -/
  pending : Nat
  /-- how the accepts so far have ended -/
  outcomes : List AcceptOutcome
  /-- what each connection was assigned, by its number -/
  connections : List Assignment
  workers : Nat -> Worker

inductive EngineAction
  /-- the pending accept completes -/
  | accept (outcome : AcceptOutcome)
  /-- a thread of the worker of this index takes a step -/
  | work (index : Nat) (action : WorkerAction)

namespace Engine

/-- The engine after the first call of `start_accept`. -/
def launch (server : LogServer) (workers : Nat -> Worker) : Engine :=
  { server := server.advance
    pending := server.workerIndex
    outcomes := []
    connections := []
    workers := workers }

/-- `start_accept`, called again at the end of its handler. -/
def acceptNext (engine : Engine) (outcome : AcceptOutcome) : Engine :=
  { engine with
    server := engine.server.advance
    pending := engine.server.workerIndex
    outcomes := engine.outcomes ++ [outcome] }

/-- The handler of an accept.  There is no step when it reads `ptr_queue` beyond
its end. -/
def accept (parser : ParserFunc) (engine : Engine) : AcceptOutcome -> Option Engine
  | .failed => some (engine.acceptNext .failed)
  | .accepted =>
      match (engine.server.assign engine.pending).queue with
      | none => none
      | some queue =>
          ((engine.workers queue).step parser (.start engine.connections.length)).map fun worker =>
            { engine.acceptNext .accepted with
              connections := engine.connections ++ [engine.server.assign engine.pending]
              workers := Function.update engine.workers queue worker }

/-- The thread that takes the action exists.  Sessions are started by the
acceptor only. -/
def Hosts (engine : Engine) (index : Nat) : WorkerAction -> Prop
  | .start _ => False
  | .complete _ _ | .fail _ | .handler _ => index < engine.server.contextVec.length
  | .pop | .consumer => index < engine.server.ptrQueue.length

instance (engine : Engine)
    (index : Nat) : (action : WorkerAction) -> Decidable (engine.Hosts index action)
  | .start _ => inferInstanceAs (Decidable False)
  | .complete _ _ | .fail _ | .handler _ =>
      inferInstanceAs (Decidable (index < engine.server.contextVec.length))
  | .pop | .consumer => inferInstanceAs (Decidable (index < engine.server.ptrQueue.length))

def step (parser : ParserFunc) (engine : Engine) : EngineAction -> Option Engine
  | .accept outcome => engine.accept parser outcome
  | .work index action =>
      if engine.Hosts index action then
        ((engine.workers index).step parser action).map fun worker =>
          { engine with workers := Function.update engine.workers index worker }
      else none

/-- A server with its queues, each of them fresh and mapped somewhere. -/
def machine (parser : ParserFunc) (logSize : SizeT) (threads : Nat) (maxSlabs slabsSize : SizeT)
    (basePtr : Nat -> Nat) (capacity : Nat)
    (profile : OverflowProfile) : Machine Engine EngineAction where
  initial := fun engine => Exists fun workers =>
    (forall index,
      (Worker.machine parser maxSlabs slabsSize (basePtr index) capacity profile).initial
      (workers index)) ∧ engine =
        launch ((LogServer.create logSize).start (List.range threads)) workers
  step := step parser

/-! ## Moves -/

/-- What one step of the engine can do. -/
inductive Move (parser : ParserFunc) (before : Engine) : EngineAction -> Engine -> Prop
  | refuse : Move parser before (.accept .failed) (before.acceptNext .failed)
  | connect {queue worker} (assigned : (before.server.assign before.pending).queue = some queue)
      (starts : (before.workers queue).step parser (.start before.connections.length) =
        some worker) :
      Move parser before (.accept .accepted)
        { before.acceptNext .accepted with
          connections := before.connections ++ [before.server.assign before.pending]
          workers := Function.update before.workers queue worker }
  | work {index action worker} (hosts : before.Hosts index action)
      (moves : (before.workers index).step parser action = some worker) :
      Move parser before (.work index action)
        { before with workers := Function.update before.workers index worker }

variable {parser : ParserFunc} {before after : Engine}

theorem step_move {action : EngineAction} (moves : before.step parser action = some after) :
    Move parser before action after := by
  cases action with
  | accept outcome =>
      cases outcome with
      | failed =>
          cases moves
          exact .refuse
      | accepted =>
          rw [step, accept] at moves
          split at moves
          · cases moves
          · rename_i queue assigned
            rcases Option.map_eq_some_iff.mp moves with ⟨worker, starts, rfl⟩
            exact .connect assigned starts
  | work index action =>
      rw [step] at moves
      split at moves
      · rename_i hosts
        rcases Option.map_eq_some_iff.mp moves with ⟨worker, moved, rfl⟩
        exact .work hosts moved
      · cases moves

/-- Each worker on its own. -/
def workerOf {logSize : SizeT} {threads : Nat} {maxSlabs slabsSize : SizeT} {basePtr : Nat -> Nat}
    {capacity : Nat} {profile : OverflowProfile} (index : Nat) :
    Machine.Simulation (machine parser logSize threads maxSlabs slabsSize basePtr capacity profile)
      Machine.anyAction (Worker.machine parser maxSlabs slabsSize (basePtr index) capacity profile)
      Machine.anyAction where
  view := fun engine => engine.workers index
  initial := by
    rintro engine ⟨workers, fresh, rfl⟩
    exact fresh index
  step := by
    intro before action after _ _ moves
    have updated : forall (other : Nat) (action : WorkerAction) (worker : Worker),
        (before.workers other).step parser action = some worker ->
          Function.update before.workers other worker index = before.workers index ∨
            Exists fun action => Machine.anyAction (before.workers index) action ∧
              (before.workers index).step parser action =
                some (Function.update before.workers other worker index) := by
      intro other action worker moved
      by_cases same : index = other
      · subst same
        rw [Function.update_self]
        exact Or.inr ⟨action, trivial, moved⟩
      · rw [Function.update_of_ne same]
        exact Or.inl rfl
    cases step_move moves with
    | refuse => exact Or.inl rfl
    | connect _ starts => exact updated _ _ _ starts
    | work _ moved => exact updated _ _ _ moved

/-! ## Routing -/

/-- Accepts take turns, every connection has the queue of its turn, and a worker
knows the sessions of its own connections only. -/
structure Routed (server : LogServer) (engine : Engine) : Prop where
  contexts : engine.server.contextVec = server.contextVec
  queues : engine.server.ptrQueue = server.ptrQueue
  counter : engine.server.nextWorkerIndex.toNat % 2 =
    (server.nextWorkerIndex.toNat + (engine.outcomes.length + 1)) % 2
  pending : engine.pending = (server.nextWorkerIndex.toNat + engine.outcomes.length) % 2
  connections : engine.connections = server.startAccept engine.outcomes
  assigned : forall assignment, assignment ∈ engine.connections -> assignment.queue ≠ none
  untouched : forall index number,
    (forall assignment, engine.connections[number]? = some assignment ->
      assignment.queue ≠ some index) ->
      (engine.workers index).Untouched number

section Routing

variable {server : LogServer}

theorem Routed.assign (routed : Routed server before) (workerIndex : Nat) :
    before.server.assign workerIndex = server.assign workerIndex := by
  unfold LogServer.assign
  rw [routed.contexts, routed.queues]

theorem Routed.next (routed : Routed server before) (index : Nat) :
    (before.workers index).Untouched before.connections.length := by
  apply routed.untouched
  intro assignment beyond
  rw [List.getElem?_eq_none (Nat.le_refl _)] at beyond
  cases beyond

theorem Routed.acceptNext (twoContexts : server.contextVec.length = 2)
    (routed : Routed server before) (outcome : AcceptOutcome) :
    (before.acceptNext outcome).server.nextWorkerIndex.toNat % 2 =
      (server.nextWorkerIndex.toNat + ((before.acceptNext outcome).outcomes.length + 1)) % 2 ∧
    (before.acceptNext outcome).pending =
      (server.nextWorkerIndex.toNat + (before.acceptNext outcome).outcomes.length) % 2 := by
  have counter := routed.counter
  have length : (before.acceptNext outcome).outcomes.length = before.outcomes.length + 1 :=
    List.length_append
  rw [length]
  constructor
  · change (before.server.nextWorkerIndex + 1).toNat % 2 = _
    rw [BitVec.toNat_add, show (1 : SizeT).toNat = 1 from rfl]
    omega
  · change before.server.workerIndex = _
    rw [LogServer.workerIndex_eq (routed.contexts ▸ twoContexts)]
    exact counter

theorem Routed.step (twoContexts : server.contextVec.length = 2) (routed : Routed server before)
    {action : EngineAction} (moves : before.step parser action = some after) :
      Routed server after := by
  cases step_move moves with
  | refuse =>
      rcases routed.acceptNext twoContexts .failed with ⟨counter, pending⟩
      refine ⟨routed.contexts, routed.queues, counter, pending, ?_, routed.assigned,
        routed.untouched⟩
      change before.connections = server.startAccept (before.outcomes ++ [.failed])
      rw [LogServer.startAccept_append twoContexts, ← routed.connections, List.append_nil]
  | @connect queue worker assigned starts =>
      rcases routed.acceptNext twoContexts .accepted with ⟨counter, pending⟩
      refine ⟨routed.contexts, routed.queues, counter, pending, ?_, ?_, ?_⟩
      · change before.connections ++ [before.server.assign before.pending] =
          server.startAccept (before.outcomes ++ [.accepted])
        rw [LogServer.startAccept_append twoContexts, ← routed.connections, routed.assign,
          routed.pending]
      · intro assignment member
        rcases List.mem_append.mp member with earlier | last
        · exact routed.assigned assignment earlier
        · rw [List.mem_singleton.mp last, assigned]
          exact nofun
      · intro index number elsewhere
        change Worker.Untouched (Function.update before.workers queue worker index) number
        have earlier : forall assignment, before.connections[number]? = some assignment ->
            assignment.queue ≠ some index := by
          intro assignment found
          exact elsewhere assignment
            (List.getElem?_append_left (List.getElem?_eq_some_iff.mp found).1 ▸ found)
        by_cases same : index = queue
        · subst same
          rw [Function.update_self]
          have other : before.connections.length ≠ number := by
            rintro rfl
            exact elsewhere (before.server.assign before.pending)
              List.getElem?_concat_length assigned
          exact (routed.untouched index number earlier).step
            (fun same => other (WorkerAction.start.inj same)) starts
        · rw [Function.update_of_ne same]
          exact routed.untouched index number earlier
  | @work worked action worker hosts moved =>
      refine ⟨routed.contexts, routed.queues, routed.counter, routed.pending, routed.connections,
        routed.assigned, ?_⟩
      intro index number elsewhere
      change Worker.Untouched (Function.update before.workers worked worker index) number
      by_cases same : index = worked
      · subst same
        rw [Function.update_self]
        refine (routed.untouched index number elsewhere).step ?_ moved
        rintro rfl
        exact hosts
      · rw [Function.update_of_ne same]
        exact routed.untouched index number elsewhere

end Routing

/-! ## Runs -/

section Runs

variable {logSize : SizeT} {threads : Nat} {maxSlabs slabsSize : SizeT} {basePtr : Nat -> Nat}
    {exponent : Nat}
variable {profile : OverflowProfile} {engine : Engine}

theorem routed_of_reachable {capacity : Nat}
    (reached :
      (machine parser logSize threads maxSlabs slabsSize basePtr capacity profile).Reachable
      engine) :
    Routed ((LogServer.create logSize).start (List.range threads)) engine := by
  refine reached.invariant ?_ (fun _ _ _ _ routed _ moves => routed.step rfl moves)
  rintro engine ⟨workers, fresh, rfl⟩
  refine ⟨rfl, rfl, rfl, rfl, rfl, fun _ member => absurd member List.not_mem_nil, ?_⟩
  intro index number _
  rcases fresh index with ⟨sessions, idle, _⟩
  refine ⟨?_, sessions number⟩
  change (workers index).active ≠ some number
  rw [idle]
  exact nofun

/-- What the engine promises, whatever its threads do. -/
structure Separates (parser : ParserFunc) (slabSize : SizeT) (exponent : Nat)
    (profile : OverflowProfile) (server : LogServer) (engine : Engine) : Prop where
  /-- the connections are those of the turns -/
  turns : engine.connections = server.startAccept engine.outcomes
  /-- an entry in a queue comes from a connection that the queue was assigned to -/
  routed : forall index tagged, tagged ∈ (engine.workers index).records.queue.begun ->
    Exists fun number => Exists fun assignment => engine.connections[number]? = some assignment ∧
      assignment.queue = some index ∧ tagged.comesFrom number = true
  /-- the queues without a context stay empty -/
  unused : forall index, 2 ≤ index -> (engine.workers index).records.queue.begun = []
  /-- every connection has one queue, and what it sends arrives there in order -/
  delivered : profile = .dropAll -> forall number assignment,
    engine.connections[number]? = some assignment ->
    Exists fun index => assignment.queue = some index ∧
      (engine.workers index).DeliversInOrder parser slabSize exponent number
  /-- the acceptor is never held up by a worker -/
  accepts : forall outcome, (server.assign engine.pending).queue ≠ none ->
    Exists fun after => engine.step parser (.accept outcome) = some after

/-- An entry of a queue comes from one of its connections. -/
theorem routed_entry {capacity : Nat}
    (reached :
      (machine parser logSize threads maxSlabs slabsSize basePtr capacity profile).Reachable engine)
    {index : Nat} {tagged : TaggedEntry}
    (begun : tagged ∈ (engine.workers index).records.queue.begun) :
    Exists fun number => Exists fun assignment => engine.connections[number]? = some assignment ∧
      assignment.queue = some index ∧ tagged.comesFrom number = true := by
  have worker := (workerOf index).reachable reached
  have ledger := RecordSystem.callLedger_of_reachable (Worker.pipelineOf.reachable worker)
  rcases ledger.call_of_begun begun with ⟨record, call, rfl, member, outcome⟩
  have sound := ledger.sound call member
  rw [ParserCall.Sound, outcome] at sound
  by_contra elsewhere
  -- a connection of another queue has an untouched session here, which has handed nothing over
  have untouched := (routed_of_reachable reached).untouched index call.source (by
    intro assignment found assigned
    exact elsewhere ⟨call.source, assignment, found, assigned, decide_eq_true sound.1⟩)
  rcases untouched.fresh with ⟨session, _, begins⟩
  have calls := Worker.calls_of_reachable worker call.source
  have own : call ∈ (engine.workers index).records.callsOf call.source :=
    List.mem_filter.mpr ⟨member, decide_eq_true rfl⟩
  have handed : call.rawData ∈
      ((engine.workers index).sessions call.source).handed.map StashRecord.logData :=
    calls ▸ List.mem_map_of_mem own
  rw [begins] at handed
  cases handed

end Runs

end Engine

open Engine in
/-- For every number of queues and every interleaving of the acceptor, the two
worker threads and the consumers: no entry strays into a queue of another
context, the queues beyond the contexts stay empty, and each connection is
delivered by its own worker as if that worker were alone. -/
theorem engine_separates {parser : ParserFunc} {logSize : SizeT} {threads : Nat}
    {maxSlabs slabsSize : SizeT}
    {basePtr : Nat -> Nat} {exponent : Nat} {profile : OverflowProfile} {engine : Engine}
    (reached : (machine parser logSize threads maxSlabs slabsSize basePtr
      (2 ^ exponent) profile).Reachable engine) :
    engine.Separates parser (slabsSize * 1024 * 1024) exponent profile
      ((LogServer.create logSize).start (List.range threads)) := by
  have routed := routed_of_reachable reached
  refine ⟨routed.connections, fun index tagged begun => routed_entry reached begun, ?_, ?_, ?_⟩
  · intro index beyond
    apply List.eq_nil_iff_forall_not_mem.mpr
    intro tagged begun
    rcases routed_entry reached begun with ⟨number, assignment, found, queue, _⟩
    have member := List.mem_of_getElem? found
    rw [routed.connections] at member
    rcases (LogServer.mem_startAccept rfl engine.outcomes assignment).mp member with
      ⟨position, _, rfl⟩
    change (List.range threads)[_ % 2]? = some index at queue
    have same := (List.getElem?_eq_some_iff.mp queue).2
    rw [List.getElem_range] at same
    omega
  · rintro rfl number assignment found
    rcases Option.ne_none_iff_exists'.mp
      (routed.assigned assignment (List.mem_of_getElem? found)) with ⟨index, queue⟩
    exact ⟨index, queue, Worker.delivers_of_reachable ((workerOf index).reachable reached) number⟩
  · intro outcome inside
    cases outcome with
    | failed => exact ⟨_, rfl⟩
    | accepted =>
        rcases Option.ne_none_iff_exists'.mp inside with ⟨queue, assigned⟩
        rw [← routed.assign] at assigned
        rcases (routed.next queue).starts parser with ⟨worker, starts⟩
        rw [step, accept, assigned]
        simp only [starts]
        exact ⟨_, rfl⟩

/-! ## Two queues and three connections -/

/-- An engine with two default queues. -/
def twoQueues : Engine :=
  Engine.launch ((LogServer.create 1).start (List.range 2)) (fun _ => defaultWorker)

theorem twoQueues_initial :
    (Engine.machine .parseAndPush 1 2 10 1 (fun _ => 0x10000) (2 ^ 20) .dropAll).initial
      twoQueues :=
  ⟨fun _ => defaultWorker, fun _ => defaultWorker_initial, rfl⟩

/-- The second accept fails, so both connections belong to the first context.
The second of them sends a line, whose entry is popped. -/
def twoQueuesSchedule : List EngineAction :=
  .accept .accepted :: .accept .failed :: .accept .accepted ::
    List.map (EngineAction.work 0)
      (.complete 1 (shortLine 0x61) :: List.replicate 17 (.handler 1000) ++
      .pop :: List.replicate 8 .consumer)

theorem engine_separates_twoQueues :
    (((Engine.machine .parseAndPush 1 2 10 1 (fun _ => 0x10000) (2 ^ 20) .dropAll).executeUnder
      Machine.anyAction
      twoQueues twoQueuesSchedule).get (by decide)).Separates .parseAndPush
        (1 * 1024 * 1024) 20 .dropAll
        ((LogServer.create 1).start (List.range 2)) :=
  engine_separates (Machine.reachableUnder_of_execute twoQueues_initial (by decide))

end Pipeline
end VortexEngine
