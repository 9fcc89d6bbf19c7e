import VortexEngine.Pipeline.Engine

open VortexEngine.Foundations VortexEngine.Core VortexEngine.Network

namespace VortexEngine
namespace Pipeline

/-!
# The service and its end

The thread that constructs the `ThreadManager` becomes the acceptor's thread:
`start` ends with `io_context_.run()`, which returns only when that context is
stopped.  `stop_threads` stops the server, which releases the work guards and
joins the network threads, then finishes the queues, joins the consumer
threads, and destroys the queues.

A network thread returns from `run` when its context is out of work: the guards
are released, no handler is running, and no read is outstanding.  A consumer
thread returns behind a failed pop on a finished queue.

Here any thread may call `stop_threads` at any moment.  In the program itself
only `main` does, through the destructor behind `std::cin.get()`.
-/

/-- Where the thread that runs `main` stands. -/
inductive MainPoint
  /-- in `io_context_.run()`, inside of the constructor of `ThreadManager` -/
  | running
  /-- in `std::cin.get()` -/
  | waitingForKey
  /-- in the destructor of `ThreadManager` -/
  | destroying
  deriving DecidableEq, Repr

/-- What `stop_threads` does next. -/
inductive StopPoint
  | uncalled
  /-- `acceptor_.close`, `work_guard_.reset()` and `io_context_.stop()` -/
  | closing
  /-- the guards of the worker contexts -/
  | releasing
  /-- `network_pool[index].join()` -/
  | joining (index : Nat)
  /-- `all_queues[index]->set_finished()` -/
  | finishing (index : Nat)
  /-- `thread_pool[index].join()` -/
  | joiningPool (index : Nat)
  /-- `all_queues.clear()` and `owned_queues.clear()` -/
  | discarding
  | discarded
  deriving DecidableEq, Repr

structure Service where
  engine : Engine
  main : MainPoint
  /-- `io_context_` has been stopped -/
  contextStopped : Bool
  /-- the guards of the worker contexts are held -/
  guarded : Bool
  /-- the network threads that have returned from `run` -/
  networkEnded : Nat -> Bool
  /-- the consumer threads that have ended -/
  poolEnded : Nat -> Bool
  stopping : StopPoint

inductive ShutdownAction
  | engine (action : EngineAction)
  | networkEnds (index : Nat)
  | poolEnds (index : Nat)
  /-- `io_context_.run()` returns -/
  | runReturns
  /-- `std::cin.get()` returns -/
  | keyPressed
  /-- the next step of `stop_threads` -/
  | stop

def SessionPoint.isAwaiting : SessionPoint -> Bool
  | .awaiting _ => true
  | _ => false

namespace Service

/-- The engine has just been started, and nobody stops it. -/
def launch (engine : Engine) : Service :=
  { engine := engine
    main := .running
    contextStopped := false
    guarded := true
    networkEnded := fun _ => false
    poolEnded := fun _ => false
    stopping := .uncalled }

/-- The thread that takes the action has not ended.  An accept that has
completed before the acceptor was closed is still handled. -/
def Runs (service : Service) : EngineAction -> Prop
  | .accept _ => service.main = .running
  | .work _ (.start _) => False
  | .work index (.complete _ _) | .work index (.fail _) | .work index (.handler _) =>
      service.networkEnded index = false
  | .work index .pop | .work index .consumer => service.poolEnded index = false

instance (service : Service) : (action : EngineAction) -> Decidable (service.Runs action)
  | .accept _ => inferInstanceAs (Decidable (service.main = .running))
  | .work _ (.start _) => inferInstanceAs (Decidable False)
  | .work index (.complete _ _) | .work index (.fail _) | .work index (.handler _) =>
      inferInstanceAs (Decidable (service.networkEnded index = false))
  | .work index .pop | .work index .consumer =>
      inferInstanceAs (Decidable (service.poolEnded index = false))

/-- The context has no handler running and no read outstanding. -/
def Idle (service : Service) (index : Nat) : Prop :=
  (service.engine.workers index).active = none ∧ forall source,
    source < service.engine.connections.length ->
    SessionPoint.isAwaiting ((service.engine.workers index).sessions source).point = false

instance (service : Service) (index : Nat) : Decidable (service.Idle index) :=
  inferInstanceAs (Decidable (_ ∧ _))

/-- `set_finished` on one of the queues. -/
def finishQueue (parser : ParserFunc) (service : Service) (index : Nat) : Option Service :=
  ((service.engine.workers index).records.step parser .setFinished).map fun records =>
    { service with
      engine := { service.engine with
        workers := Function.update service.engine.workers index
          { service.engine.workers index with records := records } }
      stopping := .finishing (index + 1) }

/-- The next step of `stop_threads`.  A join is no step as long as its thread
goes on. -/
def stop (parser : ParserFunc) (service : Service) : Option Service :=
  match service.stopping with
  | .uncalled => some { service with stopping := .closing }
  | .closing => some { service with contextStopped := true, stopping := .releasing }
  | .releasing => some { service with guarded := false, stopping := .joining 0 }
  | .joining index =>
      if index < service.engine.server.contextVec.length then
        if service.networkEnded index = true then
          some { service with stopping := .joining (index + 1) } else none
      else some { service with stopping := .finishing 0 }
  | .finishing index =>
      if index < service.engine.server.ptrQueue.length then service.finishQueue parser index
      else some { service with stopping := .joiningPool 0 }
  | .joiningPool index =>
      if index < service.engine.server.ptrQueue.length then
        if service.poolEnded index = true then
          some { service with stopping := .joiningPool (index + 1) } else none
      else some { service with stopping := .discarding }
  | .discarding => some { service with stopping := .discarded }
  | .discarded => none

def step (parser : ParserFunc) (service : Service) : ShutdownAction -> Option Service
  | .engine action =>
      if service.Runs action then
        (service.engine.step parser action).map fun engine => { service with engine := engine }
      else none
  | .networkEnds index =>
      if index < service.engine.server.contextVec.length ∧ service.guarded = false ∧
          service.Idle index then
        some { service with networkEnded := Function.update service.networkEnded index true }
      else none
  | .poolEnds index =>
      if index < service.engine.server.ptrQueue.length ∧
          (service.engine.workers index).records.queue.queue.isRunning = false ∧
            (service.engine.workers index).records.queue.consumer = .returned none then
        some { service with poolEnded := Function.update service.poolEnded index true }
      else none
  | .runReturns =>
      if service.main = .running ∧ service.contextStopped = true then
        some { service with main := .waitingForKey }
      else none
  | .keyPressed =>
      if service.main = .waitingForKey then some { service with main := .destroying } else none
  | .stop => service.stop parser

/-- The engine as it was launched, with some configuration. -/
def machine (parser : ParserFunc) (logSize : SizeT) (threads : Nat) (maxSlabs slabsSize : SizeT)
    (basePtr : Nat -> Nat) (capacity : Nat)
    (profile : OverflowProfile) : Machine Service ShutdownAction where
  initial := fun service => Exists fun engine =>
    (Engine.machine parser logSize threads maxSlabs slabsSize basePtr capacity profile).initial
      engine ∧
      service = launch engine
  step := step parser

/-! ## Moves -/

/-- What one step of the service can do. -/
inductive Move (parser : ParserFunc) (before : Service) : ShutdownAction -> Service -> Prop
  | serve {action engine} (runs : before.Runs action)
      (moves : before.engine.step parser action = some engine) :
      Move parser before (.engine action) { before with engine := engine }
  | networkEnds {index} (inside : index < before.engine.server.contextVec.length)
      (released : before.guarded = false) (idle : before.Idle index) :
      Move parser before (.networkEnds index)
        { before with networkEnded := Function.update before.networkEnded index true }
  | poolEnds {index}
      (finished : (before.engine.workers index).records.queue.queue.isRunning = false) :
      Move parser before (.poolEnds index)
        { before with poolEnded := Function.update before.poolEnded index true }
  | runReturns (waits : before.main = .running) (stopped : before.contextStopped = true) :
      Move parser before .runReturns { before with main := .waitingForKey }
  | keyPressed (waits : before.main = .waitingForKey) :
      Move parser before .keyPressed { before with main := .destroying }
  | call (uncalled : before.stopping = .uncalled) :
      Move parser before .stop { before with stopping := .closing }
  | close (closes : before.stopping = .closing) :
      Move parser before .stop { before with contextStopped := true, stopping := .releasing }
  | release (releases : before.stopping = .releasing) :
      Move parser before .stop { before with guarded := false, stopping := .joining 0 }
  | join {index} (joins : before.stopping = .joining index)
      (ended : before.networkEnded index = true) :
      Move parser before .stop { before with stopping := .joining (index + 1) }
  | joined {index} (joins : before.stopping = .joining index)
      (beyond : before.engine.server.contextVec.length ≤ index) :
      Move parser before .stop { before with stopping := .finishing 0 }
  | finish {index records} (finishes : before.stopping = .finishing index)
      (inside : index < before.engine.server.ptrQueue.length)
      (moves : (before.engine.workers index).records.step parser .setFinished = some records) :
      Move parser before .stop
        { before with
          engine := { before.engine with
            workers := Function.update before.engine.workers index
              { before.engine.workers index with records := records } }
          stopping := .finishing (index + 1) }
  | finished {index} (finishes : before.stopping = .finishing index)
      (beyond : before.engine.server.ptrQueue.length ≤ index) :
      Move parser before .stop { before with stopping := .joiningPool 0 }
  | joinPool {index} (joins : before.stopping = .joiningPool index)
      (ended : before.poolEnded index = true) :
      Move parser before .stop { before with stopping := .joiningPool (index + 1) }
  | joinedPool {index} (joins : before.stopping = .joiningPool index)
      (beyond : before.engine.server.ptrQueue.length ≤ index) :
      Move parser before .stop { before with stopping := .discarding }
  | discard (discards : before.stopping = .discarding) :
      Move parser before .stop { before with stopping := .discarded }

variable {parser : ParserFunc} {before after : Service}

theorem stop_move (moves : before.stop parser = some after) : Move parser before .stop after := by
  unfold stop at moves
  cases point : before.stopping with
  | uncalled =>
      rw [point] at moves
      cases moves
      exact .call point
  | closing =>
      rw [point] at moves
      cases moves
      exact .close point
  | releasing =>
      rw [point] at moves
      cases moves
      exact .release point
  | joining index =>
      rw [point] at moves
      simp only at moves
      split at moves
      · split at moves <;> cases moves
        exact .join point (by assumption)
      · cases moves
        exact .joined point (Nat.le_of_not_lt (by assumption))
  | finishing index =>
      rw [point] at moves
      simp only at moves
      split at moves
      · rcases Option.map_eq_some_iff.mp moves with ⟨records, stops, rfl⟩
        exact .finish point (by assumption) stops
      · cases moves
        exact .finished point (Nat.le_of_not_lt (by assumption))
  | joiningPool index =>
      rw [point] at moves
      simp only at moves
      split at moves
      · split at moves <;> cases moves
        exact .joinPool point (by assumption)
      · cases moves
        exact .joinedPool point (Nat.le_of_not_lt (by assumption))
  | discarding =>
      rw [point] at moves
      cases moves
      exact .discard point
  | discarded =>
      rw [point] at moves
      cases moves

theorem step_move {action : ShutdownAction} (moves : before.step parser action = some after) :
    Move parser before action after := by
  cases action with
  | engine action =>
      rw [step] at moves
      split at moves
      · rcases Option.map_eq_some_iff.mp moves with ⟨engine, moved, rfl⟩
        exact .serve (by assumption) moved
      · cases moves
  | networkEnds index =>
      rw [step] at moves
      split at moves <;> cases moves
      rename_i ends
      exact .networkEnds ends.1 ends.2.1 ends.2.2
  | poolEnds index =>
      rw [step] at moves
      split at moves <;> cases moves
      rename_i ends
      exact .poolEnds ends.2.1
  | runReturns =>
      rw [step] at moves
      split at moves <;> cases moves
      rename_i returns
      exact .runReturns returns.1 returns.2
  | keyPressed =>
      rw [step] at moves
      split at moves <;> cases moves
      exact .keyPressed (by assumption)
  | stop => exact stop_move moves

/-! ## What producers leave alone -/

end Service

namespace RecordSystem

/-- Nothing has been produced: no parser has been called and no entry
published, and pool and shared memory are the same. -/
structure SameProduct (before after : RecordSystem) : Prop where
  point : after.point = before.point
  calls : after.calls = before.calls
  slabPool : after.slabPool = before.slabPool
  memory : after.memory = before.memory
  producer : after.queue.producer = before.queue.producer
  published : after.queue.history.published = before.queue.history.published

theorem SameProduct.refl (system : RecordSystem) : SameProduct system system :=
  ⟨rfl, rfl, rfl, rfl, rfl, rfl⟩

theorem SameProduct.trans {first second third : RecordSystem} (left : SameProduct first second)
    (right : SameProduct second third) : SameProduct first third :=
  ⟨right.point.trans left.point, right.calls.trans left.calls, right.slabPool.trans left.slabPool,
    right.memory.trans left.memory, right.producer.trans left.producer,
      right.published.trans left.published⟩

variable {parser : ParserFunc} {before after : RecordSystem}

theorem sameProduct_of_other {action : RecordAction}
    (outside : action = .pop ∨ action = .consumer ∨ action = .setFinished)
    (moves : before.step parser action = some after) : SameProduct before after := by
  rcases outside with rfl | rfl | rfl
  · rcases Option.map_eq_some_iff.mp moves with ⟨queue, called, rfl⟩
    rcases QueueSystem.step_pop called with ⟨_, rfl⟩
    exact ⟨rfl, rfl, rfl, rfl, rfl, rfl⟩
  · rcases Option.map_eq_some_iff.mp moves with ⟨queue, stepped, rfl⟩
    rcases QueueSystem.step_consumer stepped with ⟨progress, _, rfl⟩
    refine ⟨rfl, rfl, rfl, rfl, rfl, ?_⟩
    change (before.queue.history.afterPop before.queue.consumer).published = _
    cases before.queue.consumer <;> rfl
  · cases moves
    exact ⟨rfl, rfl, rfl, rfl, rfl, rfl⟩

/-- Only `set_finished` touches the run flag. -/
theorem isRunning_step {action : RecordAction} (continues : action ≠ .setFinished)
    (moves : before.step parser action = some after) :
    after.queue.queue.isRunning = before.queue.queue.isRunning := by
  cases step_move moves with
  | call _ called =>
      rcases QueueSystem.step_push called with ⟨_, rfl⟩
      rfl
  | push _ stepped =>
      rcases QueueSystem.step_producer stepped with ⟨progress, move, rfl⟩
      exact move.frame.isRunning
  | other outside stepped =>
      cases outside with
      | pop =>
          rcases QueueSystem.step_pop stepped with ⟨_, rfl⟩
          rfl
      | consumer =>
          rcases QueueSystem.step_consumer stepped with ⟨progress, move, rfl⟩
          exact move.frame.isRunning
      | setFinished => exact absurd rfl continues
  | _ => rfl

end RecordSystem

namespace Worker

/-- No handler is running, and the producer is between two calls. -/
structure Resting (worker : Worker) : Prop where
  inactive : worker.active = none
  returned : Exists fun verdict => worker.records.point = .returned verdict
  idle : worker.records.queue.producer = .idle

variable {parser : ParserFunc} {before after : Worker}

theorem resting_of_reachable {maxSlabs slabsSize : SizeT} {basePtr capacity : Nat}
    {profile : OverflowProfile} {worker : Worker}
    (reached : (machine parser maxSlabs slabsSize basePtr capacity profile).Reachable worker)
    (inactive : worker.active = none) : worker.Resting := by
  have returned := (exclusive_of_reachable reached).returned (fun source runs => by
    rw [inactive] at runs
    cases runs)
  have ledger := RecordSystem.callLedger_of_reachable (pipelineOf.reachable reached)
  refine ⟨inactive, returned, ledger.producer_idle ?_⟩
  intro record pushes
  rcases returned with ⟨verdict, returned⟩
  cases returned.symm.trans pushes

theorem Resting.of_sameProduct (resting : before.Resting) (inactive : after.active = before.active)
    (same : before.records.SameProduct after.records) : after.Resting := by
  refine ⟨inactive.trans resting.inactive, ?_, same.producer.trans resting.idle⟩
  rw [same.point]
  exact resting.returned

/-- What is left for others to do on a worker whose thread has ended: the
acceptor may start sessions, and the consumer goes on. -/
theorem step_elsewhere {action : WorkerAction}
    (outside : (Exists fun source => action = .start source) ∨ action = .pop ∨ action = .consumer)
    (moves : before.step parser action = some after) :
    after.active = before.active ∧ before.records.SameProduct after.records := by
  rcases outside with ⟨source, rfl⟩ | rfl | rfl
  · rcases step_start moves with ⟨_, _, session, _, rfl⟩
    exact ⟨rfl, .refl _⟩
  · rcases Option.map_eq_some_iff.mp moves with ⟨records, moved, rfl⟩
    exact ⟨rfl, RecordSystem.sameProduct_of_other (Or.inl rfl) moved⟩
  · rcases Option.map_eq_some_iff.mp moves with ⟨records, moved, rfl⟩
    exact ⟨rfl, RecordSystem.sameProduct_of_other (Or.inr (Or.inl rfl)) moved⟩

theorem isRunning_step {action : WorkerAction} (moves : before.step parser action = some after) :
    after.records.queue.queue.isRunning = before.records.queue.queue.isRunning := by
  rcases (step_move moves).pipeline with same | ⟨action, continues, moved⟩
  · rw [same]
  · exact RecordSystem.isRunning_step continues moved

end Worker

namespace Engine

variable {parser : ParserFunc} {before after : Engine}

/-- A step of the engine is a step of one worker, or of none, and the vectors
of the server stay. -/
theorem step_parts {action : EngineAction} (moves : before.step parser action = some after) :
    (after.server.contextVec = before.server.contextVec ∧
      after.server.ptrQueue = before.server.ptrQueue) ∧
      forall index, after.workers index = before.workers index ∨
        Exists fun inner => (before.workers index).step parser inner = some (after.workers index) ∧
          ((Exists fun source => inner = .start source) ∨
            (action = .work index inner ∧ before.Hosts index inner)) := by
  have updated : forall {worked : Nat} {inner : WorkerAction} {worker : Worker} (index : Nat),
      (before.workers worked).step parser inner = some worker ->
        ((Exists fun source => inner = .start source) ∨
          (action = .work worked inner ∧ before.Hosts worked inner)) ->
        Function.update before.workers worked worker index = before.workers index ∨
          Exists fun inner => (before.workers index).step parser inner =
              some (Function.update before.workers worked worker index) ∧
            ((Exists fun source => inner = .start source) ∨
              (action = .work index inner ∧ before.Hosts index inner)) := by
    intro worked inner worker index moved kind
    by_cases same : index = worked
    · subst same
      rw [Function.update_self]
      exact Or.inr ⟨inner, moved, kind⟩
    · exact Or.inl (Function.update_of_ne same _ _)
  cases step_move moves with
  | refuse => exact ⟨⟨rfl, rfl⟩, fun _ => Or.inl rfl⟩
  | connect _ starts => exact ⟨⟨rfl, rfl⟩, fun index => updated index starts (Or.inl ⟨_, rfl⟩)⟩
  | work hosts moved => exact ⟨⟨rfl, rfl⟩, fun index => updated index moved (Or.inr ⟨rfl, hosts⟩)⟩

end Engine

namespace Service

variable {parser : ParserFunc} {before after : Service}

/-! ## The order of the end -/

/-- The network thread of this index has been joined. -/
def HasJoined (service : Service) (index : Nat) : Prop :=
  match service.stopping with
  | .uncalled | .closing | .releasing => False
  | .joining next => index < next
  | .finishing _ | .joiningPool _ | .discarding | .discarded => True

/-- All network threads have been joined. -/
def JoinedAll (service : Service) : Prop :=
  match service.stopping with
  | .uncalled | .closing | .releasing | .joining _ => False
  | .finishing _ | .joiningPool _ | .discarding | .discarded => True

/-- `set_finished` has been called on the queue of this index. -/
def HasFinished (service : Service) (index : Nat) : Prop :=
  match service.stopping with
  | .uncalled | .closing | .releasing | .joining _ => False
  | .finishing next => index < next
  | .joiningPool _ | .discarding | .discarded => True

/-- The consumer thread of this index has been joined. -/
def HasJoinedPool (service : Service) (index : Nat) : Prop :=
  match service.stopping with
  | .uncalled | .closing | .releasing | .joining _ | .finishing _ => False
  | .joiningPool next => index < next
  | .discarding | .discarded => True

section Order

variable {logSize : SizeT} {threads : Nat} {maxSlabs slabsSize : SizeT} {basePtr : Nat -> Nat}
    {capacity : Nat}
variable {profile : OverflowProfile}

/-- The invariant of the shutdown: until the network threads are joined the
engine runs as if nobody stopped it, and a joined thread has come to rest. -/
structure Orderly (parser : ParserFunc) (logSize : SizeT) (threads : Nat)
    (maxSlabs slabsSize : SizeT) (basePtr : Nat -> Nat) (capacity : Nat) (profile : OverflowProfile)
    (service : Service) : Prop where
  contexts : service.engine.server.contextVec = List.range 2
  queues : service.engine.server.ptrQueue = List.range threads
  reached : ¬ service.JoinedAll ->
    (Engine.machine parser logSize threads maxSlabs slabsSize basePtr capacity profile).Reachable
      service.engine
  resting : forall index, (index < 2 -> service.networkEnded index = true) ->
    (service.engine.workers index).Resting
  joined : forall index, index < 2 -> service.HasJoined index -> service.networkEnded index = true
  running : forall index, ¬ service.HasFinished index ->
    (service.engine.workers index).records.queue.queue.isRunning = true
  joinedPool : forall index, index < threads -> service.HasJoinedPool index ->
    service.poolEnded index = true

theorem Orderly.launch {engine : Engine}
    (starts :
      (Engine.machine parser logSize threads maxSlabs slabsSize basePtr capacity profile).initial
      engine) :
    Orderly parser logSize threads maxSlabs slabsSize basePtr capacity profile (launch engine) := by
  have reached :
      (Engine.machine parser logSize threads maxSlabs slabsSize basePtr capacity profile).Reachable
      engine :=
    Machine.ReachableUnder.start starts
  rcases starts with ⟨workers, fresh, rfl⟩
  refine ⟨rfl, rfl, fun _ => reached, ?_, ?_, ?_, ?_⟩
  · intro index _
    exact Worker.resting_of_reachable ((Engine.workerOf index).reachable reached) (fresh index).2.1
  · intro index _ joined
    cases joined
  · intro index _
    rcases fresh index with ⟨_, _, queue, telemetry, memory, queueFresh, records⟩
    change (workers index).records.queue.queue.isRunning = true
    rw [records]
    exact queueFresh.running
  · intro index _ joined
    cases joined

theorem serve_ended {action : EngineAction} {engine : Engine} (runs : before.Runs action)
    (moves : before.engine.step parser action = some engine) {index : Nat}
    (ended : index < before.engine.server.contextVec.length -> before.networkEnded index = true) :
    (engine.workers index).active = (before.engine.workers index).active ∧
      (before.engine.workers index).records.SameProduct (engine.workers index).records := by
  rcases (Engine.step_parts moves).2 index with same | ⟨inner, moved, starts | ⟨rfl, hosts⟩⟩
  · rw [same]
    exact ⟨rfl, .refl _⟩
  · exact Worker.step_elsewhere (Or.inl starts) moved
  · have silent : index < before.engine.server.contextVec.length ->
        before.networkEnded index ≠ false := by
      intro inside going
      rw [ended inside] at going
      cases going
    cases inner with
    | start source => exact False.elim runs
    | complete source bytes => exact absurd runs (silent hosts)
    | fail source => exact absurd runs (silent hosts)
    | handler clock => exact absurd runs (silent hosts)
    | pop => exact Worker.step_elsewhere (Or.inr (Or.inl rfl)) moved
    | consumer => exact Worker.step_elsewhere (Or.inr (Or.inr rfl)) moved

theorem serve_isRunning {action : EngineAction} {engine : Engine}
    (moves : before.engine.step parser action = some engine) (index : Nat) :
    (engine.workers index).records.queue.queue.isRunning =
      (before.engine.workers index).records.queue.queue.isRunning := by
  rcases (Engine.step_parts moves).2 index with same | ⟨inner, moved, _⟩
  · rw [same]
  · exact Worker.isRunning_step moved

theorem finish_worker {index : Nat} {records : RecordSystem}
    (moves : (before.engine.workers index).records.step parser .setFinished = some records)
    (other : Nat) :
    (Function.update before.engine.workers index
      { before.engine.workers index with records := records } other).active =
        (before.engine.workers other).active ∧
      (before.engine.workers other).records.SameProduct
        (Function.update before.engine.workers index
          { before.engine.workers index with records := records } other).records ∧
        (other ≠ index -> (Function.update before.engine.workers index
          { before.engine.workers index with records := records } other) =
            before.engine.workers other) := by
  by_cases same : other = index
  · subst same
    rw [Function.update_self]
    exact ⟨rfl, RecordSystem.sameProduct_of_other (Or.inr (Or.inr rfl)) moves,
      fun differs => absurd rfl differs⟩
  · rw [Function.update_of_ne same]
    exact ⟨rfl, .refl _, fun _ => rfl⟩

/-- A service in which only main, the guards or the stopping thread have moved. -/
theorem Orderly.moveOn
    (holds : Orderly parser logSize threads maxSlabs slabsSize basePtr capacity profile before)
    (engine : after.engine = before.engine)
    (networkEnded : after.networkEnded = before.networkEnded)
    (poolEnded : after.poolEnded = before.poolEnded)
    (unjoined : ¬ after.JoinedAll -> ¬ before.JoinedAll)
    (joined : forall index, index < 2 -> after.HasJoined index ->
      before.HasJoined index ∨ before.networkEnded index = true)
    (unfinished : forall index, ¬ after.HasFinished index -> ¬ before.HasFinished index)
    (joinedPool : forall index, index < threads -> after.HasJoinedPool index ->
      before.HasJoinedPool index ∨ before.poolEnded index = true) :
    Orderly parser logSize threads maxSlabs slabsSize basePtr capacity profile after := by
  refine ⟨engine ▸ holds.contexts, engine ▸ holds.queues, ?_, ?_, ?_, ?_, ?_⟩
  · intro going
    rw [engine]
    exact holds.reached (unjoined going)
  · rw [engine, networkEnded]
    exact holds.resting
  · intro index context has
    rw [networkEnded]
    exact (joined index context has).elim (holds.joined index context) id
  · intro index going
    rw [engine]
    exact holds.running index (unfinished index going)
  · intro index queue has
    rw [poolEnded]
    exact (joinedPool index queue has).elim (holds.joinedPool index queue) id

theorem hasJoined_of_joinedAll {service : Service} (joined : service.JoinedAll) (index : Nat) :
    service.HasJoined index := by
  unfold JoinedAll at joined
  unfold HasJoined
  cases point : service.stopping <;> rw [point] at joined <;> first | exact joined | trivial

theorem Orderly.step
    (holds : Orderly parser logSize threads maxSlabs slabsSize basePtr capacity profile before)
    {action : ShutdownAction} (moves : before.step parser action = some after) :
    Orderly parser logSize threads maxSlabs slabsSize basePtr capacity profile after := by
  cases step_move moves with
  | @serve action engine runs moved =>
      rcases (Engine.step_parts moved).1 with ⟨contextVec, ptrQueue⟩
      refine ⟨contextVec.trans holds.contexts, ptrQueue.trans holds.queues, ?_, ?_, holds.joined,
        ?_, holds.joinedPool⟩
      · exact fun going => (holds.reached going).next trivial moved
      · intro index ended
        have known : index < before.engine.server.contextVec.length ->
            before.networkEnded index = true := by
          rw [holds.contexts]
          exact ended
        rcases serve_ended runs moved known with ⟨inactive, same⟩
        exact (holds.resting index ended).of_sameProduct inactive same
      · intro index going
        exact (serve_isRunning moved index).trans (holds.running index going)
  | @networkEnds index inside released idle =>
      rw [holds.contexts] at inside
      refine ⟨holds.contexts, holds.queues, holds.reached, ?_, ?_, holds.running, holds.joinedPool⟩
      · intro other ended
        by_cases same : other = index
        · subst same
          by_cases joined : before.JoinedAll
          · exact holds.resting other
              (fun context => holds.joined other context (hasJoined_of_joinedAll joined other))
          · exact Worker.resting_of_reachable
              ((Engine.workerOf other).reachable (holds.reached joined)) idle.1
        · exact holds.resting other
            (fun context => (Function.update_of_ne same _ _).symm.trans (ended context))
      · intro other context has
        by_cases same : other = index
        · subst same
          exact Function.update_self _ _ _
        · exact (Function.update_of_ne same _ _).trans (holds.joined other context has)
  | @poolEnds index finished =>
      refine ⟨holds.contexts, holds.queues, holds.reached, holds.resting, holds.joined,
        holds.running, ?_⟩
      intro other queue has
      by_cases same : other = index
      · subst same
        exact Function.update_self _ _ _
      · exact (Function.update_of_ne same _ _).trans (holds.joinedPool other queue has)
  | runReturns _ _ =>
      exact holds.moveOn rfl rfl rfl id (fun _ _ => Or.inl) (fun _ => id) (fun _ _ => Or.inl)
  | keyPressed _ =>
      exact holds.moveOn rfl rfl rfl id (fun _ _ => Or.inl) (fun _ => id) (fun _ _ => Or.inl)
  | call point | close point | release point =>
      refine holds.moveOn rfl rfl rfl ?_ ?_ ?_ ?_
      all_goals simp [JoinedAll, HasJoined, HasFinished, HasJoinedPool, point]
  | @join index point ended =>
      refine holds.moveOn rfl rfl rfl ?_ ?_ ?_ ?_
      · simp [JoinedAll, point]
      · intro other _ has
        change other < index + 1 at has
        rcases Nat.lt_succ_iff_lt_or_eq.mp has with earlier | rfl
        · left
          simpa only [HasJoined, point] using earlier
        · exact Or.inr ended
      · simp [HasFinished, point]
      · simp [HasJoinedPool]
  | @joined index point beyond =>
      rw [holds.contexts] at beyond
      refine holds.moveOn rfl rfl rfl ?_ ?_ ?_ ?_
      · simp [JoinedAll]
      · intro other context _
        left
        simpa only [HasJoined, point] using Nat.lt_of_lt_of_le context beyond
      · simp [HasFinished, point]
      · simp [HasJoinedPool]
  | @finish index records point inside stops =>
      have finishes := finish_worker stops
      refine ⟨holds.contexts, holds.queues, fun going => absurd trivial going, ?_, ?_, ?_, ?_⟩
      · intro other ended
        exact (holds.resting other ended).of_sameProduct (finishes other).1 (finishes other).2.1
      · intro other context _
        exact holds.joined other context (by simp only [HasJoined, point])
      · intro other unfinished
        change ¬ other < index + 1 at unfinished
        have later : ¬ before.HasFinished other := by
          simp only [HasFinished, point]
          omega
        have differs : other ≠ index := by
          rintro rfl
          exact unfinished (Nat.lt_succ_self _)
        have kept := congrArg (fun worker => worker.records.queue.queue.isRunning)
          ((finishes other).2.2 differs)
        exact kept.trans (holds.running other later)
      · intro other _ has
        cases has
  | @finished index point beyond =>
      refine holds.moveOn rfl rfl rfl ?_ ?_ ?_ ?_
      all_goals simp [JoinedAll, HasJoined, HasFinished, HasJoinedPool, point]
  | @joinPool index point ended =>
      refine holds.moveOn rfl rfl rfl ?_ ?_ ?_ ?_
      · simp [JoinedAll]
      · simp [HasJoined, point]
      · simp [HasFinished]
      · intro other _ has
        change other < index + 1 at has
        rcases Nat.lt_succ_iff_lt_or_eq.mp has with earlier | rfl
        · left
          simpa only [HasJoinedPool, point] using earlier
        · exact Or.inr ended
  | @joinedPool index point beyond =>
      rw [holds.queues, List.length_range] at beyond
      refine holds.moveOn rfl rfl rfl ?_ ?_ ?_ ?_
      · simp [JoinedAll]
      · simp [HasJoined, point]
      · simp [HasFinished]
      · intro other queue _
        left
        simpa only [HasJoinedPool, point] using Nat.lt_of_lt_of_le queue beyond
  | discard point =>
      refine holds.moveOn rfl rfl rfl ?_ ?_ ?_ ?_
      all_goals simp [JoinedAll, HasJoined, HasFinished, HasJoinedPool, point]

theorem orderly_of_reachable {guard : Service -> ShutdownAction -> Prop} {service : Service}
    (reached :
      (machine parser logSize threads maxSlabs slabsSize basePtr capacity profile).ReachableUnder
      guard
      service) :
    Orderly parser logSize threads maxSlabs slabsSize basePtr capacity profile service := by
  refine reached.invariant ?_ (fun _ _ _ _ holds _ moves => holds.step moves)
  rintro service ⟨engine, starts, rfl⟩
  exact .launch starts

/-! ## Behind the joins -/

/-- The threads that could produce have all ended. -/
theorem Orderly.ended
    (holds : Orderly parser logSize threads maxSlabs slabsSize basePtr capacity profile before)
    (joined : before.JoinedAll) (index : Nat) : index < 2 -> before.networkEnded index = true :=
  fun context => holds.joined index context (hasJoined_of_joinedAll joined index)

theorem joinedAll_of_finished
    (holds : Orderly parser logSize threads maxSlabs slabsSize basePtr capacity profile before)
    {index : Nat} (finished : (before.engine.workers index).records.queue.queue.isRunning = false) :
    before.JoinedAll := by
  by_contra unjoined
  have running : (before.engine.workers index).records.queue.queue.isRunning = true := by
    apply holds.running
    unfold JoinedAll at unjoined
    unfold HasFinished
    cases point : before.stopping <;> rw [point] at unjoined <;>
      first | exact id | exact absurd trivial unjoined
  rw [finished] at running
  cases running

/-- Behind the joins nothing is produced any more. -/
theorem joinedAll_step
    (holds : Orderly parser logSize threads maxSlabs slabsSize basePtr capacity profile before)
    (joined : before.JoinedAll) {action : ShutdownAction}
    (moves : before.step parser action = some after) :
    after.JoinedAll ∧
      forall index,
        (before.engine.workers index).records.SameProduct (after.engine.workers index).records := by
  have ahead : forall {point : StopPoint}, before.stopping = point ->
      point ≠ .uncalled ∧ point ≠ .closing ∧ point ≠ .releasing ∧ forall index,
        point ≠ .joining index := by
    rintro point rfl
    unfold JoinedAll at joined
    refine ⟨?_, ?_, ?_, ?_⟩
    · intro point
      rw [point] at joined
      exact joined
    · intro point
      rw [point] at joined
      exact joined
    · intro point
      rw [point] at joined
      exact joined
    · intro index point
      rw [point] at joined
      exact joined
  cases step_move moves with
  | serve runs moved =>
      refine ⟨joined, fun index => (serve_ended runs moved ?_).2⟩
      rw [holds.contexts]
      exact holds.ended joined index
  | networkEnds _ _ _ => exact ⟨joined, fun _ => .refl _⟩
  | poolEnds _ => exact ⟨joined, fun _ => .refl _⟩
  | runReturns _ _ => exact ⟨joined, fun _ => .refl _⟩
  | keyPressed _ => exact ⟨joined, fun _ => .refl _⟩
  | call point => exact absurd rfl (ahead point).1
  | close point => exact absurd rfl (ahead point).2.1
  | release point => exact absurd rfl (ahead point).2.2.1
  | join point _ => exact absurd rfl ((ahead point).2.2.2 _)
  | joined point _ => exact absurd rfl ((ahead point).2.2.2 _)
  | finish _ _ stops => exact ⟨trivial, fun index => (finish_worker stops index).2.1⟩
  | finished _ _ => exact ⟨trivial, fun _ => .refl _⟩
  | joinPool _ _ => exact ⟨trivial, fun _ => .refl _⟩
  | joinedPool _ _ => exact ⟨trivial, fun _ => .refl _⟩
  | discard _ => exact ⟨trivial, fun _ => .refl _⟩

theorem discarded_step
    (holds : Orderly parser logSize threads maxSlabs slabsSize basePtr capacity profile before)
    (discarded : before.stopping = .discarded) {action : ShutdownAction}
    (moves : before.step parser action = some after) :
    after.stopping = .discarded ∧
      forall index, (after.engine.workers index).records =
        (before.engine.workers index).records := by
  have joined : before.JoinedAll := by
    unfold JoinedAll
    rw [discarded]
    trivial
  have ended : forall index, index < threads -> before.poolEnded index = true := by
    intro index queue
    apply holds.joinedPool index queue
    unfold HasJoinedPool
    rw [discarded]
    trivial
  have stays : forall {point : StopPoint}, before.stopping = point -> point ≠ .discarded -> False :=
    fun point differs => differs (point.symm.trans discarded)
  cases step_move moves with
  | @serve action engine runs moved =>
      refine ⟨discarded, ?_⟩
      intro index
      rcases (Engine.step_parts moved).2 index with
        same | ⟨inner, stepped, ⟨source, rfl⟩ | ⟨rfl, hosts⟩⟩
      · exact congrArg Worker.records same
      · rcases Worker.step_start stepped with ⟨_, _, session, _, kept⟩
        have same := congrArg Worker.records kept
        exact same
      · have network : index < before.engine.server.contextVec.length ->
            before.networkEnded index ≠ false := by
          rw [holds.contexts]
          intro context going
          rw [holds.ended joined index context] at going
          cases going
        have consumer : index < before.engine.server.ptrQueue.length ->
            before.poolEnded index ≠ false := by
          rw [holds.queues, List.length_range]
          intro queue going
          rw [ended index queue] at going
          cases going
        cases inner with
        | start source => exact False.elim runs
        | complete source bytes => exact absurd runs (network hosts)
        | fail source => exact absurd runs (network hosts)
        | handler clock => exact absurd runs (network hosts)
        | pop => exact absurd runs (consumer hosts)
        | consumer => exact absurd runs (consumer hosts)
  | networkEnds _ _ _ => exact ⟨discarded, fun _ => rfl⟩
  | poolEnds _ => exact ⟨discarded, fun _ => rfl⟩
  | runReturns _ _ => exact ⟨discarded, fun _ => rfl⟩
  | keyPressed _ => exact ⟨discarded, fun _ => rfl⟩
  | call point | close point | release point | discard point =>
      exact False.elim (stays point (by intro same; cases same))
  | join point _ | joined point _ | finished point _ | joinPool point _ | joinedPool point _ =>
      exact False.elim (stays point (by intro same; cases same))
  | finish point _ _ => exact False.elim (stays point (by intro same; cases same))

end Order

/-- What `stop_threads` promises about the threads of the engine. -/
structure EndsInOrder (parser : ParserFunc) (threads : Nat) (service later : Service) : Prop where
  /-- each queue is finished once, while its producer stands still -/
  finishing : forall index after, service.stopping = .finishing index -> index < threads ->
    service.step parser .stop = some after ->
      (service.engine.workers index).records.queue.producer = .idle ∧
        (service.engine.workers index).records.queue.queue.isRunning = true ∧
          (after.engine.workers index).records.queue.queue.isRunning = false
  /-- behind the first finished queue nothing is produced, on any queue -/
  silent : forall finished,
    (service.engine.workers finished).records.queue.queue.isRunning = false ->
    forall index,
      (service.engine.workers index).records.SameProduct (later.engine.workers index).records
  /-- no thread touches a destroyed queue -/
  untouched : service.stopping = .discarded ->
    forall index, (later.engine.workers index).records = (service.engine.workers index).records

end Service

open Service in
/-- For every interleaving of `stop_threads` with the acceptor, the network
threads and the consumers, and for every moment at which it is called: the
queues are finished only behind the last push, and destroyed only behind the
last access. -/
theorem shutdown_is_orderly {parser : ParserFunc} {logSize : SizeT} {threads : Nat}
    {maxSlabs slabsSize : SizeT}
    {basePtr : Nat -> Nat} {capacity : Nat} {profile : OverflowProfile} {service later : Service}
    (reached :
      (Service.machine parser logSize threads maxSlabs slabsSize basePtr capacity profile).Reachable
      service)
    (run : (Service.machine parser logSize threads maxSlabs slabsSize basePtr capacity profile).Runs
      service later) :
    service.EndsInOrder parser threads later := by
  have holds := orderly_of_reachable reached
  constructor
  · intro index after finishes queue moves
    have joined : service.JoinedAll := by
      unfold JoinedAll
      rw [finishes]
      trivial
    have running : (service.engine.workers index).records.queue.queue.isRunning = true := by
      apply holds.running
      unfold HasFinished
      rw [finishes]
      exact Nat.lt_irrefl index
    refine ⟨(holds.resting index (holds.ended joined index)).idle, running, ?_⟩
    cases step_move moves with
    | @finish other records point _ stops =>
        cases point.symm.trans finishes
        change (Function.update service.engine.workers index _
          index).records.queue.queue.isRunning = false
        rw [Function.update_self]
        cases stops
        rfl
    | @finished other point beyond =>
        cases point.symm.trans finishes
        rw [holds.queues, List.length_range] at beyond
        exact absurd queue (Nat.not_lt_of_le beyond)
    | call point | close point | release point | discard point => cases point.symm.trans finishes
    | join point _ | joined point _ | joinPool point _ | joinedPool point _ =>
        cases point.symm.trans finishes
  · intro finished stopped
    have both : Orderly parser logSize threads maxSlabs slabsSize basePtr capacity profile later ∧
      later.JoinedAll ∧
        forall index, (service.engine.workers index).records.SameProduct
          (later.engine.workers index).records := by
      refine run.preserves
        (I := fun state =>
          Orderly parser logSize threads maxSlabs slabsSize basePtr capacity profile state ∧
          state.JoinedAll ∧
            forall index, (service.engine.workers index).records.SameProduct
              (state.engine.workers index).records) ?_
        ⟨holds, joinedAll_of_finished holds stopped, fun _ => .refl _⟩
      rintro before action after ⟨orderly, joined, same⟩ _ moves
      rcases joinedAll_step orderly joined moves with ⟨stays, produced⟩
      exact ⟨orderly.step moves, stays, fun index => (same index).trans (produced index)⟩
    exact both.2.2
  · intro discarded
    have both : Orderly parser logSize threads maxSlabs slabsSize basePtr capacity profile later ∧
        later.stopping = .discarded ∧
          forall index, (later.engine.workers index).records =
            (service.engine.workers index).records := by
      refine run.preserves
        (I := fun state =>
          Orderly parser logSize threads maxSlabs slabsSize basePtr capacity profile state ∧
          state.stopping = .discarded ∧
            forall index, (state.engine.workers index).records =
              (service.engine.workers index).records) ?_
        ⟨holds, discarded, fun _ => rfl⟩
      rintro before action after ⟨orderly, stays, same⟩ _ moves
      rcases discarded_step orderly stays moves with ⟨still, kept⟩
      exact ⟨orderly.step moves, still, fun index => (kept index).trans (same index)⟩
    exact both.2.2

/-- A service with two default queues and no connection. -/
def twoQueuesService : Service :=
  Service.launch twoQueues

abbrev twoQueuesServices : Machine Service ShutdownAction :=
  Service.machine .parseAndPush 1 2 10 1 (fun _ => 0x10000) (2 ^ 20) .dropAll

theorem twoQueuesService_initial : twoQueuesServices.initial twoQueuesService :=
  ⟨twoQueues, twoQueues_initial, rfl⟩

/-- `stop_threads` up to the first `set_finished`. -/
def firstFinished : Service :=
  (twoQueuesServices.executeUnder Machine.anyAction twoQueuesService
    (List.replicate 3 .stop ++ [.networkEnds 0, .networkEnds 1] ++ List.replicate 4 .stop)).get
      (by decide)

/-- The rest of it. -/
def allDiscarded : Service :=
  (twoQueuesServices.executeUnder Machine.anyAction firstFinished
    ([.stop, .stop, .poolEnds 0, .poolEnds 1] ++ List.replicate 4 .stop)).get (by decide)

theorem shutdown_is_orderly_twoQueues : firstFinished.EndsInOrder .parseAndPush 2 allDiscarded :=
  shutdown_is_orderly
    ⟨twoQueuesService, twoQueuesService_initial,
      Machine.runsUnder_of_execute (Option.some_get _).symm⟩
    (Machine.runsUnder_of_execute (Option.some_get _).symm)

/-! ## Who holds the shutdown up -/

namespace Worker

/-- An outstanding read that neither completes nor fails keeps its session where
it is. -/
theorem awaiting_stays {parser : ParserFunc} {before after : Worker} {source : Nat} {space : SizeT}
    (awaits : (before.sessions source).point = .awaiting space) {action : WorkerAction}
    (silent : (forall bytes, action ≠ .complete source bytes) ∧ action ≠ .fail source)
    (moves : before.step parser action = some after) :
      after.sessions source = before.sessions source := by
  rcases step_session moves with same | ⟨inner, moved, reads, fails⟩
  · exact same
  · exfalso
    generalize after.sessions source = session at moved
    cases SessionTrace.step_move moved with
    | receive _ _ _ => exact absurd (reads _ rfl) (silent.1 _)
    | fail _ => exact absurd (fails rfl) silent.2
    | retry point _ => cases awaits.symm.trans point
    | await point _ => rcases point with point | point <;> cases awaits.symm.trans point
    | giveUp point _ => cases awaits.symm.trans point
    | leave point _ => cases awaits.symm.trans point
    | oversize point _ => cases awaits.symm.trans point
    | handOver point _ => cases awaits.symm.trans point
    | consume point => cases awaits.symm.trans point

end Worker

namespace Service

/-- The read of this session on the worker of this index neither completes nor
fails. -/
def Silent (index source : Nat) (_service : Service) : ShutdownAction -> Prop
  | .engine (.work worker (.complete other _)) | .engine (.work worker (.fail other)) =>
      ¬ (worker = index ∧ other = source)
  | _ => True

instance (index source : Nat) (service : Service) :
    (action : ShutdownAction) -> Decidable (Silent index source service action)
  | .engine (.work worker (.complete other _)) | .engine (.work worker (.fail other)) =>
      inferInstanceAs (Decidable (¬ (worker = index ∧ other = source)))
  | .engine (.accept _) | .engine (.work _ (.start _)) | .engine (.work _ (.handler _)) | .engine
      (.work _ .pop)
  | .engine (.work _ .consumer) | .networkEnds _ | .poolEnds _ | .runReturns | .keyPressed
  | .stop =>
      inferInstanceAs (Decidable True)

/-- `stop_threads` is called by the destructor in `main` only. -/
def OnlyMainStops (service : Service) : ShutdownAction -> Prop
  | .stop => service.main = .destroying
  | _ => True

instance (service : Service) : (action : ShutdownAction) -> Decidable (OnlyMainStops service action)
  | .stop => inferInstanceAs (Decidable (service.main = .destroying))
  | .engine _ | .networkEnds _ | .poolEnds _ | .runReturns | .keyPressed =>
      inferInstanceAs (Decidable True)

/-- The shutdown waits for a network thread whose context has a read
outstanding. -/
structure HeldUp (index source : Nat) (service : Service) : Prop where
  going : service.networkEnded index = false
  connected : source < service.engine.connections.length
  awaits : SessionPoint.isAwaiting ((service.engine.workers index).sessions source).point = true

section Order

variable {parser : ParserFunc} {before after : Service} {logSize : SizeT} {threads : Nat}
    {maxSlabs slabsSize : SizeT}
variable {basePtr : Nat -> Nat} {capacity : Nat} {profile : OverflowProfile} {index source : Nat}

theorem HeldUp.serve (held : before.HeldUp index source) {action : EngineAction} {engine : Engine}
    (silent : Silent index source before (.engine action))
    (moves : before.engine.step parser action = some engine) :
    HeldUp index source { before with engine := engine } := by
  have grown : before.engine.connections.length ≤ engine.connections.length := by
    cases Engine.step_move moves with
    | refuse => exact Nat.le_refl _
    | connect _ _ =>
        change _ ≤ (before.engine.connections ++ _).length
        rw [List.length_append]
        exact Nat.le_add_right _ _
    | work _ _ => exact Nat.le_refl _
  refine ⟨held.going, Nat.lt_of_lt_of_le held.connected grown, ?_⟩
  have same : (engine.workers index).sessions source =
      (before.engine.workers index).sessions source := by
    rcases (Engine.step_parts moves).2 index with same | ⟨inner, moved, kind⟩
    · rw [same]
    · have awaits := held.awaits
      cases point : ((before.engine.workers index).sessions source).point with
      | awaiting space =>
          apply Worker.awaiting_stays point _ moved
          rcases kind with ⟨other, rfl⟩ | ⟨rfl, _⟩
          · constructor
            · intro bytes same
              cases same
            · intro same
              cases same
          · constructor
            · rintro bytes rfl
              exact silent ⟨rfl, rfl⟩
            · rintro rfl
              exact silent ⟨rfl, rfl⟩
      | _ =>
          rw [point] at awaits
          cases awaits
  change SessionPoint.isAwaiting ((engine.workers index).sessions source).point = true
  rw [same]
  exact held.awaits

theorem HeldUp.step (held : before.HeldUp index source) {action : ShutdownAction}
    (silent : Silent index source before action) (moves : before.step parser action = some after) :
    after.HeldUp index source := by
  have ⟨going, connected, awaits⟩ := held
  cases step_move moves with
  | serve _ moved => exact held.serve silent moved
  | @networkEnds ended _ _ idle =>
      have differs : index ≠ ended := by
        rintro rfl
        rw [idle.2 source connected] at awaits
        cases awaits
      exact ⟨(Function.update_of_ne differs _ _).trans going, connected, awaits⟩
  | @finish finished records _ _ stops =>
      refine ⟨going, connected, ?_⟩
      by_cases same : index = finished
      · subst same
        change SessionPoint.isAwaiting
          ((Function.update before.engine.workers index _ index).sessions source).point = true
        rw [Function.update_self]
        exact awaits
      · change SessionPoint.isAwaiting
          ((Function.update before.engine.workers finished _ index).sessions source).point = true
        rw [Function.update_of_ne same]
        exact awaits
  | _ => exact ⟨going, connected, awaits⟩

theorem running_of_unjoined
    (holds : Orderly parser logSize threads maxSlabs slabsSize basePtr capacity profile before)
    (unjoined : ¬ before.JoinedAll) (index : Nat) :
    (before.engine.workers index).records.queue.queue.isRunning = true := by
  by_contra stopped
  exact unjoined (joinedAll_of_finished holds (Bool.eq_false_iff.mpr stopped))

theorem heldUp_of_awaiting
    (holds : Orderly parser logSize threads maxSlabs slabsSize basePtr capacity profile before)
    (context : index < 2) (going : before.networkEnded index = false)
    (awaits : SessionPoint.isAwaiting ((before.engine.workers index).sessions source).point =
      true) :
    before.HeldUp index source := by
  have unjoined : ¬ before.JoinedAll := by
    intro joined
    rw [holds.ended joined index context] at going
    cases going
  refine ⟨going, ?_, awaits⟩
  by_contra beyond
  have routed := Engine.routed_of_reachable (holds.reached unjoined)
  have untouched := routed.untouched index source (by
    intro assignment found
    rw [List.getElem?_eq_none (Nat.le_of_not_lt beyond)] at found
    cases found)
  rcases untouched.fresh with ⟨session, _, begins⟩
  rw [begins] at awaits
  cases awaits

end Order

end Service

open Service in
/-- A client that is connected and silent holds the whole shutdown up, whatever
else happens: its network thread does not end, so no queue is finished and no
consumer thread is joined. -/
theorem silent_client_holds_shutdown {parser : ParserFunc} {logSize : SizeT} {threads : Nat}
    {maxSlabs slabsSize : SizeT}
    {basePtr : Nat -> Nat} {capacity : Nat} {profile : OverflowProfile} {index source : Nat}
    {service later : Service}
    (reached :
      (Service.machine parser logSize threads maxSlabs slabsSize basePtr capacity profile).Reachable
      service)
    (context : index < 2) (going : service.networkEnded index = false)
    (awaits : SessionPoint.isAwaiting ((service.engine.workers index).sessions source).point = true)
    (run :
      (Service.machine parser logSize threads maxSlabs slabsSize basePtr capacity profile).RunsUnder
      (Silent index source) service later) :
    later.networkEnded index = false ∧ ¬ later.JoinedAll ∧
      forall queue, (later.engine.workers queue).records.queue.queue.isRunning = true := by
  have held : later.HeldUp index source :=
    run.preserves (fun _ _ _ held silent moves => held.step silent moves)
      (heldUp_of_awaiting (orderly_of_reachable reached) context going awaits)
  have holds := orderly_of_reachable (reached.continue (run.weaken fun _ _ _ => trivial))
  have unjoined : ¬ later.JoinedAll := by
    intro joined
    have ended := holds.ended joined index context
    rw [held.going] at ended
    cases ended
  exact ⟨held.going, unjoined, running_of_unjoined holds unjoined⟩

/-- One client has connected to the first worker. -/
def clientConnected : Service :=
  (twoQueuesServices.executeUnder Machine.anyAction twoQueuesService
    [.engine (.accept .accepted)]).get (by decide)

/-- `stop_threads` has come to the join of the first network thread; the second
one has ended. -/
def clientWaitedFor : Service :=
  (twoQueuesServices.executeUnder (Service.Silent 0 0) clientConnected
    [.stop, .stop, .stop, .networkEnds 1, .runReturns]).get (by decide)

theorem silent_client_holds_shutdown_twoQueues :
    clientWaitedFor.networkEnded 0 = false ∧ ¬ clientWaitedFor.JoinedAll ∧
      forall queue, (clientWaitedFor.engine.workers queue).records.queue.queue.isRunning = true :=
  silent_client_holds_shutdown
    ⟨twoQueuesService, twoQueuesService_initial,
      Machine.runsUnder_of_execute (Option.some_get _).symm⟩
    (by decide : 0 < 2) (by decide : clientConnected.networkEnded 0 = false)
    (by decide :
      SessionPoint.isAwaiting ((clientConnected.engine.workers 0).sessions 0).point = true)
    (Machine.runsUnder_of_execute (Option.some_get _).symm :
      twoQueuesServices.RunsUnder _ _ clientWaitedFor)

open Service in
/-- In the program the shutdown is never reached.  Only `main` calls
`stop_threads`, and the constructor that it waits for runs the acceptor's
context, which nobody stops. -/
theorem main_never_stops {parser : ParserFunc} {logSize : SizeT} {threads : Nat}
    {maxSlabs slabsSize : SizeT}
    {basePtr : Nat -> Nat} {capacity : Nat} {profile : OverflowProfile} {service : Service}
    (reached :
      (Service.machine parser logSize threads maxSlabs slabsSize basePtr capacity
        profile).ReachableUnder
      OnlyMainStops service) :
    service.main = .running ∧ service.stopping = .uncalled ∧
      forall queue, (service.engine.workers queue).records.queue.queue.isRunning = true := by
  have inside : service.main = .running ∧ service.contextStopped = false ∧
      service.stopping = .uncalled := by
    apply reached.invariant
    · rintro start ⟨engine, _, rfl⟩
      exact ⟨rfl, rfl, rfl⟩
    · rintro before action after _ ⟨main, serving, uncalled⟩ calls moves
      have never : action ≠ .stop := by
        rintro rfl
        cases main.symm.trans calls
      cases step_move moves with
      | runReturns _ stopped => cases serving.symm.trans stopped
      | keyPressed waits => cases main.symm.trans waits
      | serve _ _ => exact ⟨main, serving, uncalled⟩
      | networkEnds _ _ _ => exact ⟨main, serving, uncalled⟩
      | poolEnds _ => exact ⟨main, serving, uncalled⟩
      | _ => exact absurd rfl never
  refine ⟨inside.1, inside.2.2, running_of_unjoined (orderly_of_reachable reached) ?_⟩
  unfold JoinedAll
  rw [inside.2.2]
  exact id

theorem main_never_stops_twoQueues :
    let service := (twoQueuesServices.executeUnder Service.OnlyMainStops twoQueuesService
      [.engine (.accept .accepted)]).get (by decide)
    service.main = .running ∧ service.stopping = .uncalled ∧
      forall queue, (service.engine.workers queue).records.queue.queue.isRunning = true :=
  main_never_stops (Machine.reachableUnder_of_execute twoQueuesService_initial (by decide))

end Pipeline
end VortexEngine
