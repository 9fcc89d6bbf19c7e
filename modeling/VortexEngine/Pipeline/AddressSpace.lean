import VortexEngine.Pipeline.Engine
import VortexEngine.Pipeline.PayloadIntegrity
import VortexEngine.Pipeline.RefusedRecords
import VortexEngine.Pipeline.SizeLimit
import VortexEngine.Network.SharedMemory

open VortexEngine.Foundations VortexEngine.Core VortexEngine.Network

namespace VortexEngine
namespace Pipeline

/-!
# The queues in one address space

All queues of the engine have their sections in the memory of one process.  The
constructor of a queue writes the control block of its section, and from then on
every parser writes wherever its pool has sent it.

Nobody but the writers looks at this memory, so a step depends on the memory
only by writing to it.  A parser writes into the data region of its own section.
When the views do not meet, the engine in one address space therefore does what
the engine does in which every queue has a memory of its own, and every section
has the contents that it has there.
-/

theorem StoredRecord.Placed.inside_region {pool : SlabPool} {record : StoredRecord}
    (placed : record.Placed pool) :
    pool.dataRegionStart ≤ record.slab.destination ∧
      record.slab.destination + record.bytes.length ≤
        pool.dataRegionStart + pool.slabSize.toNat * pool.maxSlabs.toNat := by
  have inside := placed.inside
  have slabs : (record.writeIndex.toNat + 1) * pool.slabSize.toNat ≤ pool.maxSlabs.toNat *
      pool.slabSize.toNat :=
    Nat.mul_le_mul_right _ placed.index
  rw [Nat.succ_mul, Nat.mul_comm pool.maxSlabs.toNat] at slabs
  rw [placed.destination, StoredRecord.relativeBytes]
  omega

namespace RecordSystem

def withMemory (system : RecordSystem) (memory : Memory) : RecordSystem :=
  { system with memory := memory }

/-- What a step does to the memory. -/
def written (system : RecordSystem) (action : RecordAction) (memory : Memory) : Memory :=
  match action, system.point with
  | .producer, .allocated record => record.writeHeader memory
  | .producer, .headed record => record.writeMessage memory
  | _, _ => memory

variable {parser : ParserFunc}

theorem produce_withMemory (system : RecordSystem) (memory : Memory) :
    (system.withMemory memory).produce =
      system.produce.map fun after => after.withMemory (system.written .producer memory) := by
  unfold produce
  cases point : system.point with
  | returned verdict => simp only [withMemory, point, Option.map_none]
  | allocated record => simp only [withMemory, point, written, Option.map_some]
  | headed record => simp only [withMemory, point, written, Option.map_some]
  | written record => simp only [withMemory, point, written, Option.map_map, Function.comp_def]
  | pushing record =>
      cases idle : system.queue.producer with
      | idle => simp only [withMemory, point, written, idle, Option.map_some]
      | _ => simp only [withMemory, point, written, idle, Option.map_map, Function.comp_def]

theorem parse_withMemory (system : RecordSystem) (memory : Memory) (source : Nat) (clock : UInt64T)
    (rawData : StringView) (parsed : Except DisconnectReason RecordFields) :
    (system.withMemory memory).parse source clock rawData parsed =
      (system.parse source clock rawData parsed).withMemory memory := by
  cases parsed with
  | error reason => rfl
  | ok fields =>
      cases taken : system.slabPool.getNextSlab fields.message <;>
        simp only [parse, withMemory, taken] <;> rfl

/-- A step does the same in another memory, and writes the same there. -/
theorem step_withMemory (system : RecordSystem) (parser : ParserFunc) (action : RecordAction)
    (memory : Memory) :
    (system.withMemory memory).step parser action =
      (system.step parser action).map fun after =>
        after.withMemory (system.written action memory) := by
  cases action with
  | record source clock rawData =>
      cases point : system.point with
      | returned verdict =>
          simp only [step, point, withMemory, written, Option.map_map, Function.comp_def]
          exact congrArg (parser.fields clock rawData).map
            (funext fun parsed => parse_withMemory system memory source clock rawData parsed)
      | _ => simp only [step, point, withMemory, Option.map_none]
  | producer => exact produce_withMemory system memory
  | pop => simp only [step, withMemory, written, Option.map_map, Function.comp_def]
  | consumer => simp only [step, withMemory, written, Option.map_map, Function.comp_def]
  | setFinished => simp only [step, withMemory, written, Option.map_map, Function.comp_def]

/-- What a step leaves at an address depends on what was there. -/
theorem written_congr (system : RecordSystem) (action : RecordAction) {left right : Memory}
    {address : Nat} (same : left address = right address) :
    system.written action left address = system.written action right address := by
  have stored : forall destination bytes,
      left.store destination bytes address = right.store destination bytes address := by
    intro destination bytes
    rw [Memory.store, Memory.store, same]
  cases action with
  | producer =>
      unfold written
      cases system.point with
      | allocated record => exact stored _ _
      | headed record => exact stored _ _
      | _ => exact same
  | _ => exact same

theorem geometry_step {before after : RecordSystem} {action : RecordAction}
    (moves : before.step parser action = some after) :
      before.slabPool.SameGeometry after.slabPool := by
  rcases (step_move moves).regions_eq with
    ⟨_, same, _⟩ | ⟨_, _, _, _, slabPool, _, _, _, taken, allocated, _⟩
  · rw [same]
    exact .refl _
  · rw [allocated]
    exact SlabPool.getNextSlab_geometry taken

/-- A parser writes into the data region of its pool. -/
theorem written_outside {exponent : Nat} {system : RecordSystem}
    (holds : system.MemoryInvariant exponent)
    (action : RecordAction) (memory : Memory) {address : Nat}
    (outside : address < system.slabPool.dataRegionStart ∨
      system.slabPool.dataRegionStart + system.slabPool.slabSize.toNat *
        system.slabPool.maxSlabs.toNat ≤ address) :
    system.written action memory address = memory address := by
  have away : forall record, record ∈ system.inProgress -> address < record.slab.destination ∨
      record.slab.destination + record.bytes.length ≤ address := by
    intro record progress
    have region := (holds.placed record (List.mem_append_right _ progress)).inside_region
    omega
  cases action with
  | producer =>
      unfold inProgress at away
      unfold written
      cases point : system.point with
      | allocated record =>
          rw [point] at away
          exact writeHeader_outside (away record (List.mem_singleton_self record))
      | headed record =>
          rw [point] at away
          exact writeMessage_outside (away record (List.mem_singleton_self record))
      | _ => rfl
  | _ => rfl

end RecordSystem

namespace Worker

def withMemory (worker : Worker) (memory : Memory) : Worker :=
  { worker with records := worker.records.withMemory memory }

def memory (worker : Worker) : Memory :=
  worker.records.memory

/-- What the running handler does to the memory: its parser writes. -/
def handlerWritten (worker : Worker) (source : Nat) (memory : Memory) : Memory :=
  match (worker.sessions source).point with
  | .parsing _ _ => worker.records.written .producer memory
  | _ => memory

/-- What a step does to the memory. -/
def written (worker : Worker) (action : WorkerAction) (memory : Memory) : Memory :=
  match action, worker.active with
  | .handler _, some source => worker.handlerWritten source memory
  | _, _ => memory

variable {parser : ParserFunc}

theorem afterFraming_withMemory (worker : Worker) (memory : Memory) (source : Nat) (clock : UInt64T)
    (session : SessionTrace) :
    (worker.withMemory memory).afterFraming parser source clock session =
      (worker.afterFraming parser source clock session).map fun after =>
        after.withMemory memory := by
  unfold afterFraming
  cases session.point with
  | parsing caller record =>
      simp only [withMemory, RecordSystem.step_withMemory, RecordSystem.written, Option.map_map,
        Function.comp_def]
      rfl
  | _ => rfl

theorem handle_withMemory (worker : Worker) (memory : Memory) (source : Nat) (clock : UInt64T) :
    (worker.withMemory memory).handle parser source clock =
      (worker.handle parser source clock).map fun after =>
        after.withMemory (worker.handlerWritten source memory) := by
  have same : (worker.withMemory memory).sessions source = worker.sessions source := rfl
  rw [handle, handle, same]
  unfold handlerWritten
  cases point : (worker.sessions source).point with
  | parsing caller record =>
      have moves := worker.records.step_withMemory parser .producer memory
      have standing : (worker.withMemory memory).records.point = worker.records.point := rfl
      simp only [standing]
      cases returned : worker.records.point with
      | returned verdict =>
          simp only [RecordSystem.written, returned, Option.map_map]
          rfl
      | _ =>
          simp only [Option.map_map, Function.comp_def]
          exact (congrArg _ moves).trans (Option.map_map _ _ _)
  | _ =>
      simp only [Option.map_bind, Function.comp_def]
      exact congrArg _
        (funext fun session => afterFraming_withMemory worker memory source clock session)

theorem step_withMemory (worker : Worker) (parser : ParserFunc) (action : WorkerAction)
    (memory : Memory) :
    (worker.withMemory memory).step parser action =
      (worker.step parser action).map fun after =>
        after.withMemory (worker.written action memory) := by
  cases action with
  | start source =>
      rw [step, step]
      by_cases runs : worker.active = some source
      · rw [if_pos runs, if_pos (show (worker.withMemory memory).active = some source from runs)]
        rfl
      · rw [if_neg runs, if_neg (show ¬ (worker.withMemory memory).active = some source from runs)]
        by_cases reads : (worker.sessions source).point = .readingHeader
        · rw [if_pos reads,
            if_pos (show ((worker.withMemory memory).sessions source).point = _ from reads),
            Option.map_map]
          rfl
        · rw [if_neg reads,
            if_neg (show ¬ ((worker.withMemory memory).sessions source).point = _ from reads)]
          rfl
  | complete source bytes =>
      rw [step, step]
      by_cases free : worker.active = none
      · rw [if_pos free, if_pos (show (worker.withMemory memory).active = none from free),
          Option.map_map]
        rfl
      · rw [if_neg free, if_neg (show ¬ (worker.withMemory memory).active = none from free)]
        rfl
  | fail source =>
      rw [step, step]
      by_cases free : worker.active = none
      · rw [if_pos free, if_pos (show (worker.withMemory memory).active = none from free),
          Option.map_map]
        rfl
      · rw [if_neg free, if_neg (show ¬ (worker.withMemory memory).active = none from free)]
        rfl
  | handler clock =>
      cases active : worker.active with
      | none => simp only [step, withMemory, active, Option.map_none]
      | some source =>
          have same : (worker.withMemory memory).active = some source := active
          simp only [step, same, active, written]
          exact handle_withMemory worker memory source clock
  | pop =>
      simp only [step, withMemory, written, RecordSystem.step_withMemory, RecordSystem.written,
        Option.map_map, Function.comp_def]
  | consumer =>
      simp only [step, withMemory, written, RecordSystem.step_withMemory, RecordSystem.written,
        Option.map_map, Function.comp_def]

theorem step_memory {before after : Worker} {action : WorkerAction}
    (moves : before.step parser action = some after) :
    after.memory = before.written action before.memory := by
  have same := before.step_withMemory parser action before.memory
  rw [show before.withMemory before.memory = before from rfl, moves, Option.map_some] at same
  exact congrArg memory (Option.some.inj same)

theorem written_congr (worker : Worker) (action : WorkerAction) {left right : Memory}
    {address : Nat} (same : left address = right address) :
    worker.written action left address = worker.written action right address := by
  cases action with
  | handler clock =>
      unfold written
      cases worker.active with
      | none => exact same
      | some source =>
          simp only [handlerWritten]
          cases (worker.sessions source).point with
          | parsing caller record => exact worker.records.written_congr .producer same
          | _ => exact same
  | _ => exact same

section Runs

variable {maxSlabs slabsSize : SizeT} {basePtr exponent : Nat} {profile : OverflowProfile}
    {worker : Worker}

/-- The records of the sessions fit into string views. -/
theorem records_reachable {capacity : Nat}
    (reached : (machine parser maxSlabs slabsSize basePtr capacity profile).Reachable worker) :
    (RecordSystem.machine parser maxSlabs slabsSize basePtr capacity profile).ReachableUnder
      RecordSystem.WithinStringView worker.records := by
  refine reached.invariant (I := fun worker =>
    (RecordSystem.machine parser maxSlabs slabsSize basePtr capacity profile).ReachableUnder
      RecordSystem.WithinStringView worker.records)
        (fun _ starts => Machine.ReachableUnder.start starts.2.2) ?_
  intro before action after reachedBefore holds _ moves
  have reachedAfter := reachedBefore.next trivial moves
  cases step_move moves with
  | session _ _ _ => exact holds
  | @handOver source clock session caller record records _ _ _ hands called =>
      have handed := handed_length_le ((sessionOf source).reachable reachedAfter) record
      simp only [sessionOf, withSession, Function.update_self, hands] at handed
      have short := handed (List.mem_append_right _ (List.mem_singleton_self record))
      have admitted :
          RecordSystem.WithinStringView before.records (.record source clock record.logData) :=
        Nat.lt_of_le_of_lt short (by decide)
      exact holds.next admitted called
  | records moved inside =>
      refine holds.next ?_ moved
      rcases inside with rfl | rfl | rfl <;> trivial

/-- The section stays where it is, and every region lies in it. -/
theorem memory_of_reachable (some_slab : maxSlabs ≠ 0)
    (region : (slabsSize * 1024 * 1024).toNat * maxSlabs.toNat < 2 ^ 63)
    (reached : (machine parser maxSlabs slabsSize basePtr (2 ^ exponent) profile).Reachable
      worker) :
    worker.records.MemoryInvariant exponent ∧
      ((SlabPool.create maxSlabs slabsSize).initializeSharedMemory basePtr).SameGeometry
        worker.records.slabPool := by
  have records := records_reachable reached
  refine ⟨RecordSystem.memoryInvariant_of_reachable some_slab region records, ?_⟩
  refine records.invariant (I := fun system =>
    ((SlabPool.create maxSlabs slabsSize).initializeSharedMemory basePtr).SameGeometry
      system.slabPool) ?_ ?_
  · rintro _ ⟨queue, telemetry, memory, fresh, rfl⟩
    exact .refl _
  · intro before action after _ same _ moves
    exact same.trans (RecordSystem.geometry_step moves)

/-- The section, from its control block to the end of its slabs. -/
def sectionBytes (maxSlabs slabsSize : SizeT) : Nat :=
  SharedMemoryControl.size + (slabsSize * 1024 * 1024).toNat * maxSlabs.toNat

theorem size_le_sectionBytes (maxSlabs slabsSize : SizeT) :
    SharedMemoryControl.size ≤ sectionBytes maxSlabs slabsSize :=
  Nat.le_add_right _ _

theorem region_of_geometry {slabPool : SlabPool}
    (geometry : ((SlabPool.create maxSlabs slabsSize).initializeSharedMemory basePtr).SameGeometry
      slabPool) :
    slabPool.dataRegionStart = basePtr + SharedMemoryControl.size ∧
      slabPool.dataRegionStart + slabPool.slabSize.toNat * slabPool.maxSlabs.toNat =
        basePtr + sectionBytes maxSlabs slabsSize := by
  have start : slabPool.dataRegionStart = basePtr + SharedMemoryControl.size := by
    rw [SlabPool.dataRegionStart, geometry.sharedMemoryBasePtr]
    rfl
  refine ⟨start, ?_⟩
  rw [start, geometry.slabSize, geometry.maxSlabs, sectionBytes, Nat.add_assoc]
  rfl

/-- Control blocks and the other sections are left alone. -/
theorem written_outside (some_slab : maxSlabs ≠ 0)
    (region : (slabsSize * 1024 * 1024).toNat * maxSlabs.toNat < 2 ^ 63)
    (reached : (machine parser maxSlabs slabsSize basePtr (2 ^ exponent) profile).Reachable worker)
    (action : WorkerAction) (memory : Memory) {address : Nat}
    (outside : address < basePtr + SharedMemoryControl.size ∨
      basePtr + sectionBytes maxSlabs slabsSize ≤ address) :
    worker.written action memory address = memory address := by
  rcases memory_of_reachable some_slab region reached with ⟨holds, geometry⟩
  rcases region_of_geometry geometry with ⟨start, ends⟩
  have parser : worker.records.written .producer memory address = memory address := by
    refine RecordSystem.written_outside holds .producer memory ?_
    rw [ends, start]
    exact outside
  cases action with
  | handler clock =>
      unfold written
      cases active : worker.active with
      | none => rfl
      | some source =>
          simp only [handlerWritten]
          cases (worker.sessions source).point with
          | parsing caller record => exact parser
          | _ => rfl
  | _ => rfl

end Runs

end Worker

/-! ## One memory -/

/-- The views of two sections do not meet.  An index without a queue has
addresses that nobody uses. -/
def ViewsApart (basePtr : Nat -> Nat) (maxSlabs slabsSize : SizeT) : Prop :=
  forall left right, left ≠ right ->
    Memory.Apart (basePtr left) (Worker.sectionBytes maxSlabs slabsSize) (basePtr right)
      (Worker.sectionBytes maxSlabs slabsSize)

namespace Engine

/-- All workers see one memory. -/
def withMemory (engine : Engine) (memory : Memory) : Engine :=
  { engine with workers := fun index => (engine.workers index).withMemory memory }

/-- What the worker of an index has written is there for all of them. -/
def publish (index : Nat) (engine : Engine) : Engine :=
  engine.withMemory (engine.workers index).memory

/-- A step in one address space. -/
def stepTogether (parser : ParserFunc) (engine : Engine) : EngineAction -> Option Engine
  | .accept outcome => engine.step parser (.accept outcome)
  | .work index action => (engine.step parser (.work index action)).map (publish index)

/-- The queues are constructed one after the other, and each constructor writes
its control block. -/
def constructed (maxSlabs slabsSize : SizeT) (basePtr : Nat -> Nat) (threads : Nat)
    (memory : Memory) : Memory :=
  (List.range threads).foldl
    (fun memory index => (SlabPool.create maxSlabs slabsSize).control.storeAt memory
      (basePtr index)) memory

/-- The engine whose queues are in one address space. -/
def togetherMachine (parser : ParserFunc) (logSize : SizeT) (threads : Nat)
    (maxSlabs slabsSize : SizeT) (basePtr : Nat -> Nat) (capacity : Nat)
    (profile : OverflowProfile) : Machine Engine EngineAction where
  initial := fun engine => Exists fun alone => Exists fun memory =>
    (machine parser logSize threads maxSlabs slabsSize basePtr capacity profile).initial alone ∧
      engine = alone.withMemory (constructed maxSlabs slabsSize basePtr threads memory)
  step := stepTogether parser

variable {parser : ParserFunc}

/-- What a step does to the memory. -/
def written (engine : Engine) (action : EngineAction) (memory : Memory) : Memory :=
  match action with
  | .accept _ => memory
  | .work index action => (engine.workers index).written action memory

theorem update_withMemory (workers : Nat -> Worker) (index : Nat) (worker : Worker)
    (memory : Memory) :
    Function.update (fun index => (workers index).withMemory memory) index
      (worker.withMemory memory) =
      fun index' => (Function.update workers index worker index').withMemory memory := by
  funext index'
  by_cases same : index' = index
  · subst same
    rw [Function.update_self, Function.update_self]
  · rw [Function.update_of_ne same, Function.update_of_ne same]

/-- The worker that has moved has written, and the others see it. -/
theorem publish_update (engine : Engine) (index : Nat) (worker : Worker) (memory after : Memory) :
    publish index
        { engine with
          workers := Function.update (fun index => (engine.workers index).withMemory memory) index
            (worker.withMemory after) } =
      { engine with workers := Function.update engine.workers index worker }.withMemory after := by
  have visible : (Function.update (fun index => (engine.workers index).withMemory memory) index
      (worker.withMemory after) index).memory = after := by
    rw [Function.update_self]
    rfl
  rw [publish, visible]
  refine congrArg (fun workers => Engine.mk _ _ _ _ workers) (funext fun other => ?_)
  by_cases same : other = index
  · subst same
    simp only [Function.update_self]
    rfl
  · simp only [Function.update_of_ne same]
    rfl

/-- A step in one address space is a step of the engine whose queues are apart. -/
theorem stepTogether_withMemory (engine : Engine) (parser : ParserFunc) (action : EngineAction)
    (memory : Memory) :
    (engine.withMemory memory).stepTogether parser action =
      (engine.step parser action).map fun after =>
        after.withMemory (engine.written action memory) := by
  cases action with
  | accept outcome =>
      cases outcome with
      | failed => rfl
      | accepted =>
          have turn :
            ((engine.withMemory memory).server.assign (engine.withMemory memory).pending).queue =
              (engine.server.assign engine.pending).queue := rfl
          rw [stepTogether, step, step, accept, accept, turn]
          cases (engine.server.assign engine.pending).queue with
          | none => rfl
          | some queue =>
              have moves := (engine.workers queue).step_withMemory parser
                (.start engine.connections.length) memory
              have started : (engine.workers queue).written
                (.start engine.connections.length) memory = memory := rfl
              rw [started] at moves
              change (((engine.workers queue).withMemory memory).step parser
                (.start engine.connections.length)).map _ =
                Option.map _ (((engine.workers queue).step parser _).map _)
              rw [moves, Option.map_map, Option.map_map]
              congr 1
              funext worker
              exact congrArg (fun workers => Engine.mk _ _ _ _ workers) (update_withMemory _ _ _ _)
  | work index action =>
      rw [stepTogether, step, step]
      by_cases hosts : engine.Hosts index action
      · rw [if_pos hosts, if_pos (show (engine.withMemory memory).Hosts index action from hosts)]
        change Option.map _
          ((((engine.workers index).withMemory memory).step parser action).map _) = _
        rw [Worker.step_withMemory, Option.map_map, Option.map_map, Option.map_map]
        exact congrArg (fun after => Option.map after _)
          (funext fun worker => publish_update engine index worker _ _)
      · rw [if_neg hosts, if_neg (show ¬ (engine.withMemory memory).Hosts index action from hosts)]
        rfl

theorem step_memory {before after : Engine} {action : EngineAction}
    (moves : before.step parser action = some after) (index : Nat) :
    (after.workers index).memory =
      match action with
      | .accept _ => (before.workers index).memory
      | .work acting action =>
          if index = acting then (before.workers index).written action (before.workers index).memory
          else (before.workers index).memory := by
  cases step_move moves with
  | refuse => rfl
  | @connect queue worker assigned starts =>
      change (Function.update before.workers queue worker index).memory = _
      by_cases same : index = queue
      · subst same
        rw [Function.update_self]
        exact Worker.step_memory starts
      · rw [Function.update_of_ne same]
  | @work acting action worker hosts moved =>
      change (Function.update before.workers acting worker index).memory = _
      by_cases same : index = acting
      · subst same
        simp only [Function.update_self, if_pos]
        exact Worker.step_memory moved
      · simp only [Function.update_of_ne same, if_neg same]

/-! ## Sections -/

section Runs

variable {logSize : SizeT} {threads : Nat} {maxSlabs slabsSize : SizeT} {basePtr : Nat -> Nat}
variable {exponent : Nat} {profile : OverflowProfile}

theorem constructed_succ (maxSlabs slabsSize : SizeT) (basePtr : Nat -> Nat) (threads : Nat)
    (memory : Memory) :
    constructed maxSlabs slabsSize basePtr (threads + 1) memory =
      (SlabPool.create maxSlabs slabsSize).control.storeAt
        (constructed maxSlabs slabsSize basePtr threads memory) (basePtr threads) := by
  rw [constructed, List.range_succ, List.foldl_append, List.foldl_cons, List.foldl_nil]
  rfl

theorem constructed_block (apart : ViewsApart basePtr maxSlabs slabsSize) (memory : Memory)
    {index : Nat} (exists_queue : index < threads) :
    SharedMemoryControl.loadAt (constructed maxSlabs slabsSize basePtr threads memory)
      (basePtr index) =
      (SlabPool.create maxSlabs slabsSize).control := by
  induction threads with
  | zero => cases exists_queue
  | succ threads ih =>
      rw [constructed_succ]
      by_cases last : index = threads
      · rw [last, SharedMemoryControl.loadAt_storeAt]
      · rw [← ih (by omega)]
        apply SharedMemoryControl.loadAt_congr
        intro address from_start to_end
        refine SharedMemoryControl.storeAt_outside _ _ ?_
        have block := Worker.size_le_sectionBytes maxSlabs slabsSize
        rcases apart index threads last with before | behind
        · exact Or.inl (by omega)
        · exact Or.inr (by omega)

/-- The engine in one address space is the engine whose queues are apart, with
one memory that has in every section what is there, and the control blocks. -/
structure Together (threads : Nat) (maxSlabs slabsSize : SizeT) (basePtr : Nat -> Nat)
    (alone engine : Engine) (memory : Memory) : Prop where
  same : engine = alone.withMemory memory
  sections : forall index address, basePtr index ≤ address ->
    address < basePtr index + Worker.sectionBytes maxSlabs slabsSize ->
      memory address = (alone.workers index).memory address
  blocks : forall index, index < threads ->
    SharedMemoryControl.loadAt memory (basePtr index) = (SlabPool.create maxSlabs slabsSize).control

variable {alone engine next : Engine} {memory : Memory} {action : EngineAction}

theorem Together.advance (some_slab : maxSlabs ≠ 0)
    (region : (slabsSize * 1024 * 1024).toNat * maxSlabs.toNat < 2 ^ 63)
    (apart : ViewsApart basePtr maxSlabs slabsSize)
    (together : Together threads maxSlabs slabsSize basePtr alone engine memory)
    (reached : (machine parser logSize threads maxSlabs slabsSize basePtr
      (2 ^ exponent) profile).Reachable alone)
    (moved : alone.step parser action = some next) :
    Together threads maxSlabs slabsSize basePtr next (next.withMemory (alone.written action memory))
      (alone.written action memory) := by
  -- a parser reaches neither a control block nor a section of another queue
  have spared : forall index address, basePtr index ≤ address ->
      address < basePtr index + Worker.sectionBytes maxSlabs slabsSize ->
        (forall inner, action ≠ .work index inner) ∨
          address < basePtr index + SharedMemoryControl.size ->
          alone.written action memory address = memory address := by
    intro index address from_start to_end other
    cases action with
    | accept outcome => rfl
    | work acting action =>
        refine Worker.written_outside some_slab region
          ((workerOf acting).reachable reached) action memory ?_
        by_cases own : index = acting
        · subst own
          exact Or.inl (other.resolve_left (fun never => never action rfl))
        · have block := Worker.size_le_sectionBytes maxSlabs slabsSize
          rcases apart index acting own with before | behind
          · exact Or.inl (by omega)
          · exact Or.inr (by omega)
  refine ⟨rfl, ?_, ?_⟩
  · intro index address from_start to_end
    rw [step_memory moved]
    have before := together.sections index address from_start to_end
    cases action with
    | accept outcome => exact before
    | work acting action =>
        by_cases own : index = acting
        · subst own
          simp only [if_pos]
          exact (alone.workers index).written_congr action before
        · simp only [if_neg own]
          refine (spared index address from_start to_end (Or.inl fun other same => ?_)).trans before
          cases same
          exact own rfl
  · intro index exists_queue
    rw [← together.blocks index exists_queue]
    apply SharedMemoryControl.loadAt_congr
    intro address from_start to_end
    have block := Worker.size_le_sectionBytes maxSlabs slabsSize
    exact spared index address from_start (by omega) (Or.inr to_end)

theorem together_start (apart : ViewsApart basePtr maxSlabs slabsSize) {start : Engine}
    (starts : (togetherMachine parser logSize threads maxSlabs slabsSize basePtr
      (2 ^ exponent) profile).initial
      start) :
    (machine parser logSize threads maxSlabs slabsSize basePtr (2 ^ exponent) profile).initial
      start ∧
      Exists fun memory => Together threads maxSlabs slabsSize basePtr start start memory := by
  rcases starts with ⟨_, memory, ⟨workers, fresh, rfl⟩, rfl⟩
  refine ⟨⟨_, fun index => ?_, rfl⟩, _, rfl, fun _ _ _ _ => rfl,
    fun index exists_queue => constructed_block apart memory exists_queue⟩
  rcases fresh index with ⟨sessions, idle, queue, telemetry, _, isFresh, records⟩
  exact ⟨sessions, idle, queue, telemetry, _, isFresh,
    congrArg (fun system => RecordSystem.withMemory system _) records⟩

/-- A run in one address space is a run of the engine whose queues are apart. -/
theorem together_of_runs (some_slab : maxSlabs ≠ 0)
    (region : (slabsSize * 1024 * 1024).toNat * maxSlabs.toNat < 2 ^ 63)
    (apart : ViewsApart basePtr maxSlabs slabsSize) {start : Engine}
    (starts : (togetherMachine parser logSize threads maxSlabs slabsSize basePtr
      (2 ^ exponent) profile).initial start)
    (run : (togetherMachine parser logSize threads maxSlabs slabsSize basePtr
      (2 ^ exponent) profile).Runs start
      engine) :
    Exists fun alone => Exists fun memory =>
      (machine parser logSize threads maxSlabs slabsSize basePtr (2 ^ exponent) profile).Runs
        start alone ∧
        Together threads maxSlabs slabsSize basePtr alone engine memory := by
  rcases together_start apart starts with ⟨begins, memory, together⟩
  refine run.preserves (I := fun engine => Exists fun alone => Exists fun memory =>
    (machine parser logSize threads maxSlabs slabsSize basePtr (2 ^ exponent) profile).Runs
      start alone ∧
      Together threads maxSlabs slabsSize basePtr alone engine memory) ?_
        ⟨start, memory, .refl, together⟩
  rintro before action after ⟨alone, memory, earlier, together⟩ _ moves
  change before.stepTogether parser action = some after at moves
  rw [together.same, stepTogether_withMemory] at moves
  rcases Option.map_eq_some_iff.mp moves with ⟨next, moved, rfl⟩
  have reached := (Machine.ReachableUnder.start begins).continue earlier
  exact ⟨next, _, earlier.tail ⟨action, trivial, moved⟩,
    together.advance some_slab region apart reached moved⟩

/-- Every queue has its memory for itself: the engine in one address space has
the runs of the engine whose queues are apart, and in every section it has the
contents that are there. -/
structure KeepsSections (parser : ParserFunc) (logSize : SizeT) (threads : Nat)
    (maxSlabs slabsSize : SizeT) (basePtr : Nat -> Nat) (capacity : Nat) (profile : OverflowProfile)
    (start : Engine) : Prop where
  apart : forall engine,
    (togetherMachine parser logSize threads maxSlabs slabsSize basePtr capacity profile).Runs
      start engine ->
      Exists fun alone => Exists fun memory =>
        (machine parser logSize threads maxSlabs slabsSize basePtr capacity profile).Runs
          start alone ∧
          engine = alone.withMemory memory ∧
            forall index address, basePtr index ≤ address ->
              address < basePtr index + Worker.sectionBytes maxSlabs slabsSize ->
                memory address = (alone.workers index).memory address
  together : forall alone,
    (machine parser logSize threads maxSlabs slabsSize basePtr capacity profile).Runs start alone ->
      Exists fun memory =>
        (togetherMachine parser logSize threads maxSlabs slabsSize basePtr capacity profile).Runs
          start
          (alone.withMemory memory)

theorem one_address_space (some_slab : maxSlabs ≠ 0)
    (region : (slabsSize * 1024 * 1024).toNat * maxSlabs.toNat < 2 ^ 63)
    (apart : ViewsApart basePtr maxSlabs slabsSize) {start : Engine}
    (starts : (togetherMachine parser logSize threads maxSlabs slabsSize basePtr
      (2 ^ exponent) profile).initial
      start) :
    KeepsSections parser logSize threads maxSlabs slabsSize basePtr
      (2 ^ exponent) profile start := by
  constructor
  · intro engine run
    rcases together_of_runs some_slab region apart starts run with
      ⟨alone, memory, earlier, together⟩
    exact ⟨alone, memory, earlier, together.same, together.sections⟩
  · intro alone run
    rcases together_start apart starts with ⟨_, memory, together⟩
    refine run.preserves (I := fun alone => Exists fun memory =>
      (togetherMachine parser logSize threads maxSlabs slabsSize basePtr
        (2 ^ exponent) profile).Runs start
        (alone.withMemory memory)) ?_ ⟨memory, ?_⟩
    · rintro before action after ⟨memory, earlier⟩ _ moved
      have moves := before.stepTogether_withMemory parser action memory
      rw [show before.step parser action = some after from moved, Option.map_some] at moves
      exact ⟨_, earlier.tail ⟨action, trivial, moves⟩⟩
    · rw [← together.same]
      exact .refl

end Runs

end Engine

/-- Two default queues with a section each. -/
def twoSections : Nat -> Nat :=
  fun index => 0x10000 + index * 0x1000000

theorem twoSections_apart : ViewsApart twoSections 10 1 := by
  intro left right differs
  rw [Memory.Apart, show Worker.sectionBytes 10 1 = 10485952 from rfl, twoSections, twoSections]
  omega

def twoSectionsEngine : Engine :=
  (Engine.launch ((LogServer.create 1).start (List.range 2)) fun index =>
    { defaultWorker with
      records :=
        RecordSystem.start defaultQueue {}
          ((SlabPool.create 10 1).initializeSharedMemory (twoSections index))
          (fun _ => 0) }).withMemory (Engine.constructed 10 1 twoSections 2 (fun _ => 0))

theorem twoSectionsEngine_initial :
    (Engine.togetherMachine .parseAndPush 1 2 10 1 twoSections (2 ^ 20) .dropAll).initial
      twoSectionsEngine :=
  ⟨_, _,
    ⟨_, fun _ => ⟨fun _ => SessionTrace.oneMebibyte_initial, rfl, _, _, _, defaultQueue_fresh, rfl⟩,
      rfl⟩, rfl⟩

theorem one_address_space_twoSections :
    Engine.KeepsSections .parseAndPush 1 2 10 1 twoSections (2 ^ 20) .dropAll twoSectionsEngine :=
  Engine.one_address_space (by decide) (by decide) twoSections_apart twoSectionsEngine_initial

end Pipeline
end VortexEngine
