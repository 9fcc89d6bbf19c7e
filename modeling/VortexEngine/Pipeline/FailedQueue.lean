import VortexEngine.Core.InertQueue
import VortexEngine.Network.RecordGrammar
import VortexEngine.Network.SharedMemory
import VortexEngine.Pipeline.RecordSystem

open VortexEngine.Foundations VortexEngine.Core VortexEngine.Network

namespace VortexEngine
namespace Pipeline

/-!
# A queue whose construction has failed

The constructor of a queue maps the shared memory of its pool and then makes
the array.  When either fails it returns, and the queue is assigned to
connections like every other one.  `push` and `pop` find nothing to do on it.
`get_next_slab` does not ask whether there is a mapping: without one it hands
out an address that is counted from zero, and the parser writes there.

So the queue itself is inert in every run, and the pool is left alone exactly
as long as no record gets past the field checks with a message that fits a slab.
-/

/-- A queue with its pool and the memory, as the constructor leaves them. -/
structure ConstructedQueue where
  /-- what `InitializeSharedMemory` has returned -/
  initialized : Bool
  queue : LogQueue TaggedEntry
  slabPool : SlabPool
  memory : Memory

namespace ConstructedQueue

/-- The constructor of `LogQueue`: first the pool and its section, then the array. -/
def create (api : SectionApi) (mainConfig : MainConfig) (index : UInt32T) (indeterminate : SizeT)
    (memory : Memory) : ConstructedQueue :=
  let slabPool := SlabPool.create mainConfig.maxSlabs mainConfig.slabsSize
  match slabPool.mapSharedMemory api index memory with
  | none =>
      { initialized := false
        queue := LogQueue.create mainConfig false indeterminate
        slabPool := slabPool
        memory := memory }
  | some (mapped, stored) =>
      { initialized := true
        queue := LogQueue.create mainConfig true indeterminate
        slabPool := mapped
        memory := stored }

/-- The queue in service. -/
def start (constructed : ConstructedQueue) (telemetry : Telemetry) : RecordSystem :=
  RecordSystem.start constructed.queue telemetry constructed.slabPool constructed.memory

theorem create_queue (api : SectionApi) (mainConfig : MainConfig) (index : UInt32T)
    (indeterminate : SizeT) (memory : Memory) :
    (create api mainConfig index indeterminate memory).queue =
      LogQueue.create mainConfig
        (create api mainConfig index indeterminate memory).initialized indeterminate := by
  unfold create
  simp only
  split <;> rfl

end ConstructedQueue

/-- What happens to a queue in service: records of its connections, and calls of
`push` by the same thread between them. -/
inductive ServiceAction
  | records (action : RecordAction)
  | push (logLine : LogEntry)
  /-- the next step of such a call -/
  | producer

namespace RecordSystem

/-- A record is parsed when no other call of the producing thread is in progress. -/
def AwaitsTurn (system : RecordSystem) : RecordAction -> Prop
  | .record _ _ _ => system.queue.producer ≠ .idle
  | _ => False

instance (system : RecordSystem) : (action : RecordAction) -> Decidable (system.AwaitsTurn action)
  | .record _ _ _ => inferInstanceAs (Decidable (_ ≠ _))
  | .producer | .pop | .consumer | .setFinished => inferInstanceAs (Decidable False)

/-- A step of the producing thread outside of the parser. -/
def direct (system : RecordSystem) (action : QueueAction TaggedEntry) : Option RecordSystem :=
  match system.point with
  | .returned _ => (system.queue.step action).map fun queue => { system with queue := queue }
  | _ => none

def serve (parser : ParserFunc) (system : RecordSystem) : ServiceAction -> Option RecordSystem
  | .records action => if system.AwaitsTurn action then none else system.step parser action
  | .push logLine => system.direct (.push { entry := logLine, tag := none })
  | .producer => system.direct .producer

/-- The queue in service, from its construction on. -/
def serviceMachine (parser : ParserFunc) (constructed : ConstructedQueue) (telemetry : Telemetry) :
    Machine RecordSystem ServiceAction where
  initial := fun system => system = constructed.start telemetry
  step := serve parser

/-- Nothing has come of whatever has been done with the queue.  The parser has a
pointer into the pool from its allocation on. -/
structure LeftAlone (start system : RecordSystem) : Prop where
  head : system.queue.queue.head = 0
  tail : system.queue.queue.tail = 0
  noSlot : ¬ system.queue.AtSlot
  noEntry : forall outLog, system.queue.consumer = .returned outLog -> outLog = none
  telemetry : system.queue.telemetry = start.queue.telemetry
  noPointer : system.slabPool.sharedMemoryBasePtr = 0 -> system.point.current = none
  noWrite : system.slabPool.sharedMemoryBasePtr = 0 -> system.memory = start.memory

/-- Without a mapping, a record is refused for one of its fields, or its message
is too long for a slab. -/
def RefusedUnmapped (parser : ParserFunc) (system : RecordSystem) : ServiceAction -> Prop
  | .records (.record _ clock rawData) =>
      system.slabPool.sharedMemoryBasePtr = 0 ->
        forall fields, parser.fields clock rawData = some (.ok fields) ->
          system.slabPool.slabSize < SlabPool.totalNeeded fields.message
  | _ => True

instance (parser : ParserFunc) (system : RecordSystem) :
    (action : ServiceAction) -> Decidable (RefusedUnmapped parser system action)
  | .records (.record _ clock rawData) =>
      match parsed : parser.fields clock rawData with
      | some (.ok fields) =>
          decidable_of_iff (system.slabPool.sharedMemoryBasePtr = 0 ->
              system.slabPool.slabSize < SlabPool.totalNeeded fields.message)
            ⟨fun long unmapped _ accepted => by
              cases parsed.symm.trans accepted; exact long unmapped,
              fun refused unmapped => refused unmapped fields parsed⟩
      | some (.error _) => isTrue fun _ _ accepted => by cases parsed.symm.trans accepted
      | none => isTrue fun _ _ accepted => by cases parsed.symm.trans accepted
  | .records .producer | .records .pop | .records .consumer | .records .setFinished =>
      isTrue trivial
  | .push _ | .producer => isTrue trivial

/-! ## One step -/

/-- What is kept along the runs in which nothing unmapped is written. -/
structure Dormant (start system : RecordSystem) : Prop where
  inert : system.queue.Inert
  telemetry : system.queue.telemetry = start.queue.telemetry
  noPointer : system.slabPool.sharedMemoryBasePtr = 0 -> system.point.current = none
  noWrite : system.slabPool.sharedMemoryBasePtr = 0 -> system.memory = start.memory

variable {parser : ParserFunc} {start before after : RecordSystem}

theorem Dormant.leftAlone (dormant : Dormant start before) : LeftAlone start before :=
  ⟨dormant.inert.head, dormant.inert.tail, dormant.inert.not_atSlot,
    fun _ => dormant.inert.returned,
    dormant.telemetry, dormant.noPointer, dormant.noWrite⟩

theorem Dormant.queue_step (dormant : Dormant start before) {action : QueueAction TaggedEntry}
    {queue : QueueSystem TaggedEntry} (moves : before.queue.step action = some queue)
    {point : RecordPoint} (current : point.current = before.point.current) :
    Dormant start { before with queue := queue, point := point } := by
  rcases dormant.inert.step moves with ⟨inert, telemetry⟩
  exact ⟨inert, telemetry.trans dormant.telemetry,
    fun unmapped => current.trans (dormant.noPointer unmapped),
    dormant.noWrite⟩

/-- A parser that works on a record writes into a mapped pool. -/
theorem Dormant.write (dormant : Dormant start before) {record : StoredRecord} {memory : Memory}
    {stored : List StoredRecord} {point : RecordPoint}
    (current : before.point.current = some record) :
    Dormant start { before with memory := memory, stored := stored, point := point } := by
  have mapped : before.slabPool.sharedMemoryBasePtr ≠ 0 := by
    intro unmapped
    cases current.symm.trans (dormant.noPointer unmapped)
  exact ⟨dormant.inert, dormant.telemetry, fun unmapped => absurd unmapped mapped,
    fun unmapped => absurd unmapped mapped⟩

/-- A record that is refused leaves everything as it is. -/
theorem Dormant.refused (dormant : Dormant start before) (source : Nat) (clock : UInt64T)
    (rawData : StringView)
    (reason : DisconnectReason) : Dormant start (before.refused source clock rawData reason) :=
  ⟨dormant.inert, dormant.telemetry, fun _ => rfl, dormant.noWrite⟩

/-- A step of the parser or of the consumer: only a record that gets a region of an
unmapped pool does any harm. -/
theorem Dormant.move (dormant : Dormant start before) {action : RecordAction}
    (move : Move parser before action after) :
    Dormant start after ∧ RefusedUnmapped parser before (.records action) ∨
      ¬ LeftAlone start after ∧ ¬ RefusedUnmapped parser before (.records action) := by
  cases move with
  | @refuse source clock rawData verdict reason returned refuses =>
      refine Or.inl ⟨dormant.refused source clock rawData reason, ?_⟩
      intro _ fields parsed
      rcases refuses with refused | ⟨_, other, accepted, untaken⟩
      · cases refused.symm.trans parsed
      · cases accepted.symm.trans parsed
        unfold SlabPool.getNextSlab at untaken
        split at untaken
        · assumption
        · cases untaken
  | @allocate source clock rawData verdict fields slabPool slab returned parsed taken =>
      have geometry := SlabPool.getNextSlab_geometry taken
      have same :
        (before.allocated source clock rawData fields slabPool slab).slabPool.sharedMemoryBasePtr =
          before.slabPool.sharedMemoryBasePtr := geometry.sharedMemoryBasePtr
      by_cases mapped : before.slabPool.sharedMemoryBasePtr = 0
      · refine Or.inr ⟨fun leftAlone => ?_, fun refused => ?_⟩
        · cases leftAlone.noPointer (same.trans mapped)
        · exact BitVec.not_lt.mpr (SlabPool.getNextSlab_pool taken).1 (refused mapped fields parsed)
      · refine Or.inl
          ⟨⟨dormant.inert, dormant.telemetry, fun unmapped => ?_, fun unmapped => ?_⟩, ?_⟩
        · exact absurd (same.symm.trans unmapped) mapped
        · exact absurd (same.symm.trans unmapped) mapped
        · exact fun unmapped => absurd unmapped mapped
  | writeHeader allocated => exact Or.inl ⟨dormant.write (by rw [allocated]; exact rfl), trivial⟩
  | writeMessage headed => exact Or.inl ⟨dormant.write (by rw [headed]; exact rfl), trivial⟩
  | call written moves => exact Or.inl ⟨dormant.queue_step moves (by rw [written]; rfl), trivial⟩
  | push pushes moves => exact Or.inl ⟨dormant.queue_step moves rfl, trivial⟩
  | finish pushes idle =>
      exact Or.inl ⟨⟨dormant.inert, dormant.telemetry, fun _ => rfl, dormant.noWrite⟩, trivial⟩
  | other outside moves => cases outside <;> exact Or.inl ⟨dormant.queue_step moves rfl, trivial⟩

theorem Dormant.direct (dormant : Dormant start before) {action : QueueAction TaggedEntry}
    (moves : before.direct action = some after) : Dormant start after := by
  unfold RecordSystem.direct at moves
  split at moves
  · rcases Option.map_eq_some_iff.mp moves with ⟨queue, inner, rfl⟩
    exact dormant.queue_step inner rfl
  · cases moves

theorem Dormant.serve (dormant : Dormant start before) {action : ServiceAction}
    (moves : before.serve parser action = some after) :
    Dormant start after ∧ RefusedUnmapped parser before action ∨
      ¬ LeftAlone start after ∧ ¬ RefusedUnmapped parser before action := by
  cases action with
  | records action =>
      unfold RecordSystem.serve at moves
      simp only at moves
      split at moves
      · cases moves
      · exact dormant.move (step_move moves)
  | push logLine => exact Or.inl ⟨dormant.direct moves, trivial⟩
  | producer => exact Or.inl ⟨dormant.direct moves, trivial⟩

/-! ## Whole runs -/

theorem dormant_start {api : SectionApi} {mainConfig : MainConfig} {index : UInt32T}
    {indeterminate : SizeT}
    {memory : Memory} {constructed : ConstructedQueue} {telemetry : Telemetry}
    (constructs : ConstructedQueue.create api mainConfig index indeterminate memory = constructed)
    (early : LogQueue.ReturnsEarly mainConfig constructed.initialized) :
    Dormant (constructed.start telemetry) (constructed.start telemetry) := by
  have queue := ConstructedQueue.create_queue api mainConfig index indeterminate memory
  rw [constructs] at queue
  have missing : constructed.queue.logArray = none := by
    rw [queue]
    exact LogQueue.create_logArray_eq_none_iff.mpr early
  have indices : constructed.queue.head = 0 ∧ constructed.queue.tail = 0 := by
    rw [queue]
    exact LogQueue.create_indices
  exact ⟨QueueSystem.inert_start missing indices.1 indices.2 telemetry, rfl, fun _ => rfl,
    fun _ => rfl⟩

/-- A queue whose constructor has returned early is left alone by every run in
which no record is accepted for an unmapped pool, and a step behind which it is
no longer left alone is the acceptance of such a record. -/
theorem failedQueue_leftAlone {api : SectionApi} {mainConfig : MainConfig} {index : UInt32T}
    {indeterminate : SizeT}
    {memory : Memory} {constructed : ConstructedQueue} {telemetry : Telemetry}
    {system : RecordSystem}
    (constructs : ConstructedQueue.create api mainConfig index indeterminate memory = constructed)
    (early : LogQueue.ReturnsEarly mainConfig constructed.initialized)
    (reached : (serviceMachine parser constructed telemetry).ReachableUnder
      (RefusedUnmapped parser) system) :
    LeftAlone (constructed.start telemetry) system ∧ forall action after,
      system.serve parser action = some after ->
      (LeftAlone (constructed.start telemetry) after ↔ RefusedUnmapped parser system action) := by
  have dormant : Dormant (constructed.start telemetry) system := by
    apply reached.invariant
    · rintro _ rfl
      exact dormant_start constructs early
    · intro before action after _ dormant refused moves
      rcases dormant.serve moves with ⟨kept, _⟩ | ⟨_, accepted⟩
      · exact kept
      · exact absurd refused accepted
  refine ⟨dormant.leftAlone, ?_⟩
  intro action after moves
  rcases dormant.serve moves with ⟨kept, refused⟩ | ⟨touched, accepted⟩
  · exact ⟨fun _ => refused, fun _ => kept.leftAlone⟩
  · exact ⟨fun leftAlone => absurd leftAlone touched, fun refused => absurd refused accepted⟩

/-! ## A section that cannot be created -/

/-- No section can be created. -/
def refusingApi : SectionApi where
  createFileMapping := fun _ _ _ => none
  mapViewOfFile := fun _ _ => none

/-- The default queue without a section, in an empty memory. -/
def unmappedQueue : ConstructedQueue :=
  ConstructedQueue.create refusingApi {} 0 0 fun _ => 0

/-- A short text is refused, an entry is pushed directly, and `pop` is called. -/
def harmlessService : List ServiceAction :=
  [.records (.record 0 1002 { data := 0, bytes := [0x68, 0x69] }), .push default, .producer,
    .records .pop, .records .consumer, .records .consumer, .records .consumer]

theorem failedQueue_leftAlone_unmapped :
    let system :=
      ((serviceMachine .parseAndPush unmappedQueue {}).executeUnder (RefusedUnmapped .parseAndPush)
      (unmappedQueue.start {}) harmlessService).get (by decide)
    LeftAlone (unmappedQueue.start {}) system ∧
      forall action after, system.serve .parseAndPush action = some after ->
        (LeftAlone (unmappedQueue.start {}) after ↔ RefusedUnmapped .parseAndPush system action) :=
  failedQueue_leftAlone rfl (by decide) (Machine.reachableUnder_of_execute rfl (by decide))

/-- A record is accepted, and its header is written. -/
def headerWritten : RecordSystem :=
  ((serviceMachine .parseAndPush unmappedQueue {}).executeUnder Machine.anyAction
    (unmappedQueue.start {})
    [.records (.record 0 1002 shortRecord), .records .producer]).get (by decide)

/-- The header goes where a control block at address zero would end. -/
theorem unmapped_header_written :
    LogQueue.ReturnsEarly {} unmappedQueue.initialized ∧
      (serviceMachine .parseAndPush unmappedQueue {}).Reachable headerWritten ∧
        headerWritten.slabPool.sharedMemoryBasePtr = 0 ∧
          headerWritten.memory 192 ≠ unmappedQueue.memory 192 ∧
          ¬ LeftAlone (unmappedQueue.start {}) headerWritten := by
  have written : headerWritten.memory 192 ≠ unmappedQueue.memory 192 := by decide
  refine ⟨by decide, Machine.reachableUnder_of_execute rfl _, rfl, written, ?_⟩
  intro leftAlone
  exact written (congrFun (leftAlone.noWrite rfl) 192)

end RecordSystem
end Pipeline
end VortexEngine
