import VortexEngine.Core.QueueInvariant
import VortexEngine.Network.RecordParser

open VortexEngine.Foundations VortexEngine.Core VortexEngine.Network

namespace VortexEngine
namespace Pipeline

/-!
# Records on their way to the consumer

The producing thread of a queue handles one record after the other.  It parses
the record, takes a region of the slab pool, writes the header and the message
there, and pushes an entry that refers to the region.  The consuming thread
pops while all of this goes on.  Each write to the shared memory and each
shared access of `push` and `pop` is a step of its own, and so is the copy of an
entry into its slot or out of it, as in the queue system.

An entry carries a tag through the queue, the record that it was made from.
The queue inspects only the level of an entry, so the tag changes nothing that
the queue does; it says which of two equal entries has been popped.
-/

/-! ## The parser of a session -/

/-- `CurrentParser`, which `GetBestParser` chose once for the session. -/
inductive ParserFunc
  | parseAndPush
  | parseAndPushSimd
  deriving DecidableEq, Repr

namespace ParserFunc

/-- The parser up to the point where it takes a slab. -/
def fields (parser : ParserFunc) (clock : UInt64T) (rawData : StringView) :
    Option (Except DisconnectReason RecordFields) :=
  match parser with
  | parseAndPush => some (scalarFields clock rawData.bytes)
  | parseAndPushSimd =>
      if takesScalarPath rawData then some (scalarFields clock rawData.bytes)
      else simdFields clock rawData.bytes

/-- The whole parser, as one call. -/
def call (parser : ParserFunc) (clock : UInt64T) (rawData : StringView) (state : ParserState) :
    Option ParseOutcome :=
  match parser with
  | parseAndPush => some (Network.parseAndPush clock rawData state)
  | parseAndPushSimd => Network.parseAndPushSimd clock rawData state

theorem message_length_le {parser : ParserFunc} {clock : UInt64T} {rawData : StringView}
    {fields : RecordFields} (parsed : parser.fields clock rawData = some (.ok fields)) :
    fields.message.length ≤ rawData.bytes.length := by
  have simd : forall text result, simdFields clock text = some (.ok result) ->
      result.message.length ≤ text.length := by
    intro text result accepted
    rw [simdFields] at accepted
    rcases Option.bind_eq_some_iff.mp accepted with ⟨time, _, accepted⟩
    repeat' split at accepted
    all_goals try cases accepted
    rcases Option.bind_eq_some_iff.mp accepted with ⟨level, _, accepted⟩
    repeat' split at accepted
    all_goals try cases accepted
    rcases Option.bind_eq_some_iff.mp accepted with ⟨id, _, accepted⟩
    repeat' split at accepted
    all_goals try cases accepted
    rw [List.length_drop]
    exact Nat.sub_le _ _
  cases parser with
  | parseAndPush => exact scalarFields_message_le (Option.some.inj parsed)
  | parseAndPushSimd =>
      rw [ParserFunc.fields] at parsed
      split at parsed
      · exact scalarFields_message_le (Option.some.inj parsed)
      · exact simd _ _ parsed

end ParserFunc

/-! ## Stored records -/

/-- A record that has a region: its connection, its fields, the region, the
slab and the offset of the region, and the number of slabs begun before. -/
structure StoredRecord where
  source : Nat
  fields : RecordFields
  slab : Slab
  writeIndex : SizeT
  offset : SizeT
  visit : Nat
  deriving DecidableEq, Repr

/-- A queue entry with the record it was made from. -/
structure TaggedEntry where
  entry : LogEntry
  tag : Option StoredRecord
  deriving DecidableEq, Repr

instance : Inhabited TaggedEntry where
  default := { entry := default, tag := none }

instance : Leveled TaggedEntry where
  level := fun tagged => tagged.entry.level

namespace StoredRecord

def entry (record : StoredRecord) : LogEntry :=
  record.fields.logEntry record.slab

def tagged (record : StoredRecord) : TaggedEntry :=
  { entry := record.entry, tag := some record }

/-- What the parser writes for the record. -/
def bytes (record : StoredRecord) : List Byte :=
  (record.fields.header record.slab).encode ++ record.fields.message

@[simp] theorem length_bytes (record : StoredRecord) :
    record.bytes.length = SharedLogEntryHeader.size + record.fields.message.length := by
  rw [bytes, List.length_append, SharedLogEntryHeader.length_encode]

def writeHeader (record : StoredRecord) (memory : Memory) : Memory :=
  memory.store record.slab.destination (record.fields.header record.slab).encode

def writeMessage (record : StoredRecord) (memory : Memory) : Memory :=
  memory.store (record.slab.destination + SharedLogEntryHeader.size) record.fields.message

end StoredRecord

/-- A call of the parser: the connection, the clock, the record, and whether
the call asked for a disconnect or took a region. -/
structure ParserCall where
  source : Nat
  clock : UInt64T
  rawData : StringView
  outcome : Except DisconnectReason StoredRecord

/-- The record that a call has accepted. -/
def ParserCall.accepted (call : ParserCall) : Option StoredRecord :=
  match call.outcome with
  | .error _ => none
  | .ok record => some record

/-! ## The system -/

/-- Where the producing thread stands in its parser. -/
inductive RecordPoint
  /-- no call is in progress; the last one has disconnected for the reason, if any -/
  | returned (verdict : Option DisconnectReason)
  | allocated (record : StoredRecord)
  /-- the header is written -/
  | headed (record : StoredRecord)
  /-- header and message are written -/
  | written (record : StoredRecord)
  /-- the call of `push` -/
  | pushing (record : StoredRecord)
  deriving DecidableEq, Repr

/-- The record that the parser works on. -/
def RecordPoint.current : RecordPoint -> Option StoredRecord
  | .returned _ => none
  | .allocated record | .headed record | .written record | .pushing record => some record

theorem RecordPoint.current_eq_none {point : RecordPoint} :
    point.current = none ↔ Exists fun verdict => point = .returned verdict := by
  cases point <;> simp [current]

/-- The queue with its pool and the shared memory, all parser calls, and the
records whose bytes have been written. -/
structure RecordSystem where
  queue : QueueSystem TaggedEntry
  slabPool : SlabPool
  memory : Memory
  /-- the slabs begun so far -/
  visit : Nat
  calls : List ParserCall
  stored : List StoredRecord
  point : RecordPoint

inductive RecordAction
  /-- the parser is called, at a time, with a record of a connection -/
  | record (source : Nat) (clock : UInt64T) (rawData : StringView)
  /-- the next step of the parser -/
  | producer
  | pop
  | consumer
  | setFinished

namespace RecordSystem

def start (queue : LogQueue TaggedEntry) (telemetry : Telemetry) (slabPool : SlabPool)
    (memory : Memory) :
    RecordSystem :=
  { queue := QueueSystem.start queue telemetry
    slabPool := slabPool
    memory := memory
    visit := 0
    calls := []
    stored := []
    point := .returned none }

/-- The parser disconnects and returns. -/
def refused (system : RecordSystem) (source : Nat) (clock : UInt64T) (rawData : StringView)
    (reason : DisconnectReason) : RecordSystem :=
  { system with
    calls := system.calls ++ [⟨source, clock, rawData, .error reason⟩]
    point := .returned (some reason) }

/-- The slabs begun when the message has its region. -/
def visitOf (system : RecordSystem) (message : List Byte) : Nat :=
  if system.slabPool.RollsOver message then system.visit + 1 else system.visit

/-- The record in the region that the pool hands out for it. -/
def place (system : RecordSystem) (source : Nat) (fields : RecordFields)
    (slab : Slab) : StoredRecord :=
  { source := source
    fields := fields
    slab := slab
    writeIndex := (system.slabPool.makeRoom fields.message).writeIndex
    offset := (system.slabPool.makeRoom fields.message).currentOffset
    visit := system.visitOf fields.message }

/-- The parser has its region. -/
def allocated (system : RecordSystem) (source : Nat) (clock : UInt64T) (rawData : StringView)
    (fields : RecordFields) (slabPool : SlabPool) (slab : Slab) : RecordSystem :=
  { system with
    slabPool := slabPool
    visit := system.visitOf fields.message
    calls := system.calls ++ [⟨source, clock, rawData, .ok (system.place source fields slab)⟩]
    point := .allocated (system.place source fields slab) }

/-- The parser up to its region. -/
def parse (system : RecordSystem) (source : Nat) (clock : UInt64T) (rawData : StringView) :
    Except DisconnectReason RecordFields -> RecordSystem
  | .error reason => system.refused source clock rawData reason
  | .ok fields =>
      match system.slabPool.getNextSlab fields.message with
      | none => system.refused source clock rawData .messageTooBig
      | some (slabPool, slab) => system.allocated source clock rawData fields slabPool slab

/-- The parser behind its region. -/
def produce (system : RecordSystem) : Option RecordSystem :=
  match system.point with
  | .returned _ => none
  | .allocated record =>
      some { system with memory := record.writeHeader system.memory, point := .headed record }
  | .headed record =>
      some
        { system with
          memory := record.writeMessage system.memory
          stored := system.stored ++ [record]
          point := .written record }
  | .written record =>
      (system.queue.step (.push record.tagged)).map fun queue =>
        { system with queue := queue, point := .pushing record }
  | .pushing _ =>
      match system.queue.producer with
      | .idle => some { system with point := .returned none }
      | _ => (system.queue.step .producer).map fun queue => { system with queue := queue }

def step (parser : ParserFunc) (system : RecordSystem) : RecordAction -> Option RecordSystem
  | .record source clock rawData =>
      match system.point with
      | .returned _ => (parser.fields clock rawData).map (system.parse source clock rawData)
      | _ => none
  | .producer => system.produce
  | .pop => (system.queue.step .pop).map fun queue => { system with queue := queue }
  | .consumer => (system.queue.step .consumer).map fun queue => { system with queue := queue }
  | .setFinished => (system.queue.step .setFinished).map fun queue => { system with queue := queue }

/-- A string view is not longer than any object can be. -/
def WithinStringView (_system : RecordSystem) : RecordAction -> Prop
  | .record _ _ rawData => rawData.bytes.length < 2 ^ 63
  | _ => True

instance (system : RecordSystem) : (action : RecordAction) ->
    Decidable (WithinStringView system action)
  | .record _ _ rawData => inferInstanceAs (Decidable (rawData.bytes.length < 2 ^ 63))
  | .producer | .pop | .consumer | .setFinished => inferInstanceAs (Decidable True)

/-- One producing and one consuming thread on a fresh queue with a fresh pool.
The shared memory is mapped somewhere and contains anything. -/
def machine (parser : ParserFunc) (maxSlabs slabsSize : SizeT) (basePtr capacity : Nat)
    (profile : OverflowProfile) : Machine RecordSystem RecordAction where
  initial := fun system => Exists fun queue => Exists fun telemetry => Exists fun memory =>
    queue.Fresh capacity profile ∧
      system = start queue telemetry
        ((SlabPool.create maxSlabs slabsSize).initializeSharedMemory basePtr) memory
  step := step parser

/-! ## Moves -/

/-- The actions of the other threads, on the queue. -/
inductive OnQueue : RecordAction -> QueueAction TaggedEntry -> Prop
  | pop : OnQueue .pop .pop
  | consumer : OnQueue .consumer .consumer
  | setFinished : OnQueue .setFinished .setFinished

/-- What one step can do. -/
inductive Move (parser : ParserFunc) (before : RecordSystem) : RecordAction -> RecordSystem -> Prop
  | refuse {source clock rawData verdict reason} (returned : before.point = .returned verdict)
      (refuses : parser.fields clock rawData = some (.error reason) ∨
        (reason = .messageTooBig ∧ Exists fun fields =>
          parser.fields clock rawData = some (.ok fields) ∧
          before.slabPool.getNextSlab fields.message = none)) :
      Move parser before (.record source clock rawData) (before.refused source clock rawData reason)
  | allocate {source clock rawData verdict fields slabPool slab}
      (returned : before.point = .returned verdict)
      (parsed : parser.fields clock rawData = some (.ok fields))
      (taken : before.slabPool.getNextSlab fields.message = some (slabPool, slab)) :
      Move parser before (.record source clock rawData)
        (before.allocated source clock rawData fields slabPool slab)
  | writeHeader {record} (allocated : before.point = .allocated record) :
      Move parser before .producer
        { before with memory := record.writeHeader before.memory, point := .headed record }
  | writeMessage {record} (headed : before.point = .headed record) :
      Move parser before .producer
        { before with
          memory := record.writeMessage before.memory
          stored := before.stored ++ [record]
          point := .written record }
  | call {record queue} (written : before.point = .written record)
      (moves : before.queue.step (.push record.tagged) = some queue) :
      Move parser before .producer { before with queue := queue, point := .pushing record }
  | push {record queue} (pushes : before.point = .pushing record)
      (moves : before.queue.step .producer = some queue) :
      Move parser before .producer { before with queue := queue }
  | finish {record} (pushes : before.point = .pushing record)
      (idle : before.queue.producer = .idle) :
      Move parser before .producer { before with point := .returned none }
  | other {action queueAction queue} (outside : OnQueue action queueAction)
      (moves : before.queue.step queueAction = some queue) :
      Move parser before action { before with queue := queue }

variable {parser : ParserFunc} {before after : RecordSystem}

theorem parse_move {source : Nat} {clock : UInt64T} {rawData : StringView}
    {verdict : Option DisconnectReason}
    {parsed : Except DisconnectReason RecordFields} (returned : before.point = .returned verdict)
    (result : parser.fields clock rawData = some parsed) :
    Move parser before (.record source clock rawData)
      (before.parse source clock rawData parsed) := by
  cases parsed with
  | error reason => exact .refuse returned (Or.inl result)
  | ok fields =>
      rw [parse]
      cases taken : before.slabPool.getNextSlab fields.message with
      | none => exact .refuse returned (Or.inr ⟨rfl, fields, result, taken⟩)
      | some region => exact .allocate returned result taken

theorem produce_move (moves : before.produce = some after) :
    Move parser before .producer after := by
  rw [produce] at moves
  cases point : before.point with
  | returned verdict =>
      rw [point] at moves
      cases moves
  | allocated record =>
      rw [point] at moves
      cases moves
      exact .writeHeader point
  | headed record =>
      rw [point] at moves
      cases moves
      exact .writeMessage point
  | written record =>
      rw [point] at moves
      rcases Option.map_eq_some_iff.mp moves with ⟨queue, called, rfl⟩
      exact .call point called
  | pushing record =>
      rw [point] at moves
      simp only at moves
      split at moves
      · cases moves
        exact .finish point (by assumption)
      · rcases Option.map_eq_some_iff.mp moves with ⟨queue, pushed, rfl⟩
        rw [← point]
        exact .push point pushed

theorem step_move {action : RecordAction} (moves : before.step parser action = some after) :
    Move parser before action after := by
  cases action with
  | record source clock rawData =>
      cases point : before.point <;> simp only [step, point] at moves <;> try cases moves
      rcases Option.map_eq_some_iff.mp moves with ⟨parsed, result, rfl⟩
      exact parse_move point result
  | producer => exact produce_move moves
  | pop =>
      rcases Option.map_eq_some_iff.mp moves with ⟨queue, inner, rfl⟩
      exact .other .pop inner
  | consumer =>
      rcases Option.map_eq_some_iff.mp moves with ⟨queue, inner, rfl⟩
      exact .other .consumer inner
  | setFinished =>
      cases moves
      exact .other .setFinished rfl

theorem current_step {action : RecordAction} {record : StoredRecord}
    (moves : before.step parser action = some after)
    (inside : action = .producer ∨ action = .pop ∨ action = .consumer)
    (current : after.point.current = some record) : before.point.current = some record := by
  cases step_move moves with
  | refuse | allocate => rcases inside with inside | inside | inside <;> cases inside
  | writeHeader point => rw [point]; exact current
  | writeMessage point => rw [point]; exact current
  | call point => rw [point]; exact current
  | push => exact current
  | finish => cases current
  | other => exact current

/-- The parser and the consumer leave a parser that has returned alone. -/
theorem returned_step {action : RecordAction} (moves : before.step parser action = some after)
    (inside : action = .producer ∨ action = .pop ∨ action = .consumer)
    (returned : Exists fun verdict => before.point = .returned verdict) :
    Exists fun verdict => after.point = .returned verdict := by
  apply RecordPoint.current_eq_none.mp
  apply Option.eq_none_iff_forall_ne_some.mpr
  intro record working
  have worked := current_step moves inside working
  rw [RecordPoint.current_eq_none.mpr returned] at worked
  cases worked

/-! ## Regions -/

/-- The record whose bytes are being written. -/
def inProgress (system : RecordSystem) : List StoredRecord :=
  match system.point with
  | .allocated record | .headed record => [record]
  | _ => []

/-- The records that have a region, in the order of their regions. -/
def regions (system : RecordSystem) : List StoredRecord :=
  system.stored ++ system.inProgress

/-- The regions of a system whose parser is not writing. -/
theorem regions_of_calm {system : RecordSystem} (calm : system.inProgress = []) :
    system.regions = system.stored := by
  rw [regions, calm, List.append_nil]

theorem regions_congr (stored : after.stored = before.stored)
    (progress : after.inProgress = before.inProgress) :
    after.regions = before.regions := by
  unfold regions
  rw [stored, progress]

theorem regions_allocated {source : Nat} {clock : UInt64T} {rawData : StringView}
    {verdict : Option DisconnectReason} {fields : RecordFields} {slabPool : SlabPool} {slab : Slab}
    (returned : before.point = .returned verdict) :
    (before.allocated source clock rawData fields slabPool slab).regions =
      before.regions ++ [before.place source fields slab] := by
  rw [regions_of_calm (show before.inProgress = [] by rw [inProgress, returned])]
  rfl

/-- Only an allocation changes the regions, the pool or the number of visits. -/
theorem Move.regions_eq {action : RecordAction} (move : Move parser before action after) :
    (after.regions = before.regions ∧ after.slabPool = before.slabPool ∧
      after.visit = before.visit) ∨
      Exists fun source => Exists fun clock => Exists fun rawData => Exists fun fields =>
        Exists fun slabPool => Exists fun slab => action = .record source clock rawData ∧
          parser.fields clock rawData = some (.ok fields) ∧
            before.slabPool.getNextSlab fields.message = some (slabPool, slab) ∧
              after = before.allocated source clock rawData fields slabPool slab ∧
                after.regions = before.regions ++ [before.place source fields slab] := by
  cases move with
  | refuse returned _ =>
      refine Or.inl ⟨regions_congr rfl ?_, rfl, rfl⟩
      rw [inProgress, inProgress, returned]
      rfl
  | @allocate source clock rawData verdict fields slabPool slab returned parsed taken =>
      exact Or.inr ⟨source, clock, rawData, fields, slabPool, slab, rfl, parsed, taken, rfl,
        regions_allocated returned⟩
  | writeHeader allocated =>
      refine Or.inl ⟨regions_congr rfl ?_, rfl, rfl⟩
      rw [inProgress, inProgress, allocated]
  | writeMessage headed =>
      refine Or.inl ⟨?_, rfl, rfl⟩
      rw [regions, regions, inProgress, inProgress, headed]
      exact List.append_nil _
  | call written _ =>
      refine Or.inl ⟨regions_congr rfl ?_, rfl, rfl⟩
      rw [inProgress, inProgress, written]
  | push _ _ => exact Or.inl ⟨rfl, rfl, rfl⟩
  | finish pushes _ =>
      refine Or.inl ⟨regions_congr rfl ?_, rfl, rfl⟩
      rw [inProgress, inProgress, pushes]
  | other _ _ => exact Or.inl ⟨rfl, rfl, rfl⟩

theorem Move.regions_cases {action : RecordAction} (move : Move parser before action after) :
    (after.regions = before.regions ∧ after.slabPool = before.slabPool ∧
      after.visit = before.visit) ∨
      Exists fun record => after.regions = before.regions ++ [record] ∧ record.visit = after.visit ∧
        record.writeIndex = after.slabPool.writeIndex ∧
          after.slabPool.maxSlabs = before.slabPool.maxSlabs ∧
          Exists fun message => after.visit = before.visitOf message ∧
            after.slabPool.writeIndex = (before.slabPool.makeRoom message).writeIndex := by
  rcases move.regions_eq with
    same | ⟨source, clock, rawData, fields, slabPool, slab, _, _, taken, rfl, extended⟩
  · exact Or.inl same
  · have left : slabPool.writeIndex = (before.slabPool.makeRoom fields.message).writeIndex := by
      rw [(SlabPool.getNextSlab_pool taken).2]
    exact Or.inr ⟨before.place source fields slab, extended, rfl, left.symm,
      (SlabPool.getNextSlab_geometry taken).maxSlabs, fields.message, rfl, left⟩

end RecordSystem

/-! ## The default queue -/

/-- The queue of the default configuration. -/
def defaultQueue : LogQueue TaggedEntry :=
  LogQueue.create ({} : MainConfig).normalize true 0

theorem defaultQueue_fresh : defaultQueue.Fresh (2 ^ 20) .dropAll where
  capacity := by decide
  profile := by decide
  allocated := Option.isSome_iff_ne_none.mp (by decide)
  head := by decide
  tail := by decide
  running := by decide

/-- The interleavings on the default queue, with some geometry of the pool. -/
abbrev defaultMachine (maxSlabs slabsSize : SizeT) : Machine RecordSystem RecordAction :=
  RecordSystem.machine .parseAndPush maxSlabs slabsSize 0x10000 (2 ^ 20) .dropAll

/-- The pool of that geometry. -/
def freshPool (maxSlabs slabsSize : SizeT) : SlabPool :=
  (SlabPool.create maxSlabs slabsSize).initializeSharedMemory 0x10000

theorem defaultMachine_initial {maxSlabs slabsSize : SizeT} :
    (defaultMachine maxSlabs slabsSize).initial
      (RecordSystem.start defaultQueue {} (freshPool maxSlabs slabsSize) (fun _ => 0)) :=
  ⟨defaultQueue, {}, fun _ => 0, defaultQueue_fresh, rfl⟩

end Pipeline
end VortexEngine
