import VortexEngine.Core.QueueCalls
import VortexEngine.Pipeline.RecordSystem

open VortexEngine.Foundations VortexEngine.Core VortexEngine.Network

namespace VortexEngine
namespace Pipeline

/-!
# Records that nobody disturbs

When the consuming thread stands still, a record that its parser accepts goes
all the way into a queue with room, and its bytes into the region handed out
for it.  When the producing thread stands still, a pop returns the oldest entry
and leaves the pool and the memory alone.
-/

namespace RecordSystem

variable {parser : ParserFunc} {maxSlabs slabsSize : SizeT} {basePtr capacity exponent : Nat}
variable {profile : OverflowProfile} {system : RecordSystem}

/-- No parser call is in progress, and the running queue has the given entries. -/
structure Quiet (exponent : Nat) (entries : List TaggedEntry) (consumer : PopPoint TaggedEntry)
    (system : RecordSystem) : Prop where
  returned : Exists fun verdict => system.point = .returned verdict
  queue : system.queue.Holds exponent entries consumer

theorem runs_step {before after : RecordSystem} {action : RecordAction}
    (admitted : WithinStringView before action)
    (moves : before.step parser action = some after) :
    (machine parser maxSlabs slabsSize basePtr capacity profile).RunsUnder WithinStringView
      before after :=
  Relation.ReflTransGen.single ⟨action, admitted, moves⟩

/-- A step of `push` is a step of the parser that called it. -/
theorem produce_pushing {record : StoredRecord} {queue : QueueSystem TaggedEntry}
    (pushes : system.point = .pushing record) (moves : system.queue.step .producer = some queue) :
    system.produce = some { system with queue := queue } := by
  rw [produce]
  simp only [pushes]
  split
  · rename_i idle
    change (pushStep _ _ system.queue.producer).map _ = _ at moves
    rw [idle] at moves
    cases moves
  · rw [moves, ← pushes]
    rfl

theorem runs_producer {record : StoredRecord} {queue : QueueSystem TaggedEntry}
    (pushes : system.point = .pushing record)
    (run : (queueMachine TaggedEntry capacity profile).RunsUnder QueueSystem.onlyProducer
      system.queue queue) :
    (machine parser maxSlabs slabsSize basePtr capacity profile).RunsUnder WithinStringView system
      { system with queue := queue } := by
  induction run with
  | refl => exact Relation.ReflTransGen.refl
  | tail _ last ih =>
      rcases last with ⟨action, rfl, moves⟩
      exact ih.tail
        ⟨.producer, trivial, @produce_pushing { system with queue := _ } record _ pushes moves⟩

theorem runs_consumer {queue : QueueSystem TaggedEntry}
    (run : (queueMachine TaggedEntry capacity profile).RunsUnder QueueSystem.onlyConsumer
      system.queue queue) :
    (machine parser maxSlabs slabsSize basePtr capacity profile).RunsUnder WithinStringView system
      { system with queue := queue } := by
  induction run with
  | refl => exact Relation.ReflTransGen.refl
  | tail _ last ih =>
      rcases last with ⟨action, rfl, moves⟩
      refine ih.tail ⟨.consumer, trivial, ?_⟩
      change (QueueSystem.step _ .consumer).map _ = _
      rw [show QueueSystem.step _ .consumer = _ from moves]
      rfl

theorem publishes {record : StoredRecord} {entries : List TaggedEntry}
    {consumer : PopPoint TaggedEntry} (written : system.point = .written record)
    (holds : system.queue.Holds exponent entries consumer)
    (room : entries.length ≠ 2 ^ exponent - 1) :
    Exists fun after : RecordSystem =>
      (machine parser maxSlabs slabsSize basePtr capacity profile).RunsUnder WithinStringView
        system after ∧
        after.slabPool = system.slabPool ∧ after.memory = system.memory ∧
          Quiet exponent (entries ++ [record.tagged]) consumer after := by
  rcases @QueueSystem.Holds.push_call _ _ exponent capacity profile _ _ _ holds room
      record.tagged with
    ⟨queue, ⟨⟨entered, called, run⟩, rests⟩, done⟩
  have begins : system.produce =
      some { system with queue := entered, point := .pushing record } := by
    rw [produce]
    simp only [written, called]
    rfl
  have first :=
    @runs_step parser maxSlabs slabsSize basePtr capacity profile _ _ .producer trivial begins
  have second := @runs_producer parser maxSlabs slabsSize basePtr capacity profile
    { system with queue := entered, point := .pushing record } record queue rfl run
  have returns : step parser { system with queue := queue, point := .pushing record } .producer =
      some { system with queue := queue, point := .returned none } := by
    rw [step, produce]
    simp only [rests]
  have last :=
    @runs_step parser maxSlabs slabsSize basePtr capacity profile _ _ .producer trivial returns
  exact ⟨_, (first.trans second).trans last, rfl, rfl, ⟨none, rfl⟩, done⟩

/-- An accepted record is written and published. -/
theorem Quiet.stores {entries : List TaggedEntry} {consumer : PopPoint TaggedEntry}
    (quiet : Quiet exponent entries consumer system) (room : entries.length ≠ 2 ^ exponent - 1)
    (source : Nat) {clock : UInt64T} {rawData : StringView} {fields : RecordFields}
    {slabPool : SlabPool} {slab : Slab} (short : rawData.bytes.length < 2 ^ 63)
    (parsed : parser.fields clock rawData = some (.ok fields))
    (taken : system.slabPool.getNextSlab fields.message = some (slabPool, slab)) :
    Exists fun record : StoredRecord => Exists fun after : RecordSystem =>
      (machine parser maxSlabs slabsSize basePtr capacity profile).RunsUnder WithinStringView
        system after ∧
        record.fields = fields ∧ record.slab = slab ∧ after.slabPool = slabPool ∧
          after.memory = record.writeMessage (record.writeHeader system.memory) ∧
            Quiet exponent (entries ++ [record.tagged]) consumer after := by
  rcases quiet with ⟨⟨verdict, returned⟩, holds⟩
  have parses : system.step parser (.record source clock rawData) =
      some (system.allocated source clock rawData fields slabPool slab) := by
    simp only [step, returned, parsed, Option.map_some, parse, taken]
  have allocates := @runs_step parser maxSlabs slabsSize basePtr capacity profile system _ _
    (show WithinStringView system (.record source clock rawData) from short) parses
  have writes := (allocates.tail ⟨.producer, trivial, rfl⟩).tail ⟨.producer, trivial, rfl⟩
  let record := system.place source fields slab
  have reached : Exists fun middle : RecordSystem =>
      (machine parser maxSlabs slabsSize basePtr capacity profile).RunsUnder WithinStringView
        system middle ∧
        middle.point = .written record ∧ middle.queue = system.queue ∧ middle.slabPool = slabPool ∧
          middle.memory = record.writeMessage (record.writeHeader system.memory) :=
    ⟨_, writes, rfl, rfl, rfl, rfl⟩
  rcases reached with ⟨middle, first, written, same, pool, memory⟩
  rcases publishes written (same ▸ holds) room with ⟨after, last, samePool, sameMemory, done⟩
  exact ⟨record, after, first.trans last, rfl, rfl, samePool.trans pool,
    sameMemory.trans memory, done⟩

theorem Quiet.pops {outLog : TaggedEntry} {entries : List TaggedEntry} {result : Option TaggedEntry}
    (quiet : Quiet exponent (outLog :: entries) (.returned result) system) :
    Exists fun after : RecordSystem =>
      (machine parser maxSlabs slabsSize basePtr capacity profile).RunsUnder WithinStringView
        system after ∧
        after.slabPool = system.slabPool ∧ after.memory = system.memory ∧
          Quiet exponent entries (.returned (some outLog)) after := by
  rcases quiet with ⟨returned, ring, running, contents, producer, reads⟩
  have called : system.step parser .pop =
      some { system with queue := { system.queue with consumer := .entered } } := by
    change (system.queue.step .pop).map _ = _
    simp only [QueueSystem.step, reads]
    rfl
  have first :=
    @runs_step parser maxSlabs slabsSize basePtr capacity profile _ _ .pop trivial called
  have held : QueueSystem.Holds exponent (outLog :: entries) .entered
      { system.queue with consumer := .entered } :=
    ⟨ring, running, contents, producer, rfl⟩
  rcases @QueueSystem.pop_returns _ _ exponent capacity profile _ _ _ held with ⟨queue, run, done⟩
  have second := @runs_consumer parser maxSlabs slabsSize basePtr capacity profile
    { system with queue := { system.queue with consumer := .entered } } queue run
  exact ⟨_, first.trans second, rfl, rfl, returned, done⟩

end RecordSystem

end Pipeline
end VortexEngine
