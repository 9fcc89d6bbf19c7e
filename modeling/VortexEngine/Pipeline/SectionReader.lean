import VortexEngine.Pipeline.AddressSpace

open VortexEngine.Foundations VortexEngine.Core VortexEngine.Network

namespace VortexEngine
namespace Pipeline

/-!
# A reader of the sections

A process that maps the section of a queue knows the address of the view and the
layout of the control block.  The block tells it how long it is, an entry of the
queue tells how far behind it the record begins, and the record's header tells
how long the message is.

Under `DropAll` a reader that goes this way finds the record of every popped
entry in the section of its queue, whatever the other queues write at the same
time, until the pool hands out the record's region again.  It does not learn
from the block how far the writer has come, because nobody stores the two
positions in it.
-/

/-- The header and the message that an entry leads to. -/
def readEntry (memory : Memory) (basePtr : Nat)
    (entry : LogEntry) : SharedLogEntryHeader × List Byte :=
  let control := SharedMemoryControl.loadAt memory basePtr
  let address := basePtr + control.headerSize.toNat + entry.relativeOffset.toNat
  let header := SharedLogEntryHeader.loadAt memory address
  (header, memory.load (address + SharedLogEntryHeader.size) header.messageLen.toNat)

namespace StoredRecord

variable {pool : SlabPool} {record : StoredRecord} {memory : Memory}

/-- A record that is placed and intact is found through its entry. -/
theorem Placed.readEntry_eq (placed : record.Placed pool) (addressable : record.Addressable pool)
    (intact : record.Intact memory) {basePtr : Nat}
    (start : pool.dataRegionStart =
      basePtr + (SharedMemoryControl.loadAt memory basePtr).headerSize.toNat) :
    readEntry memory basePtr record.entry =
      (record.fields.header record.slab, record.fields.message) := by
  have offset : record.entry.relativeOffset.toNat = record.relativeBytes pool := by
    change (record.slab.outOffset.setWidth 64).toNat = _
    have bound := record.slab.outOffset.isLt
    rw [BitVec.toNat_setWidth, Nat.mod_eq_of_lt (by omega), placed.outOffset,
      Nat.mod_eq_of_lt addressable.1]
  have address : basePtr + (SharedMemoryControl.loadAt memory basePtr).headerSize.toNat +
      record.entry.relativeOffset.toNat = record.slab.destination := by
    rw [← start, offset, placed.destination]
  have whole := intact
  rw [Intact, record.length_bytes, Memory.load_add] at whole
  rcases List.append_inj whole (by simp) with ⟨head, message⟩
  have header : SharedLogEntryHeader.loadAt memory record.slab.destination =
      record.fields.header record.slab := by
    rw [SharedLogEntryHeader.loadAt, head, SharedLogEntryHeader.decode_encode]
  have length : (record.fields.header record.slab).messageLen.toNat =
      record.fields.message.length := by
    have short := addressable.2
    rw [record.length_bytes, SharedLogEntryHeader.size] at short
    change (BitVec.ofNat 32 _).toNat = _
    rw [BitVec.toNat_ofNat, Nat.mod_eq_of_lt (by omega)]
  rw [readEntry, address, header, length, message]

end StoredRecord

namespace Engine

/-- What the section of a queue says. -/
structure Readable (maxSlabs slabsSize : SizeT) (basePtr : Nat) (profile : OverflowProfile)
    (worker : Worker) :
    Prop where
  /-- the block describes the pool, and its positions are zero -/
  block : SharedMemoryControl.loadAt worker.memory basePtr =
    (SlabPool.create maxSlabs slabsSize).control
  /-- under `DropAll`, where no slot is copied while it is written, each entry that
  has been popped leads to its record -/
  popped : profile = .dropAll -> forall tagged, tagged ∈ worker.records.queue.history.popped ->
    Exists fun record => record ∈ worker.records.stored ∧ tagged = record.tagged ∧
      (record.Addressable worker.records.slabPool -> ¬ worker.records.Overwritten record ->
        readEntry worker.memory basePtr tagged.entry =
          (record.fields.header record.slab, record.fields.message))

variable {parser : ParserFunc} {logSize : SizeT} {threads : Nat} {maxSlabs slabsSize : SizeT}
variable {basePtr : Nat -> Nat} {exponent : Nat} {profile : OverflowProfile} {engine : Engine}

/-- The section of every queue describes itself, and under `DropAll` its popped
entries lead to their records, whatever the other queues write. -/
theorem sections_are_readable (some_slab : maxSlabs ≠ 0)
    (region : (slabsSize * 1024 * 1024).toNat * maxSlabs.toNat < 2 ^ 63)
    (apart : ViewsApart basePtr maxSlabs slabsSize)
    (reached : (togetherMachine parser logSize threads maxSlabs slabsSize basePtr
      (2 ^ exponent) profile).Reachable
      engine) {index : Nat} (exists_queue : index < threads) :
    Readable maxSlabs slabsSize (basePtr index) profile (engine.workers index) := by
  rcases reached with ⟨start, starts, run⟩
  rcases together_of_runs some_slab region apart starts run with ⟨alone, memory, earlier, together⟩
  have reachedAlone :=
    (Machine.ReachableUnder.start (together_start apart starts).1).continue earlier
  have reachedWorker :
    (Worker.machine parser maxSlabs slabsSize (basePtr index) (2 ^ exponent) profile).Reachable
      (alone.workers index) := (workerOf index).reachable reachedAlone
  rcases Worker.memory_of_reachable some_slab region reachedWorker with ⟨holds, geometry⟩
  rcases Worker.region_of_geometry geometry with ⟨begins, ends⟩
  have block := together.blocks index exists_queue
  rw [together.same]
  refine ⟨block, ?_⟩
  intro _ tagged popped
  have pipeline := Worker.pipelineOf.reachable reachedWorker
  have ledger := RecordSystem.callLedger_of_reachable pipeline
  have queue := (RecordSystem.queueOf.reachable pipeline).reguard (fun _ _ _ _ => trivial)
  have begun := (QueueSystem.onlyPushed_of_reachable queue).popped tagged popped
  rcases ledger.stored_of_begun begun with ⟨record, member, rfl⟩
  refine ⟨record, member, rfl, fun addressable spared => ?_⟩
  have placed := holds.placed record (List.mem_append_left _ member)
  have inside := placed.inside_region
  rw [ends, begins] at inside
  -- the record's bytes are the same in the one memory
  have intact : record.Intact memory := by
    refine Eq.trans (List.map_congr_left ?_) (holds.intact record member spared)
    intro position below
    have short := List.mem_range.mp below
    exact together.sections index _ (by omega) (by omega)
  refine placed.readEntry_eq addressable intact ?_
  rw [block, begins]
  rfl

end Engine

/-- Two connections of the first queue are accepted, and the entry of a line is
popped. -/
theorem sections_are_readable_twoSections :
    Engine.Readable 10 1 (twoSections 0) .dropAll
      ((((Engine.togetherMachine .parseAndPush 1 2 10 1 twoSections (2 ^ 20) .dropAll).executeUnder
        Machine.anyAction
        twoSectionsEngine twoQueuesSchedule).get (by decide)).workers 0) :=
  Engine.sections_are_readable (by decide) (by decide) twoSections_apart
    (Machine.reachableUnder_of_execute twoSectionsEngine_initial (by decide)) (by decide)

end Pipeline
end VortexEngine
