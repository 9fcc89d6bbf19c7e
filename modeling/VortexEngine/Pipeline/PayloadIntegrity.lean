import VortexEngine.Core.QueueEntries
import VortexEngine.Pipeline.RecordCalls

open VortexEngine.Foundations VortexEngine.Core VortexEngine.Network

namespace VortexEngine
namespace Pipeline

/-!
# The bytes behind a popped entry

The pool and the queue advance independently.  The pool goes on by bytes and
slabs and begins again at a former slab without looking at the queue's tail, so
an entry that is still in the queue may refer to bytes that belong to a later
record.

What keeps the bytes of an entry is that the pool has not come back to its
slab.  The regions of one visit to a slab lie one behind the other, and
different slabs do not meet.  Therefore a later record overwrites an earlier
one only from a later visit to the same slab, for every geometry, every profile
and every interleaving.  With a power of two of slabs that takes a whole lap.
-/

namespace StoredRecord

/-- The regions of two records have no address in common. -/
def Apart (left right : StoredRecord) : Prop :=
  Memory.Apart left.slab.destination left.bytes.length right.slab.destination right.bytes.length

/-- The later record lies in the same slab, which the pool has begun again, and
its region meets that of the earlier one. -/
def Overwrites (later earlier : StoredRecord) : Prop :=
  earlier.visit < later.visit ∧ later.writeIndex = earlier.writeIndex ∧ ¬ earlier.Apart later

/-- How far behind the start of the data region the record begins. -/
def relativeBytes (pool : SlabPool) (record : StoredRecord) : Nat :=
  record.writeIndex.toNat * pool.slabSize.toNat + record.offset.toNat

/-- The record lies inside one slab of the pool, and its region says so. -/
structure Placed (pool : SlabPool) (record : StoredRecord) : Prop where
  index : record.writeIndex.toNat < pool.maxSlabs.toNat
  inside : record.offset.toNat + record.bytes.length ≤ pool.slabSize.toNat
  destination : record.slab.destination = pool.dataRegionStart + record.relativeBytes pool
  outOffset : record.slab.outOffset.toNat = record.relativeBytes pool % 2 ^ 32
  needed : (SlabPool.totalNeeded record.fields.message).toNat = record.bytes.length

/-- The two casts to 32 bits, of the offset and of the size, lose nothing. -/
def Addressable (pool : SlabPool) (record : StoredRecord) : Prop :=
  record.relativeBytes pool < 2 ^ 32 ∧ record.bytes.length < 2 ^ 32

/-- The order in which the pool hands out regions: to a later visit, or further
on in the same visit. -/
def Follows (earlier later : StoredRecord) : Prop :=
  earlier.visit < later.visit ∨
    (earlier.visit = later.visit ∧ earlier.writeIndex = later.writeIndex ∧
      earlier.offset.toNat + earlier.bytes.length ≤ later.offset.toNat)

variable {pool after : SlabPool} {earlier later record : StoredRecord}

theorem apart_of_lt (leftPlaced : earlier.Placed pool) (rightPlaced : later.Placed pool)
    (below : earlier.writeIndex.toNat < later.writeIndex.toNat) :
    earlier.slab.destination + earlier.bytes.length ≤ later.slab.destination := by
  have slabs : (earlier.writeIndex.toNat + 1) * pool.slabSize.toNat ≤
      later.writeIndex.toNat * pool.slabSize.toNat := Nat.mul_le_mul_right _ below
  have inside := leftPlaced.inside
  rw [leftPlaced.destination, rightPlaced.destination, relativeBytes, relativeBytes]
  rw [Nat.succ_mul] at slabs
  omega

/-- Regions meet only when the pool has come back to the slab. -/
theorem Follows.apart_or_overwrites (follows : earlier.Follows later)
    (leftPlaced : earlier.Placed pool)
    (rightPlaced : later.Placed pool) : earlier.Apart later ∨ later.Overwrites earlier := by
  rcases Nat.lt_trichotomy earlier.writeIndex.toNat later.writeIndex.toNat with below | same | above
  · exact Or.inl (Or.inl (apart_of_lt leftPlaced rightPlaced below))
  · rcases follows with laterVisit | ⟨_, _, behind⟩
    · by_cases apart : earlier.Apart later
      · exact Or.inl apart
      · exact Or.inr ⟨laterVisit, (BitVec.eq_of_toNat_eq same).symm, apart⟩
    · refine Or.inl (Or.inl ?_)
      rw [leftPlaced.destination, rightPlaced.destination, relativeBytes, relativeBytes, same]
      omega
  · exact Or.inl (Or.inr (apart_of_lt rightPlaced leftPlaced above))

/-- Only the constant parts of the pool say where a record lies. -/
theorem Placed.of_sameGeometry (placed : record.Placed pool) (geometry : pool.SameGeometry after) :
    record.Placed after := by
  have relative : record.relativeBytes after = record.relativeBytes pool := by
    rw [relativeBytes, relativeBytes, geometry.slabSize]
  refine ⟨?_, ?_, ?_, ?_, placed.needed⟩
  · rw [geometry.maxSlabs]
    exact placed.index
  · rw [geometry.slabSize]
    exact placed.inside
  · rw [relative, SlabPool.dataRegionStart, geometry.sharedMemoryBasePtr]
    exact placed.destination
  · rw [relative]
    exact placed.outOffset

/-- An addressable record is found through its queue entry. -/
theorem Placed.load_eq (placed : record.Placed pool) (addressable : record.Addressable pool)
    (memory : Memory) :
    memory.load (pool.dataRegionStart + record.entry.relativeOffset.toNat)
      record.entry.messageLenght.toNat =
      memory.load record.slab.destination record.bytes.length := by
  have offset : record.entry.relativeOffset.toNat = record.relativeBytes pool := by
    change (record.slab.outOffset.setWidth 64).toNat = _
    have bound := record.slab.outOffset.isLt
    rw [BitVec.toNat_setWidth, Nat.mod_eq_of_lt (by omega), placed.outOffset,
      Nat.mod_eq_of_lt addressable.1]
  have length : record.entry.messageLenght.toNat = record.bytes.length := by
    change ((SlabPool.totalNeeded record.fields.message).setWidth 32).toNat = _
    rw [BitVec.toNat_setWidth, placed.needed, Nat.mod_eq_of_lt addressable.2]
  rw [offset, length, placed.destination]

/-- The header of a record in another region leaves the bytes as they were. -/
theorem Apart.load_writeHeader (apart : earlier.Apart later) (memory : Memory) :
    (later.writeHeader memory).load earlier.slab.destination earlier.bytes.length =
      memory.load earlier.slab.destination earlier.bytes.length := by
  apply Memory.load_store_apart
  rw [Apart, later.length_bytes] at apart
  rw [SharedLogEntryHeader.length_encode]
  rcases apart with before | behind
  · exact Or.inl before
  · exact Or.inr (by omega)

theorem Apart.load_writeMessage (apart : earlier.Apart later) (memory : Memory) :
    (later.writeMessage memory).load earlier.slab.destination earlier.bytes.length =
      memory.load earlier.slab.destination earlier.bytes.length := by
  apply Memory.load_store_apart
  rw [Apart, later.length_bytes] at apart
  rcases apart with before | behind
  · exact Or.inl (by omega)
  · exact Or.inr (by omega)

/-- The header stands in front of the region. -/
def HeaderWritten (memory : Memory) (record : StoredRecord) : Prop :=
  memory.load record.slab.destination SharedLogEntryHeader.size =
    (record.fields.header record.slab).encode

/-- The bytes of a record are in its region. -/
def Intact (memory : Memory) (record : StoredRecord) : Prop :=
  memory.load record.slab.destination record.bytes.length = record.bytes

theorem headerWritten_writeHeader (record : StoredRecord) (memory : Memory) :
    record.HeaderWritten (record.writeHeader memory) := by
  have loaded := memory.load_store record.slab.destination (record.fields.header record.slab).encode
  rw [SharedLogEntryHeader.length_encode] at loaded
  exact loaded

/-- Both writes together leave the bytes of the record. -/
theorem HeaderWritten.intact {memory : Memory} (header : record.HeaderWritten memory) :
    record.Intact (record.writeMessage memory) := by
  rw [Intact, record.length_bytes, Memory.load_add, writeMessage, Memory.load_store,
    Memory.load_store_apart (Or.inl (Nat.le_refl _)), header]
  rfl

end StoredRecord

open StoredRecord

namespace RecordSystem

/-! ## The invariant -/

/-- The record's region has been handed out again. -/
def Overwritten (system : RecordSystem) (record : StoredRecord) : Prop :=
  Exists fun later => later ∈ system.regions ∧ later.Overwrites record

/-- The tagged entry of a record that has been written. -/
def Refers (stored : List StoredRecord) (tagged : TaggedEntry) : Prop :=
  Exists fun record => record ∈ stored ∧ tagged = record.tagged

/-- The bytes that the present point vouches for. -/
def PointKnows (system : RecordSystem) : RecordPoint -> Prop
  | .headed record => record.HeaderWritten system.memory
  | .written record => record ∈ system.stored
  | _ => True

/-- The pool, its regions in order, and the bytes of the written records. -/
structure MemoryInvariant (exponent : Nat) (system : RecordSystem) : Prop where
  pool : system.slabPool.Sound
  placed : forall record, record ∈ system.regions -> record.Placed system.slabPool
  ordered : system.regions.Pairwise Follows
  latest : forall record, record ∈ system.regions -> record.visit ≤ system.visit ∧
    (record.visit = system.visit -> record.writeIndex = system.slabPool.writeIndex ∧
      record.offset.toNat + record.bytes.length ≤ system.slabPool.currentOffset.toNat)
  intact : forall record, record ∈ system.stored -> ¬ system.Overwritten record ->
    record.Intact system.memory
  point : system.PointKnows system.point
  queue : system.queue.CarriesOnly (Refers system.stored) exponent

variable {parser : ParserFunc} {exponent : Nat} {before after : RecordSystem}

/-- A record that the parser is writing lies behind all others. -/
theorem MemoryInvariant.apart_of_writing {system : RecordSystem}
    (holds : MemoryInvariant exponent system)
    {writing : StoredRecord} (progress : system.inProgress = [writing]) {record : StoredRecord}
    (member : record ∈ system.stored)
    (spared : ¬ system.Overwritten record) : record.Apart writing := by
  have ordered := holds.ordered
  have last : writing ∈ system.regions :=
    List.mem_append_right _ (progress ▸ List.mem_singleton_self writing)
  rw [regions, progress] at ordered
  have follows :=
    (List.pairwise_append.mp ordered).2.2 record member writing (List.mem_singleton_self writing)
  exact (follows.apart_or_overwrites (holds.placed record (List.mem_append_left _ member))
    (holds.placed writing last)).resolve_right
      (fun overwrites => spared ⟨writing, last, overwrites⟩)

theorem MemoryInvariant.follows_place (holds : MemoryInvariant exponent before) {source : Nat}
    {fields : RecordFields} {slab : Slab} {record : StoredRecord}
    (member : record ∈ before.regions) :
    record.Follows (before.place source fields slab) := by
  rcases holds.latest record member with ⟨earlier, behind⟩
  rw [Follows]
  change record.visit < before.visitOf fields.message ∨
    (record.visit = before.visitOf fields.message ∧
    record.writeIndex = (before.slabPool.makeRoom fields.message).writeIndex ∧
      record.offset.toNat + record.bytes.length ≤
        (before.slabPool.makeRoom fields.message).currentOffset.toNat)
  rw [visitOf, SlabPool.makeRoom]
  split
  · exact Or.inl (Nat.lt_succ_of_le earlier)
  · rcases Nat.lt_or_eq_of_le earlier with less | same
    · exact Or.inl less
    · exact Or.inr ⟨same, behind same⟩

theorem placed_place {source : Nat} {fields : RecordFields} {slabPool : SlabPool} {slab : Slab}
    (hands : before.slabPool.Hands fields.message slabPool slab)
    (short : fields.message.length < 2 ^ 63) :
    (before.place source fields slab).Placed slabPool := by
  have needed := SlabPool.totalNeeded_toNat short
  have inside := hands.sound.offset
  rw [hands.offset, needed] at inside
  have relative : (before.place source fields slab).relativeBytes slabPool =
      slabPool.writeIndex.toNat * before.slabPool.slabSize.toNat +
        (before.slabPool.makeRoom fields.message).currentOffset.toNat := by
    rw [relativeBytes, hands.geometry.slabSize, hands.index]
    rfl
  refine ⟨?_, ?_, ?_, ?_, ?_⟩
  · change (before.slabPool.makeRoom fields.message).writeIndex.toNat < _
    rw [← hands.index]
    exact hands.sound.index
  · rw [length_bytes]
    exact inside
  · rw [relative, SlabPool.dataRegionStart, hands.geometry.sharedMemoryBasePtr]
    exact hands.destination
  · rw [relative]
    exact hands.outOffset
  · rw [length_bytes]
    exact needed

theorem MemoryInvariant.allocate (holds : MemoryInvariant exponent before) {source : Nat}
    {clock : UInt64T}
    {rawData : StringView} {fields : RecordFields} {slabPool : SlabPool} {slab : Slab}
    (calm : before.inProgress = []) (short : fields.message.length < 2 ^ 63)
    (taken : before.slabPool.getNextSlab fields.message = some (slabPool, slab)) :
    MemoryInvariant exponent (before.allocated source clock rawData fields slabPool slab) := by
  have hands := holds.pool.getNextSlab_hands taken
  have known := regions_of_calm calm
  have extended : (before.allocated source clock rawData fields slabPool slab).regions =
      before.regions ++ [before.place source fields slab] := by
    rw [known]
    rfl
  have needed := SlabPool.totalNeeded_toNat short
  refine ⟨hands.sound, ?_, ?_, ?_, ?_, trivial, holds.queue⟩
  · rw [extended]
    intro record member
    rcases List.mem_append.mp member with earlier | last
    · exact (holds.placed record earlier).of_sameGeometry hands.geometry
    · exact List.mem_singleton.mp last ▸ placed_place hands short
  · rw [extended]
    refine List.pairwise_append.mpr ⟨holds.ordered, List.pairwise_singleton _ _, ?_⟩
    intro record member later last
    exact List.mem_singleton.mp last ▸ holds.follows_place member
  · rw [extended]
    intro record member
    change record.visit ≤ before.visitOf fields.message ∧
      (record.visit = before.visitOf fields.message ->
      record.writeIndex = slabPool.writeIndex ∧
        record.offset.toNat + record.bytes.length ≤ slabPool.currentOffset.toNat)
    rw [hands.index, hands.offset]
    rcases List.mem_append.mp member with earlier | last
    · have follows : record.Follows (before.place source fields slab) := holds.follows_place earlier
      rcases follows with less | ⟨same, index, behind⟩
      · exact ⟨Nat.le_of_lt less, fun equal => absurd equal (Nat.ne_of_lt less)⟩
      · exact ⟨Nat.le_of_eq same, fun _ => ⟨index, Nat.le_trans behind (Nat.le_add_right _ _)⟩⟩
    · rw [List.mem_singleton.mp last, length_bytes]
      exact ⟨Nat.le_refl _, fun _ => ⟨rfl, Nat.le_of_eq (by rw [needed]; rfl)⟩⟩
  · intro record member spared
    refine holds.intact record member (fun overwritten => spared ?_)
    rcases overwritten with ⟨later, found, overwrites⟩
    exact ⟨later, extended ▸ List.mem_append_left _ found, overwrites⟩

/-- A step that writes nothing and takes no region keeps the invariant. -/
theorem MemoryInvariant.goto (holds : MemoryInvariant exponent before) (calls : List ParserCall)
    (point : RecordPoint) (queue : QueueSystem TaggedEntry)
    (progress :
      ({ before with calls := calls, point := point, queue := queue } : RecordSystem).inProgress =
      before.inProgress)
    (knows : before.PointKnows point)
    (carries : queue.CarriesOnly (Refers before.stored) exponent) :
    MemoryInvariant exponent { before with calls := calls, point := point, queue := queue } := by
  have same :
    ({ before with calls := calls, point := point, queue := queue } : RecordSystem).regions =
      before.regions := by
    rw [regions, progress]
    rfl
  refine ⟨holds.pool, ?_, ?_, ?_, ?_, ?_, carries⟩
  · rw [same]
    exact holds.placed
  · rw [same]
    exact holds.ordered
  · rw [same]
    exact holds.latest
  · intro record member spared
    rw [Overwritten, same] at spared
    exact holds.intact record member spared
  · change PointKnows _ point
    cases point <;> exact knows

theorem MemoryInvariant.writeHeader (holds : MemoryInvariant exponent before)
    {record : StoredRecord} (allocated : before.point = .allocated record) :
    MemoryInvariant exponent
      { before with memory := record.writeHeader before.memory, point := .headed record } := by
  have progress : before.inProgress = [record] := by rw [inProgress, allocated]
  have same : ({ before with memory := record.writeHeader before.memory, point := .headed record } :
      RecordSystem).regions = before.regions := by
    rw [regions, regions, progress]
    rfl
  refine ⟨holds.pool, ?_, ?_, ?_, ?_, record.headerWritten_writeHeader _, holds.queue⟩
  · rw [same]
    exact holds.placed
  · rw [same]
    exact holds.ordered
  · rw [same]
    exact holds.latest
  · intro other member spared
    rw [Overwritten, same] at spared
    have kept := (holds.apart_of_writing progress member spared).load_writeHeader before.memory
    exact kept.trans (holds.intact other member spared)

theorem MemoryInvariant.writeMessage (holds : MemoryInvariant exponent before)
    {record : StoredRecord} (headed : before.point = .headed record) :
    MemoryInvariant exponent
      { before with
        memory := record.writeMessage before.memory
        stored := before.stored ++ [record]
        point := .written record } := by
  have progress : before.inProgress = [record] := by rw [inProgress, headed]
  have header := holds.point
  rw [headed] at header
  have same : ({ before with
      memory := record.writeMessage before.memory
      stored := before.stored ++ [record]
      point := .written record } : RecordSystem).regions = before.regions := by
    rw [regions, regions, progress]
    exact List.append_nil _
  refine ⟨holds.pool, ?_, ?_, ?_, ?_, List.mem_append_right _ (List.mem_singleton_self record), ?_⟩
  · rw [same]
    exact holds.placed
  · rw [same]
    exact holds.ordered
  · rw [same]
    exact holds.latest
  · intro other member spared
    rw [Overwritten, same] at spared
    rcases List.mem_append.mp member with earlier | last
    · have kept := (holds.apart_of_writing progress earlier spared).load_writeMessage before.memory
      exact kept.trans (holds.intact other earlier spared)
    · rw [List.mem_singleton.mp last]
      exact HeaderWritten.intact header
  · refine holds.queue.weaken (fun tagged refers => ?_)
    rcases refers with ⟨referred, member, equal⟩
    exact ⟨referred, List.mem_append_left _ member, equal⟩

theorem MemoryInvariant.step (holds : MemoryInvariant exponent before) {action : RecordAction}
    (admitted : WithinStringView before action) (moves : before.step parser action = some after) :
    MemoryInvariant exponent after := by
  have knows := holds.point
  cases step_move moves with
  | refuse returned _ =>
      exact holds.goto _ (.returned _) before.queue
        (by rw [inProgress, inProgress, returned]) trivial holds.queue
  | allocate returned parsed taken =>
      have short := ParserFunc.message_length_le parsed
      have bound : _ < 2 ^ 63 := admitted
      exact holds.allocate (by rw [inProgress, returned]) (Nat.lt_of_le_of_lt short bound) taken
  | writeHeader allocated => exact holds.writeHeader allocated
  | writeMessage headed => exact holds.writeMessage headed
  | @call record queue written called =>
      rw [written] at knows
      refine holds.goto _ (.pushing record) queue
        (by rw [inProgress, inProgress, written]) trivial ?_
      exact holds.queue.step
        (show QueueSystem.Admits _ (.push record.tagged) from ⟨record, knows, rfl⟩) called
  | @push record queue pushes pushed =>
      exact holds.goto _ before.point queue rfl knows
        (holds.queue.step (show QueueSystem.Admits _ .producer from trivial) pushed)
  | finish pushes _ =>
      exact holds.goto _ (.returned none) before.queue
        (by rw [inProgress, inProgress, pushes]) trivial holds.queue
  | @other _ queueAction queue outside moved =>
      have admits : QueueSystem.Admits (Refers before.stored) queueAction := by
        cases outside <;> trivial
      exact holds.goto _ before.point queue rfl knows (holds.queue.step admits moved)

theorem memoryInvariant_start {maxSlabs slabsSize : SizeT} {basePtr : Nat}
    {profile : OverflowProfile}
    {queue : LogQueue TaggedEntry} {telemetry : Telemetry} {memory : Memory}
    (some_slab : maxSlabs ≠ 0) (region : (slabsSize * 1024 * 1024).toNat * maxSlabs.toNat < 2 ^ 63)
    (fresh : queue.Fresh (2 ^ exponent) profile) :
    MemoryInvariant exponent
      (start queue telemetry ((SlabPool.create maxSlabs slabsSize).initializeSharedMemory basePtr)
        memory) := by
  have positive : 0 < maxSlabs.toNat :=
    Nat.pos_of_ne_zero (fun zero => some_slab (BitVec.eq_of_toNat_eq zero))
  refine ⟨⟨region, positive, Nat.zero_le _⟩, ?_, List.Pairwise.nil, ?_, ?_, trivial,
    QueueSystem.carriesOnly_start fresh⟩
  · exact fun record member => False.elim (List.not_mem_nil member)
  · exact fun record member => False.elim (List.not_mem_nil member)
  · exact fun record member => False.elim (List.not_mem_nil member)

/-! ## Laps -/

/-- With a power of two of slabs the index counts the visits, modulo the slabs. -/
structure Rotates (lap : Nat) (system : RecordSystem) : Prop where
  slabs : system.slabPool.maxSlabs.toNat = 2 ^ lap
  index : system.slabPool.writeIndex.toNat = system.visit % 2 ^ lap
  records : forall record, record ∈ system.regions ->
    record.writeIndex.toNat = record.visit % 2 ^ lap

theorem Rotates.step {lap : Nat} (holds : Rotates lap before) {action : RecordAction}
    (moves : before.step parser action = some after) : Rotates lap after := by
  rcases (step_move moves).regions_cases with ⟨regions, pool, visit⟩ |
    ⟨record, extended, recordVisit, recordIndex, maxSlabs, message, visit, index⟩
  · refine ⟨pool ▸ holds.slabs, ?_, ?_⟩
    · rw [pool, visit]
      exact holds.index
    · rw [regions]
      exact holds.records
  · have slabs : after.slabPool.maxSlabs.toNat = 2 ^ lap := maxSlabs ▸ holds.slabs
    have advanced : after.slabPool.writeIndex.toNat = after.visit % 2 ^ lap := by
      rw [index, visit, SlabPool.makeRoom, visitOf]
      split
      · have mask : (before.slabPool.maxSlabs - 1).toNat + 1 = 2 ^ lap := by
          have positive := Nat.two_pow_pos lap
          have bound := before.slabPool.maxSlabs.isLt
          rw [BitVec.toNat_sub, show (1 : SizeT).toNat = 1 from rfl, ← holds.slabs]
          rw [← holds.slabs] at positive
          omega
        rw [toNat_succ_and_mask mask, holds.index, Nat.mod_add_mod]
      · exact holds.index
    refine ⟨slabs, advanced, ?_⟩
    rw [extended]
    intro other member
    rcases List.mem_append.mp member with earlier | last
    · exact holds.records other earlier
    · rw [List.mem_singleton.mp last, recordIndex, recordVisit]
      exact advanced

/-- The next visit to a slab is a whole lap later. -/
theorem Rotates.lap_le {lap : Nat} {system : RecordSystem} (holds : Rotates lap system)
    {earlier later : StoredRecord} (earlierMember : earlier ∈ system.regions)
    (laterMember : later ∈ system.regions) (overwrites : later.Overwrites earlier) :
    earlier.visit + 2 ^ lap ≤ later.visit := by
  rcases overwrites with ⟨less, same, _⟩
  have residues : later.visit % 2 ^ lap = earlier.visit % 2 ^ lap := by
    rw [← holds.records later laterMember, ← holds.records earlier earlierMember, same]
  have divides : 2 ^ lap ∣ later.visit - earlier.visit :=
    (Nat.modEq_iff_dvd' (Nat.le_of_lt less)).mp residues.symm
  have whole := Nat.le_of_dvd (by omega) divides
  omega

end RecordSystem

/-! ## Popped entries -/

/-- The bytes that a queue entry leads to. -/
def RecordSystem.bytesOf (system : RecordSystem) (entry : LogEntry) : List Byte :=
  system.memory.load (system.slabPool.dataRegionStart + entry.relativeOffset.toNat)
    entry.messageLenght.toNat

/-- What a reachable state promises about the bytes of its records. -/
structure RecordSystem.KeepsPayloads (system : RecordSystem) : Prop where
  /-- a popped entry belongs to a record, and leads to the record's bytes as long
  as its region has not been handed out again -/
  popped : forall tagged, system.queue.consumer = .returned (some tagged) ->
    Exists fun record => record ∈ system.stored ∧ tagged = record.tagged ∧
      (record.Addressable system.slabPool -> ¬ system.Overwritten record ->
        system.bytesOf tagged.entry = record.bytes)
  /-- a region meets an earlier one only from a later visit to its slab -/
  regions : system.regions.Pairwise fun earlier later => earlier.Apart later ∨
    later.Overwrites earlier
  /-- and with a power of two of slabs only a whole lap later -/
  laps : forall lap, system.slabPool.maxSlabs.toNat = 2 ^ lap ->
    forall earlier later, earlier ∈ system.regions -> later ∈ system.regions ->
      later.Overwrites earlier ->
      earlier.visit + 2 ^ lap ≤ later.visit

section Runs

variable {parser : ParserFunc} {maxSlabs slabsSize : SizeT} {basePtr exponent : Nat}
    {profile : OverflowProfile}

theorem RecordSystem.memoryInvariant_of_reachable (some_slab : maxSlabs ≠ 0)
    (region : (slabsSize * 1024 * 1024).toNat * maxSlabs.toNat < 2 ^ 63) {system : RecordSystem}
    (reached : (machine parser maxSlabs slabsSize basePtr (2 ^ exponent) profile).ReachableUnder
      WithinStringView system) : system.MemoryInvariant exponent := by
  refine reached.invariant ?_ (fun _ _ _ _ holds admitted moves => holds.step admitted moves)
  rintro _ ⟨queue, telemetry, memory, fresh, rfl⟩
  exact memoryInvariant_start some_slab region fresh

/-- No step changes the number of slabs, and with a power of two of them the
index rotates. -/
theorem RecordSystem.rotates_of_reachable {lap : Nat} (slabs : maxSlabs.toNat = 2 ^ lap)
    {system : RecordSystem}
    (reached : (machine parser maxSlabs slabsSize basePtr (2 ^ exponent) profile).ReachableUnder
      WithinStringView system) : system.Rotates lap := by
  refine reached.invariant ?_ (fun _ _ _ _ holds _ moves => holds.step moves)
  rintro _ ⟨queue, telemetry, memory, fresh, rfl⟩
  exact ⟨slabs, (Nat.zero_mod _).symm, fun record member => False.elim (List.not_mem_nil member)⟩

theorem RecordSystem.maxSlabs_of_reachable {system : RecordSystem}
    (reached : (machine parser maxSlabs slabsSize basePtr (2 ^ exponent) profile).ReachableUnder
      WithinStringView system) : system.slabPool.maxSlabs = maxSlabs := by
  refine reached.invariant (I := fun system => system.slabPool.maxSlabs = maxSlabs) ?_ ?_
  · rintro _ ⟨queue, telemetry, memory, fresh, rfl⟩
    rfl
  · intro before action after _ same _ moves
    rcases (step_move moves).regions_cases with ⟨_, pool, _⟩ | ⟨_, _, _, _, kept, _⟩
    · exact pool ▸ same
    · exact kept.trans same

/-- For every geometry, every profile and every interleaving, a popped entry
leads to the bytes of its record unless the pool has handed out the record's
region again. -/
theorem payloads_kept (some_slab : maxSlabs ≠ 0)
    (region : (slabsSize * 1024 * 1024).toNat * maxSlabs.toNat < 2 ^ 63) {system : RecordSystem}
    (reached :
      (RecordSystem.machine parser maxSlabs slabsSize basePtr (2 ^ exponent) profile).ReachableUnder
      RecordSystem.WithinStringView system) : system.KeepsPayloads := by
  have holds := RecordSystem.memoryInvariant_of_reachable some_slab region reached
  refine ⟨?_, ?_, ?_⟩
  · intro tagged returned
    have consumer := holds.queue.consumer
    rw [returned] at consumer
    rcases consumer with ⟨record, member, rfl⟩
    refine ⟨record, member, rfl, fun addressable spared => ?_⟩
    have placed := holds.placed record (List.mem_append_left _ member)
    exact (placed.load_eq addressable system.memory).trans (holds.intact record member spared)
  · refine holds.ordered.imp_of_mem ?_
    intro earlier later earlierMember laterMember follows
    exact follows.apart_or_overwrites (holds.placed earlier earlierMember)
      (holds.placed later laterMember)
  · intro lap slabs earlier later earlierMember laterMember overwrites
    rw [RecordSystem.maxSlabs_of_reachable reached] at slabs
    exact (RecordSystem.rotates_of_reachable slabs reached).lap_le earlierMember
      laterMember overwrites

end Runs

/-! ## Three large records -/

/-- A record of level one and identifier seven. -/
def recordAt (time message : List Byte) : StringView :=
  { data := 0, bytes := time ++ space :: ([0x31] ++ space :: ([0x37] ++ space :: message)) }

/-- The times 1000, 1001 and 1002 in decimal. -/
def recordTime (second : Byte) : List Byte := [0x31, 0x30, 0x30, second]

def recordFields (time : UInt64T) (message : List Byte) : RecordFields :=
  { time := time, level := 1, id := 7, message := message }

theorem fields_recordAt {second : Byte} {time : UInt64T} (message : List Byte)
    (digits : second = 0x30 ∧ time = 1000 ∨ second = 0x31 ∧ time = 1001 ∨ second = 0x32 ∧
      time = 1002) :
    ParserFunc.parseAndPush.fields 1000 (recordAt (recordTime second) message) =
      some (.ok (recordFields time message)) := by
  have level : IsNumeral 64 [0x31] := ⟨by decide, by decide, by decide⟩
  have id : IsNumeral 32 [0x37] := ⟨by decide, by decide, by decide⟩
  rcases digits with ⟨rfl, rfl⟩ | ⟨rfl, rfl⟩ | ⟨rfl, rfl⟩
  all_goals
    exact congrArg some (scalarFields_numerals message ⟨by decide, by decide, by decide⟩ level id
      (by decide) (by decide) (by decide))

/-- Both writes of a record. -/
def StoredRecord.write (record : StoredRecord) (memory : Memory) : Memory :=
  record.writeMessage (record.writeHeader memory)

/-- One record is stored and popped on the default queue and pool. -/
theorem payloads_kept_oneRecord :
    (((defaultMachine 10 1).executeUnder RecordSystem.WithinStringView
      (RecordSystem.start defaultQueue {} (freshPool 10 1) (fun _ => 0))
      (.record 0 1000 (recordAt (recordTime 0x30) [0x61]) :: List.replicate 13 .producer ++
        .pop :: List.replicate 8 .consumer)).get (by decide)).KeepsPayloads :=
  payloads_kept (by decide) (by decide)
    (Machine.reachableUnder_of_execute defaultMachine_initial (by decide))

/-- Three records with one message are stored before anything is popped. -/
theorem three_stored {maxSlabs slabsSize : SizeT} {message : List Byte}
    (short : message.length < 2 ^ 62) {pool1 pool2 pool3 : SlabPool} {slab1 slab2 slab3 : Slab}
    (taken1 : (freshPool maxSlabs slabsSize).getNextSlab message = some (pool1, slab1))
    (taken2 : pool1.getNextSlab message = some (pool2, slab2))
    (taken3 : pool2.getNextSlab message = some (pool3, slab3)) :
    Exists fun record1 : StoredRecord => Exists fun record2 : StoredRecord =>
      Exists fun record3 : StoredRecord => Exists fun system : RecordSystem =>
        (defaultMachine maxSlabs slabsSize).ReachableUnder RecordSystem.WithinStringView system ∧
          (record1.fields = recordFields 1000 message ∧ record1.slab = slab1) ∧
          (record2.fields = recordFields 1001 message ∧ record2.slab = slab2) ∧
          (record3.fields = recordFields 1002 message ∧ record3.slab = slab3) ∧
          system.slabPool = pool3 ∧
          system.memory = record3.write (record2.write (record1.write (fun _ => 0))) ∧
          system.Quiet 20 [record1.tagged, record2.tagged, record3.tagged] (.returned none) := by
  let start := RecordSystem.start defaultQueue {} (freshPool maxSlabs slabsSize) (fun _ => 0)
  have ring : defaultQueue.IsRing 20 := defaultQueue_fresh.isRing
  have quiet : start.Quiet 20 [] (.returned none) :=
    ⟨⟨none, rfl⟩, ring, defaultQueue_fresh.running, ring.empty_iff.mp (by decide), rfl, rfl⟩
  have length : forall second, (recordAt (recordTime second) message).bytes.length < 2 ^ 63 := by
    intro second
    simp only [recordAt, recordTime, List.length_append, List.length_cons, List.length_nil]
    omega
  rcases @RecordSystem.Quiet.stores .parseAndPush maxSlabs slabsSize 0x10000
    (2 ^ 20) _ .dropAll _ _ _ quiet
    (by decide) 0 _ _ _ _ _ (length 0x30) (fields_recordAt message (Or.inl ⟨rfl, rfl⟩)) taken1 with
    ⟨record1, system1, run1, fields1, place1, pool1, memory1, quiet1⟩
  rcases @RecordSystem.Quiet.stores .parseAndPush maxSlabs slabsSize 0x10000
    (2 ^ 20) _ .dropAll _ _ _ quiet1
    (show 1 ≠ 2 ^ 20 - 1 by decide) 0 _ _ _ _ _ (length 0x31)
    (fields_recordAt message (Or.inr (Or.inl ⟨rfl, rfl⟩)))
    (pool1 ▸ taken2) with
    ⟨record2, system2, run2, fields2, place2, pool2, memory2, quiet2⟩
  rcases @RecordSystem.Quiet.stores .parseAndPush maxSlabs slabsSize 0x10000
    (2 ^ 20) _ .dropAll _ _ _ quiet2
    (show 2 ≠ 2 ^ 20 - 1 by decide) 0 _ _ _ _ _ (length 0x32)
    (fields_recordAt message (Or.inr (Or.inr ⟨rfl, rfl⟩)))
    (pool2 ▸ taken3) with
    ⟨record3, system3, run3, fields3, place3, pool3, memory3, quiet3⟩
  refine ⟨record1, record2, record3, system3,
    ⟨start, defaultMachine_initial, (run1.trans run2).trans run3⟩, ⟨fields1, place1⟩,
    ⟨fields2, place2⟩, ⟨fields3, place3⟩, pool3, ?_, quiet3⟩
  rw [memory3, memory2, memory1]
  rfl

theorem StoredRecord.take_bytes (record : StoredRecord) :
    record.bytes.take 8 = toLittleEndian 8 record.fields.time.toNat := by
  rw [bytes, SharedLogEntryHeader.encode]
  simp only [List.append_assoc]
  exact List.take_left' (length_toLittleEndian _ _)

/-- The pool of a geometry, behind one region of the given size in a slab. -/
def poolBehind (maxSlabs slabsSize index needed : SizeT) : SlabPool :=
  { freshPool maxSlabs slabsSize with writeIndex := index, currentOffset := needed }

/-- The region at the beginning of a slab. -/
def firstRegion (maxSlabs slabsSize index : SizeT) : Slab :=
  { destination :=
      (freshPool maxSlabs slabsSize).dataRegionStart + (index * (slabsSize * 1024 * 1024)).toNat
    outOffset := (index * (slabsSize * 1024 * 1024)).setWidth 32 }

section LargeMessages

variable {maxSlabs slabsSize needed : SizeT} {message : List Byte}

theorem getNextSlab_poolBehind {index offset next : SizeT}
    (size : SlabPool.totalNeeded message = needed) (fits : ¬ slabsSize * 1024 * 1024 < needed)
    (room : (poolBehind maxSlabs slabsSize index offset).makeRoom message =
      poolBehind maxSlabs slabsSize next 0) :
    (poolBehind maxSlabs slabsSize index offset).getNextSlab message =
      some (poolBehind maxSlabs slabsSize next needed, firstRegion maxSlabs slabsSize next) := by
  have start : (0 : SizeT) + needed = needed := BitVec.zero_add needed
  have relative : (poolBehind maxSlabs slabsSize next 0).relativeBytes =
      next * (slabsSize * 1024 * 1024) :=
    BitVec.add_zero _
  rw [SlabPool.getNextSlab_of_fits size fits room, relative]
  change some (poolBehind maxSlabs slabsSize next (0 + needed),
    firstRegion maxSlabs slabsSize next) = _
  rw [start]

theorem makeRoom_empty (size : SlabPool.totalNeeded message = needed)
    (fits : ¬ slabsSize * 1024 * 1024 < needed)
    (index : SizeT) :
    (poolBehind maxSlabs slabsSize index 0).makeRoom message =
      poolBehind maxSlabs slabsSize index 0 := by
  refine if_neg ?_
  rw [SlabPool.RollsOver, size]
  change ¬ slabsSize * 1024 * 1024 < 0 + needed
  rw [show (0 : SizeT) + needed = needed from BitVec.zero_add needed]
  exact fits

theorem makeRoom_next (size : SlabPool.totalNeeded message = needed)
    (exceeds : slabsSize * 1024 * 1024 < needed + needed) (index : SizeT) :
    (poolBehind maxSlabs slabsSize index needed).makeRoom message =
      poolBehind maxSlabs slabsSize ((index + 1) &&& (maxSlabs - 1)) 0 := by
  refine if_pos ?_
  rw [SlabPool.RollsOver, size]
  exact exceeds

/-- The address and the length that an entry in the first region of a slab gives. -/
theorem bytesOf_firstRegion {system : RecordSystem} {record : StoredRecord} {time : UInt64T}
    {index other : SizeT} (size : SlabPool.totalNeeded message = needed)
    (pool : system.slabPool = poolBehind maxSlabs slabsSize other needed)
    (fields : record.fields = recordFields time message)
    (slab : record.slab = firstRegion maxSlabs slabsSize index) :
    system.bytesOf record.entry =
      system.memory.load ((freshPool maxSlabs slabsSize).dataRegionStart +
        (((index * (slabsSize * 1024 * 1024)).setWidth 32 : UInt32T).setWidth 64 : SizeT).toNat)
          (needed.setWidth 32 : UInt32T).toNat := by
  rw [RecordSystem.bytesOf, pool, StoredRecord.entry, fields, slab]
  change system.memory.load _ ((SlabPool.totalNeeded message).setWidth 32 : UInt32T).toNat = _
  rw [size]
  rfl

theorem bytes_ne {left right : StoredRecord} {leftTime rightTime : UInt64T}
    (leftFields : left.fields = recordFields leftTime message)
    (rightFields : right.fields = recordFields rightTime message)
    (different : toLittleEndian 8 leftTime.toNat ≠ toLittleEndian 8 rightTime.toNat) :
      left.bytes ≠ right.bytes := by
  intro same
  have times := congrArg (List.take 8) same
  rw [left.take_bytes, right.take_bytes, leftFields, rightFields] at times
  exact different times

end LargeMessages

/-- With ten slabs the mask lets the pool use two of them.  The third large
record takes the first one's region before the first entry is popped. -/
theorem recycled_slab {message : List Byte} (length : message.length = 600000) :
    Exists fun system : RecordSystem => Exists fun record : StoredRecord =>
      (defaultMachine 10 1).ReachableUnder RecordSystem.WithinStringView system ∧
        system.queue.consumer = .returned (some record.tagged) ∧
          system.bytesOf record.entry ≠ record.bytes := by
  have needed : SlabPool.totalNeeded message = 600029 := by
    rw [SlabPool.totalNeeded, length]
    decide
  have fits : ¬ (1 * 1024 * 1024 : SizeT) < 600029 := by decide
  have exceeds : (1 * 1024 * 1024 : SizeT) < 600029 + 600029 := by decide
  rcases three_stored (by omega) (getNextSlab_poolBehind needed fits (makeRoom_empty needed fits 0))
    (getNextSlab_poolBehind needed fits (makeRoom_next needed exceeds 0))
    (getNextSlab_poolBehind needed fits (makeRoom_next needed exceeds ((0 + 1) &&& (10 - 1)))) with
    ⟨record1, record2, record3, system, reached, ⟨fields1, slab1⟩, _, ⟨fields3, slab3⟩, pool,
      memory, quiet⟩
  rcases @RecordSystem.Quiet.pops .parseAndPush 10 1 0x10000 (2 ^ 20) _ .dropAll _ _ _ _ quiet with
    ⟨after, run, samePool, sameMemory, done⟩
  refine ⟨after, record1, reached.continue run, done.queue.consumer, fun same => ?_⟩
  have length3 : record3.bytes.length = 600029 := by
    rw [record3.length_bytes, fields3]
    exact congrArg (29 + ·) length
  have intact :=
    (record3.headerWritten_writeHeader (record2.write (record1.write fun _ => 0))).intact
  rw [StoredRecord.Intact, length3, slab3] at intact
  rw [bytesOf_firstRegion needed (samePool.trans pool) fields1 slab1, sameMemory, memory] at same
  exact bytes_ne fields3 fields1 (by decide) (intact.symm.trans same)

/-- With slabs of two gibibytes the third slab begins at the offset `2 ^ 32`, and
the cast to 32 bits leaves zero.  The third entry leads to the bytes of the
first record although nothing has been overwritten. -/
theorem truncated_offset {message : List Byte} (length : message.length = 1200000000) :
    Exists fun system : RecordSystem => Exists fun record : StoredRecord =>
      (defaultMachine 4 2048).ReachableUnder RecordSystem.WithinStringView system ∧
        system.queue.consumer = .returned (some record.tagged) ∧
          system.bytesOf record.entry ≠ record.bytes := by
  have needed : SlabPool.totalNeeded message = 1200000029 := by
    rw [SlabPool.totalNeeded, length]
    decide
  have fits : ¬ (2048 * 1024 * 1024 : SizeT) < 1200000029 := by decide
  have exceeds : (2048 * 1024 * 1024 : SizeT) < 1200000029 + 1200000029 := by decide
  rcases three_stored (by omega) (getNextSlab_poolBehind needed fits (makeRoom_empty needed fits 0))
    (getNextSlab_poolBehind needed fits (makeRoom_next needed exceeds 0))
    (getNextSlab_poolBehind needed fits (makeRoom_next needed exceeds ((0 + 1) &&& (4 - 1)))) with
    ⟨record1, record2, record3, system, reached, ⟨fields1, slab1⟩, ⟨fields2, slab2⟩,
      ⟨fields3, slab3⟩, pool,
      memory, quiet⟩
  rcases @RecordSystem.Quiet.pops .parseAndPush 4 2048 0x10000
      (2 ^ 20) _ .dropAll _ _ _ _ quiet with
    ⟨popped1, run1, pool1, memory1, quiet1⟩
  rcases @RecordSystem.Quiet.pops .parseAndPush 4 2048 0x10000
      (2 ^ 20) _ .dropAll _ _ _ _ quiet1 with
    ⟨popped2, run2, pool2, memory2, quiet2⟩
  rcases @RecordSystem.Quiet.pops .parseAndPush 4 2048 0x10000
      (2 ^ 20) _ .dropAll _ _ _ _ quiet2 with
    ⟨popped3, run3, pool3, memory3, quiet3⟩
  refine ⟨popped3, record3, ((reached.continue run1).continue run2).continue run3,
    quiet3.queue.consumer, fun same => ?_⟩
  have length1 : record1.bytes.length = 1200000029 := by
    rw [record1.length_bytes, fields1]
    exact congrArg (29 + ·) length
  have apart2 : record1.Apart record2 := by
    refine Or.inl ?_
    rw [length1, slab1, slab2]
    decide
  have apart3 : record1.Apart record3 := by
    refine Or.inl ?_
    rw [length1, slab1, slab3]
    decide
  have intact := (record1.headerWritten_writeHeader fun _ => 0).intact
  have kept :=
    apart3.load_writeMessage (record3.writeHeader (record2.write (record1.write fun _ => 0)))
  rw [apart3.load_writeHeader, StoredRecord.write, apart2.load_writeMessage,
    apart2.load_writeHeader,
    StoredRecord.write, intact, length1, slab1] at kept
  rw [bytesOf_firstRegion needed (((pool3.trans pool2).trans pool1).trans pool) fields3 slab3,
    ((memory3.trans memory2).trans memory1).trans memory] at same
  exact bytes_ne fields1 fields3 (by decide) (kept.symm.trans same)

/-- Entries are popped whose bytes are no longer, or not where they say: with the
default configuration after a slab is recycled, and in a data region of more
than four gibibytes without any recycling. -/
theorem popped_payload_lost :
    (Exists fun system : RecordSystem => Exists fun record : StoredRecord =>
      (defaultMachine 10 1).ReachableUnder RecordSystem.WithinStringView system ∧
        system.queue.consumer = .returned (some record.tagged) ∧
          system.bytesOf record.entry ≠ record.bytes) ∧
      (Exists fun system : RecordSystem => Exists fun record : StoredRecord =>
        (defaultMachine 4 2048).ReachableUnder RecordSystem.WithinStringView system ∧
          system.queue.consumer = .returned (some record.tagged) ∧
            system.bytesOf record.entry ≠ record.bytes) :=
  ⟨recycled_slab (List.length_replicate (n := 600000) (a := (0x78 : Byte))),
    truncated_offset (List.length_replicate (n := 1200000000) (a := (0x78 : Byte)))⟩

end Pipeline
end VortexEngine
