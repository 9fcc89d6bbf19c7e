import VortexEngine.Core.LogEntry
import VortexEngine.Foundations.ByteOrder
import VortexEngine.Foundations.MaskWalk
import VortexEngine.Foundations.Memory

open VortexEngine.Foundations

namespace VortexEngine
namespace Network

/-!
# The slab pool

The messages of a queue live in shared memory, behind a control block.  The
pool hands out regions one after the other inside the current slab and goes to
the next slab when a message does not fit behind the last one.  Nothing is
ever given back: a slab that is entered again is written over.

All sizes and indices are `size_t` values, and the offset reported to the
caller is cut to 32 bits.
-/

/-- The packed header in front of every message. -/
structure SharedLogEntryHeader where
  timestamp : UInt64T
  logId : UInt32T
  messageLen : UInt32T
  messageOffset : UInt32T
  relativeOffset : UInt64T
  level : Byte
  deriving DecidableEq, Repr

namespace SharedLogEntryHeader

/-- `sizeof(SharedLogEntryHeader)`. -/
def size : Nat := 29

/-- The header as it stands in memory. -/
def encode (header : SharedLogEntryHeader) : List Byte :=
  toLittleEndian 8 header.timestamp.toNat ++ toLittleEndian 4 header.logId.toNat ++
    toLittleEndian 4 header.messageLen.toNat ++ toLittleEndian 4 header.messageOffset.toNat ++
      toLittleEndian 8 header.relativeOffset.toNat ++ [header.level]

@[simp] theorem length_encode (header : SharedLogEntryHeader) : header.encode.length = size := by
  simp [encode, size]

/-- The header that a reader finds in the bytes. -/
def decode (bytes : List Byte) : SharedLogEntryHeader :=
  { timestamp := BitVec.ofNat 64 (littleEndian (bytes.take 8))
    logId := BitVec.ofNat 32 (littleEndian ((bytes.drop 8).take 4))
    messageLen := BitVec.ofNat 32 (littleEndian ((bytes.drop 12).take 4))
    messageOffset := BitVec.ofNat 32 (littleEndian ((bytes.drop 16).take 4))
    relativeOffset := BitVec.ofNat 64 (littleEndian ((bytes.drop 20).take 8))
    level := (bytes.drop 28).headD 0 }

/-- A reader finds the header that was written. -/
theorem decode_encode (header : SharedLogEntryHeader) : decode header.encode = header := by
  have wide : forall value : UInt64T,
      BitVec.ofNat 64 (littleEndian (toLittleEndian 8 value.toNat)) = value := by
    intro value
    rw [littleEndian_toLittleEndian 8 value.toNat value.isLt, BitVec.ofNat_toNat,
      BitVec.setWidth_eq]
  have narrow : forall value : UInt32T,
      BitVec.ofNat 32 (littleEndian (toLittleEndian 4 value.toNat)) = value := by
    intro value
    rw [littleEndian_toLittleEndian 4 value.toNat value.isLt, BitVec.ofNat_toNat,
      BitVec.setWidth_eq]
  cases header
  simp (disch := simp) [decode, encode, List.drop_append, List.drop_eq_nil_of_le, wide, narrow]

/-- The header at an address. -/
def loadAt (memory : Memory) (address : Nat) : SharedLogEntryHeader :=
  decode (memory.load address size)

end SharedLogEntryHeader

/-- `sizeof(SharedMemoryControl)`: two members are aligned to 64 bytes. -/
def SharedMemoryControl.size : Nat := 192

structure SlabPool where
  writeIndex : SizeT
  currentOffset : SizeT
  slabSize : SizeT
  maxSlabs : SizeT
  /-- zero while no shared memory is mapped -/
  sharedMemoryBasePtr : Nat
  deriving DecidableEq, Repr

/-- A region handed out: its address and the offset reported to the caller. -/
structure Slab where
  destination : Nat
  outOffset : UInt32T
  deriving DecidableEq, Repr

namespace SlabPool

/-- The constructor, with sizes in MiB. -/
def create (max size : SizeT) : SlabPool :=
  { writeIndex := 0
    currentOffset := 0
    slabSize := size * 1024 * 1024
    maxSlabs := max
    sharedMemoryBasePtr := 0 }

/-- The start of the data region, behind the control block. -/
def dataRegionStart (pool : SlabPool) : Nat :=
  pool.sharedMemoryBasePtr + SharedMemoryControl.size

/-- `InitializeSharedMemory`, once the section is mapped at an address. -/
def initializeSharedMemory (pool : SlabPool) (basePtr : Nat) : SlabPool :=
  { pool with sharedMemoryBasePtr := basePtr }

/-- The bytes that a message needs together with its header. -/
def totalNeeded (message : List Byte) : SizeT :=
  BitVec.ofNat 64 SharedLogEntryHeader.size + BitVec.ofNat 64 message.length

/-- A message that does not fit behind the last one begins the next slab. -/
def RollsOver (pool : SlabPool) (message : List Byte) : Prop :=
  pool.slabSize < pool.currentOffset + totalNeeded message

instance (pool : SlabPool) (message : List Byte) : Decidable (pool.RollsOver message) :=
  inferInstanceAs (Decidable (_ < _))

/-- The pool in front of the message's region. -/
def makeRoom (pool : SlabPool) (message : List Byte) : SlabPool :=
  if pool.RollsOver message then
    { pool with writeIndex := (pool.writeIndex + 1) &&& (pool.maxSlabs - 1), currentOffset := 0 }
  else pool

/-- Where the next region begins in the data region. -/
def relativeBytes (pool : SlabPool) : SizeT :=
  pool.writeIndex * pool.slabSize + pool.currentOffset

/-- `get_next_slab`: no region for a message that does not fit into a slab. -/
def getNextSlab (pool : SlabPool) (message : List Byte) : Option (SlabPool × Slab) :=
  if pool.slabSize < totalNeeded message then none
  else
    let ready := pool.makeRoom message
    some
      ({ ready with currentOffset := ready.currentOffset + totalNeeded message },
        { destination := pool.dataRegionStart + ready.relativeBytes.toNat
          outOffset := ready.relativeBytes.setWidth 32 })

/-! ## The geometry -/

/-- The parts of a pool that no allocation changes. -/
structure SameGeometry (before after : SlabPool) : Prop where
  slabSize : after.slabSize = before.slabSize
  maxSlabs : after.maxSlabs = before.maxSlabs
  sharedMemoryBasePtr : after.sharedMemoryBasePtr = before.sharedMemoryBasePtr

/-- There is a slab, the size of all slabs is no larger than any object can be,
and the next region begins inside a slab. -/
structure Sound (pool : SlabPool) : Prop where
  region : pool.slabSize.toNat * pool.maxSlabs.toNat < 2 ^ 63
  index : pool.writeIndex.toNat < pool.maxSlabs.toNat
  offset : pool.currentOffset.toNat ≤ pool.slabSize.toNat

/-- The index stays below a number of slabs whose size is no larger than any
object can be, and the next region begins inside a slab. -/
structure Confined (pool : SlabPool) (slabs : Nat) : Prop where
  region : pool.slabSize.toNat * slabs < 2 ^ 63
  closed : forall index : SizeT, index.toNat < slabs -> (maskStep pool.maxSlabs index).toNat < slabs
  index : pool.writeIndex.toNat < slabs
  offset : pool.currentOffset.toNat ≤ pool.slabSize.toNat

/-- The index stays below a number of slabs whose size is a `size_t`, and the next
region begins inside a slab.  Twice the size of a slab is a `size_t` as well. -/
structure Roomy (pool : SlabPool) (slabs : Nat) : Prop where
  slab : pool.slabSize.toNat < 2 ^ 63
  region : pool.slabSize.toNat * slabs < 2 ^ 64
  closed : forall index : SizeT, index.toNat < slabs -> (maskStep pool.maxSlabs index).toNat < slabs
  index : pool.writeIndex.toNat < slabs
  offset : pool.currentOffset.toNat ≤ pool.slabSize.toNat

namespace SameGeometry

theorem refl (pool : SlabPool) : pool.SameGeometry pool :=
  ⟨rfl, rfl, rfl⟩

theorem trans {before middle after : SlabPool} (first : before.SameGeometry middle)
    (second : middle.SameGeometry after) : before.SameGeometry after :=
  ⟨second.slabSize.trans first.slabSize, second.maxSlabs.trans first.maxSlabs,
    second.sharedMemoryBasePtr.trans first.sharedMemoryBasePtr⟩

end SameGeometry

variable {pool after : SlabPool} {message : List Byte} {slab : Slab} {slabs : Nat}

/-- The size of a message that can exist does not wrap. -/
theorem totalNeeded_toNat (short : message.length < 2 ^ 63) :
    (totalNeeded message).toNat = SharedLogEntryHeader.size + message.length := by
  rw [totalNeeded, BitVec.toNat_add, BitVec.toNat_ofNat, BitVec.toNat_ofNat,
    SharedLogEntryHeader.size]
  omega

theorem makeRoom_geometry (pool : SlabPool) (message : List Byte) :
    pool.SameGeometry (pool.makeRoom message) := by
  rw [makeRoom]
  split <;> exact ⟨rfl, rfl, rfl⟩

theorem getNextSlab_pool (taken : pool.getNextSlab message = some (after, slab)) :
    totalNeeded message ≤ pool.slabSize ∧
      after = { pool.makeRoom message with
        currentOffset := (pool.makeRoom message).currentOffset + totalNeeded message } := by
  rw [getNextSlab] at taken
  split at taken
  · cases taken
  · rename_i fits
    cases taken
    exact ⟨BitVec.not_lt.mp fits, rfl⟩

theorem getNextSlab_geometry (taken : pool.getNextSlab message = some (after, slab)) :
    pool.SameGeometry after := by
  rw [(getNextSlab_pool taken).2]
  have made := makeRoom_geometry pool message
  exact ⟨made.slabSize, made.maxSlabs, made.sharedMemoryBasePtr⟩

theorem maskStep_lt {maxSlabs index : SizeT} (inside : index.toNat < maxSlabs.toNat) :
    (maskStep maxSlabs index).toNat < maxSlabs.toNat := by
  have masked : (maskStep maxSlabs index).toNat ≤ (maxSlabs - 1).toNat := by
    rw [maskStep, BitVec.toNat_and]
    exact Nat.and_le_right
  have last : (maxSlabs - 1).toNat = maxSlabs.toNat - 1 := by
    have bound := maxSlabs.isLt
    rw [BitVec.toNat_sub, show (1 : SizeT).toNat = 1 from rfl]
    omega
  omega

theorem Sound.confined (sound : pool.Sound) : pool.Confined pool.maxSlabs.toNat :=
  ⟨sound.region, fun _ => maskStep_lt, sound.index, sound.offset⟩

/-- Only so many slabs as the mask leads to are ever entered. -/
theorem confined_of_maskPeriod (region : pool.slabSize.toNat * maskPeriod pool.maxSlabs < 2 ^ 63)
    (index : pool.writeIndex = 0) (offset : pool.currentOffset = 0) :
    pool.Confined (maskPeriod pool.maxSlabs) := by
  refine ⟨region, ?_, ?_, ?_⟩
  · intro index inside
    rw [maskStep_toNat inside]
    exact Nat.mod_lt _ (maskPeriod_pos _)
  · simp [index, maskPeriod_pos]
  · simp [offset]

namespace Roomy

theorem slab_end_le (roomy : pool.Roomy slabs) :
    pool.writeIndex.toNat * pool.slabSize.toNat + pool.slabSize.toNat ≤
      pool.slabSize.toNat * slabs := by
  rw [← Nat.succ_mul, Nat.mul_comm pool.slabSize.toNat]
  exact Nat.mul_le_mul_right _ roomy.index

/-- The test for the next slab, without wrapping. -/
theorem rollsOver_iff (roomy : pool.Roomy slabs)
    (fits : (totalNeeded message).toNat ≤ pool.slabSize.toNat) :
    pool.RollsOver message ↔
      pool.slabSize.toNat < pool.currentOffset.toNat + (totalNeeded message).toNat := by
  have bound := roomy.slab
  have inside := roomy.offset
  rw [RollsOver, BitVec.lt_def, BitVec.toNat_add, Nat.mod_eq_of_lt (by omega)]

theorem makeRoom_room (roomy : pool.Roomy slabs)
    (fits : (totalNeeded message).toNat ≤ pool.slabSize.toNat) :
    (pool.makeRoom message).currentOffset.toNat + (totalNeeded message).toNat ≤
      pool.slabSize.toNat := by
  rw [makeRoom]
  split
  · simpa using fits
  · rename_i stays
    rw [roomy.rollsOver_iff fits] at stays
    omega

theorem makeRoom_index (roomy : pool.Roomy slabs) (message : List Byte) :
    (pool.makeRoom message).writeIndex.toNat < slabs := by
  rw [makeRoom]
  split
  · exact roomy.closed _ roomy.index
  · exact roomy.index

theorem relativeBytes_toNat (roomy : pool.Roomy slabs) :
    pool.relativeBytes.toNat =
      pool.writeIndex.toNat * pool.slabSize.toNat + pool.currentOffset.toNat := by
  have bound := roomy.region
  have ends := roomy.slab_end_le
  have inside := roomy.offset
  rw [relativeBytes, BitVec.toNat_add, BitVec.toNat_mul, Nat.mod_eq_of_lt (by omega)]
  rw [Nat.mod_eq_of_lt (by omega)]

end Roomy

namespace Confined

theorem slabSize_lt (confined : pool.Confined slabs) : pool.slabSize.toNat < 2 ^ 63 := by
  have positive : 1 ≤ slabs := Nat.lt_of_le_of_lt (Nat.zero_le _) confined.index
  exact Nat.lt_of_le_of_lt (Nat.le_mul_of_pos_right _ positive) confined.region

theorem roomy (confined : pool.Confined slabs) : pool.Roomy slabs :=
  ⟨confined.slabSize_lt, Nat.lt_trans confined.region (by decide), confined.closed, confined.index,
    confined.offset⟩

end Confined

/-- What an allocation returns and what it leaves. -/
structure Places (pool : SlabPool) (message : List Byte) (after : SlabPool)
    (slab : Slab) : Prop where
  geometry : pool.SameGeometry after
  index : after.writeIndex = (pool.makeRoom message).writeIndex
  offset : after.currentOffset.toNat =
    (pool.makeRoom message).currentOffset.toNat + (totalNeeded message).toNat
  destination : slab.destination = pool.dataRegionStart +
    (after.writeIndex.toNat * pool.slabSize.toNat + (pool.makeRoom message).currentOffset.toNat)
  outOffset : slab.outOffset.toNat =
    (after.writeIndex.toNat * pool.slabSize.toNat + (pool.makeRoom message).currentOffset.toNat) %
      2 ^ 32

theorem Roomy.getNextSlab_places (roomy : pool.Roomy slabs)
    (taken : pool.getNextSlab message = some (after, slab)) :
    after.Roomy slabs ∧ pool.Places message after slab := by
  rw [getNextSlab] at taken
  split at taken
  · cases taken
  · rename_i small
    cases taken
    have fits : (totalNeeded message).toNat ≤ pool.slabSize.toNat := Nat.not_lt.mp small
    have room := roomy.makeRoom_room fits
    have bound := roomy.slab
    have geometry := makeRoom_geometry pool message
    have ready : (pool.makeRoom message).Roomy slabs := by
      refine ⟨?_, ?_, ?_, roomy.makeRoom_index message, ?_⟩
      · rw [geometry.slabSize]
        exact roomy.slab
      · rw [geometry.slabSize]
        exact roomy.region
      · rw [geometry.maxSlabs]
        exact roomy.closed
      · rw [geometry.slabSize]
        omega
    have offset : ((pool.makeRoom message).currentOffset + totalNeeded message).toNat =
        (pool.makeRoom message).currentOffset.toNat + (totalNeeded message).toNat := by
      rw [BitVec.toNat_add]
      exact Nat.mod_eq_of_lt (by omega)
    have relative := ready.relativeBytes_toNat
    rw [geometry.slabSize] at relative
    refine ⟨⟨ready.slab, ready.region, ready.closed, ready.index, ?_⟩,
      ⟨geometry.1, geometry.2, geometry.3⟩, rfl,
      offset, ?_, ?_⟩
    · change ((pool.makeRoom message).currentOffset + totalNeeded message).toNat ≤ _
      rw [offset, geometry.slabSize]
      exact room
    · change pool.dataRegionStart + _ = _
      rw [relative]
    · change ((pool.makeRoom message).relativeBytes.setWidth 32).toNat = _
      rw [BitVec.toNat_setWidth, relative]

theorem Confined.getNextSlab_places (confined : pool.Confined slabs)
    (taken : pool.getNextSlab message = some (after, slab)) :
    after.Confined slabs ∧ pool.Places message after slab := by
  rcases confined.roomy.getNextSlab_places taken with ⟨roomy, places⟩
  refine ⟨⟨?_, roomy.closed, roomy.index, roomy.offset⟩, places⟩
  rw [places.geometry.slabSize]
  exact confined.region

theorem Confined.getNextSlab_keeps {origin : SlabPool}
    (holds : pool.Confined slabs ∧ origin.SameGeometry pool)
    (taken : pool.getNextSlab message = some (after, slab)) :
    after.Confined slabs ∧ origin.SameGeometry after :=
  ⟨(holds.1.getNextSlab_places taken).1, holds.2.trans (getNextSlab_geometry taken)⟩

/-- What an allocation of a sound pool returns and what it leaves. -/
structure Hands (pool : SlabPool) (message : List Byte) (after : SlabPool) (slab : Slab) : Prop
    extends pool.Places message after slab where
  sound : after.Sound

theorem Sound.getNextSlab_hands (sound : pool.Sound)
    (taken : pool.getNextSlab message = some (after, slab)) :
    pool.Hands message after slab := by
  rcases sound.confined.getNextSlab_places taken with ⟨confined, places⟩
  rw [← places.geometry.maxSlabs] at confined
  exact ⟨places, confined.region, confined.index, confined.offset⟩

/-- The region of a message that fits, with the pool in front of it. -/
theorem getNextSlab_of_fits {needed : SizeT} {ready : SlabPool}
    (size : totalNeeded message = needed)
    (fits : ¬ pool.slabSize < needed) (room : pool.makeRoom message = ready) :
    pool.getNextSlab message =
      some
        ({ ready with currentOffset := ready.currentOffset + needed },
          { destination := pool.dataRegionStart + ready.relativeBytes.toNat
            outOffset := ready.relativeBytes.setWidth 32 }) := by
  rw [getNextSlab, size, if_neg fits, room]

theorem getNextSlab_eq_none : pool.getNextSlab message = none ↔
    pool.slabSize < totalNeeded message := by
  rw [getNextSlab]
  split
  · exact ⟨fun _ => by assumption, fun _ => rfl⟩
  · exact ⟨nofun, fun large => absurd large (by assumption)⟩

end SlabPool

end Network
end VortexEngine
