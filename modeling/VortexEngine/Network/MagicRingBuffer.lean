import VortexEngine.Core.LogEntry
import VortexEngine.Foundations.ByteOrder
import VortexEngine.Foundations.Machine
import VortexEngine.Foundations.RingWindow

open VortexEngine.Foundations

namespace VortexEngine
namespace Network

/-!
# The mirrored stash buffer

`MagicRingBuffer` maps one section of `size` bytes twice, back to back, and
keeps two cumulative indices that only ever grow, modulo the width of
`size_t`.  An address of the second view reads the byte that the first view
has `size` bytes earlier, so a record that wraps around the end of the section
is contiguous in the address range.

Addresses are numbers and offsets are counted from `base_ptr`.  The section is
a function of the physical position.  The API calls that reserve and map the
two views are a parameter with the two documented facts that matter here: no
section is created with size zero, and a view does not extend beyond its
section.
-/

/-- `std::string_view` into mapped memory: its address and its bytes. -/
structure StringView where
  data : Nat
  bytes : List Byte
  deriving DecidableEq, Repr

/-- The calls of `start_portal`.  Sizes and addresses are the arguments that
the source passes. -/
structure MemoryApi where
  /-- `VirtualAlloc2` of a placeholder -/
  reserve : (bytes : SizeT) -> Option Nat
  /-- `VirtualFreeEx` with `MEM_PRESERVE_PLACEHOLDER` -/
  split : (address : Nat) -> (bytes : SizeT) -> Bool
  /-- `CreateFileMappingW` with a zero high part and the given low part -/
  createSection : (low : UInt32T) -> Bool
  /-- `MapViewOfFile3` of a section of the given size -/
  mapView : (sectionBytes : UInt32T) -> (address : Nat) -> (bytes : SizeT) -> Bool
  createSection_zero : createSection 0 = false
  mapView_within : forall sectionBytes address bytes,
    mapView sectionBytes address bytes = true -> bytes.toNat ≤ sectionBytes.toNat

structure MagicRingBuffer where
  basePtr : Nat
  size : SizeT
  head : SizeT
  tail : SizeT
  /-- the bytes of the section, by physical position -/
  mapped : Nat -> Byte

namespace MagicRingBuffer

/-- `start_portal`.  Every failing call throws. -/
def startPortal (api : MemoryApi) (size : SizeT) : Option Nat :=
  match api.reserve (size * 2) with
  | none => none
  | some basePtr =>
      let low := size.setWidth 32
      if api.split basePtr size = false then none
      else if api.createSection low = false then none
      else if api.mapView low basePtr size = false then none
      else if api.mapView low (basePtr + size.toNat) size = false then none
      else some basePtr

/-- The constructor.  It throws on a size that is zero or no multiple of 64
KiB, and when `start_portal` throws. -/
def create (api : MemoryApi) (mapped : Nat -> Byte)
    (physicalSize : SizeT) : Option MagicRingBuffer :=
  if physicalSize = 0 ∨ physicalSize % (64 * 1024) ≠ 0 then none
  else
    (startPortal api physicalSize).map fun basePtr =>
      { basePtr := basePtr, size := physicalSize, head := 0, tail := 0, mapped := mapped }

variable (ring : MagicRingBuffer)

/-- The physical position of an offset: the first view, then the second. -/
def physical (offset : Nat) : Nat :=
  if offset < ring.size.toNat then offset else offset - ring.size.toNat

def byteAt (offset : Nat) : Byte :=
  ring.mapped (ring.physical offset)

/-- A load of consecutive bytes of the address range. -/
def bytesAt (offset length : Nat) : List Byte :=
  (List.range length).map (fun index => ring.byteAt (offset + index))

/-- A store of consecutive bytes of the address range. -/
def storeBytes : MagicRingBuffer -> Nat -> List Byte -> MagicRingBuffer
  | ring, _, [] => ring
  | ring, offset, byte :: rest =>
      storeBytes { ring with mapped := Function.update ring.mapped (ring.physical offset) byte }
        (offset + 1) rest

def writeOffset : Nat :=
  (ring.head &&& (ring.size - 1)).toNat

def getWritePtr : Nat :=
  ring.basePtr + ring.writeOffset

def getWriteSpace : SizeT :=
  ring.size - (ring.head - ring.tail)

def getBytesAvailable : SizeT :=
  ring.head - ring.tail

def commitWrite (bytesWritten : SizeT) : MagicRingBuffer :=
  { ring with head := ring.head + bytesWritten }

def consume (bytesConsumed : SizeT) : MagicRingBuffer :=
  { ring with tail := ring.tail + bytesConsumed }

def readOffset : Nat :=
  (ring.tail &&& (ring.size - 1)).toNat

def getView (len : SizeT) : StringView :=
  { data := ring.basePtr + ring.readOffset, bytes := ring.bytesAt ring.readOffset len.toNat }

def peekOffset (usize : UInt32T) : Nat :=
  ((ring.tail + usize.setWidth 64) &&& (ring.size - 1)).toNat

/-- `peek(usize)`: an unaligned little-endian load. -/
def peek (usize : UInt32T) : UInt32T :=
  BitVec.ofNat 32 (littleEndian (ring.bytesAt (ring.peekOffset usize) 4))

/-- A completed read: the network stores bytes at the write pointer and the
handler commits their number. -/
def receive (bytes : List Byte) : MagicRingBuffer :=
  (storeBytes ring ring.writeOffset bytes).commitWrite (BitVec.ofNat 64 bytes.length)

/-! ## The address map -/

variable {ring} {exponent : Nat}

theorem physical_eq_mod {offset : Nat} (inside : offset < 2 * ring.size.toNat) :
    ring.physical offset = offset % ring.size.toNat :=
  (mod_of_lt_double inside).symm

/-- A load inside the portal is a window of the section. -/
theorem bytesAt_eq_window {offset length : Nat}
    (inside : offset + length ≤ 2 * ring.size.toNat) :
    ring.bytesAt offset length = window ring.mapped ring.size.toNat offset length := by
  apply List.map_congr_left
  intro index member
  have below := List.mem_range.mp member
  rw [byteAt, physical_eq_mod (by omega)]

theorem storeBytes_eq (ring : MagicRingBuffer) (offset : Nat) (bytes : List Byte)
    (inside : offset + bytes.length ≤ 2 * ring.size.toNat) :
    storeBytes ring offset bytes =
      { ring with mapped := writeCells ring.size.toNat ring.mapped offset bytes } := by
  induction bytes generalizing ring offset with
  | nil => rfl
  | cons byte rest ih =>
      rw [List.length_cons] at inside
      rw [storeBytes, physical_eq_mod (show offset < 2 * ring.size.toNat by omega)]
      exact ih { ring with mapped := Function.update ring.mapped (offset % ring.size.toNat) byte }
        (offset + 1) (show offset + 1 + rest.length ≤ 2 * ring.size.toNat by omega)

theorem storeBytes_tail (ring : MagicRingBuffer) (offset : Nat) (bytes : List Byte) :
    (storeBytes ring offset bytes).tail = ring.tail := by
  induction bytes generalizing ring offset with
  | nil => rfl
  | cons byte rest ih =>
      rw [storeBytes]
      exact ih _ (offset + 1)

theorem receive_tail (ring : MagicRingBuffer) (bytes : List Byte) :
    (ring.receive bytes).tail = ring.tail :=
  storeBytes_tail ring ring.writeOffset bytes

/-! ## The pending bytes -/

theorem available_add_space (ring : MagicRingBuffer) :
    ring.getBytesAvailable + ring.getWriteSpace = ring.size := by
  change ring.getBytesAvailable + (ring.size - ring.getBytesAvailable) = ring.size
  rw [BitVec.add_comm, BitVec.sub_add_cancel]

/-- The ring of `2 ^ exponent` bytes holds the pending bytes, oldest first. -/
structure Represents (exponent : Nat) (ring : MagicRingBuffer) (pending : List Byte) : Prop where
  power : ring.size.toNat = 2 ^ exponent
  available : ring.getBytesAvailable.toNat = pending.length
  fits : pending.length ≤ 2 ^ exponent
  bytes : window ring.mapped (2 ^ exponent) ring.tail.toNat pending.length = pending

namespace Represents

variable {pending : List Byte}

theorem mask_power (holds : Represents exponent ring pending) :
    (ring.size - 1).toNat + 1 = 2 ^ exponent := by
  have positive := Nat.two_pow_pos exponent
  have bound := ring.size.isLt
  have size := holds.power
  rw [BitVec.toNat_sub, show (1 : SizeT).toNat = 1 from rfl]
  omega

theorem divides (holds : Represents exponent ring pending) : 2 ^ exponent ∣ 2 ^ 64 :=
  Nat.pow_dvd_pow 2 (exponent_le_width holds.mask_power)

theorem masked (holds : Represents exponent ring pending) (index : SizeT) :
    (index &&& (ring.size - 1)).toNat = index.toNat % 2 ^ exponent :=
  toNat_and_mask holds.mask_power index

theorem readOffset_eq (holds : Represents exponent ring pending) :
    ring.readOffset = ring.tail.toNat % 2 ^ exponent :=
  holds.masked ring.tail

/-- The wrapped head is the tail advanced by the pending bytes. -/
theorem head_eq (holds : Represents exponent ring pending) :
    ring.head.toNat = (ring.tail.toNat + pending.length) % 2 ^ 64 := by
  have available := holds.available
  have headBound := ring.head.isLt
  rw [getBytesAvailable, BitVec.toNat_sub] at available
  omega

theorem writeOffset_eq (holds : Represents exponent ring pending) :
    ring.writeOffset = (ring.tail.toNat + pending.length) % 2 ^ exponent := by
  rw [writeOffset, holds.masked, holds.head_eq, Nat.mod_mod_of_dvd _ holds.divides]

theorem space (holds : Represents exponent ring pending) :
    ring.getWriteSpace.toNat = 2 ^ exponent - pending.length := by
  have available := holds.available
  have size := holds.power
  have fits := holds.fits
  have bound := ring.size.isLt
  change (ring.size - ring.getBytesAvailable).toNat = _
  rw [BitVec.toNat_sub]
  omega

theorem readOffset_lt (holds : Represents exponent ring pending) : ring.readOffset < 2 ^ exponent :=
  holds.readOffset_eq ▸ Nat.mod_lt _ (Nat.two_pow_pos exponent)

theorem writeOffset_lt (holds : Represents exponent ring pending) :
    ring.writeOffset < 2 ^ exponent :=
  holds.writeOffset_eq ▸ Nat.mod_lt _ (Nat.two_pow_pos exponent)

theorem peekOffset_eq (holds : Represents exponent ring pending) (usize : UInt32T) :
    ring.peekOffset usize = (ring.tail.toNat + usize.toNat) % 2 ^ exponent := by
  have bound := usize.isLt
  rw [peekOffset, holds.masked, BitVec.toNat_add, Nat.mod_mod_of_dvd _ holds.divides,
    BitVec.toNat_setWidth, Nat.mod_eq_of_lt (show usize.toNat < 2 ^ 64 by omega)]

theorem bytesAt_eq (holds : Represents exponent ring pending) {skipped length : Nat}
    (within : skipped + length ≤ pending.length) :
    ring.bytesAt ((ring.tail.toNat + skipped) % 2 ^ exponent) length =
      (pending.drop skipped).take length := by
  have below := Nat.mod_lt (ring.tail.toNat + skipped) (Nat.two_pow_pos exponent)
  have fits := holds.fits
  rw [bytesAt_eq_window (by rw [holds.power]; omega), holds.power, window_mod_start]
  calc
    window ring.mapped (2 ^ exponent) (ring.tail.toNat + skipped) length =
        (window ring.mapped (2 ^ exponent) (ring.tail.toNat + skipped)
          (pending.length - skipped)).take length := (take_window _ (by omega)).symm
    _ = ((window ring.mapped (2 ^ exponent) ring.tail.toNat pending.length).drop skipped).take
        length := by
      rw [drop_window _ (by omega)]
    _ = (pending.drop skipped).take length := by rw [holds.bytes]

/-- A load may also start at a masked tail plus a distance, beyond the end of
the first view. -/
theorem bytesAt_readOffset (holds : Represents exponent ring pending) {skipped length : Nat}
    (within : skipped + length ≤ pending.length) :
    ring.bytesAt (ring.readOffset + skipped) length = (pending.drop skipped).take length := by
  have below := holds.readOffset_lt
  have fits := holds.fits
  have size := holds.power
  have inside : (ring.tail.toNat + skipped) % 2 ^ exponent < 2 ^ exponent :=
    Nat.mod_lt _ (Nat.two_pow_pos exponent)
  rw [← holds.bytesAt_eq within, bytesAt_eq_window (by omega), bytesAt_eq_window (by omega), size,
    ← window_mod_start, holds.readOffset_eq, Nat.mod_add_mod]

/-- A comparison with the available bytes compares with what is pending. -/
theorem available_lt (holds : Represents exponent ring pending) (count : SizeT) :
    ring.getBytesAvailable < count ↔ pending.length < count.toNat := by
  rw [BitVec.lt_def, holds.available]

theorem getView_bytes (holds : Represents exponent ring pending) {len : SizeT}
    (within : len.toNat ≤ pending.length) : (ring.getView len).bytes = pending.take len.toNat := by
  have read : ring.bytesAt ((ring.tail.toNat + 0) % 2 ^ exponent) len.toNat =
      (pending.drop 0).take len.toNat := holds.bytesAt_eq (by omega)
  rw [Nat.add_zero, ← holds.readOffset_eq, List.drop_zero] at read
  exact read

theorem peek_eq (holds : Represents exponent ring pending) (usize : UInt32T)
    (within : usize.toNat + 4 ≤ pending.length) :
    ring.peek usize = BitVec.ofNat 32 (littleEndian ((pending.drop usize.toNat).take 4)) := by
  rw [peek, holds.peekOffset_eq, holds.bytesAt_eq within]

/-- Storing at the write pointer extends the pending bytes in the section. -/
theorem window_storeBytes (holds : Represents exponent ring pending) {bytes : List Byte}
    (room : bytes.length ≤ ring.getWriteSpace.toNat) :
    storeBytes ring ring.writeOffset bytes =
        { ring with
          mapped :=
            writeCells (2 ^ exponent) ring.mapped (ring.tail.toNat + pending.length) bytes } ∧
      window (writeCells (2 ^ exponent) ring.mapped (ring.tail.toNat + pending.length) bytes)
        (2 ^ exponent) ring.tail.toNat (pending.length + bytes.length) = pending ++ bytes := by
  have below := holds.writeOffset_lt
  have fits := holds.fits
  rw [holds.space] at room
  constructor
  · rw [storeBytes_eq ring _ _ (by rw [holds.power]; omega), holds.power, holds.writeOffset_eq,
      writeCells_mod_start]
  · rw [window_writeCells _ _ _ _ (by omega), holds.bytes]

theorem storeBytes_keeps (holds : Represents exponent ring pending) {bytes : List Byte}
    (room : bytes.length ≤ ring.getWriteSpace.toNat) :
    Represents exponent (storeBytes ring ring.writeOffset bytes) pending := by
  rcases holds.window_storeBytes room with ⟨stored, extended⟩
  rw [stored]
  refine ⟨holds.power, holds.available, holds.fits, ?_⟩
  have kept := congrArg (List.take pending.length) extended
  rw [take_window _ (Nat.le_add_right _ _), List.take_left] at kept
  exact kept

/-- A completed read appends its bytes. -/
theorem receive (holds : Represents exponent ring pending) {bytes : List Byte}
    (room : bytes.length ≤ ring.getWriteSpace.toNat) :
    Represents exponent (ring.receive bytes) (pending ++ bytes) := by
  rcases holds.window_storeBytes room with ⟨stored, extended⟩
  have fits := holds.fits
  have bound := ring.size.isLt
  have size := holds.power
  have head := holds.head_eq
  rw [holds.space] at room
  rw [MagicRingBuffer.receive, stored]
  refine ⟨holds.power, ?_, ?_, ?_⟩
  · change (ring.head + BitVec.ofNat 64 bytes.length - ring.tail).toNat = _
    rw [BitVec.toNat_sub, BitVec.toNat_add, head, BitVec.toNat_ofNat, List.length_append]
    omega
  · rw [List.length_append]
    omega
  · rw [List.length_append]
    exact extended

theorem consume (holds : Represents exponent ring pending) {count : SizeT}
    (within : count.toNat ≤ pending.length) :
    Represents exponent (ring.consume count) (pending.drop count.toNat) := by
  have fits := holds.fits
  have bound := ring.size.isLt
  have size := holds.power
  have head := holds.head_eq
  refine ⟨holds.power, ?_, ?_, ?_⟩
  · change (ring.head - (ring.tail + count)).toNat = _
    rw [BitVec.toNat_sub, BitVec.toNat_add, head, List.length_drop]
    omega
  · rw [List.length_drop]
    omega
  · change window ring.mapped (2 ^ exponent) (ring.tail + count).toNat _ = _
    rw [List.length_drop, BitVec.toNat_add, ← window_mod_start, Nat.mod_mod_of_dvd _ holds.divides,
      window_mod_start, ← drop_window _ within, holds.bytes]

end Represents

end MagicRingBuffer

end Network
end VortexEngine
