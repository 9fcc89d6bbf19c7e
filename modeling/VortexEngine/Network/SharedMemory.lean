import VortexEngine.Network.SlabRotation

open VortexEngine.Foundations

namespace VortexEngine
namespace Network

/-!
# The mapped section of a pool

`InitializeSharedMemory` asks for `sizeof(SharedMemoryControl)` bytes and
`slab_size * max_slabs` bytes behind them, and maps as many as it has asked
for.  The product is taken in `size_t`, and neither factor is checked: a
product that wraps, or that is zero because there is no slab, gives a section
that is smaller than the slabs that `get_next_slab` goes through.

The calls that create and map a section are a parameter.  Of their documented
behaviour one fact matters: a view lies in the address space of the process,
whose addresses are below `2 ^ 63`.
-/

/-- The control block at the start of the section. -/
structure SharedMemoryControl where
  magicNumber : UInt32T
  slabSize : UInt32T
  maxSlabs : UInt32T
  headerSize : UInt32T
  writeOffset : UInt64T
  readOffset : UInt64T
  deriving DecidableEq, Repr

namespace SharedMemoryControl

/-- The members with their offsets: the two positions are aligned to 64 bytes. -/
def members (control : SharedMemoryControl) : List (Nat × List Byte) :=
  [(0, toLittleEndian 4 control.magicNumber.toNat), (4, toLittleEndian 4 control.slabSize.toNat),
    (8, toLittleEndian 4 control.maxSlabs.toNat), (12, toLittleEndian 4 control.headerSize.toNat),
    (64, toLittleEndian 8 control.writeOffset.toNat),
    (128, toLittleEndian 8 control.readOffset.toNat)]

/-- Store the members one after the other. -/
def storeAt (control : SharedMemoryControl) (memory : Memory) (basePtr : Nat) : Memory :=
  control.members.foldl (fun stored member => stored.store (basePtr + member.1) member.2) memory

theorem members_inside (control : SharedMemoryControl) (member : Nat × List Byte)
    (listed : member ∈ control.members) : member.1 + member.2.length ≤ size := by
  simp only [members, List.mem_cons, List.not_mem_nil, or_false] at listed
  rcases listed with rfl | rfl | rfl | rfl | rfl | rfl <;> simp [size]

theorem storeAt_outside (control : SharedMemoryControl) (memory : Memory) {basePtr address : Nat}
    (outside : address < basePtr ∨ basePtr + size ≤ address) :
      control.storeAt memory basePtr address = memory address := by
  have members : forall (members : List (Nat × List Byte)) (memory : Memory),
      (forall member, member ∈ members -> member.1 + member.2.length ≤ size) ->
        members.foldl (fun stored member => stored.store (basePtr + member.1) member.2)
          memory address =
          memory address := by
    intro members
    induction members with
    | nil => exact fun _ _ => rfl
    | cons member members ih =>
        intro memory inside
        have bound := inside member List.mem_cons_self
        rw [List.foldl_cons, ih _ (fun other later => inside other (List.mem_cons_of_mem _ later))]
        apply Memory.store_outside
        omega
  exact members control.members memory control.members_inside

/-- The block that a reader finds at an address. -/
def loadAt (memory : Memory) (basePtr : Nat) : SharedMemoryControl :=
  { magicNumber := BitVec.ofNat 32 (littleEndian (memory.load (basePtr + 0) 4))
    slabSize := BitVec.ofNat 32 (littleEndian (memory.load (basePtr + 4) 4))
    maxSlabs := BitVec.ofNat 32 (littleEndian (memory.load (basePtr + 8) 4))
    headerSize := BitVec.ofNat 32 (littleEndian (memory.load (basePtr + 12) 4))
    writeOffset := BitVec.ofNat 64 (littleEndian (memory.load (basePtr + 64) 8))
    readOffset := BitVec.ofNat 64 (littleEndian (memory.load (basePtr + 128) 8)) }

/-- Members that lie one behind the other do not overwrite each other. -/
theorem load_member {basePtr : Nat} (members : List (Nat × List Byte))
    (ordered : members.Pairwise fun first second => first.1 + first.2.length ≤ second.1)
    (memory : Memory) {member : Nat × List Byte} (listed : member ∈ members) :
    (members.foldl (fun stored member => stored.store (basePtr + member.1) member.2) memory).load
      (basePtr + member.1) member.2.length = member.2 := by
  have spared : forall (later : List (Nat × List Byte)) (memory : Memory),
      (forall other, other ∈ later -> member.1 + member.2.length ≤ other.1) ->
        (later.foldl (fun stored member => stored.store (basePtr + member.1) member.2) memory).load
          (basePtr + member.1) member.2.length =
            memory.load (basePtr + member.1) member.2.length := by
    intro later
    induction later with
    | nil => exact fun _ _ => rfl
    | cons other later ih =>
        intro memory behind
        have first := behind other List.mem_cons_self
        rw [List.foldl_cons,
          ih _ (fun another last => behind another (List.mem_cons_of_mem _ last))]
        apply Memory.load_store_apart
        left
        omega
  induction members generalizing memory with
  | nil => cases listed
  | cons first rest ih =>
      rcases List.pairwise_cons.mp ordered with ⟨behind, orderedRest⟩
      rw [List.foldl_cons]
      rcases List.mem_cons.mp listed with rfl | later
      · rw [spared rest _ behind, Memory.load_store]
      · exact ih orderedRest _ later

theorem loadAt_storeAt (control : SharedMemoryControl) (memory : Memory) (basePtr : Nat) :
    loadAt (control.storeAt memory basePtr) basePtr = control := by
  have ordered : control.members.Pairwise fun first second =>
      first.1 + first.2.length ≤ second.1 := by
    simp [members]
  have read : forall member, member ∈ control.members ->
      (control.storeAt memory basePtr).load (basePtr + member.1) member.2.length = member.2 :=
    fun member listed => load_member control.members ordered memory listed
  have narrow : forall {offset : Nat} {value : UInt32T},
    (offset, toLittleEndian 4 value.toNat) ∈ control.members ->
      BitVec.ofNat 32 (littleEndian ((control.storeAt memory basePtr).load (basePtr + offset) 4)) =
        value := by
    intro offset value listed
    have found := read _ listed
    rw [length_toLittleEndian] at found
    rw [found, littleEndian_toLittleEndian 4 value.toNat value.isLt, BitVec.ofNat_toNat,
      BitVec.setWidth_eq]
  have wide : forall {offset : Nat} {value : UInt64T},
    (offset, toLittleEndian 8 value.toNat) ∈ control.members ->
      BitVec.ofNat 64 (littleEndian ((control.storeAt memory basePtr).load (basePtr + offset) 8)) =
        value := by
    intro offset value listed
    have found := read _ listed
    rw [length_toLittleEndian] at found
    rw [found, littleEndian_toLittleEndian 8 value.toNat value.isLt, BitVec.ofNat_toNat,
      BitVec.setWidth_eq]
  have listed : forall member, member ∈ control.members -> member ∈ control.members :=
    fun _ member => member
  unfold members at listed
  simp only [List.forall_mem_cons] at listed
  rcases listed with ⟨magic, slab, slabs, header, write, read, _⟩
  rw [loadAt, narrow magic, narrow slab, narrow slabs, narrow header, wide write, wide read]

/-- The block depends on its own bytes only. -/
theorem loadAt_congr {left right : Memory} {basePtr : Nat}
    (same : forall address, basePtr ≤ address -> address < basePtr + size ->
      left address = right address) :
    loadAt left basePtr = loadAt right basePtr := by
  have loads : forall offset count, offset + count ≤ size ->
      left.load (basePtr + offset) count = right.load (basePtr + offset) count := by
    intro offset count inside
    apply List.map_congr_left
    intro index member
    have below := List.mem_range.mp member
    exact same _ (by omega) (by omega)
  simp only [loadAt, loads 0 4 (by decide), loads 4 4 (by decide), loads 8 4 (by decide),
    loads 12 4 (by decide),
    loads 64 8 (by decide), loads 128 8 (by decide)]

end SharedMemoryControl

/-- The calls that create and map a section.  No value stands for a null or an
invalid handle, and for a null address. -/
structure SectionApi where
  /-- `CreateFileMappingW` with the halves of the size and the name -/
  createFileMapping : (highSize : UInt32T) -> (lowSize : UInt32T) -> (name : String) -> Option Nat
  /-- `MapViewOfFile` of the whole section -/
  mapViewOfFile : (handle : Nat) -> (bytes : SizeT) -> Option Nat

/-- Every view lies in the address space of the process. -/
def SectionApi.ViewsAddressable (api : SectionApi) : Prop :=
  forall handle bytes basePtr, api.mapViewOfFile handle bytes = some basePtr ->
    basePtr + bytes.toNat ≤ 2 ^ 63

namespace SlabPool

def totalBytes (pool : SlabPool) : SizeT :=
  BitVec.ofNat 64 SharedMemoryControl.size + pool.slabSize * pool.maxSlabs

def highSize (pool : SlabPool) : UInt32T :=
  (pool.totalBytes >>> 32).setWidth 32

def lowSize (pool : SlabPool) : UInt32T :=
  (pool.totalBytes &&& 0xFFFFFFFF).setWidth 32

/-- What the control block says about the pool. -/
def control (pool : SlabPool) : SharedMemoryControl :=
  { magicNumber := 0x564F5254
    slabSize := pool.slabSize.setWidth 32
    maxSlabs := pool.maxSlabs.setWidth 32
    headerSize := BitVec.ofNat 32 SharedMemoryControl.size
    writeOffset := 0
    readOffset := 0 }

/-- `InitializeSharedMemory` with its calls and its control block. -/
def mapSharedMemory (api : SectionApi) (pool : SlabPool) (channelId : UInt32T) (memory : Memory) :
    Option (SlabPool × Memory) :=
  match api.createFileMapping pool.highSize pool.lowSize
    ("Local\\Vortex_Channel_" ++ toString channelId.toNat) with
  | none => none
  | some hMapFile =>
      match api.mapViewOfFile hMapFile pool.totalBytes with
      | none => none
      | some basePtr =>
          some (pool.initializeSharedMemory basePtr, pool.control.storeAt memory basePtr)

/-- Every region that the pool hands out lies behind the control block and inside
of the mapping. -/
def KeepsInside (pool : SlabPool) : Prop :=
  forall run message after slab, (slabMachine pool).ReachableUnder ObjectSized run ->
    ObjectSized run message ->
    run.pool.getNextSlab message = some (after, slab) ->
      pool.sharedMemoryBasePtr + SharedMemoryControl.size ≤ slab.destination ∧
        slab.destination + (SharedLogEntryHeader.size + message.length) ≤
          pool.sharedMemoryBasePtr + pool.totalBytes.toNat

theorem mapSharedMemory_eq {api : SectionApi} (addressable : api.ViewsAddressable)
    {pool mapped : SlabPool} {channelId : UInt32T} {memory memory' : Memory}
    (maps : mapSharedMemory api pool channelId memory = some (mapped, memory')) :
    Exists fun basePtr => mapped = pool.initializeSharedMemory basePtr ∧
      memory' = pool.control.storeAt memory basePtr ∧ basePtr + pool.totalBytes.toNat ≤ 2 ^ 63 := by
  rw [mapSharedMemory] at maps
  split at maps
  · cases maps
  · rename_i handle _
    split at maps
    · cases maps
    · rename_i basePtr view
      cases maps
      exact ⟨basePtr, rfl, rfl, addressable handle _ basePtr view⟩

end SlabPool

variable {pool after : SlabPool} {message : List Byte} {slab : Slab} {run : SlabRun} {slabs : Nat}

/-! ## Regions inside of the mapping -/

theorem confined_of_reachable (confined : pool.Confined slabs)
    {guard : SlabRun -> List Byte -> Prop} (reached : (slabMachine pool).ReachableUnder guard run) :
    run.pool.Confined slabs ∧ pool.SameGeometry run.pool := by
  apply reached.invariant
  · rintro _ rfl
    exact ⟨confined, .refl pool⟩
  · intro before message after _ holds _ moves
    change before.step message = some after at moves
    rw [SlabRun.step] at moves
    split at moves
    · cases moves
      exact holds
    · rename_i later slab taken
      cases moves
      exact SlabPool.Confined.getNextSlab_keeps holds taken

/-- A region of a confined pool begins in the data region and ends inside of its
slab. -/
theorem SlabPool.Confined.region_inside (confined : pool.Confined slabs)
    (short : message.length < 2 ^ 63) (taken : pool.getNextSlab message = some (after, slab)) :
    pool.dataRegionStart ≤ slab.destination ∧
      slab.destination + (SharedLogEntryHeader.size + message.length) ≤
        pool.dataRegionStart + pool.slabSize.toNat * slabs := by
  rcases confined.getNextSlab_places taken with ⟨still, places⟩
  have needed := SlabPool.totalNeeded_toNat short
  have ends := still.roomy.slab_end_le
  have inside := still.offset
  rw [places.offset, needed, places.geometry.slabSize] at inside
  rw [places.geometry.slabSize] at ends
  rw [places.destination]
  omega

theorem size_add_product (whole : pool.slabSize.toNat % 2 ^ 20 = 0) :
    pool.totalBytes.toNat = SharedMemoryControl.size + (pool.slabSize * pool.maxSlabs).toNat := by
  have multiple : (pool.slabSize * pool.maxSlabs).toNat % 2 ^ 20 = 0 := by
    rw [BitVec.toNat_mul, Nat.mod_mod_of_dvd _ (by decide : 2 ^ 20 ∣ 2 ^ 64), Nat.mul_mod, whole,
      Nat.zero_mul, Nat.zero_mod]
  have bound := (pool.slabSize * pool.maxSlabs).isLt
  rw [SlabPool.totalBytes, BitVec.toNat_add, SharedMemoryControl.size]
  change (192 + _) % _ = _
  omega

/-- The slabs that the mask leads to fit into the mapping. -/
theorem keepsInside_of_fits (unused : pool.Unused) (whole : pool.slabSize.toNat % 2 ^ 20 = 0)
    (addressable : pool.sharedMemoryBasePtr + pool.totalBytes.toNat ≤ 2 ^ 63)
    (fits : pool.slabSize.toNat * maskPeriod pool.maxSlabs ≤
      (pool.slabSize * pool.maxSlabs).toNat) :
    pool.KeepsInside := by
  intro run message after slab reached short taken
  have total := size_add_product whole
  have mapped : pool.slabSize.toNat * maskPeriod pool.maxSlabs < 2 ^ 63 := by
    rw [total, SharedMemoryControl.size] at addressable
    omega
  rcases confined_of_reachable
    (SlabPool.confined_of_maskPeriod mapped unused.index unused.offset) reached
    with ⟨confined, geometry⟩
  have inside := confined.region_inside short taken
  rw [SlabPool.dataRegionStart, geometry.sharedMemoryBasePtr, geometry.slabSize] at inside
  rw [total]
  omega

/-- A slab that the mask leads to but that is not mapped as a whole is written
beyond the mapping. -/
theorem not_keepsInside_of_exceeds (megabytes : Megabytes pool)
    (addressable : pool.sharedMemoryBasePtr + pool.totalBytes.toNat ≤ 2 ^ 63)
    (exceeds : (pool.slabSize * pool.maxSlabs).toNat < pool.slabSize.toNat *
      maskPeriod pool.maxSlabs) :
    ¬ pool.KeepsInside := by
  intro keeps
  have total := size_add_product megabytes.whole
  rcases megabytes.bounds with ⟨large, small, even⟩
  generalize mapped : (pool.slabSize * pool.maxSlabs).toNat = bytes at total exceeds
  -- the slab in which the mapping ends
  let turn := bytes / pool.slabSize.toNat
  have early : turn < maskPeriod pool.maxSlabs := Nat.div_lt_of_lt_mul exceeds
  have begins : turn * pool.slabSize.toNat ≤ bytes := Nat.div_mul_le_self _ _
  have ends : bytes < turn * pool.slabSize.toNat + pool.slabSize.toNat := by
    rw [← Nat.succ_mul, Nat.mul_comm]
    exact Nat.lt_mul_div_succ _ (by omega)
  rcases exists_standsAt megabytes turn with ⟨start, standsStart⟩
  rcases standsStart.halves megabytes with ⟨run, stands⟩
  have room : turn * pool.slabSize.toNat + (29 + pool.slabSize.toNat / 2) < 2 ^ 64 := by
    rcases Nat.eq_zero_or_pos turn with first | later
    · rw [first, Nat.zero_mul]
      omega
    · have one : pool.slabSize.toNat ≤ turn * pool.slabSize.toNat := Nat.le_mul_of_pos_left _ later
      rw [total] at addressable
      omega
  let length := pool.slabSize.toNat / 2 - 58
  have short : length < 2 ^ 63 := by omega
  have small := stands.fits megabytes.unused short (by omega)
  have stays : ¬ run.pool.RollsOver (messageOfLength length) := by
    rw [stands.rollsOver_iff megabytes.unused short (by omega)]
    omega
  have taken := SlabPool.getNextSlab_of_fits rfl small rfl
  have size : (messageOfLength length).length = length := List.length_replicate
  have sized : ObjectSized run (messageOfLength length) := by
    rw [ObjectSized, size]
    exact short
  have inside := (keeps run _ _ _ stands.reached sized taken).2
  rw [stands.destination megabytes.unused early room stays taken, size, total,
    SlabPool.dataRegionStart,
    SharedMemoryControl.size, SharedLogEntryHeader.size] at inside
  omega

/-- Nothing is handed out when the slabs have no room. -/
theorem keepsInside_of_slabSize_zero (none : pool.slabSize = 0) : pool.KeepsInside := by
  intro run message after slab reached short taken
  rw [(handsNothing none reached).1, getNextSlab_of_slabSize_zero none short] at taken
  cases taken

/-- Under any configuration whose section can be mapped, the regions lie inside
of the mapping exactly when the slabs that the mask leads to do. -/
theorem configured_regions_inside_iff {api : SectionApi} (addressable : api.ViewsAddressable)
    (file : ConfigFile) (channelId : UInt32T) (memory memory' : Memory)
    (maps : SlabPool.mapSharedMemory api
      (SlabPool.create (MainConfig.getUserCofig file).maxSlabs
        (MainConfig.getUserCofig file).slabsSize)
      channelId memory = some (pool, memory')) :
    pool.KeepsInside ↔ pool.slabSize = 0 ∨
      pool.slabSize.toNat * maskPeriod pool.maxSlabs ≤ (pool.slabSize * pool.maxSlabs).toNat := by
  rcases SlabPool.mapSharedMemory_eq addressable maps with ⟨basePtr, rfl, _, bound⟩
  have unused := configuredPool_unused (MainConfig.getUserCofig file) basePtr
  have whole := configuredPool_whole (MainConfig.getUserCofig file) basePtr
  constructor
  · intro keeps
    by_cases none : (configuredPool (MainConfig.getUserCofig file) basePtr).slabSize = 0
    · exact Or.inl none
    · refine Or.inr ?_
      by_contra exceeds
      exact not_keepsInside_of_exceeds ⟨unused, whole, none⟩ bound (Nat.lt_of_not_le exceeds) keeps
  · rintro (none | fits)
    · exact keepsInside_of_slabSize_zero none
    · exact keepsInside_of_fits unused whole bound fits

/-! ## A configuration without slabs -/

/-- Sections of up to a terabyte at a fixed address. -/
def terabyteApi : SectionApi where
  createFileMapping := fun _ _ _ => some 4
  mapViewOfFile := fun _ bytes => if bytes.toNat ≤ 2 ^ 40 then some 65536 else none

theorem terabyteApi_addressable : terabyteApi.ViewsAddressable := by
  intro handle bytes basePtr view
  change (if bytes.toNat ≤ 2 ^ 40 then some 65536 else none) = some basePtr at view
  split at view
  · cases view
    omega
  · cases view

theorem terabyteApi_maps {channelId : UInt32T} {memory : Memory}
    (small : pool.totalBytes.toNat ≤ 2 ^ 40) :
    pool.mapSharedMemory terabyteApi channelId memory =
      some (pool.initializeSharedMemory 65536, pool.control.storeAt memory 65536) := by
  simp only [SlabPool.mapSharedMemory, terabyteApi, if_pos small]

/-- The default configuration: ten slabs of one megabyte. -/
def defaultPool : SlabPool :=
  configuredPool (MainConfig.getUserCofig .unreadable) 65536

theorem configured_regions_inside_iff_default :
    defaultPool.KeepsInside ↔ defaultPool.slabSize = 0 ∨
      defaultPool.slabSize.toNat * maskPeriod defaultPool.maxSlabs ≤
        (defaultPool.slabSize * defaultPool.maxSlabs).toNat :=
  have small : (SlabPool.create 10 1).totalBytes.toNat ≤ 2 ^ 40 := by decide
  configured_regions_inside_iff terabyteApi_addressable .unreadable 0 (fun _ => 0) _
    (terabyteApi_maps small)

/-- A document with no slabs. -/
def noSlabs : ConfigFile :=
  .document fun name => if name = "max_slabs" then some (.unsigned 0) else none

/-- The section is created and mapped, and the first record goes behind it. -/
theorem noSlabs_writes_outside :
    Exists fun pool => Exists fun memory =>
      SlabPool.mapSharedMemory terabyteApi
          (SlabPool.create (MainConfig.getUserCofig noSlabs).maxSlabs
            (MainConfig.getUserCofig noSlabs).slabsSize)
          0 (fun _ => 0) = some (pool, memory) ∧
        ¬ pool.KeepsInside := by
  refine ⟨configuredPool (MainConfig.getUserCofig noSlabs) 65536, _,
    terabyteApi_maps (by decide), ?_⟩
  intro keeps
  have inside := (keeps _ [] _ _ (Machine.ReachableUnder.start rfl) (by decide : 0 < 2 ^ 63) rfl).2
  revert inside
  decide

end Network
end VortexEngine
