import VortexEngine.Network.RecordGrammar
import VortexEngine.Network.SharedMemory

open VortexEngine.Foundations VortexEngine.Core

namespace VortexEngine
namespace Network

/-!
# From an entry back to its record

A reader of the shared memory has nothing but the entry.  It finds the header
at `relative_offset` in the data region, and the message at `message_offset`,
which entry and header both give.  `get_next_slab` computes the address of the
region in `size_t`, but reports its offset through a `uint32_t`.  All offsets
of a record are derived from that report, although the two fields named
`relative_offset` have 64 bits.

A history is a sequence of calls of `parse_and_push` on one pool.
-/

/-- The calls of the scalar parser on one pool, with any records. -/
def parserMachine (pool : SlabPool) : Machine ParserState (UInt64T × StringView) where
  initial := fun state => state.slabPool = pool
  step := fun state call => some (parseAndPush call.1 call.2 state).state

def WithinStringView (_state : ParserState) (call : UInt64T × StringView) : Prop :=
  call.2.bytes.length < 2 ^ 63

/-- The header that an entry leads to. -/
def ParserState.headerOf (state : ParserState) (entry : LogEntry) : SharedLogEntryHeader :=
  SharedLogEntryHeader.loadAt state.memory
    (state.slabPool.dataRegionStart + entry.relativeOffset.toNat)

/-- The record as an entry leads to it. -/
structure RecordFields.ReadBack (fields : RecordFields) (entry : LogEntry)
    (state : ParserState) : Prop where
  timestamp : (state.headerOf entry).timestamp = fields.time
  logId : (state.headerOf entry).logId = fields.id
  level : (state.headerOf entry).level = fields.level.setWidth 8
  messageLen : (state.headerOf entry).messageLen.toNat = fields.message.length
  messageOfEntry : state.memory.load (state.slabPool.dataRegionStart + entry.messageOffset.toNat)
    (state.headerOf entry).messageLen.toNat = fields.message
  messageOfHeader : state.memory.load
    (state.slabPool.dataRegionStart + (state.headerOf entry).messageOffset.toNat)
    (state.headerOf entry).messageLen.toNat = fields.message

/-- Behind every call that pushes an entry, the entry leads back to the record. -/
def LeadsBack (pool : SlabPool) : Prop :=
  forall state clock rawData fields entry,
    (parserMachine pool).ReachableUnder WithinStringView state ->
    WithinStringView state (clock, rawData) -> scalarFields clock rawData.bytes = .ok fields ->
      (parseAndPush clock rawData state).pushed = some entry ->
        fields.ReadBack entry (parseAndPush clock rawData state).state

variable {pool : SlabPool} {state : ParserState} {slabs : Nat}

/-! ## Offsets below the word boundary -/

theorem parser_confined (confined : pool.Confined slabs)
    {guard : ParserState -> UInt64T × StringView -> Prop}
    (reached : (parserMachine pool).ReachableUnder guard state) :
    state.slabPool.Confined slabs ∧ pool.SameGeometry state.slabPool := by
  apply reached.invariant
  · rintro start rfl
    exact ⟨confined, .refl _⟩
  · rintro before ⟨clock, rawData⟩ after _ holds _ moves
    cases moves
    rcases finish_cases (scalarFields clock rawData.bytes) before with
      ⟨reason, outcome⟩ | ⟨fields, slabPool, slab, _, taken, outcome⟩
    · change (finish (scalarFields clock rawData.bytes) before).state.slabPool.Confined slabs ∧ _
      rw [parseAndPush, outcome]
      exact holds
    · rw [parseAndPush, outcome]
      exact SlabPool.Confined.getNextSlab_keeps holds taken

/-- A region that ends below the boundary is found again. -/
theorem RecordFields.readBack {fields : RecordFields} {slabPool : SlabPool} {slab : Slab}
    {offset : Nat} (destination : slab.destination = slabPool.dataRegionStart + offset)
    (reported : slab.outOffset.toNat = offset % 2 ^ 32)
    (below : offset + (SharedLogEntryHeader.size + fields.message.length) ≤ 2 ^ 32) :
    fields.ReadBack (fields.logEntry slab)
      { state with slabPool := slabPool, memory := fields.write slab state.memory } := by
  rw [SharedLogEntryHeader.size] at below
  rw [Nat.mod_eq_of_lt (by omega)] at reported
  have found : ParserState.headerOf
      { state with slabPool := slabPool, memory := fields.write slab state.memory }
        (fields.logEntry slab) =
        fields.header slab := by
    have address : slabPool.dataRegionStart + (slab.outOffset.setWidth 64 : UInt64T).toNat =
        slab.destination := by
      rw [BitVec.toNat_setWidth, reported, destination, Nat.mod_eq_of_lt (by omega)]
    change SharedLogEntryHeader.loadAt (fields.write slab state.memory)
      (slabPool.dataRegionStart + (slab.outOffset.setWidth 64 : UInt64T).toNat) = _
    rw [address, loadAt_write]
  have length : (fields.header slab).messageLen.toNat = fields.message.length := by
    change (BitVec.ofNat 32 fields.message.length).toNat = _
    rw [BitVec.toNat_ofNat, Nat.mod_eq_of_lt (by omega)]
  have payload : ((payloadOffset slab).setWidth 32 : UInt32T).toNat = (offset + 29) % 2 ^ 32 := by
    rw [payloadOffset, BitVec.toNat_setWidth, BitVec.toNat_add, BitVec.toNat_setWidth, reported,
      BitVec.toNat_ofNat, SharedLogEntryHeader.size]
    omega
  have message : (fields.write slab state.memory).load
      (slabPool.dataRegionStart + ((payloadOffset slab).setWidth 32 : UInt32T).toNat)
        fields.message.length =
        fields.message := by
    by_cases empty : fields.message = []
    · simp [empty, Memory.load]
    · have positive : 0 < fields.message.length := List.length_pos_iff.mpr empty
      rw [payload, Nat.mod_eq_of_lt (by omega), ← Nat.add_assoc, ← destination]
      exact load_message_write fields slab state.memory
  constructor
  · rw [found]
    rfl
  · rw [found]
    rfl
  · rw [found]
    rfl
  · rw [found, length]
  · rw [found, length]
    exact message
  · rw [found, length]
    exact message

theorem leadsBack_of_fits (unused : pool.Unused)
    (fits : pool.slabSize.toNat * maskPeriod pool.maxSlabs ≤ 2 ^ 32) :
    LeadsBack pool := by
  intro state clock rawData fields entry reached short parsed pushed
  have confined :=
    SlabPool.confined_of_maskPeriod (Nat.lt_of_le_of_lt fits (by decide)) unused.index unused.offset
  rcases parser_confined confined reached with ⟨holds, geometry⟩
  rcases finish_cases (scalarFields clock rawData.bytes) state with
    ⟨reason, outcome⟩ | ⟨accepted, slabPool, slab, again, taken, outcome⟩
  · rw [parseAndPush, outcome] at pushed
    cases pushed
  · rw [parseAndPush, outcome] at pushed ⊢
    cases pushed
    cases parsed.symm.trans again
    have brief : fields.message.length < 2 ^ 63 := by
      have part := scalarFields_message_le parsed
      have bound : rawData.bytes.length < 2 ^ 63 := short
      omega
    rcases holds.getNextSlab_places taken with ⟨_, places⟩
    have inside := (holds.region_inside brief taken).2
    have destination := places.destination
    rw [destination, geometry.slabSize] at inside
    have region : slabPool.dataRegionStart = state.slabPool.dataRegionStart := by
      rw [SlabPool.dataRegionStart, SlabPool.dataRegionStart, places.geometry.sharedMemoryBasePtr]
    rw [← region] at destination
    apply RecordFields.readBack destination places.outOffset
    rw [geometry.slabSize]
    omega

/-! ## A region at the word boundary -/

/-- A pool that has been filled with regions of half a megabyte. -/
structure Tiles (pool filled : SlabPool) (count : Nat) : Prop where
  geometry : pool.SameGeometry filled
  position : filled.writeIndex.toNat * pool.slabSize.toNat + filled.currentOffset.toNat =
    count * 2 ^ 19
  index : filled.writeIndex.toNat < maskPeriod pool.maxSlabs
  offset : filled.currentOffset.toNat ≤ pool.slabSize.toNat
  whole : filled.currentOffset.toNat % 2 ^ 19 = 0

theorem tiles_start (unused : pool.Unused) : Tiles pool pool 0 where
  geometry := ⟨rfl, rfl, rfl⟩
  position := by simp [unused.index, unused.offset]
  index := by simp [unused.index, maskPeriod_pos]
  offset := by simp [unused.offset]
  whole := by simp [unused.offset]

section Tiles

variable {filled : SlabPool} {count : Nat} {message : List Byte}

/-- The place of the next region, in its slab or in the next one. -/
theorem Tiles.makeRoom (megabytes : Megabytes pool) (tiles : Tiles pool filled count)
    (room : (count + 1) * 2 ^ 19 ≤ pool.slabSize.toNat * maskPeriod pool.maxSlabs)
    (needed : (SlabPool.totalNeeded message).toNat = 2 ^ 19) :
    Tiles pool (filled.makeRoom message) count ∧
      (filled.makeRoom message).currentOffset.toNat + 2 ^ 19 ≤ pool.slabSize.toNat := by
  rcases megabytes.bounds with ⟨large, small, _⟩
  have multiple := megabytes.whole
  have offset := tiles.offset
  have whole := tiles.whole
  have position := tiles.position
  have rolls : filled.RollsOver message ↔
      pool.slabSize.toNat < filled.currentOffset.toNat + 2 ^ 19 := by
    rw [SlabPool.RollsOver, BitVec.lt_def, BitVec.toNat_add, needed, tiles.geometry.slabSize,
      Nat.mod_eq_of_lt (by omega)]
  rw [SlabPool.makeRoom]
  split
  · rename_i full
    rw [rolls] at full
    have end' : filled.currentOffset.toNat = pool.slabSize.toNat := by omega
    have advanced : (filled.writeIndex.toNat + 1) * pool.slabSize.toNat = count * 2 ^ 19 := by
      rw [Nat.succ_mul, ← position, end']
    have below : filled.writeIndex.toNat + 1 < maskPeriod pool.maxSlabs := by
      by_contra last
      have bound := Nat.mul_le_mul_right pool.slabSize.toNat (Nat.not_lt.mp last)
      rw [Nat.mul_comm] at bound
      omega
    have index : (maskStep filled.maxSlabs filled.writeIndex).toNat =
        filled.writeIndex.toNat + 1 := by
      rw [tiles.geometry.maxSlabs, maskStep_toNat tiles.index, Nat.mod_eq_of_lt below]
    refine ⟨⟨⟨tiles.geometry.1, tiles.geometry.2, tiles.geometry.3⟩, ?_, ?_, ?_, ?_⟩, ?_⟩
    · change (maskStep filled.maxSlabs filled.writeIndex).toNat * pool.slabSize.toNat + 0 = _
      rw [index, Nat.add_zero, advanced]
    · change (maskStep filled.maxSlabs filled.writeIndex).toNat < _
      rw [index]
      exact below
    · simp
    · simp
    · simp
      omega
  · rename_i stays
    rw [rolls] at stays
    exact ⟨tiles, by omega⟩

theorem Tiles.next (megabytes : Megabytes pool) (tiles : Tiles pool filled count)
    (room : (count + 1) * 2 ^ 19 ≤ pool.slabSize.toNat * maskPeriod pool.maxSlabs)
    (low : count ≤ 2 ^ 13) (needed : (SlabPool.totalNeeded message).toNat = 2 ^ 19) :
    Exists fun after => Exists fun slab => filled.getNextSlab message = some (after, slab) ∧
      Tiles pool after (count + 1) ∧ slab.destination = pool.dataRegionStart + count * 2 ^ 19 ∧
        slab.outOffset.toNat = count * 2 ^ 19 % 2 ^ 32 := by
  rcases megabytes.bounds with ⟨large, small, _⟩
  rcases tiles.makeRoom megabytes room needed with ⟨ready, fits⟩
  have small : ¬ filled.slabSize < SlabPool.totalNeeded message := by
    rw [BitVec.lt_def, needed, tiles.geometry.slabSize]
    omega
  have taken := SlabPool.getNextSlab_of_fits rfl small rfl
  have position := ready.position
  have relative : (filled.makeRoom message).relativeBytes.toNat = count * 2 ^ 19 := by
    rw [SlabPool.relativeBytes, BitVec.toNat_add, BitVec.toNat_mul, ready.geometry.slabSize,
      Nat.mod_add_mod, position, Nat.mod_eq_of_lt (by omega)]
  have offset : ((filled.makeRoom message).currentOffset + SlabPool.totalNeeded message).toNat =
      (filled.makeRoom message).currentOffset.toNat + 2 ^ 19 := by
    rw [BitVec.toNat_add, needed, Nat.mod_eq_of_lt (by omega)]
  refine ⟨_, _, taken,
    ⟨⟨ready.geometry.1, ready.geometry.2, ready.geometry.3⟩, ?_, ready.index, ?_, ?_⟩, ?_, ?_⟩
  · change _ + ((filled.makeRoom message).currentOffset + SlabPool.totalNeeded message).toNat = _
    rw [offset, ← Nat.add_assoc, position]
    omega
  · change ((filled.makeRoom message).currentOffset + SlabPool.totalNeeded message).toNat ≤ _
    rw [offset]
    exact fits
  · change ((filled.makeRoom message).currentOffset + SlabPool.totalNeeded message).toNat % _ = 0
    have whole := ready.whole
    rw [offset]
    omega
  · change filled.dataRegionStart + _ = _
    rw [relative, SlabPool.dataRegionStart, SlabPool.dataRegionStart,
      tiles.geometry.sharedMemoryBasePtr]
  · change ((filled.makeRoom message).relativeBytes.setWidth 32).toNat = _
    rw [BitVec.toNat_setWidth, relative]

end Tiles

/-- A record at the fifth second with an identifier of one digit and a message of
the given length. -/
def paddedRecord (id : Byte) (length : Nat) : StringView :=
  { data := 0
    bytes := [0x35] ++ space :: ([0x30] ++ space :: ([id] ++ space :: messageOfLength length)) }

def paddedFields (id : Byte) (length : Nat) : RecordFields :=
  { time := 5
    level := 0
    id := BitVec.ofNat 32 (decimalValue [id])
    message := messageOfLength length }

theorem paddedRecord_parsed {id : Byte} (digit : id = 0x31 ∨ id = 0x32) (length : Nat) :
    scalarFields 5 (paddedRecord id length).bytes = .ok (paddedFields id length) := by
  have numeral : forall {width : Nat} {digit : Byte}, isDigit digit = true ->
    decimalValue [digit] < 2 ^ width ->
      IsNumeral width [digit] := by
    intro width digit isDigit fits
    exact ⟨List.cons_ne_nil _ _, by simpa using isDigit, fits⟩
  rcases digit with rfl | rfl <;>
    exact scalarFields_numerals _ (numeral (by decide) (by decide))
      (numeral (by decide) (by decide))
      (numeral (by decide) (by decide)) (by decide) (by decide) (by decide)

/-- The header in front of the data region is not touched by a write behind it. -/
theorem RecordFields.loadAt_write_before {fields : RecordFields} {slab : Slab} {memory : Memory}
    {address : Nat} (before : address + SharedLogEntryHeader.size ≤ slab.destination) :
    SharedLogEntryHeader.loadAt (fields.write slab memory) address =
      SharedLogEntryHeader.loadAt memory address := by
  rw [SharedLogEntryHeader.loadAt, write, Memory.load_store_apart (Or.inl (by omega)),
    Memory.load_store_apart (Or.inl before)]
  rfl

section Padded

variable {length : Nat}

/-- With the header the record takes half a megabyte. -/
theorem paddedFields_needed (half : 29 + length = 2 ^ 19) (id : Byte) :
    (SlabPool.totalNeeded (paddedFields id length).message).toNat = 2 ^ 19 := by
  change (SlabPool.totalNeeded (messageOfLength length)).toNat = _
  rw [totalNeeded_messageOfLength (by omega), half]

theorem paddedRecord_withinStringView (half : 29 + length = 2 ^ 19) (id : Byte)
    (state : ParserState) :
    WithinStringView state (5, paddedRecord id length) := by
  simp [WithinStringView, paddedRecord, messageOfLength]
  omega

theorem Tiles.stores (megabytes : Megabytes pool) {count : Nat}
    (tiles : Tiles pool state.slabPool count)
    (room : (count + 1) * 2 ^ 19 ≤ pool.slabSize.toNat * maskPeriod pool.maxSlabs)
    (low : count ≤ 2 ^ 13)
    (half : 29 + length = 2 ^ 19) {id : Byte} (digit : id = 0x31 ∨ id = 0x32) :
    Exists fun slabPool => Exists fun slab => Tiles pool slabPool (count + 1) ∧
      slab.destination = pool.dataRegionStart + count * 2 ^ 19 ∧
        slab.outOffset.toNat = count * 2 ^ 19 % 2 ^ 32 ∧
        parseAndPush 5 (paddedRecord id length) state =
          { state :=
              { state with
                slabPool := slabPool, memory := (paddedFields id length).write slab state.memory }
            pushed := some ((paddedFields id length).logEntry slab) } := by
  rcases tiles.next megabytes room low (paddedFields_needed half id) with
    ⟨slabPool, slab, taken, still, destination, reported⟩
  refine ⟨slabPool, slab, still, destination, reported, ?_⟩
  rw [parseAndPush, paddedRecord_parsed digit, finish, RecordFields.store, taken]

/-- Records of half a megabyte fill the slabs one behind the other, and the
header of the first one stays. -/
theorem exists_tiles (megabytes : Megabytes pool) (half : 29 + length = 2 ^ 19) {count : Nat}
    (low : count ≤ 2 ^ 13)
    (room : count * 2 ^ 19 ≤ pool.slabSize.toNat * maskPeriod pool.maxSlabs) :
    Exists fun state => (parserMachine pool).ReachableUnder WithinStringView state ∧
      Tiles pool state.slabPool count ∧
      (0 < count -> (SharedLogEntryHeader.loadAt state.memory pool.dataRegionStart).logId = 1) := by
  induction count with
  | zero =>
      refine ⟨{ session := NetworkSession.oneMebibyte, slabPool := pool, memory := fun _ => 0 }, ?_,
        ?_, ?_⟩
      · exact Machine.ReachableUnder.start rfl
      · exact tiles_start megabytes.unused
      · simp
  | succ count ih =>
      have lower : count ≤ 2 ^ 13 := Nat.le_of_succ_le low
      have smaller : count * 2 ^ 19 ≤ (count + 1) * 2 ^ 19 :=
        Nat.mul_le_mul_right _ (Nat.le_succ count)
      rcases ih lower (Nat.le_trans smaller room) with ⟨state, reached, tiles, first⟩
      rcases tiles.stores megabytes room lower half (Or.inl rfl) with
        ⟨slabPool, slab, still, destination, _, outcome⟩
      have moves : (parserMachine pool).step state (5, paddedRecord 0x31 length) =
          some (parseAndPush 5 (paddedRecord 0x31 length) state).state := rfl
      rw [outcome] at moves
      refine ⟨_, reached.next (paddedRecord_withinStringView half _ _) moves, still, ?_⟩
      intro _
      change (SharedLogEntryHeader.loadAt
        ((paddedFields 0x31 length).write slab state.memory) _).logId = 1
      rcases Nat.eq_zero_or_pos count with rfl | later
      · have here : pool.dataRegionStart = slab.destination := by
          rw [destination]
          omega
        rw [here, RecordFields.loadAt_write]
        rfl
      · rw [RecordFields.loadAt_write_before
          (by rw [destination, SharedLogEntryHeader.size]; omega)]
        exact first later

/-- A pool that goes past the word boundary reports a region there as the first
one. -/
theorem not_leadsBack_of_exceeds (megabytes : Megabytes pool)
    (exceeds : 2 ^ 32 < pool.slabSize.toNat * maskPeriod pool.maxSlabs) : ¬ LeadsBack pool := by
  intro leads
  have multiple : pool.slabSize.toNat * maskPeriod pool.maxSlabs % 2 ^ 20 = 0 := by
    rw [Nat.mul_mod, megabytes.whole, Nat.zero_mul, Nat.zero_mod]
  have room : (2 ^ 13 + 1) * 2 ^ 19 ≤ pool.slabSize.toNat * maskPeriod pool.maxSlabs := by omega
  have half : Exists fun length => 29 + length = 2 ^ 19 := ⟨2 ^ 19 - 29, rfl⟩
  rcases half with ⟨length, half⟩
  rcases exists_tiles megabytes half (Nat.le_refl (2 ^ 13)) (by omega) with
    ⟨state, reached, tiles, first⟩
  rcases tiles.stores megabytes room (Nat.le_refl _) half (Or.inr rfl) with
    ⟨slabPool, slab, still, destination, reported, outcome⟩
  have back := leads state 5 (paddedRecord 0x32 length) (paddedFields 0x32 length)
    ((paddedFields 0x32 length).logEntry slab) reached (paddedRecord_withinStringView half _ _)
    (paddedRecord_parsed (Or.inr rfl) length) (by rw [outcome])
  rw [outcome] at back
  have second := back.logId
  have reader : slabPool.dataRegionStart + (slab.outOffset.setWidth 64 : UInt64T).toNat =
      pool.dataRegionStart := by
    have none : slab.outOffset.toNat = 0 := reported
    rw [BitVec.toNat_setWidth, none, SlabPool.dataRegionStart, SlabPool.dataRegionStart,
      still.geometry.sharedMemoryBasePtr]
    rfl
  change (SharedLogEntryHeader.loadAt ((paddedFields 0x32 length).write slab state.memory)
    (slabPool.dataRegionStart + (slab.outOffset.setWidth 64 : UInt64T).toNat)).logId = 2 at second
  rw [reader,
    RecordFields.loadAt_write_before (by rw [destination, SharedLogEntryHeader.size]; omega),
    first (by decide)] at second
  cases second

end Padded

/-- The entries of a configured pool lead back to their records exactly when the
slabs that the mask leads to do not go past 4 GiB. -/
theorem stored_offsets_lead_back_iff (file : ConfigFile) (basePtr : Nat) :
    LeadsBack (configuredPool (MainConfig.getUserCofig file) basePtr) ↔
      (configuredPool (MainConfig.getUserCofig file) basePtr).slabSize.toNat *
        maskPeriod (configuredPool (MainConfig.getUserCofig file) basePtr).maxSlabs ≤ 2 ^ 32 := by
  have unused := configuredPool_unused (MainConfig.getUserCofig file) basePtr
  have whole := configuredPool_whole (MainConfig.getUserCofig file) basePtr
  constructor
  · intro leads
    by_contra exceeds
    have nonempty : (configuredPool (MainConfig.getUserCofig file) basePtr).slabSize ≠ 0 := by
      intro none
      simp [none] at exceeds
    exact not_leadsBack_of_exceeds ⟨unused, whole, nonempty⟩ (Nat.lt_of_not_le exceeds) leads
  · exact leadsBack_of_fits unused

/-- Eight slabs of one gigabyte. -/
def eightGigabytes : ConfigFile :=
  .document fun name =>
    if name = "log_size" then some (.unsigned 1024) else if name = "max_slabs" then
      some (.unsigned 8) else none

/-- The section is mapped, and the entry of a region behind 4 GiB leads to
another record. -/
theorem eightGigabytes_leads_astray :
    Exists fun pool => Exists fun memory =>
      SlabPool.mapSharedMemory terabyteApi
          (SlabPool.create (MainConfig.getUserCofig eightGigabytes).maxSlabs
            (MainConfig.getUserCofig eightGigabytes).slabsSize)
          0 (fun _ => 0) = some (pool, memory) ∧
        ¬ LeadsBack pool := by
  refine ⟨configuredPool (MainConfig.getUserCofig eightGigabytes) 65536, _,
    terabyteApi_maps (by decide), ?_⟩
  apply not_leadsBack_of_exceeds ⟨configuredPool_unused _ _, configuredPool_whole _ _, by decide⟩
  decide +kernel

end Network
end VortexEngine
