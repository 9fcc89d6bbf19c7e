import VortexEngine.Configuration
import VortexEngine.Foundations.MaskWalk
import VortexEngine.Foundations.Machine
import VortexEngine.Network.SlabPool

open VortexEngine.Foundations

namespace VortexEngine
namespace Network

/-!
# The rotation of the slabs

`get_next_slab` goes to the next slab by a mask, as the index of the log array
does.  The queue rounds its capacity to a power of two; the pool takes
`max_slabs` as it was configured.  The index therefore counts modulo the
largest power of two that divides `max_slabs`, and the slabs behind it are
never written.

A run of the pool is a sequence of messages.  It remembers how often the pool
has gone to another slab, and which slab every region lies in.
-/

structure SlabRun where
  pool : SlabPool
  rollovers : Nat
  /-- the slab of every region handed out, oldest first -/
  written : List Nat

/-- A string is no larger than an object can be. -/
def ObjectSized (_run : SlabRun) (message : List Byte) : Prop :=
  message.length < 2 ^ 63

namespace SlabRun

def step (run : SlabRun) (message : List Byte) : Option SlabRun :=
  match run.pool.getNextSlab message with
  | none => some run
  | some (after, _) =>
      some
        { pool := after
          rollovers := if run.pool.RollsOver message then run.rollovers + 1 else run.rollovers
          written := run.written ++ [after.writeIndex.toNat] }

end SlabRun

/-- The sequences of messages on one pool. -/
def slabMachine (pool : SlabPool) : Machine SlabRun (List Byte) where
  initial := fun run => run = { pool := pool, rollovers := 0, written := [] }
  step := SlabRun.step

/-- The pool of a queue once its shared memory is mapped. -/
def configuredPool (config : MainConfig) (basePtr : Nat) : SlabPool :=
  (SlabPool.create config.maxSlabs config.slabsSize).initializeSharedMemory basePtr

/-- The pool goes from slab to slab in the order of their numbers, all of them are
used, and a slab that has been left is written again only after all others. -/
structure RotatesThroughAll (pool : SlabPool) : Prop where
  next : forall run message after slab, (slabMachine pool).ReachableUnder ObjectSized run ->
    ObjectSized run message -> run.pool.getNextSlab message = some (after, slab) ->
      run.pool.RollsOver message ->
      after.writeIndex.toNat = (run.pool.writeIndex.toNat + 1) % pool.maxSlabs.toNat
  used : forall run, (slabMachine pool).ReachableUnder ObjectSized run -> run.written ≠ [] ->
    pool.maxSlabs.toNat ≤ run.rollovers + 1 -> forall slab, slab < pool.maxSlabs.toNat ->
      slab ∈ run.written
  others : forall run earlier slab middle later,
    (slabMachine pool).ReachableUnder ObjectSized run ->
    run.written = earlier ++ slab :: (middle ++ slab :: later) ->
      (Exists fun left => left ∈ middle ∧ left ≠ slab) ->
      forall other, other < pool.maxSlabs.toNat -> other ≠ slab -> other ∈ middle

variable {pool after : SlabPool} {message : List Byte} {slab : Slab} {run : SlabRun}

/-! ## The walk of the index -/

/-- The rollovers that had happened when each region was handed out. -/
structure SlabRun.Turns (run : SlabRun) (period : Nat) (turns : List Nat) : Prop where
  written : run.written = turns.map (· % period)
  climbs : turns.IsChain Climbs
  first : forall turn, turns.head? = some turn -> turn = 0
  last : forall turn, turns.getLast? = some turn -> turn = run.rollovers
  fresh : turns = [] -> run.rollovers = 0 ∧ run.pool.currentOffset = 0

/-- The index counts the rollovers modulo the period of the mask. -/
structure SlabRun.Walks (pool : SlabPool) (run : SlabRun) : Prop where
  geometry : pool.SameGeometry run.pool
  index : run.pool.writeIndex.toNat = run.rollovers % maskPeriod pool.maxSlabs
  turns : Exists fun turns => run.Turns (maskPeriod pool.maxSlabs) turns

/-- A pool before its first message. -/
structure SlabPool.Unused (pool : SlabPool) : Prop where
  index : pool.writeIndex = 0
  offset : pool.currentOffset = 0

theorem configuredPool_unused (config : MainConfig)
    (basePtr : Nat) : (configuredPool config basePtr).Unused :=
  ⟨rfl, rfl⟩

/-- A message at the start of a slab stays in it. -/
theorem SlabPool.not_rollsOver_of_start (start : pool.currentOffset = 0)
    (fits : totalNeeded message ≤ pool.slabSize) : ¬ pool.RollsOver message := by
  simpa [RollsOver, start] using fits

theorem SlabPool.writeIndex_of_taken (taken : pool.getNextSlab message = some (after, slab)) :
    after.writeIndex =
      if pool.RollsOver message then maskStep pool.maxSlabs pool.writeIndex else
        pool.writeIndex := by
  rw [(getNextSlab_pool taken).2]
  change (pool.makeRoom message).writeIndex = _
  rw [makeRoom]
  split <;> rfl

theorem SlabRun.Walks.taken {origin : SlabPool} (walks : run.Walks origin)
    (taken : run.pool.getNextSlab message = some (after, slab)) :
    origin.SameGeometry after ∧
      after.writeIndex.toNat =
        (if run.pool.RollsOver message then run.rollovers + 1 else run.rollovers) %
          maskPeriod origin.maxSlabs := by
  have geometry := walks.geometry
  have index := walks.index
  constructor
  · exact geometry.trans (SlabPool.getNextSlab_geometry taken)
  · rw [SlabPool.writeIndex_of_taken taken]
    split
    · have inside : run.pool.writeIndex.toNat < maskPeriod run.pool.maxSlabs := by
        rw [index, geometry.maxSlabs]
        exact Nat.mod_lt _ (maskPeriod_pos _)
      rw [maskStep_toNat inside, index, geometry.maxSlabs, Nat.mod_add_mod]
    · exact index

theorem SlabRun.Turns.append {period : Nat} {turns : List Nat} (holds : run.Turns period turns)
    (taken : run.pool.getNextSlab message = some (after, slab)) {next : Nat}
    (turned : next = if run.pool.RollsOver message then run.rollovers + 1 else run.rollovers) :
    SlabRun.Turns
      { pool := after, rollovers := next, written := run.written ++ [next % period] } period
      (turns ++ [next]) := by
  have climbing : Climbs run.rollovers next := by
    rw [turned, Climbs]
    split
    · exact Or.inr rfl
    · exact Or.inl rfl
  constructor
  · simp [holds.written]
  · rw [List.isChain_append]
    refine ⟨holds.climbs, List.isChain_singleton _, ?_⟩
    intro last lastTurn added same
    cases same
    rw [holds.last last lastTurn]
    exact climbing
  · intro turn firstTurn
    cases turns with
    | nil =>
        rcases holds.fresh rfl with ⟨none, start⟩
        have stays := SlabPool.not_rollsOver_of_start start (SlabPool.getNextSlab_pool taken).1
        simp only [List.nil_append, List.head?_cons, Option.some.injEq] at firstTurn
        rw [← firstTurn, turned, if_neg stays, none]
    | cons earliest turns => exact holds.first turn firstTurn
  · simp
  · simp

theorem walks_of_reachable (unused : pool.Unused) {guard : SlabRun -> List Byte -> Prop}
    (reached : (slabMachine pool).ReachableUnder guard run) : run.Walks pool := by
  apply reached.invariant
  · rintro _ rfl
    refine ⟨⟨rfl, rfl, rfl⟩, ?_, [], ?_⟩
    · simp [unused.index]
    · constructor <;> simp [unused.offset]
  · intro before message later _ walks _ moves
    change before.step message = some later at moves
    rw [SlabRun.step] at moves
    split at moves
    · cases moves
      exact walks
    · rename_i after slab taken
      cases moves
      rcases walks.taken taken with ⟨geometry, index⟩
      rcases walks.turns with ⟨turns, holds⟩
      have extended := holds.append taken rfl
      rw [← index] at extended
      exact ⟨geometry, index, _, extended⟩

/-! ## A power of two of slabs -/

theorem rotates_of_maskPeriod (unused : pool.Unused)
    (whole : maskPeriod pool.maxSlabs = pool.maxSlabs.toNat) :
    RotatesThroughAll pool := by
  constructor
  · intro run message after slab reached _ taken rolls
    have walks := walks_of_reachable unused reached
    have index := (walks.taken taken).2
    rw [if_pos rolls, whole] at index
    rw [index, walks.index, whole, Nat.mod_add_mod]
  · intro run reached written enough slab inside
    rcases (walks_of_reachable unused reached).turns with ⟨turns, holds⟩
    rw [holds.written, whole]
    cases turns with
    | nil => exact absurd holds.written written
    | cons first rest =>
        have start : first = 0 := holds.first first rfl
        have last := holds.last _ (List.getLast?_eq_some_getLast (List.cons_ne_nil first rest))
        have member : slab ∈ first :: rest := by
          apply mem_of_climbing holds.climbs (List.getLast_mem (List.cons_ne_nil first rest))
          · omega
          · omega
        have reading := List.mem_map_of_mem (f := (· % pool.maxSlabs.toNat)) member
        rw [Nat.mod_eq_of_lt inside] at reading
        exact reading
  · intro run earlier slab middle later reached split left other inside different
    rcases (walks_of_reachable unused reached).turns with ⟨turns, holds⟩
    have shape := holds.written.symm.trans split
    rw [whole] at shape
    rcases List.map_eq_append_iff.mp shape with ⟨before, fromFirst, rfl, _, visits⟩
    rcases List.map_eq_cons_iff.mp visits with ⟨first, behind, rfl, firstSlab, visitsBehind⟩
    rcases List.map_eq_append_iff.mp visitsBehind with ⟨between, fromLast, rfl, rfl, visitsAgain⟩
    rcases List.map_eq_cons_iff.mp visitsAgain with ⟨last, rest, rfl, lastSlab, _⟩
    rcases left with ⟨_, member, elsewhere⟩
    rcases List.mem_map.mp member with ⟨reading, found, rfl⟩
    have climbs : List.IsChain Climbs (first :: (between ++ [last])) := by
      apply holds.climbs.infix
      exact ⟨before, rest, by simp⟩
    rw [← firstSlab] at elsewhere different
    exact mem_between_same_remainder climbs
      (lastSlab.trans firstSlab.symm) found elsewhere inside different

/-! ## Any other number of slabs -/

/-- The slab size counts whole megabytes. -/
theorem create_slabSize_mod
    (max size : SizeT) : (SlabPool.create max size).slabSize.toNat % 2 ^ 20 = 0 := by
  change (size * 1024 * 1024).toNat % 2 ^ 20 = 0
  rw [BitVec.toNat_mul, BitVec.toNat_mul, show (1024 : SizeT).toNat = 1024 from rfl]
  omega

theorem configuredPool_whole (config : MainConfig) (basePtr : Nat) :
    (configuredPool config basePtr).slabSize.toNat % 2 ^ 20 = 0 :=
  create_slabSize_mod config.maxSlabs config.slabsSize

/-- A reachable run that stands at an offset behind a number of rollovers. -/
structure StandsAt (pool : SlabPool) (run : SlabRun) (rollovers offset : Nat) : Prop where
  reached : (slabMachine pool).ReachableUnder ObjectSized run
  rollovers : run.rollovers = rollovers
  offset : run.pool.currentOffset.toNat = offset

/-- A message of the given length. -/
def messageOfLength (length : Nat) : List Byte :=
  List.replicate length 0

section Filling

variable {rollovers offset length : Nat}

theorem totalNeeded_messageOfLength (short : length < 2 ^ 63) :
    (SlabPool.totalNeeded (messageOfLength length)).toNat = 29 + length := by
  have size : (messageOfLength length).length = length := List.length_replicate
  rw [SlabPool.totalNeeded_toNat (size.symm ▸ short), size, SharedLogEntryHeader.size]

theorem StandsAt.fits (unused : pool.Unused) (stands : StandsAt pool run rollovers offset)
    (short : length < 2 ^ 63) (fits : 29 + length ≤ pool.slabSize.toNat) :
    ¬ run.pool.slabSize < SlabPool.totalNeeded (messageOfLength length) := by
  rw [BitVec.lt_def, totalNeeded_messageOfLength short,
    (walks_of_reachable unused stands.reached).geometry.slabSize]
  omega

theorem StandsAt.rollsOver_iff (unused : pool.Unused) (stands : StandsAt pool run rollovers offset)
    (short : length < 2 ^ 63) (room : offset + (29 + length) < 2 ^ 64) :
    run.pool.RollsOver (messageOfLength length) ↔ pool.slabSize.toNat < offset + (29 + length) := by
  rw [SlabPool.RollsOver, BitVec.lt_def, BitVec.toNat_add, stands.offset,
    totalNeeded_messageOfLength short,
    (walks_of_reachable unused stands.reached).geometry.slabSize, Nat.mod_eq_of_lt room]

theorem StandsAt.take (stands : StandsAt pool run rollovers offset)
    (short : message.length < 2 ^ 63) (taken : run.pool.getNextSlab message = some (after, slab)) :
    Exists fun later => later.pool = after ∧
      StandsAt pool later (if run.pool.RollsOver message then rollovers + 1 else rollovers)
        after.currentOffset.toNat := by
  have moves : (slabMachine pool).step run message = some
      { pool := after
        rollovers := if run.pool.RollsOver message then run.rollovers + 1 else run.rollovers
        written := run.written ++ [after.writeIndex.toNat] } := by
    simp [slabMachine, SlabRun.step, taken]
  exact ⟨_, rfl, stands.reached.next short moves, by rw [stands.rollovers], rfl⟩

theorem StandsAt.stays (unused : pool.Unused) (stands : StandsAt pool run rollovers offset)
    (short : length < 2 ^ 63) (room : offset + (29 + length) ≤ pool.slabSize.toNat) :
    Exists fun later => StandsAt pool later rollovers (offset + (29 + length)) := by
  have bound := pool.slabSize.isLt
  have stays : ¬ run.pool.RollsOver (messageOfLength length) := by
    rw [stands.rollsOver_iff unused short (by omega)]
    omega
  have size : (messageOfLength length).length = length := List.length_replicate
  have taken := SlabPool.getNextSlab_of_fits rfl (stands.fits unused short (by omega)) rfl
  rcases stands.take (size.symm ▸ short) taken with ⟨later, _, standsLater⟩
  have offset : (run.pool.currentOffset + SlabPool.totalNeeded (messageOfLength length)).toNat =
      offset + (29 + length) := by
    rw [BitVec.toNat_add, stands.offset, totalNeeded_messageOfLength short]
    exact Nat.mod_eq_of_lt (by omega)
  rw [if_neg stays, SlabPool.makeRoom, if_neg stays, offset] at standsLater
  exact ⟨later, standsLater⟩

theorem StandsAt.destination (unused : pool.Unused) (stands : StandsAt pool run rollovers offset)
    (early : rollovers < maskPeriod pool.maxSlabs)
    (small : rollovers * pool.slabSize.toNat + offset < 2 ^ 64)
    (stays : ¬ run.pool.RollsOver message)
    (taken : run.pool.getNextSlab message = some (after, slab)) :
    slab.destination = pool.dataRegionStart + (rollovers * pool.slabSize.toNat + offset) := by
  have walks := walks_of_reachable unused stands.reached
  have index : run.pool.writeIndex.toNat = rollovers := by
    rw [walks.index, stands.rollovers, Nat.mod_eq_of_lt early]
  have relative : run.pool.relativeBytes.toNat = rollovers * pool.slabSize.toNat + offset := by
    rw [SlabPool.relativeBytes, BitVec.toNat_add, BitVec.toNat_mul, index, stands.offset,
      walks.geometry.slabSize,
      Nat.mod_add_mod, Nat.mod_eq_of_lt small]
  rw [SlabPool.getNextSlab] at taken
  split at taken
  · cases taken
  · cases taken
    rw [SlabPool.makeRoom, if_neg stays, relative, SlabPool.dataRegionStart,
      SlabPool.dataRegionStart,
      walks.geometry.sharedMemoryBasePtr]

theorem StandsAt.turns (unused : pool.Unused) (stands : StandsAt pool run rollovers offset)
    (rolls : run.pool.RollsOver (messageOfLength length)) (short : length < 2 ^ 63)
    (fits : 29 + length ≤ pool.slabSize.toNat) :
    Exists fun later => StandsAt pool later (rollovers + 1) (29 + length) := by
  have size : (messageOfLength length).length = length := List.length_replicate
  have taken := SlabPool.getNextSlab_of_fits rfl (stands.fits unused short fits) rfl
  rcases stands.take (size.symm ▸ short) taken with ⟨later, _, standsLater⟩
  have offset : (0 + SlabPool.totalNeeded (messageOfLength length)).toNat = 29 + length := by
    simp [totalNeeded_messageOfLength short]
  rw [if_pos rolls, SlabPool.makeRoom, if_pos rolls, offset] at standsLater
  exact ⟨later, standsLater⟩

end Filling

section Rounds

variable {rollovers : Nat}

/-- A pool of megabyte slabs that has been started. -/
structure Megabytes (pool : SlabPool) : Prop where
  unused : pool.Unused
  whole : pool.slabSize.toNat % 2 ^ 20 = 0
  nonempty : pool.slabSize ≠ 0

theorem Megabytes.bounds (megabytes : Megabytes pool) :
    2 ^ 20 ≤ pool.slabSize.toNat ∧ pool.slabSize.toNat ≤ 2 ^ 64 - 2 ^ 20 ∧
      pool.slabSize.toNat % 2 = 0 := by
  have whole := megabytes.whole
  have bound := pool.slabSize.isLt
  have positive : pool.slabSize.toNat ≠ 0 :=
    fun none => megabytes.nonempty (BitVec.eq_of_toNat_eq none)
  omega

/-- A message of half a slab behind an empty one. -/
theorem StandsAt.halves (megabytes : Megabytes pool) (stands : StandsAt pool run rollovers 29) :
    Exists fun later => StandsAt pool later rollovers (29 + pool.slabSize.toNat / 2) := by
  rcases megabytes.bounds with ⟨large, small, even⟩
  rcases @StandsAt.stays pool run rollovers 29
    (pool.slabSize.toNat / 2 - 29) megabytes.unused stands
    (by omega) (by omega) with ⟨later, standsLater⟩
  have half : 29 + (pool.slabSize.toNat / 2 - 29) = pool.slabSize.toNat / 2 := by omega
  rw [half] at standsLater
  exact ⟨later, standsLater⟩

theorem StandsAt.fills (megabytes : Megabytes pool) (stands : StandsAt pool run rollovers 29) :
    Exists fun later => StandsAt pool later rollovers pool.slabSize.toNat := by
  rcases megabytes.bounds with ⟨large, small, even⟩
  rcases stands.halves megabytes with ⟨middle, standsMiddle⟩
  rcases @StandsAt.stays pool middle rollovers _
    (pool.slabSize.toNat / 2 - 58) megabytes.unused standsMiddle
    (by omega) (by omega) with ⟨later, standsLater⟩
  have full : 29 + pool.slabSize.toNat / 2 + (29 + (pool.slabSize.toNat / 2 - 58)) =
      pool.slabSize.toNat := by
    omega
  rw [full] at standsLater
  exact ⟨later, standsLater⟩

/-- Behind a full slab the empty message begins the next one. -/
theorem StandsAt.full_rolls (megabytes : Megabytes pool)
    (stands : StandsAt pool run rollovers pool.slabSize.toNat) :
      run.pool.RollsOver (messageOfLength 0) := by
  rcases megabytes.bounds with ⟨large, small, even⟩
  rw [stands.rollsOver_iff megabytes.unused (by decide) (by omega)]
  omega

/-- The pool comes to any number of rollovers. -/
theorem exists_standsAt (megabytes : Megabytes pool) (rollovers : Nat) :
    Exists fun run => StandsAt pool run rollovers 29 := by
  rcases megabytes.bounds with ⟨large, small, even⟩
  induction rollovers with
  | zero =>
      have start : StandsAt pool { pool := pool, rollovers := 0, written := [] } 0 0 :=
        ⟨Machine.ReachableUnder.start rfl, rfl, by simp [megabytes.unused.offset]⟩
      exact @StandsAt.stays pool _ 0 0 0 megabytes.unused start (by decide) (by omega)
  | succ rollovers ih =>
      rcases ih with ⟨run, stands⟩
      rcases stands.fills megabytes with ⟨full, standsFull⟩
      exact standsFull.turns megabytes.unused (standsFull.full_rolls megabytes)
        (by decide) (by omega)

end Rounds

/-- The mask of another number of slabs leads back to the first slab too early. -/
theorem not_rotates_of_maskPeriod (megabytes : Megabytes pool) (slabs : pool.maxSlabs ≠ 0)
    (short : maskPeriod pool.maxSlabs ≠ pool.maxSlabs.toNat) : ¬ RotatesThroughAll pool := by
  intro rotates
  have positive := maskPeriod_pos pool.maxSlabs
  rcases megabytes.bounds with ⟨large, small, even⟩
  rcases exists_standsAt megabytes (maskPeriod pool.maxSlabs - 1) with ⟨run, stands⟩
  rcases stands.fills megabytes with ⟨full, standsFull⟩
  have rolls := standsFull.full_rolls megabytes
  have walks := walks_of_reachable megabytes.unused standsFull.reached
  have last : full.pool.writeIndex.toNat + 1 = maskPeriod pool.maxSlabs := by
    rw [walks.index, standsFull.rollovers, Nat.mod_eq_of_lt (by omega)]
    omega
  have small : ¬ full.pool.slabSize < SlabPool.totalNeeded (messageOfLength 0) :=
    standsFull.fits megabytes.unused (by decide) (by omega)
  have taken := SlabPool.getNextSlab_of_fits rfl small rfl
  have expected := rotates.next full (messageOfLength 0) _ _ standsFull.reached
    (by decide : 0 < 2 ^ 63) taken rolls
  have index := SlabPool.writeIndex_of_taken taken
  rw [if_pos rolls, walks.geometry.maxSlabs] at index
  rw [index] at expected
  exact maskStep_last slabs last short expected

theorem getNextSlab_of_slabSize_zero (none : pool.slabSize = 0) (short : message.length < 2 ^ 63) :
    pool.getNextSlab message = Option.none := by
  rw [SlabPool.getNextSlab_eq_none, none, BitVec.lt_def, SlabPool.totalNeeded_toNat short,
    SharedLogEntryHeader.size]
  exact Nat.lt_of_lt_of_le (by decide) (Nat.le_add_right 29 _)

theorem handsNothing (none : pool.slabSize = 0)
    (reached : (slabMachine pool).ReachableUnder ObjectSized run) :
    run.pool = pool ∧ run.written = [] := by
  apply reached.invariant
  · rintro _ rfl
    exact ⟨rfl, rfl⟩
  · intro before message after _ holds short moves
    change before.step message = some after at moves
    rw [SlabRun.step, holds.1, getNextSlab_of_slabSize_zero none short] at moves
    cases moves
    exact holds

theorem rotates_of_slabSize_zero (none : pool.slabSize = 0) : RotatesThroughAll pool := by
  constructor
  · intro run message after slab reached short taken
    rw [(handsNothing none reached).1, getNextSlab_of_slabSize_zero none short] at taken
    cases taken
  · intro run reached written
    exact absurd (handsNothing none reached).2 written
  · intro run earlier slab middle later reached split
    rw [(handsNothing none reached).2] at split
    simp at split

theorem rotates_iff (unused : pool.Unused) (whole : pool.slabSize.toNat % 2 ^ 20 = 0)
    (slabs : pool.maxSlabs ≠ 0) :
    RotatesThroughAll pool ↔ pool.slabSize = 0 ∨ Exists fun exponent =>
      pool.maxSlabs.toNat = 2 ^ exponent := by
  rw [← maskPeriod_eq_iff slabs]
  constructor
  · intro rotates
    by_cases none : pool.slabSize = 0
    · exact Or.inl none
    · refine Or.inr ?_
      by_contra short
      exact not_rotates_of_maskPeriod ⟨unused, whole, none⟩ slabs short rotates
  · rintro (none | period)
    · exact rotates_of_slabSize_zero none
    · exact rotates_of_maskPeriod unused period

/-- The slabs of a configured pool rotate exactly when their number is a power of
two, or when the pool cannot hold any record. -/
theorem configured_slabs_rotate_iff (file : ConfigFile) (basePtr : Nat)
    (slabs : 1 ≤ (MainConfig.getUserCofig file).maxSlabs.toNat) :
    RotatesThroughAll (configuredPool (MainConfig.getUserCofig file) basePtr) ↔
      (configuredPool (MainConfig.getUserCofig file) basePtr).slabSize = 0 ∨
        Exists fun exponent => (MainConfig.getUserCofig file).maxSlabs.toNat = 2 ^ exponent := by
  apply rotates_iff (configuredPool_unused _ _) (configuredPool_whole _ _)
  intro none
  change (MainConfig.getUserCofig file).maxSlabs = 0 at none
  simp [none] at slabs

theorem configured_slabs_rotate_iff_default :
    RotatesThroughAll (configuredPool {} 65536) ↔
      (configuredPool {} 65536).slabSize = 0 ∨ Exists fun exponent => 10 = 2 ^ exponent :=
  configured_slabs_rotate_iff .unreadable 65536 (by decide)

/-- Of the ten slabs of the default configuration the mask reaches two. -/
theorem default_slabs_skipped :
    ¬ RotatesThroughAll (configuredPool (MainConfig.getUserCofig .unreadable) 65536) := by
  apply not_rotates_of_maskPeriod
    ⟨configuredPool_unused _ _, configuredPool_whole _ _, by decide⟩ (by decide)
  decide +kernel

end Network
end VortexEngine
