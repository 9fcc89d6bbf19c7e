import VortexEngine.Network.SlabRotation

open VortexEngine.Foundations

namespace VortexEngine
namespace Network

/-!
# Regions within a lap

Behind the last region of a slab there is the next region, until the test
`current_offset + total_needed > slab_size` begins another slab.  As long as
this sum does not wrap, every region lies in one slab, and two regions share a
byte only when the pool has come back to their slab in between.

The sum wraps only in a slab of at least `2 ^ 63` bytes.  There a message behind
the last one can pass the test although it does not fit.
-/

/-- What is promised about the regions of a pool, over all runs. -/
structure SlabsKeptApart (pool : SlabPool) : Prop where
  /-- a region lies inside of the slab `write_index` -/
  inside : forall run message after slab, (slabMachine pool).ReachableUnder ObjectSized run ->
    ObjectSized run message -> run.pool.getNextSlab message = some (after, slab) ->
      after.writeIndex.toNat < pool.maxSlabs.toNat ∧
        pool.dataRegionStart + after.writeIndex.toNat * pool.slabSize.toNat ≤ slab.destination ∧
        slab.destination + (SharedLogEntryHeader.size + message.length) ≤
          pool.dataRegionStart + after.writeIndex.toNat * pool.slabSize.toNat + pool.slabSize.toNat
  /-- a message is rejected when it is larger than a slab, and then nothing changes -/
  rejected : forall run message later, (slabMachine pool).ReachableUnder ObjectSized run ->
    ObjectSized run message -> pool.slabSize.toNat < SharedLogEntryHeader.size + message.length ->
      run.step message = some later -> later = run
  /-- two regions overlap only in one slab, with a rollover in between -/
  apart : forall run message after slab middle run' message' after' slab' later,
    (slabMachine pool).ReachableUnder ObjectSized run -> ObjectSized run message ->
      run.pool.getNextSlab message = some (after, slab) -> run.step message = some middle ->
        (slabMachine pool).RunsUnder ObjectSized middle run' -> ObjectSized run' message' ->
          run'.pool.getNextSlab message' = some (after', slab') ->
            run'.step message' = some later ->
            ¬ Memory.Apart slab.destination (SharedLogEntryHeader.size + message.length)
              slab'.destination (SharedLogEntryHeader.size + message'.length) ->
              after.writeIndex = after'.writeIndex ∧ middle.rollovers < later.rollovers

variable {pool after : SlabPool} {message : List Byte} {slab : Slab} {run later : SlabRun}
    {slabs : Nat}

/-! ## Roomy pools -/

theorem SlabPool.Unused.roomy (unused : pool.Unused) (slab : pool.slabSize.toNat < 2 ^ 63)
    (product : pool.slabSize.toNat * pool.maxSlabs.toNat < 2 ^ 64)
    (nonempty : 1 ≤ pool.maxSlabs.toNat) :
    pool.Roomy pool.maxSlabs.toNat := by
  refine ⟨slab, product, fun _ => SlabPool.maskStep_lt, ?_, ?_⟩
  · rw [unused.index]
    exact nonempty
  · simp [unused.offset]

theorem SlabRun.step_cases (moves : run.step message = some later) :
    (run.pool.getNextSlab message = none ∧ later = run) ∨
      Exists fun after => Exists fun slab => run.pool.getNextSlab message = some (after, slab) ∧
        later.pool = after ∧
          later.rollovers = if run.pool.RollsOver message then run.rollovers + 1 else
            run.rollovers := by
  unfold SlabRun.step at moves
  split at moves
  · rename_i rejects
    cases moves
    exact Or.inl ⟨rejects, rfl⟩
  · rename_i after slab taken
    cases moves
    exact Or.inr ⟨after, slab, taken, rfl, rfl⟩

theorem roomy_of_reachable (roomy : pool.Roomy slabs) {guard : SlabRun -> List Byte -> Prop}
    (reached : (slabMachine pool).ReachableUnder guard run) :
      run.pool.Roomy slabs ∧ pool.SameGeometry run.pool := by
  apply reached.invariant
  · rintro _ rfl
    exact ⟨roomy, .refl pool⟩
  · intro before message after _ holds _ moves
    rcases SlabRun.step_cases moves with ⟨_, rfl⟩ | ⟨next, slab, taken, rfl, _⟩
    · exact holds
    · exact ⟨(holds.1.getNextSlab_places taken).1,
        holds.2.trans (SlabPool.getNextSlab_geometry taken)⟩

/-- A region of a roomy pool: its bounds inside of its slab. -/
theorem SlabPool.Roomy.placed (roomy : pool.Roomy slabs) (short : message.length < 2 ^ 63)
    (taken : pool.getNextSlab message = some (after, slab)) :
    slab.destination = pool.dataRegionStart +
        (after.writeIndex.toNat * pool.slabSize.toNat +
          (pool.makeRoom message).currentOffset.toNat) ∧
      after.currentOffset.toNat =
        (pool.makeRoom message).currentOffset.toNat + (SharedLogEntryHeader.size + message.length) ∧
      after.currentOffset.toNat ≤ pool.slabSize.toNat := by
  rcases roomy.getNextSlab_places taken with ⟨still, places⟩
  refine ⟨places.destination, ?_, ?_⟩
  · rw [places.offset, SlabPool.totalNeeded_toNat short]
  · rw [← places.geometry.slabSize]
    exact still.offset

/-! ## Between two regions -/

/-- Since a moment, the pool has gone to another slab, or has filled the same
one further. -/
def SlabRun.Follows (earlier later : SlabRun) : Prop :=
  earlier.rollovers < later.rollovers ∨
    (later.rollovers = earlier.rollovers ∧ later.pool.writeIndex = earlier.pool.writeIndex ∧
      earlier.pool.currentOffset.toNat ≤ later.pool.currentOffset.toNat)

/-- An allocation without a rollover is made behind the present offset. -/
theorem SlabPool.Roomy.stays (roomy : pool.Roomy slabs) (short : message.length < 2 ^ 63)
    (taken : pool.getNextSlab message = some (after, slab)) (same : ¬ pool.RollsOver message) :
    after.writeIndex = pool.writeIndex ∧
      (pool.makeRoom message).currentOffset = pool.currentOffset ∧
      pool.currentOffset.toNat ≤ after.currentOffset.toNat := by
  rcases roomy.placed short taken with ⟨_, grown, _⟩
  have room : pool.makeRoom message = pool := if_neg same
  rw [room] at grown
  refine ⟨?_, congrArg _ room, by omega⟩
  rw [SlabPool.writeIndex_of_taken taken, if_neg same]

theorem SlabRun.Follows.step {earlier : SlabRun} (follows : earlier.Follows run)
    (roomy : run.pool.Roomy slabs) (short : message.length < 2 ^ 63)
    (moves : run.step message = some later) : earlier.Follows later := by
  rcases SlabRun.step_cases moves with ⟨_, rfl⟩ | ⟨after, slab, taken, rfl, rollovers⟩
  · exact follows
  · by_cases rolls : run.pool.RollsOver message
    · rw [if_pos rolls] at rollovers
      left
      rcases follows with more | ⟨same, _⟩ <;> omega
    · rw [if_neg rolls] at rollovers
      rcases roomy.stays short taken rolls with ⟨index, _, grown⟩
      rcases follows with more | ⟨same, sameIndex, filled⟩
      · left
        omega
      · exact Or.inr ⟨rollovers.trans same, index.trans sameIndex, filled.trans grown⟩

/-- What a run of a roomy pool keeps. -/
theorem SlabRun.follows_of_runs (roomy : run.pool.Roomy slabs)
    (runs : (slabMachine pool).RunsUnder ObjectSized run later) :
    run.Follows later ∧ later.pool.Roomy slabs ∧ run.pool.SameGeometry later.pool := by
  refine runs.preserves (I := fun state => run.Follows state ∧ state.pool.Roomy slabs ∧
    run.pool.SameGeometry state.pool) ?_ ⟨Or.inr ⟨rfl, rfl, Nat.le_refl _⟩, roomy, .refl _⟩
  intro before message after ⟨follows, roomy, geometry⟩ short moves
  refine ⟨follows.step roomy short moves, ?_⟩
  rcases SlabRun.step_cases moves with ⟨_, rfl⟩ | ⟨next, slab, taken, rfl, _⟩
  · exact ⟨roomy, geometry⟩
  · exact ⟨(roomy.getNextSlab_places taken).1, geometry.trans (SlabPool.getNextSlab_geometry taken)⟩

section Pairs

variable {first middle second last : SlabRun} {message' : List Byte} {after' : SlabPool}
    {slab' : Slab}

/-- Without a rollover in between, the second region begins behind the first. -/
theorem second_behind_first (roomy : first.pool.Roomy slabs) (short : message.length < 2 ^ 63)
    (taken : first.pool.getNextSlab message = some (after, slab))
    (moves : first.step message = some middle)
    (runs : (slabMachine pool).RunsUnder ObjectSized middle second)
    (short' : message'.length < 2 ^ 63)
    (taken' : second.pool.getNextSlab message' = some (after', slab'))
    (moves' : second.step message' = some last) (none : ¬ middle.rollovers < last.rollovers) :
    slab.destination + (SharedLogEntryHeader.size + message.length) ≤ slab'.destination := by
  rcases SlabRun.step_cases moves with ⟨rejects, _⟩ | ⟨_, _, same, rfl, _⟩
  · cases taken.symm.trans rejects
  · cases taken.symm.trans same
    have roomyMiddle := (roomy.getNextSlab_places taken).1
    rcases SlabRun.follows_of_runs roomyMiddle runs with ⟨follows, roomySecond, geometry⟩
    rcases SlabRun.step_cases moves' with ⟨rejects, _⟩ | ⟨_, _, same', _, rollovers⟩
    · cases taken'.symm.trans rejects
    · cases taken'.symm.trans same'
      rcases follows with more | ⟨turns, index, filled⟩
      · exfalso
        split at rollovers <;> omega
      · have stays : ¬ second.pool.RollsOver message' := by
          intro rolls
          rw [if_pos rolls] at rollovers
          omega
        rcases roomySecond.stays short' taken' stays with ⟨index', start, _⟩
        rcases roomy.placed short taken with ⟨destination, grown, _⟩
        rcases roomySecond.placed short' taken' with ⟨destination', _, _⟩
        have overall := (SlabPool.getNextSlab_geometry taken).trans geometry
        rw [destination, destination', SlabPool.dataRegionStart, SlabPool.dataRegionStart,
          overall.sharedMemoryBasePtr, overall.slabSize, start, index', index]
        omega

theorem apart_of_slabs (roomy : first.pool.Roomy slabs) (short : message.length < 2 ^ 63)
    (taken : first.pool.getNextSlab message = some (after, slab)) (roomy' : second.pool.Roomy slabs)
    (short' : message'.length < 2 ^ 63)
    (taken' : second.pool.getNextSlab message' = some (after', slab'))
    (geometry : first.pool.SameGeometry second.pool)
    (different : after.writeIndex ≠ after'.writeIndex) :
    Memory.Apart slab.destination (SharedLogEntryHeader.size + message.length)
      slab'.destination (SharedLogEntryHeader.size + message'.length) := by
  rcases roomy.placed short taken with ⟨destination, grown, inside⟩
  rcases roomy'.placed short' taken' with ⟨destination', grown', inside'⟩
  rw [SlabPool.dataRegionStart] at destination destination'
  rw [geometry.sharedMemoryBasePtr, geometry.slabSize] at destination'
  rw [geometry.slabSize] at inside'
  have apart : after.writeIndex.toNat ≠ after'.writeIndex.toNat :=
    fun same => different (BitVec.eq_of_toNat_eq same)
  unfold Memory.Apart
  rcases Nat.lt_or_gt_of_ne apart with before | behind
  · left
    have turns := Nat.mul_le_mul_right first.pool.slabSize.toNat before
    rw [Nat.succ_mul] at turns
    omega
  · right
    have turns := Nat.mul_le_mul_right first.pool.slabSize.toNat behind
    rw [Nat.succ_mul] at turns
    omega

end Pairs

/-- A pool whose slabs are smaller than `2 ^ 63` keeps its promises. -/
theorem slabsKeptApart_of_small (roomy : pool.Roomy pool.maxSlabs.toNat) : SlabsKeptApart pool := by
  constructor
  · intro run message after slab reached short taken
    rcases roomy_of_reachable roomy reached with ⟨here, geometry⟩
    rcases here.placed short taken with ⟨destination, grown, inside⟩
    rw [destination, SlabPool.dataRegionStart, SlabPool.dataRegionStart,
      geometry.sharedMemoryBasePtr,
      geometry.slabSize]
    rw [geometry.slabSize] at inside
    refine ⟨(here.getNextSlab_places taken).1.index, ?_, ?_⟩
    · omega
    · omega
  · intro run message later reached short large moves
    rcases SlabRun.step_cases moves with ⟨_, same⟩ | ⟨after, slab, taken, _, _⟩
    · exact same
    · have fits := (SlabPool.getNextSlab_pool taken).1
      rw [BitVec.le_def, SlabPool.totalNeeded_toNat short,
        (roomy_of_reachable roomy reached).2.slabSize] at fits
      omega
  · intro first message after slab middle second message' after' slab' last reached short taken
      moves runs short'
      taken' moves' overlap
    rcases roomy_of_reachable roomy reached with ⟨here, _⟩
    have again := reached.next short moves
    rcases roomy_of_reachable roomy (again.continue runs) with ⟨there, _⟩
    have geometry : first.pool.SameGeometry second.pool := by
      have start := (roomy_of_reachable roomy reached).2
      have finish := (roomy_of_reachable roomy (again.continue runs)).2
      exact ⟨finish.slabSize.trans start.slabSize.symm, finish.maxSlabs.trans start.maxSlabs.symm,
        finish.sharedMemoryBasePtr.trans start.sharedMemoryBasePtr.symm⟩
    constructor
    · by_contra different
      exact overlap (apart_of_slabs here short taken there short' taken' geometry different)
    · by_contra none
      exact overlap
        (Or.inl (second_behind_first here short taken moves runs short' taken' moves' none))

/-! ## Slabs in which the test wraps -/

section Wrapping

variable {offset length : Nat}

/-- When the sum of the test wraps, the region goes beyond its slab. -/
theorem StandsAt.straddles (unused : pool.Unused) (stands : StandsAt pool run 0 offset)
    (short : length < 2 ^ 63)
    (fits : 29 + length ≤ pool.slabSize.toNat) (wraps : 2 ^ 64 ≤ offset + (29 + length)) :
    Exists fun after => Exists fun slab =>
      run.pool.getNextSlab (messageOfLength length) = some (after, slab) ∧
      after.writeIndex.toNat = 0 ∧ slab.destination = pool.dataRegionStart + offset := by
  have walks := walks_of_reachable unused stands.reached
  have bound := pool.slabSize.isLt
  have inside : offset < 2 ^ 64 := by
    rw [← stands.offset]
    exact run.pool.currentOffset.isLt
  have stays : ¬ run.pool.RollsOver (messageOfLength length) := by
    rw [SlabPool.RollsOver, BitVec.lt_def, BitVec.toNat_add, stands.offset,
      totalNeeded_messageOfLength short,
      walks.geometry.slabSize]
    omega
  have taken := SlabPool.getNextSlab_of_fits rfl (stands.fits unused short fits) rfl
  refine ⟨_, _, taken, ?_, ?_⟩
  · rw [SlabPool.writeIndex_of_taken taken, if_neg stays, walks.index, stands.rollovers,
      Nat.zero_mod]
  · have destination := stands.destination unused (maskPeriod_pos _) (by omega) stays taken
    rw [Nat.zero_mul, Nat.zero_add] at destination
    exact destination

theorem not_slabsKeptApart_of_wraps (unused : pool.Unused) (stands : StandsAt pool run 0 offset)
    (short : length < 2 ^ 63) (fits : 29 + length ≤ pool.slabSize.toNat)
    (wraps : 2 ^ 64 ≤ offset + (29 + length)) : ¬ SlabsKeptApart pool := by
  intro kept
  have size : (messageOfLength length).length = length := List.length_replicate
  have bound := pool.slabSize.isLt
  rcases stands.straddles unused short fits wraps with ⟨after, slab, taken, index, destination⟩
  have sized : ObjectSized run (messageOfLength length) := by
    rw [ObjectSized, size]
    exact short
  have ends := (kept.inside run _ after slab stands.reached sized taken).2.2
  rw [index, destination, size, SharedLogEntryHeader.size] at ends
  omega

/-- Messages of one length fill a slab from its start. -/
theorem StandsAt.repeats (unused : pool.Unused) (short : length < 2 ^ 63) (count : Nat)
    (room : count * (29 + length) ≤ pool.slabSize.toNat) :
    Exists fun run => StandsAt pool run 0 (count * (29 + length)) := by
  induction count with
  | zero =>
      refine ⟨{ pool := pool, rollovers := 0, written := [] },
        Machine.ReachableUnder.start rfl, rfl, ?_⟩
      rw [unused.offset, Nat.zero_mul]
      rfl
  | succ count ih =>
      rw [Nat.succ_mul] at room ⊢
      rcases ih (by omega) with ⟨run, stands⟩
      exact stands.stays unused short room

end Wrapping

/-- With slabs whose total size is a `size_t`, the regions are kept apart exactly
when a slab has less than `2 ^ 63` bytes. -/
theorem slabsKeptApart_iff (unused : pool.Unused) (nonempty : 1 ≤ pool.maxSlabs.toNat)
    (product : pool.slabSize.toNat * pool.maxSlabs.toNat < 2 ^ 64) :
    SlabsKeptApart pool ↔ pool.slabSize.toNat < 2 ^ 63 := by
  constructor
  · intro kept
    by_contra large
    have short : 2 ^ 63 - 29 < 2 ^ 63 := by decide
    rcases StandsAt.repeats unused short 1 (by omega) with ⟨run, stands⟩
    exact not_slabsKeptApart_of_wraps unused stands short (by omega) (by omega) kept
  · intro small
    exact slabsKeptApart_of_small (unused.roomy small product nonempty)

/-- Ten slabs of a mebibyte, mapped somewhere. -/
theorem slabsKeptApart_iff_default :
    SlabsKeptApart (configuredPool {} 65536) ↔ (configuredPool {} 65536).slabSize.toNat < 2 ^ 63 :=
  slabsKeptApart_iff (configuredPool_unused {} 65536) (by decide) (by decide)

/-- One slab that a `size_t` can just count: `2 ^ 64 - 2 ^ 20` bytes. -/
def widestSlab : SlabPool :=
  SlabPool.create 1 (2 ^ 44 - 1)

theorem widestSlab_slabSize : widestSlab.slabSize.toNat = (2 ^ 44 - 1) * 2 ^ 20 := by
  decide

/-- Records that take a mebibyte each fill the slab, and the next one is placed
behind its end. -/
theorem widestSlab_straddled :
    widestSlab.slabSize.toNat * widestSlab.maxSlabs.toNat < 2 ^ 64 ∧
      (Exists fun run => Exists fun after => Exists fun slab =>
        (slabMachine widestSlab).ReachableUnder ObjectSized run ∧
          run.pool.getNextSlab (messageOfLength (2 ^ 20 - 29)) = some (after, slab) ∧
            widestSlab.dataRegionStart + widestSlab.slabSize.toNat ≤ slab.destination) ∧
      ¬ SlabsKeptApart widestSlab := by
  have unused : widestSlab.Unused := ⟨rfl, rfl⟩
  have short : 2 ^ 20 - 29 < 2 ^ 63 := by decide
  have size := widestSlab_slabSize
  rcases StandsAt.repeats unused short (2 ^ 44 - 1) (by rw [size]; decide) with ⟨run, stands⟩
  have wraps : 2 ^ 64 ≤ (2 ^ 44 - 1) * (29 + (2 ^ 20 - 29)) + (29 + (2 ^ 20 - 29)) := by decide
  rcases stands.straddles unused short (by rw [size]; decide) wraps with
    ⟨after, slab, taken, _, destination⟩
  refine ⟨by decide, ⟨run, after, slab, stands.reached, taken, ?_⟩, ?_⟩
  · rw [destination, size]
    exact Nat.add_le_add_left (by decide) _
  · exact not_slabsKeptApart_of_wraps unused stands short (by rw [size]; decide) wraps

end Network
end VortexEngine
