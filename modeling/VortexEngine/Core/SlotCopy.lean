import VortexEngine.Core.Provenance

open VortexEngine.Foundations

namespace VortexEngine
namespace Core

/-!
# Slots that are copied in pieces

An entry is 29 bytes long, and neither the assignment to a slot in `push` nor
the one from a slot in `pop` is atomic.  The queue system makes one step of
each.  Here both go piece by piece, in order, with any number of pieces, and
the other thread may move between two of them.

The two queues are the same as long as the threads never copy the same slot at
once.  A whole slot then stands for the one that is being written, from before
its first piece to behind its last one, and the consumer gathers what the whole
slot holds.  Under `DropAll` the threads never meet in a slot.  Under the other
profiles they can, and then `pop` may return a mixture of two entries that
nobody has pushed.
-/

/-- A queue system whose entries have so many pieces, with the progress of the
two copies. -/
structure CopyingQueue (width : Nat) (Piece : Type) where
  system : QueueSystem (Fin width -> Piece)
  /-- how many pieces of its slot the producer has written -/
  written : Nat
  /-- the pieces that the consumer has read, and how many they are -/
  outLog : Fin width -> Piece
  read : Nat

variable {width : Nat} {Piece : Type}

/-- Assign one piece of a slot. -/
def LogQueue.writePiece (queue : LogQueue (Fin width -> Piece)) (index : SizeT)
    (position : Fin width) (piece : Piece) : LogQueue (Fin width -> Piece) :=
  { queue with
    logArray := queue.logArray.map fun slots =>
      Function.update slots index.toNat (Function.update (slots index.toNat) position piece) }

namespace CopyingQueue

/-- A slot with so many pieces of an entry in front of those that it held. -/
def overlaid (count : Nat) (entry slot : Fin width -> Piece) (position : Fin width) : Piece :=
  if position.val < count then entry position else slot position

theorem overlaid_zero (entry slot : Fin width -> Piece) : overlaid 0 entry slot = slot :=
  funext fun _ => if_neg (Nat.not_lt_zero _)

theorem overlaid_all (entry slot : Fin width -> Piece) : overlaid width entry slot = entry :=
  funext fun position => if_pos position.isLt

theorem overlaid_succ {count : Nat} (more : count < width) (entry slot : Fin width -> Piece) :
    Function.update (overlaid count entry slot) ⟨count, more⟩ (entry ⟨count, more⟩) =
      overlaid (count + 1) entry slot := by
  funext position
  by_cases last : position = ⟨count, more⟩
  · rw [last, Function.update_self]
    exact (if_pos (Nat.lt_succ_self count)).symm
  · have differs : position.val ≠ count := fun same => last (Fin.ext same)
    rw [Function.update_of_ne last, overlaid, overlaid]
    by_cases below : position.val < count
    · rw [if_pos below, if_pos (by omega)]
    · rw [if_neg below, if_neg (by omega)]

variable [Leveled (Fin width -> Piece)]

/-- The next piece is written, or the copy is complete. -/
def writeNext (copying : CopyingQueue width Piece) (logLine : Fin width -> Piece)
    (currentHead nextHead : SizeT) :
    CopyingQueue width Piece :=
  if more : copying.written < width then
    { copying with
      system := { copying.system with
        queue := copying.system.queue.writePiece currentHead ⟨copying.written, more⟩
          (logLine ⟨copying.written, more⟩) }
      written := copying.written + 1 }
  else
    { copying with
      system := { copying.system with producer := .publishing logLine currentHead nextHead }
      written := 0 }

/-- The next piece is read, or the copy is complete. -/
def readNext (copying : CopyingQueue width Piece) (currentTail : SizeT)
    (slots : Nat -> Fin width -> Piece) :
    CopyingQueue width Piece :=
  if more : copying.read < width then
    { copying with
      outLog := Function.update copying.outLog ⟨copying.read, more⟩
        (slots currentTail.toNat ⟨copying.read, more⟩)
      read := copying.read + 1 }
  else
    { copying with
      system := { copying.system with consumer := .releasing currentTail copying.outLog }
      read := 0 }

/-- The steps outside of a copy are those of the queue system. -/
def step (copying : CopyingQueue width Piece) : QueueAction (Fin width -> Piece) ->
    Option (CopyingQueue width Piece)
  | .producer =>
      match copying.system.producer with
      | .writing logLine currentHead nextHead =>
          some (copying.writeNext logLine currentHead nextHead)
      | _ => (copying.system.step .producer).map fun after => { copying with system := after }
  | .consumer =>
      match copying.system.consumer with
      | .reading currentTail => copying.system.queue.logArray.map (copying.readNext currentTail)
      | _ => (copying.system.step .consumer).map fun after => { copying with system := after }
  | action => (copying.system.step action).map fun after => { copying with system := after }

def machine (width : Nat) (Piece : Type) [Leveled (Fin width -> Piece)] (capacity : Nat)
    (profile : OverflowProfile) :
      Machine (CopyingQueue width Piece) (QueueAction (Fin width -> Piece)) where
  initial := fun copying =>
    (queueMachine (Fin width -> Piece) capacity profile).initial copying.system ∧
      copying.written = 0 ∧
      copying.read = 0
  step := step

/-! ## Moves -/

/-- What one step can do: a piece of a copy, its end, or a step of the queue
system that copies nothing. -/
inductive CopyMove (before : CopyingQueue width Piece) :
    QueueAction (Fin width -> Piece) -> CopyingQueue width Piece -> Prop
  | write {logLine currentHead nextHead}
      (writes : before.system.producer = .writing logLine currentHead nextHead) :
      CopyMove before .producer (before.writeNext logLine currentHead nextHead)
  | read {currentTail slots} (reads : before.system.consumer = .reading currentTail)
      (array : before.system.queue.logArray = some slots) :
      CopyMove before .consumer (before.readNext currentTail slots)
  | produce {system} (moves : before.system.step .producer = some system)
      (elsewhere : forall logLine currentHead nextHead,
        before.system.producer ≠ .writing logLine currentHead nextHead) :
      CopyMove before .producer { before with system := system }
  | consume {system} (moves : before.system.step .consumer = some system)
      (elsewhere : forall currentTail, before.system.consumer ≠ .reading currentTail) :
      CopyMove before .consumer { before with system := system }
  | call {action system} (moves : before.system.step action = some system)
      (notProducer : action ≠ .producer)
      (notConsumer : action ≠ .consumer) : CopyMove before action { before with system := system }

variable {before after : CopyingQueue width Piece}

theorem step_move {action : QueueAction (Fin width -> Piece)}
    (moves : before.step action = some after) :
    CopyMove before action after := by
  have whole : forall {action},
    (before.system.step action).map (fun system => { before with system := system }) =
      some after -> Exists fun system => before.system.step action = some system ∧
        after = { before with system := system } := by
    intro action moved
    rcases Option.map_eq_some_iff.mp moved with ⟨system, stepped, same⟩
    exact ⟨system, stepped, same.symm⟩
  cases action with
  | producer =>
      rw [step] at moves
      split at moves
      · rename_i writes
        cases moves
        exact .write writes
      · rename_i elsewhere
        rcases whole moves with ⟨system, stepped, rfl⟩
        exact .produce stepped elsewhere
  | consumer =>
      rw [step] at moves
      split at moves
      · rename_i reads
        rcases Option.map_eq_some_iff.mp moves with ⟨slots, array, rfl⟩
        exact .read reads array
      · rename_i elsewhere
        rcases whole moves with ⟨system, stepped, rfl⟩
        exact .consume stepped elsewhere
  | push logLine =>
      rcases @whole (.push logLine) moves with ⟨system, stepped, rfl⟩
      exact .call stepped nofun nofun
  | pop =>
      rcases @whole .pop moves with ⟨system, stepped, rfl⟩
      exact .call stepped nofun nofun
  | setFinished =>
      rcases @whole .setFinished moves with ⟨system, stepped, rfl⟩
      exact .call stepped nofun nofun

/-! ## Steps that copy nothing -/

/-- The queue system with another array. -/
def withArray (system : QueueSystem (Fin width -> Piece)) (slots : Nat -> Fin width -> Piece) :
    QueueSystem (Fin width -> Piece) :=
  { system with queue := { system.queue with logArray := some slots } }

omit [Leveled (Fin width -> Piece)] in
theorem withArray_self {system : QueueSystem (Fin width -> Piece)}
    {slots : Nat -> Fin width -> Piece}
    (array : system.queue.logArray = some slots) : withArray system slots = system := by
  rw [withArray, ← array]

omit [Leveled (Fin width -> Piece)] in
/-- Outside of its read `pop` does the same with every array. -/
theorem popStep_withArray (queue : LogQueue (Fin width -> Piece)) (telemetry : Telemetry)
    {point : PopPoint (Fin width -> Piece)}
    (elsewhere : forall currentTail, point ≠ .reading currentTail)
    (slots : Nat -> Fin width -> Piece) :
    popStep { queue with logArray := some slots } telemetry point =
      (popStep queue telemetry point).map fun progress =>
        { progress with queue := { progress.queue with logArray := some slots } } := by
  cases point with
  | reading currentTail => exact absurd rfl (elsewhere currentTail)
  | returned outLog => rfl
  | entered =>
      simp only [popStep]
      split <;> rfl
  | loadingHead currentTail =>
      simp only [popStep]
      split <;> rfl
  | rechecking currentTail =>
      simp only [popStep]
      split <;> rfl
  | measuring currentTail outLog =>
      simp only [popStep]
      by_cases low : queue.totalSlots - queue.occupiedSlots queue.head currentTail ≤
        queue.lowWatermark
      · rw [if_pos low]
        exact if_pos low
      · rw [if_neg low]
        exact if_neg low
  | _ => rfl

theorem consumer_withArray (whole : QueueSystem (Fin width -> Piece))
    (elsewhere : forall currentTail, whole.consumer ≠ .reading currentTail)
    (slots : Nat -> Fin width -> Piece) :
    (withArray whole slots).step .consumer = (whole.step .consumer).map fun after =>
      withArray after slots := by
  have stepped := popStep_withArray whole.queue whole.telemetry elsewhere slots
  rw [QueueSystem.step, QueueSystem.step, Option.map_map]
  change (popStep { whole.queue with logArray := some slots } whole.telemetry whole.consumer).map
    _ = _
  rw [stepped, Option.map_map]
  rfl

/-! ## The whole queue behind the pieces -/

/-- The two threads do not copy the same slot at once. -/
def CopiesApart (copying : CopyingQueue width Piece) : Prop :=
  forall logLine currentHead nextHead currentTail,
    copying.system.producer = .writing logLine currentHead nextHead ->
      copying.system.consumer = .reading currentTail -> currentTail.toNat ≠ currentHead.toNat

/-- The queue system in which a copy is one step, taken at the last piece.  Its
slots are those of the queue but for the one that is being written. -/
structure Shadows (copying : CopyingQueue width Piece) (whole : QueueSystem (Fin width -> Piece))
    (pieces entries : Nat -> Fin width -> Piece) : Prop where
  array : whole.queue.logArray = some entries
  same : copying.system = withArray whole pieces
  elsewhere : forall index, (forall logLine currentHead nextHead,
    whole.producer = .writing logLine currentHead nextHead -> index ≠ currentHead.toNat) ->
      pieces index = entries index
  written : forall logLine currentHead nextHead,
    whole.producer = .writing logLine currentHead nextHead ->
    forall position, position.val < copying.written ->
      pieces currentHead.toNat position = logLine position
  unwritten :
    (forall logLine currentHead nextHead, whole.producer ≠ .writing logLine currentHead nextHead) ->
    copying.written = 0
  gathered : forall currentTail, whole.consumer = .reading currentTail ->
    forall position, position.val < copying.read ->
      copying.outLog position = entries currentTail.toNat position
  unread : (forall currentTail, whole.consumer ≠ .reading currentTail) -> copying.read = 0

/-- There is such a queue system, and it can be reached. -/
def Shadowed (capacity : Nat) (profile : OverflowProfile)
    (copying : CopyingQueue width Piece) : Prop :=
  Exists fun whole => Exists fun pieces => Exists fun entries =>
    (queueMachine (Fin width -> Piece) capacity profile).Reachable whole ∧
      copying.Shadows whole pieces entries

namespace Shadows

variable {whole system : QueueSystem (Fin width -> Piece)}
    {pieces entries : Nat -> Fin width -> Piece}
variable {capacity : Nat} {profile : OverflowProfile}

theorem next (reached : (queueMachine (Fin width -> Piece) capacity profile).Reachable whole)
    {action : QueueAction (Fin width -> Piece)} (moves : whole.step action = some system) :
    (queueMachine (Fin width -> Piece) capacity profile).Reachable system :=
  reached.next trivial
    (show (queueMachine _ capacity profile).step whole action = some system from moves)

omit [Leveled (Fin width -> Piece)] in
theorem eq_whole (shadows : before.Shadows whole pieces entries)
    (elsewhere : forall logLine currentHead nextHead,
      whole.producer ≠ .writing logLine currentHead nextHead) :
    before.system = whole ∧ pieces = entries := by
  have equal : pieces = entries := funext fun index =>
    shadows.elsewhere index fun logLine currentHead nextHead writes =>
      absurd writes (elsewhere logLine currentHead nextHead)
  refine ⟨shadows.same.trans ?_, equal⟩
  rw [equal]
  exact withArray_self shadows.array

theorem writeNext (reached : (queueMachine (Fin width -> Piece) capacity profile).Reachable whole)
    (shadows : before.Shadows whole pieces entries) (apart : before.CopiesApart)
    {logLine : Fin width -> Piece} {currentHead nextHead : SizeT}
    (writes : before.system.producer = .writing logLine currentHead nextHead) :
    (before.writeNext logLine currentHead nextHead).Shadowed capacity profile := by
  rcases before with ⟨system, written, outLog, read⟩
  rcases shadows with ⟨array, rfl, elsewhere, prefixed, unwritten, gathered, unread⟩
  change whole.producer = .writing logLine currentHead nextHead at writes
  dsimp only at prefixed
  unfold CopyingQueue.writeNext
  split
  · rename_i more
    change written < width at more
    refine ⟨whole, Function.update pieces currentHead.toNat
      (Function.update (pieces currentHead.toNat) ⟨written, more⟩ (logLine ⟨written, more⟩)),
        entries, reached, array,
      rfl, ?_, ?_, ?_, gathered, unread⟩
    · intro index outside
      rw [Function.update_of_ne (outside _ _ _ writes)]
      exact elsewhere index outside
    · intro logLine' currentHead' nextHead' writes' position below
      cases writes.symm.trans writes'
      rw [Function.update_self]
      by_cases last : position = ⟨written, more⟩
      · rw [last, Function.update_self]
      · rw [Function.update_of_ne last]
        apply prefixed _ _ _ writes
        have differs : position.val ≠ written := fun same => last (Fin.ext same)
        dsimp only at below
        omega
    · intro idle
      exact absurd writes (idle _ _ _)
  · rename_i done
    change ¬ written < width at done
    have complete : pieces currentHead.toNat = logLine :=
      funext fun position => prefixed _ _ _ writes position (by omega)
    have moves : whole.step .producer = some { whole with
        queue := whole.queue.writeSlot currentHead logLine
        producer := .publishing logLine currentHead nextHead } := by
      rw [QueueSystem.step, writes]
      rfl
    refine ⟨_, pieces, Function.update entries currentHead.toNat logLine, next reached moves, ?_,
      rfl, ?_, ?_, ?_, ?_, unread⟩
    · dsimp only [LogQueue.writeSlot]
      rw [array]
      rfl
    · intro index _
      by_cases same : index = currentHead.toNat
      · rw [same, Function.update_self, complete]
      · rw [Function.update_of_ne same]
        apply elsewhere
        intro logLine' currentHead' nextHead' writes'
        cases writes.symm.trans writes'
        exact same
    · intro logLine' currentHead' nextHead' writes'
      cases writes'
    · intro _
      rfl
    · intro currentTail reads position below
      rw [Function.update_of_ne (apart _ _ _ _ writes reads)]
      exact gathered currentTail reads position below

theorem readNext (reached : (queueMachine (Fin width -> Piece) capacity profile).Reachable whole)
    (shadows : before.Shadows whole pieces entries) (apart : before.CopiesApart)
    {currentTail : SizeT} (reads : before.system.consumer = .reading currentTail) :
    (before.readNext currentTail pieces).Shadowed capacity profile := by
  rcases before with ⟨system, written, outLog, read⟩
  rcases shadows with ⟨array, rfl, elsewhere, prefixed, unwritten, gathered, unread⟩
  change whole.consumer = .reading currentTail at reads
  dsimp only at gathered
  unfold CopyingQueue.readNext
  split
  · rename_i more
    change read < width at more
    refine ⟨whole, pieces, entries, reached, array, rfl, elsewhere, prefixed, unwritten, ?_, ?_⟩
    · intro currentTail' reads' position below
      cases reads.symm.trans reads'
      dsimp only at below ⊢
      by_cases last : position = ⟨read, more⟩
      · rw [last, Function.update_self]
        -- the producer is not writing this slot
        have whole_slot : pieces currentTail.toNat = entries currentTail.toNat :=
          elsewhere _ fun logLine currentHead nextHead writes => apart _ _ _ _ writes reads
        rw [whole_slot]
      · rw [Function.update_of_ne last]
        apply gathered _ reads
        have differs : position.val ≠ read := fun same => last (Fin.ext same)
        omega
    · intro idle
      exact absurd reads (idle _)
  · rename_i done
    change ¬ read < width at done
    have complete : outLog = entries currentTail.toNat :=
      funext fun position => gathered _ reads position (by omega)
    have moves : whole.step .consumer =
        some { whole with consumer := .releasing currentTail outLog } := by
      rw [QueueSystem.step, reads, popStep, array, complete]
      rfl
    refine ⟨_, pieces, entries, next reached moves, array, rfl, elsewhere, prefixed,
      unwritten, ?_, ?_⟩
    · intro currentTail' reads'
      cases reads'
    · intro _
      rfl

theorem produce (reached : (queueMachine (Fin width -> Piece) capacity profile).Reachable whole)
    (shadows : before.Shadows whole pieces entries)
    (moves : before.system.step .producer = some system)
    (elsewhere : forall logLine currentHead nextHead,
      before.system.producer ≠ .writing logLine currentHead nextHead) :
    CopyingQueue.Shadowed capacity profile { before with system := system } := by
  have silent : forall logLine currentHead nextHead,
      whole.producer ≠ .writing logLine currentHead nextHead := by
    rw [shadows.same] at elsewhere
    exact elsewhere
  rcases shadows.eq_whole silent with ⟨same, rfl⟩
  have idle := shadows.unwritten silent
  have gathered := shadows.gathered
  have unread := shadows.unread
  have array := shadows.array
  rw [same] at moves
  have onward := next reached moves
  rcases QueueSystem.step_producer moves with ⟨progress, move, rfl⟩
  have kept : progress.queue.logArray = some pieces := by
    generalize whole.producer = point at move silent
    cases move with
    | write => exact absurd rfl (silent _ _ _)
    | _ => exact array
  refine ⟨_, pieces, pieces, onward, kept, (withArray_self kept).symm, fun _ _ => rfl, ?_,
    fun _ => idle, gathered,
    unread⟩
  intro _ _ _ _ position below
  exact absurd (idle ▸ below) (Nat.not_lt_zero _)

theorem consume (reached : (queueMachine (Fin width -> Piece) capacity profile).Reachable whole)
    (shadows : before.Shadows whole pieces entries)
    (moves : before.system.step .consumer = some system)
    (elsewhere : forall currentTail, before.system.consumer ≠ .reading currentTail) :
    CopyingQueue.Shadowed capacity profile { before with system := system } := by
  rcases before with ⟨before, written, outLog, read⟩
  rcases shadows with ⟨array, rfl, outside, prefixed, unwritten, _, unread⟩
  have idle : read = 0 := unread elsewhere
  rw [consumer_withArray whole elsewhere] at moves
  rcases Option.map_eq_some_iff.mp moves with ⟨after, moved, rfl⟩
  rcases QueueSystem.step_consumer moved with ⟨progress, move, rfl⟩
  refine ⟨_, pieces, entries, next reached moved, move.frame.logArray.trans array, rfl, outside,
    prefixed, unwritten, ?_, fun _ => idle⟩
  intro _ _ position below
  exact absurd (idle ▸ below) (Nat.not_lt_zero _)

theorem call (reached : (queueMachine (Fin width -> Piece) capacity profile).Reachable whole)
    (shadows : before.Shadows whole pieces entries) {action : QueueAction (Fin width -> Piece)}
    (moves : before.system.step action = some system) (notProducer : action ≠ .producer)
    (notConsumer : action ≠ .consumer) :
      CopyingQueue.Shadowed capacity profile { before with system := system } := by
  have equal := @shadows.eq_whole
  rcases before with ⟨before, written, outLog, read⟩
  rcases shadows with ⟨array, rfl, outside, prefixed, unwritten, gathered, unread⟩
  cases action with
  | producer => exact absurd rfl notProducer
  | consumer => exact absurd rfl notConsumer
  | push logLine =>
      rcases QueueSystem.step_push moves with ⟨idle, rfl⟩
      have silent : forall logLine currentHead nextHead,
          whole.producer ≠ .writing logLine currentHead nextHead := by
        intro _ _ _ writes
        cases (show whole.producer = .idle from idle).symm.trans writes
      rcases equal silent with ⟨same, rfl⟩
      have moved : whole.step (.push logLine) = some { whole with
          producer := .entered logLine
          history := { whole.history with atCall := whole.queue } } := by
        rw [QueueSystem.step, show whole.producer = .idle from idle]
      have unaware : forall logLine' currentHead nextHead,
          (PushPoint.entered logLine : PushPoint (Fin width -> Piece)) ≠
            .writing logLine' currentHead nextHead := by
        intro _ _ _ writes
        cases writes
      refine ⟨_, pieces, pieces, next reached moved, array, ?_, fun _ _ => rfl,
        fun _ _ _ writes => absurd writes (unaware _ _ _), fun _ => unwritten silent, gathered,
        unread⟩
      change { withArray whole pieces with
        producer := .entered logLine
        history := { whole.history with atCall := (withArray whole pieces).queue } } = _
      rw [show withArray whole pieces = whole from same]
      exact (congrArg (fun system : QueueSystem _ => { system with
        producer := .entered logLine
        history := { whole.history with atCall := whole.queue } }) same).symm
  | pop =>
      rcases QueueSystem.step_pop moves with ⟨⟨result, returned⟩, rfl⟩
      have moved : whole.step .pop = some { whole with consumer := .entered } := by
        rw [QueueSystem.step, show whole.consumer = .returned result from returned]
      have resting : forall currentTail, whole.consumer ≠ .reading currentTail := by
        intro _ reads
        cases (show whole.consumer = .returned result from returned).symm.trans reads
      have unaware : forall currentTail,
          (PopPoint.entered : PopPoint (Fin width -> Piece)) ≠ .reading currentTail := by
        intro _ reads
        cases reads
      exact ⟨_, pieces, entries, next reached moved, array, rfl, outside, prefixed, unwritten,
        fun _ reads => absurd reads (unaware _), fun _ => unread resting⟩
  | setFinished =>
      rw [QueueSystem.step_setFinished moves]
      have moved : whole.step .setFinished = some { whole with queue := whole.queue.setFinished } :=
        rfl
      exact ⟨_, pieces, entries, next reached moved, array, rfl, outside, prefixed, unwritten,
        gathered, unread⟩

end Shadows

variable {capacity exponent : Nat} {profile : OverflowProfile}

/-- While the threads copy different slots the whole queue goes along. -/
theorem Shadowed.step (shadowed : before.Shadowed capacity profile) (apart : before.CopiesApart)
    {action : QueueAction (Fin width -> Piece)} (moves : before.step action = some after) :
    after.Shadowed capacity profile := by
  rcases shadowed with ⟨whole, pieces, entries, reached, shadows⟩
  cases step_move moves with
  | write writes => exact shadows.writeNext reached apart writes
  | read reads array =>
      have held : before.system.queue.logArray = some pieces := by rw [shadows.same]; rfl
      cases held.symm.trans array
      exact shadows.readNext reached apart reads
  | produce moved elsewhere => exact shadows.produce reached moved elsewhere
  | consume moved elsewhere => exact shadows.consume reached moved elsewhere
  | call moved notProducer notConsumer => exact shadows.call reached moved notProducer notConsumer

theorem Shadowed.start (starts : (machine width Piece capacity profile).initial before) :
    before.Shadowed capacity profile := by
  rcases before with ⟨system, written, outLog, read⟩
  rcases starts with ⟨fresh, written, read⟩
  have reached : (queueMachine (Fin width -> Piece) capacity profile).Reachable system :=
    .start fresh
  rcases fresh with ⟨queue, telemetry, fresh, rfl⟩
  rcases Option.ne_none_iff_exists'.mp fresh.allocated with ⟨slots, array⟩
  exact ⟨_, slots, slots, reached, array, (withArray_self array).symm, fun _ _ => rfl, nofun,
    fun _ => written, nofun,
    fun _ => read⟩

/-- In front of each step the threads copy different slots. -/
def KeepsApart (copying : CopyingQueue width Piece)
    (_action : QueueAction (Fin width -> Piece)) : Prop :=
  copying.CopiesApart

theorem shadowed_of_reachable {copying : CopyingQueue width Piece}
    (reached : (machine width Piece capacity profile).ReachableUnder KeepsApart copying) :
    copying.Shadowed capacity profile :=
  reached.invariant (fun _ starts => .start starts)
    (fun _ _ _ _ shadowed apart moves => shadowed.step apart moves)

/-- Under `DropAll` the slot that is written is not the one that is read. -/
theorem Shadowed.apart_of_dropAll {copying : CopyingQueue width Piece}
    (shadowed : copying.Shadowed (2 ^ exponent) .dropAll) : copying.CopiesApart := by
  rcases shadowed with ⟨whole, pieces, entries, reached, shadows⟩
  have holds := ringInvariant_of_reachable (by decide) (leavesWaitWithRoom_of_dropAll reached)
  rw [CopiesApart, shadows.same]
  intro logLine currentHead nextHead currentTail writes reads same
  rcases holds.held_slot (Or.inl reads) with ⟨tail, nonempty⟩
  exact nonempty (tail ▸ (BitVec.eq_of_toNat_eq same).trans (holds.writing_slot writes))

theorem keepsApart_of_dropAll {copying : CopyingQueue width Piece}
    (reached : (machine width Piece (2 ^ exponent) .dropAll).Reachable copying) :
    (machine width Piece (2 ^ exponent) .dropAll).ReachableUnder KeepsApart copying := by
  have shadowed : forall {copying},
    (machine width Piece (2 ^ exponent) .dropAll).Reachable copying ->
      copying.Shadowed (2 ^ exponent) .dropAll := fun reached =>
    reached.invariant (fun _ starts => .start starts)
      (fun _ _ _ _ shadowed _ moves => shadowed.step shadowed.apart_of_dropAll moves)
  exact reached.reguard (fun _ _ reachedBefore _ => (shadowed reachedBefore).apart_of_dropAll)

/-! ## Whole steps in pieces -/

theorem writes_pieces {copying : CopyingQueue width Piece} {logLine : Fin width -> Piece}
    {currentHead nextHead : SizeT}
    (writes : copying.system.producer = .writing logLine currentHead nextHead)
    {slots : Nat -> Fin width -> Piece} (array : copying.system.queue.logArray = some slots)
    (unwritten : copying.written = 0) {count : Nat} (within : count ≤ width) :
    (machine width Piece capacity profile).Runs copying
      { copying with
        system := withArray copying.system
          (Function.update slots currentHead.toNat
            (overlaid count logLine (slots currentHead.toNat)))
        written := count } := by
  induction count with
  | zero =>
      rw [overlaid_zero, Function.update_eq_self, withArray_self array, ← unwritten]
      exact Relation.ReflTransGen.refl
  | succ count ih =>
      refine (ih (Nat.le_of_succ_le within)).tail ⟨.producer, trivial, ?_⟩
      have more : count < width := within
      have placed := overlaid_succ more logLine (slots currentHead.toNat)
      change step _ .producer = some _
      simp only [step, withArray, writes, writeNext, dif_pos more, LogQueue.writePiece,
        Option.map_some, Function.update_self, Function.update_idem, placed]

/-- The pieces and the end of a write make the one step of the queue system. -/
theorem writes_whole {copying : CopyingQueue width Piece} {logLine : Fin width -> Piece}
    {currentHead nextHead : SizeT}
    (writes : copying.system.producer = .writing logLine currentHead nextHead)
    {slots : Nat -> Fin width -> Piece} (array : copying.system.queue.logArray = some slots)
    (unwritten : copying.written = 0) {system : QueueSystem (Fin width -> Piece)}
    (moves : copying.system.step .producer = some system) :
    (machine width Piece capacity profile).Runs copying { copying with system := system } := by
  have pieces : (machine width Piece capacity profile).Runs copying _ :=
    writes_pieces writes array unwritten (Nat.le_refl width)
  rw [overlaid_all] at pieces
  refine pieces.tail ⟨.producer, trivial, ?_⟩
  rw [QueueSystem.step, writes] at moves
  cases moves
  change step _ .producer = some _
  simp only [step, withArray, writes, writeNext, Nat.lt_irrefl, dite_false,
    LogQueue.writeSlot, array,
    Option.map_some, unwritten]
  rfl

theorem reads_pieces {copying : CopyingQueue width Piece} {currentTail : SizeT}
    (reads : copying.system.consumer = .reading currentTail) {slots : Nat -> Fin width -> Piece}
    (array : copying.system.queue.logArray = some slots) (unread : copying.read = 0) {count : Nat}
    (within : count ≤ width) :
    (machine width Piece capacity profile).Runs copying
      { copying with
        outLog := overlaid count (slots currentTail.toNat) copying.outLog, read := count } := by
  induction count with
  | zero =>
      rw [overlaid_zero, ← unread]
      exact Relation.ReflTransGen.refl
  | succ count ih =>
      refine (ih (Nat.le_of_succ_le within)).tail ⟨.consumer, trivial, ?_⟩
      have more : count < width := within
      have placed := overlaid_succ more (slots currentTail.toNat) copying.outLog
      change step _ .consumer = some _
      simp only [step, reads, array, Option.map_some, readNext, dif_pos more, placed]

/-- The pieces and the end of a read make the one step of the queue system. -/
theorem reads_whole {copying : CopyingQueue width Piece} {currentTail : SizeT}
    (reads : copying.system.consumer = .reading currentTail) {slots : Nat -> Fin width -> Piece}
    (array : copying.system.queue.logArray = some slots) (unread : copying.read = 0)
    {system : QueueSystem (Fin width -> Piece)}
    (moves : copying.system.step .consumer = some system) :
    (machine width Piece capacity profile).Runs copying
      { copying with system := system, outLog := slots currentTail.toNat } := by
  have pieces : (machine width Piece capacity profile).Runs copying _ :=
    reads_pieces reads array unread (Nat.le_refl width)
  rw [overlaid_all] at pieces
  refine pieces.tail ⟨.consumer, trivial, ?_⟩
  rw [QueueSystem.step, reads, popStep, array] at moves
  cases moves
  change step _ .consumer = some _
  simp only [step, reads, array, Option.map_some, readNext, Nat.lt_irrefl, dite_false, unread]
  rfl

/-- Between its copies the queue is in this state of the queue system. -/
structure Rests (copying : CopyingQueue width Piece)
    (whole : QueueSystem (Fin width -> Piece)) : Prop where
  same : copying.system = whole
  written : copying.written = 0
  read : copying.read = 0

theorem Rests.follow {copying : CopyingQueue width Piece}
    {whole system : QueueSystem (Fin width -> Piece)}
    (rests : copying.Rests whole) (allocated : whole.queue.logArray ≠ none)
    {action : QueueAction (Fin width -> Piece)} (moves : whole.step action = some system) :
    Exists fun after => (machine width Piece capacity profile).Runs copying after ∧
      after.Rests system := by
  rcases rests with ⟨rfl, unwritten, unread⟩
  rcases Option.ne_none_iff_exists'.mp allocated with ⟨slots, array⟩
  have single : copying.step action = some { copying with system := system } ->
      Exists fun after => (machine width Piece capacity profile).Runs copying after ∧
        after.Rests system :=
    fun moved => ⟨_, Relation.ReflTransGen.single ⟨action, trivial, moved⟩, rfl, unwritten, unread⟩
  cases action with
  | producer =>
      cases point : copying.system.producer with
      | writing logLine currentHead nextHead =>
          exact ⟨_, writes_whole point array unwritten moves, rfl, unwritten, unread⟩
      | _ =>
          apply single
          simp only [step, point]
          rw [moves]
          rfl
  | consumer =>
      cases point : copying.system.consumer with
      | reading currentTail =>
          exact ⟨_, reads_whole point array unread moves, rfl, unwritten, unread⟩
      | _ =>
          apply single
          simp only [step, point]
          rw [moves]
          rfl
  | push logLine =>
      apply single
      simp only [step]
      rw [moves]
      rfl
  | pop =>
      apply single
      simp only [step]
      rw [moves]
      rfl
  | setFinished =>
      apply single
      simp only [step]
      rw [moves]
      rfl

/-- The indices are those of a ring, and the pieces written so far are in their
slot. -/
structure Bounded (exponent : Nat) (copying : CopyingQueue width Piece) : Prop where
  carries : copying.system.CarriesOnly (fun _ => True) exponent
  written : forall logLine currentHead nextHead,
    copying.system.producer = .writing logLine currentHead nextHead ->
    forall slots, copying.system.queue.logArray = some slots ->
      forall position, position.val < copying.written ->
        slots currentHead.toNat position = logLine position
  unwritten : (forall logLine currentHead nextHead,
    copying.system.producer ≠ .writing logLine currentHead nextHead) -> copying.written = 0

omit [Leveled (Fin width -> Piece)] in
theorem allSlots_any {queue : LogQueue (Fin width -> Piece)} (ring : queue.IsRing exponent) :
    queue.AllSlots (fun _ => True) exponent := by
  rcases ring.array with ⟨slots, array⟩
  intro index _
  exact ⟨slots index.toNat, by rw [LogQueue.slot, array]; rfl, trivial⟩

omit [Leveled (Fin width -> Piece)] in
theorem Bounded.writeNext (bounded : before.Bounded exponent) {logLine : Fin width -> Piece}
    {currentHead nextHead : SizeT}
    (writes : before.system.producer = .writing logLine currentHead nextHead) :
    (before.writeNext logLine currentHead nextHead).Bounded exponent := by
  rcases before with ⟨system, written, outLog, read⟩
  rcases bounded with ⟨⟨ring, producer, consumer, _⟩, prefixed, _⟩
  change system.producer = .writing logLine currentHead nextHead at writes
  dsimp only at ring producer consumer prefixed
  rcases ring.array with ⟨slots, array⟩
  rw [writes] at producer
  unfold CopyingQueue.writeNext
  split
  · rename_i more
    change written < width at more
    have allocated :
        (system.queue.writePiece currentHead ⟨written, more⟩ (logLine ⟨written, more⟩)).logArray ≠
        none := by
      simp [LogQueue.writePiece, array]
    have ring' :
        (system.queue.writePiece currentHead ⟨written, more⟩ (logLine ⟨written, more⟩)).IsRing
        exponent :=
      ⟨ring.power, ring.headBound, ring.tailBound, allocated⟩
    refine ⟨⟨ring', ?_, consumer, Or.inl (allSlots_any ring')⟩, ?_, ?_⟩
    · dsimp only
      rw [writes]
      exact producer
    · intro logLine' currentHead' nextHead' writes' slots' array' position below
      cases writes.symm.trans writes'
      simp only [LogQueue.writePiece, array, Option.map_some, Option.some.injEq] at array'
      rw [← array', Function.update_self]
      by_cases last : position = ⟨written, more⟩
      · rw [last, Function.update_self]
      · rw [Function.update_of_ne last]
        apply prefixed _ _ _ writes _ array
        have differs : position.val ≠ written := fun same => last (Fin.ext same)
        dsimp only at below
        omega
    · intro idle
      exact absurd writes (idle _ _ _)
  · rename_i done
    change ¬ written < width at done
    have complete : slots currentHead.toNat = logLine :=
      funext fun position => prefixed _ _ _ writes _ array position (by omega)
    have stored : system.queue.slot currentHead = some logLine := by
      rw [LogQueue.slot, array, ← complete]
      rfl
    refine ⟨⟨ring, ⟨trivial, producer.2.1, producer.2.2, stored⟩, consumer,
      Or.inl (allSlots_any ring)⟩, ?_, fun _ => rfl⟩
    intro _ _ _ writes'
    cases writes'

omit [Leveled (Fin width -> Piece)] in
theorem Bounded.readNext (bounded : before.Bounded exponent) {currentTail : SizeT}
    (reads : before.system.consumer = .reading currentTail) (slots : Nat -> Fin width -> Piece) :
    (before.readNext currentTail slots).Bounded exponent := by
  rcases bounded with ⟨⟨ring, producer, consumer, entries⟩, written, unwritten⟩
  unfold CopyingQueue.readNext
  split
  · exact ⟨⟨ring, producer, consumer, entries⟩, written, unwritten⟩
  · rw [reads] at consumer
    exact ⟨⟨ring, producer, ⟨consumer, trivial⟩, Or.inl (allSlots_any ring)⟩, written, unwritten⟩

theorem Bounded.step (bounded : before.Bounded exponent) {action : QueueAction (Fin width -> Piece)}
    (moves : before.step action = some after) : after.Bounded exponent := by
  have admits : QueueSystem.Admits (fun _ => True) action := by cases action <;> trivial
  cases step_move moves with
  | write writes => exact bounded.writeNext writes
  | @read currentTail slots reads array => exact bounded.readNext reads slots
  | @produce system moved elsewhere =>
      refine ⟨bounded.carries.step admits moved, ?_, fun _ => bounded.unwritten elsewhere⟩
      intro _ _ _ _ _ _ position below
      exact absurd (bounded.unwritten elsewhere ▸ below) (Nat.not_lt_zero _)
  | @consume system moved elsewhere =>
      have carries := bounded.carries.step admits moved
      rcases QueueSystem.step_consumer moved with ⟨progress, move, rfl⟩
      refine ⟨carries, ?_, bounded.unwritten⟩
      intro logLine currentHead nextHead writes slots array
      exact bounded.written _ _ _ writes slots (move.frame.logArray.symm.trans array)
  | @call _ system moved notProducer notConsumer =>
      have carries := bounded.carries.step admits moved
      cases action with
      | producer => exact absurd rfl notProducer
      | consumer => exact absurd rfl notConsumer
      | push logLine =>
          rcases QueueSystem.step_push moved with ⟨idle, rfl⟩
          refine ⟨carries, nofun, fun _ => bounded.unwritten ?_⟩
          rw [idle]
          exact nofun
      | pop =>
          rcases QueueSystem.step_pop moved with ⟨_, rfl⟩
          exact ⟨carries, bounded.written, bounded.unwritten⟩
      | setFinished =>
          rw [QueueSystem.step_setFinished moved] at carries ⊢
          exact ⟨carries, bounded.written, bounded.unwritten⟩

theorem bounded_of_reachable {copying : CopyingQueue width Piece}
    (reached : (machine width Piece (2 ^ exponent) profile).Reachable copying) :
      copying.Bounded exponent := by
  refine reached.invariant ?_ (fun _ _ _ _ bounded _ moves => bounded.step moves)
  rintro ⟨system, written, outLog, read⟩ ⟨⟨queue, telemetry, fresh, rfl⟩, written, _⟩
  exact ⟨QueueSystem.carriesOnly_start fresh, nofun, fun _ => written⟩

/-- Where the two threads are about to touch the array. -/
structure StaysInside (exponent : Nat) (copying : CopyingQueue width Piece) : Prop where
  writes : forall logLine currentHead nextHead,
    copying.system.producer = .writing logLine currentHead nextHead ->
    currentHead.toNat < 2 ^ exponent
  reads : forall currentTail, copying.system.consumer = .reading currentTail ->
    currentTail.toNat < 2 ^ exponent
  /-- the read is a step, because there is an array -/
  allocated : copying.system.queue.logArray ≠ none

/-- What the consumer has got out of the array was handed to `push`. -/
structure InventsNothing (copying : CopyingQueue width Piece) : Prop where
  popped : forall entry, entry ∈ copying.system.history.popped -> entry ∈ copying.system.begun
  returned : forall entry, copying.system.consumer = .returned (some entry) ->
    entry ∈ copying.system.begun

/-- A whole queue invents nothing, so nothing is mixed either. -/
theorem Shadowed.inventsNothing {copying : CopyingQueue width Piece}
    (shadowed : copying.Shadowed (2 ^ exponent) profile) : copying.InventsNothing := by
  rcases shadowed with ⟨whole, pieces, entries, reached, shadows⟩
  have holds := QueueSystem.onlyPushed_of_reachable reached
  constructor
  · rw [shadows.same]
    exact holds.popped
  · rw [shadows.same]
    intro entry returned
    have consumer := holds.carries.consumer
    rw [show whole.consumer = .returned (some entry) from returned] at consumer
    exact consumer

end CopyingQueue

/-- Under every overflow profile and in every interleaving of the pieces the array
is accessed inside of its bounds only.  Every entry that `pop` returns is an
argument of a call of `push` as long as the threads never copy the same slot at
once, which they never do under `DropAll`. -/
theorem every_profile_staysInside [Leveled (Fin width -> Piece)] {exponent : Nat}
    {profile : OverflowProfile} {copying : CopyingQueue width Piece}
    (reached : (CopyingQueue.machine width Piece (2 ^ exponent) profile).Reachable copying) :
    copying.StaysInside exponent ∧
      ((CopyingQueue.machine width Piece (2 ^ exponent) profile).ReachableUnder
        CopyingQueue.KeepsApart copying ->
        copying.InventsNothing) ∧
      (profile = .dropAll ->
        (CopyingQueue.machine width Piece (2 ^ exponent) profile).ReachableUnder
          CopyingQueue.KeepsApart copying) := by
  have carries := (CopyingQueue.bounded_of_reachable reached).carries
  refine ⟨⟨?_, ?_, carries.ring.allocated⟩, ?_, ?_⟩
  · intro logLine currentHead nextHead writes
    have producer := carries.producer
    rw [writes] at producer
    exact producer.2.1 ▸ carries.ring.headBound
  · intro currentTail reads
    have consumer := carries.consumer
    rw [reads] at consumer
    exact consumer ▸ carries.ring.tailBound
  · exact fun apart => (CopyingQueue.shadowed_of_reachable apart).inventsNothing
  · rintro rfl
    exact CopyingQueue.keepsApart_of_dropAll reached

/-- The level is the last of the 29 bytes of a packed `LogEntry`. -/
instance : Leveled (Fin 29 -> Byte) where
  level := fun bytes => .ofSize ((bytes 28).setWidth 64)

/-- A critical entry whose other bytes are all the same. -/
def criticalBytes (byte : Byte) (position : Fin 29) : Byte :=
  if position = 28 then 4 else byte

/-- The smallest queue, with its entries as bytes. -/
def twoByteSlots (profile : OverflowProfile) : LogQueue (Fin 29 -> Byte) :=
  { logArray := some (fun _ _ => 0)
    tail := 0
    isRunning := true
    maxCapacity := 58
    highWatermark := 1
    lowWatermark := 0
    capacityMask := 1
    highWatermarkTripped := false
    overflow := profile
    head := 0 }

def twoByteSlotsStart (profile : OverflowProfile) : CopyingQueue 29 Byte :=
  { system := QueueSystem.start (twoByteSlots profile) {}
    written := 0
    outLog := fun _ => 0
    read := 0 }

theorem twoByteSlotsStart_initial (profile : OverflowProfile) :
    (CopyingQueue.machine 29 Byte (2 ^ 1) profile).initial (twoByteSlotsStart profile) :=
  ⟨⟨twoByteSlots profile, {}, ⟨rfl, rfl, nofun, rfl, rfl, rfl⟩, rfl⟩, rfl, rfl⟩

/-- The consumer has read two bytes of the first entry when two more entries are
pushed, and the second of them comes to stand in the slot that is being read. -/
def tornSchedule : List (QueueAction (Fin 29 -> Byte)) :=
  .push (criticalBytes 1) :: List.replicate 39 .producer ++ .pop :: List.replicate 6 .consumer ++
    .push (criticalBytes 2) :: List.replicate 38 .producer ++
      .push (criticalBytes 3) :: List.replicate 35 .producer ++ List.replicate 29 .consumer

def tornQueue : CopyingQueue 29 Byte :=
  ((CopyingQueue.machine 29 Byte (2 ^ 1) .passCriticalDropElse).executeUnder Machine.anyAction
    (twoByteSlotsStart .passCriticalDropElse) tornSchedule).get (by decide +kernel)

theorem every_profile_staysInside_torn :
    tornQueue.StaysInside 1 ∧
      ((CopyingQueue.machine 29 Byte (2 ^ 1) .passCriticalDropElse).ReachableUnder
        CopyingQueue.KeepsApart tornQueue -> tornQueue.InventsNothing) ∧
      (OverflowProfile.passCriticalDropElse = .dropAll ->
        (CopyingQueue.machine 29 Byte (2 ^ 1) .passCriticalDropElse).ReachableUnder
          CopyingQueue.KeepsApart tornQueue) :=
  every_profile_staysInside
    (Machine.reachableUnder_of_execute (twoByteSlotsStart_initial .passCriticalDropElse)
      (by decide +kernel))

/-- The entry that is popped has its first bytes from one call of `push` and the
others from another one. -/
example : tornQueue.system.history.popped.map (fun entry => (entry 1, entry 2)) = [(1, 3)] := by
  decide +kernel

end Core
end VortexEngine
