import VortexEngine.Core.QueueRefinement

open VortexEngine.Foundations

namespace VortexEngine
namespace Core

/-!
# The profiles that wait

`Block`, and `DropNonCritical` for a critical entry, enter a loop when the
full test has found the slot after the head equal to the tail.  The loop
compares the tail with `current_head` instead of `next_head`.  On a full queue
these differ, so the loop ends at once, the slot is written, and the store of
`head` meets the tail: the queue then counts as empty and its whole content is
gone.

What the loop does not enforce may still happen.  In the runs in which every
exit from the loop is preceded by a pop that has moved the tail, nothing is
lost.
-/

variable {Entry : Type} [Leveled Entry] {exponent : Nat} {profile : OverflowProfile}

omit [Leveled Entry] in
/-- The knowledge of the producer just before it stores `head`: some pop has
moved the tail off the slot after the head. -/
theorem publishing_has_room {system : QueueSystem Entry}
    (holds : system.RingInvariant exponent) {logLine : Entry} {currentHead nextHead : SizeT}
    (publishes : system.producer = .publishing logLine currentHead nextHead) :
    nextHead ≠ system.queue.tail := by
  have producer := holds.producer
  rw [publishes] at producer
  exact producer.2.2.1

/-- If every exit from the wait loop happens with a free slot, then the
waiting profiles lose nothing, and no call stores `head` before the tail has
left the slot after it. -/
theorem waiting_loses_nothing (waits : profile = .block ∨ profile = .dropNonCritical)
    {system : QueueSystem Entry}
    (reached : (queueMachine Entry (2 ^ exponent) profile).ReachableUnder
      QueueSystem.LeavesWaitWithRoom system) :
    system.history.published = system.history.popped ++ system.queue.contents ∧
      forall logLine currentHead nextHead,
        system.producer = .publishing logLine currentHead nextHead ->
          nextHead ≠ system.queue.tail := by
  have policy : profile ≠ .passCriticalDropElse := by
    rcases waits with rfl | rfl <;> decide
  exact ⟨published_eq_popped_append_contents policy reached,
    fun _ _ _ publishes => publishing_has_room
      (ringInvariant_of_reachable policy reached) publishes⟩

/-- A critical entry with the given identifier. -/
def criticalEntry (logId : UInt32T) : LogEntry :=
  { (default : LogEntry) with logId := logId, level := .critical }

/-- The second call waits on the full queue until a pop has moved the tail,
and then leaves the loop and stores `head`. -/
theorem waiting_loses_nothing_twoSlots :
    let reached :=
      ((queueMachine LogEntry (2 ^ 1) .block).executeUnder QueueSystem.LeavesWaitWithRoom
      (twoSlotsStart .block) (fillSchedule (criticalEntry 1) (criticalEntry 2) ++
        .pop :: List.replicate 6 .consumer ++ List.replicate 4 .producer)).get (by decide)
    reached.history.published = reached.history.popped ++ reached.queue.contents ∧
      forall logLine currentHead nextHead,
        reached.producer = .publishing logLine currentHead nextHead ->
          nextHead ≠ reached.queue.tail :=
  waiting_loses_nothing (Or.inl rfl)
    (Machine.reachableUnder_of_execute (twoSlotsStart_initial .block) (by decide))

/-- Two critical calls on two slots, without any pop.  The first fills the
queue; the second leaves the wait loop at once and stores `head`. -/
def overrunSchedule : List (QueueAction LogEntry) :=
  fillSchedule (criticalEntry 1) (criticalEntry 2) ++ List.replicate 4 .producer

/-- A schedule that ends, while the queue runs, in a published entry that is
neither popped nor in the queue. -/
def LosesEntry (profile : OverflowProfile) (system : QueueSystem LogEntry) : Prop :=
  (queueMachine LogEntry (2 ^ 1) profile).Reachable system ∧ system.queue.isRunning = true ∧
    system.history.published ≠ system.history.popped ++ system.queue.contents

/-- Both waiting profiles lose the whole content of a full queue. -/
theorem waiting_overrun_loses_entries :
    (Exists fun system => LosesEntry .block system) ∧
      (Exists fun system => LosesEntry .dropNonCritical system) := by
  have block : LosesEntry .block (((queueMachine LogEntry (2 ^ 1) .block).executeUnder
      Machine.anyAction (twoSlotsStart .block) overrunSchedule).get (by decide)) :=
    ⟨Machine.reachableUnder_of_execute (twoSlotsStart_initial .block) (by decide),
      by decide, by decide⟩
  have dropNonCritical :
    LosesEntry .dropNonCritical (((queueMachine LogEntry (2 ^ 1) .dropNonCritical).executeUnder
      Machine.anyAction (twoSlotsStart .dropNonCritical) overrunSchedule).get (by decide)) :=
    ⟨Machine.reachableUnder_of_execute (twoSlotsStart_initial .dropNonCritical) (by decide),
      by decide, by decide⟩
  exact ⟨⟨_, block⟩, ⟨_, dropNonCritical⟩⟩

end Core
end VortexEngine
