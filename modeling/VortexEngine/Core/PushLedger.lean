import VortexEngine.Core.QueueRefinement

open VortexEngine.Foundations

namespace VortexEngine
namespace Core

/-!
# The ledger of pushed entries

Every entry handed to `push` is decided once.  While the queue runs no call is
refused, so under `DropAll` the published entries are the decided ones without
those whose full test saw every usable slot occupied.
-/

variable {Entry : Type}

/-- The decided calls whose full test did not see every usable slot occupied. -/
def History.admitted (history : History Entry) (exponent : Nat) : List Entry :=
  (history.pushes.filter fun record => Decidable.decide (record.seen ≠ 2 ^ exponent - 1)).map
    PushRecord.logLine

namespace QueueSystem

/-- Published entries are the calls so decided, and a running queue has refused none. -/
structure PushLedger (system : QueueSystem Entry) : Prop where
  running : system.queue.isRunning = true
  decidedRunning : forall record, record ∈ system.history.pushes ->
    record.atDecision.isRunning = true
  published : system.history.published = system.history.stored

/-- The queue is not told to finish. -/
def KeepsRunning (_system : QueueSystem Entry) (action : QueueAction Entry) : Prop :=
  action ≠ .setFinished

variable [Leveled Entry] {before after : QueueSystem Entry}

omit [Leveled Entry] in
theorem decidedRunning_append {history : History Entry} {record : PushRecord Entry}
    (decided : forall record, record ∈ history.pushes -> record.atDecision.isRunning = true)
    (running : record.atDecision.isRunning = true) :
    forall other, other ∈ history.pushes ++ [record] -> other.atDecision.isRunning = true := by
  intro other member
  rcases List.mem_append.mp member with earlier | last
  · exact decided other earlier
  · exact List.mem_singleton.mp last ▸ running

theorem PushLedger.producer_step (holds : PushLedger before)
    (moves : before.step .producer = some after) :
    PushLedger after := by
  have published := stored_step holds.published moves
  rcases step_producer moves with ⟨progress, move, rfl⟩
  rcases holds with ⟨running, decided, _⟩
  have kept : progress.queue.isRunning = true := move.frame.isRunning.trans running
  generalize before.producer = point at move published
  cases move with
  | refuse => exact ⟨kept, decidedRunning_append decided kept, published⟩
  | drop => exact ⟨kept, decidedRunning_append decided kept, published⟩
  | giveUp => exact ⟨kept, decidedRunning_append decided kept, published⟩
  | publish => exact ⟨kept, decidedRunning_append decided kept, published⟩
  | _ => exact ⟨kept, decided, published⟩

theorem PushLedger.step (holds : PushLedger before) {action : QueueAction Entry}
    (admitted : KeepsRunning before action)
    (moves : before.step action = some after) : PushLedger after := by
  cases action with
  | push logLine =>
      rcases step_push moves with ⟨_, rfl⟩
      exact ⟨holds.running, holds.decidedRunning, holds.published⟩
  | producer => exact holds.producer_step moves
  | pop =>
      rcases step_pop moves with ⟨_, rfl⟩
      exact ⟨holds.running, holds.decidedRunning, holds.published⟩
  | consumer =>
      rcases step_consumer moves with ⟨progress, move, rfl⟩
      have kept := move.frame.isRunning.trans holds.running
      generalize before.consumer = point at move
      cases move <;> exact ⟨kept, holds.decidedRunning, holds.published⟩
  | setFinished => exact False.elim (admitted rfl)

end QueueSystem

section Runs

variable [Leveled Entry] {exponent capacity : Nat} {profile : OverflowProfile}

theorem pushLedger_of_reachable {system : QueueSystem Entry}
    (reached : (queueMachine Entry capacity profile).ReachableUnder
      QueueSystem.KeepsRunning system) :
    system.PushLedger := by
  refine reached.invariant ?_ (fun _ _ _ _ holds admitted moves => holds.step admitted moves)
  rintro _ ⟨queue, telemetry, fresh, rfl⟩
  exact ⟨fresh.running, fun record member => False.elim (List.not_mem_nil member), rfl⟩

/-- While the queue runs under `DropAll`, the popped entries followed by the
content are the decided ones without those that saw a full queue. -/
theorem popped_append_contents_eq_admitted {system : QueueSystem Entry}
    (reached : (queueMachine Entry (2 ^ exponent) .dropAll).ReachableUnder
      QueueSystem.KeepsRunning system) :
    system.history.popped ++ system.queue.contents = system.history.admitted exponent := by
  have ledger := pushLedger_of_reachable reached
  have anyhow : (queueMachine Entry (2 ^ exponent) .dropAll).Reachable system :=
    reached.reguard (fun _ _ _ _ => trivial)
  have accounts := (QueueSystem.callInvariant_of_reachable anyhow).records
  rw [← published_eq_popped_append_contents (by decide) (leavesWaitWithRoom_of_dropAll reached),
    ledger.published, History.stored, History.admitted]
  congr 1
  apply List.filter_congr
  intro record member
  have account := accounts record member
  have decided : record.outcome ≠ .refused := by
    intro refused
    have stopped := account.refused refused
    rw [ledger.decidedRunning record member] at stopped
    cases stopped
  have exact_drop := account.dropped decided
  rw [decide_eq_decide]
  cases outcome : record.outcome with
  | published =>
      rw [outcome] at exact_drop
      exact ⟨fun _ full => absurd (exact_drop.mpr full) (by decide), fun _ => rfl⟩
  | dropped =>
      rw [outcome] at exact_drop
      have differs : PushOutcome.dropped ≠ .published := by decide
      exact ⟨fun same => absurd same differs, fun room => absurd (exact_drop.mp rfl) room⟩
  | refused => exact absurd outcome decided

end Runs

end Core
end VortexEngine
