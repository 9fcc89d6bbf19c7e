import VortexEngine.Core.QueueCalls
import VortexEngine.Core.QueueRefinement
import VortexEngine.Foundations.StepBudget

open VortexEngine.Foundations

namespace VortexEngine
namespace Core

/-!
# Calls that never wait

A call of `pop` and, for the profiles that neither block nor wait, a call of
`push` take a bounded number of their own steps, whatever the other thread
does in between and even if it stands still.  A point has at most as many
steps before its return as its rank says, every own step lowers the rank, and
no step of the other thread changes it.

The bound would be vacuous for a call that is stuck, so the calls in progress
are also shown to have a next step.  Only the read of a slot could be stuck, on
a queue without an array.
-/

variable {Entry : Type}

/-- At most so many steps of `push` are left.  The wait loop has no bound; its
rank is only that of its exit. -/
def PushPoint.stepsLeft : PushPoint Entry -> Nat
  | .idle => 0
  | .entered _ => 10
  | .loadingHead _ => 9
  | .loadingTail _ _ _ | .waiting _ _ _ => 8
  | .rechecking _ _ _ => 7
  | .writing _ _ _ => 6
  | .publishing _ _ _ => 5
  | .notifying _ => 4
  | .counting _ => 3
  | .measuring _ => 2
  | .tripping => 1

/-- At most so many steps of `pop` are left. -/
def PopPoint.stepsLeft : PopPoint Entry -> Nat
  | .returned _ => 0
  | .entered => 9
  | .loadingTail => 8
  | .loadingHead _ => 7
  | .rechecking _ => 6
  | .reading _ => 5
  | .releasing _ _ => 4
  | .counting _ _ => 3
  | .measuring _ _ => 2
  | .untripping _ => 1

/-- The profiles under which a full queue never makes `push` wait. -/
def OverflowProfile.NeverWaits (profile : OverflowProfile) : Prop :=
  profile = .dropAll ∨ profile = .passCriticalDropElse

section Moves

variable [Leveled Entry] {queue : LogQueue Entry} {telemetry : Telemetry}

/-- Outside of the wait loop a step of `push` lowers its rank, and it enters the
loop only under a profile that waits. -/
theorem PushMove.stepsLeft_lt {point : PushPoint Entry} {after : Progress Entry (PushPoint Entry)}
    (move : PushMove queue telemetry point after) (never : queue.overflow.NeverWaits)
    (outside : forall logLine currentHead nextHead, point ≠ .waiting logLine currentHead nextHead) :
    after.point.stepsLeft < point.stepsLeft ∧
      forall logLine currentHead nextHead, after.point ≠ .waiting logLine currentHead nextHead := by
  cases move with
  | wait _ policy =>
      rcases policy with blocks | ⟨waits, _⟩
      · rcases never with drops | passes
        · cases blocks.symm.trans drops
        · cases blocks.symm.trans passes
      · rcases never with drops | passes
        · cases waits.symm.trans drops
        · cases waits.symm.trans passes
  | spin => exact absurd rfl (outside _ _ _)
  | leave => exact absurd rfl (outside _ _ _)
  | _ => exact ⟨by simp only [PushPoint.stepsLeft]; decide, nofun⟩

omit [Leveled Entry] in
theorem PopMove.stepsLeft_lt {point : PopPoint Entry} {after : Progress Entry (PopPoint Entry)}
    (move : PopMove queue telemetry point after) : after.point.stepsLeft < point.stepsLeft := by
  cases move <;> simp only [PopPoint.stepsLeft] <;> decide

end Moves

/-! ## The actions of the two threads -/

namespace QueueAction

def pushCalls : QueueAction Entry -> Nat
  | .push _ => 1
  | _ => 0

def producerSteps : QueueAction Entry -> Nat
  | .producer => 1
  | _ => 0

def popCalls : QueueAction Entry -> Nat
  | .pop => 1
  | _ => 0

def consumerSteps : QueueAction Entry -> Nat
  | .consumer => 1
  | _ => 0

end QueueAction

namespace QueueSystem

variable [Leveled Entry] {before after : QueueSystem Entry} {capacity : Nat}
    {profile : OverflowProfile}

/-- A queue with an array whose producer is not in the wait loop and will not
enter it. -/
structure NeverWaits (system : QueueSystem Entry) : Prop where
  policy : system.queue.overflow.NeverWaits
  allocated : system.queue.logArray ≠ none
  outside : forall logLine currentHead nextHead,
    system.producer ≠ .waiting logLine currentHead nextHead

theorem NeverWaits.step (holds : NeverWaits before) {action : QueueAction Entry}
    (moves : before.step action = some after) : NeverWaits after := by
  cases action with
  | push logLine =>
      rcases step_push moves with ⟨_, rfl⟩
      exact ⟨holds.policy, holds.allocated, nofun⟩
  | producer =>
      rcases step_producer moves with ⟨progress, move, rfl⟩
      refine ⟨move.frame.overflow ▸ holds.policy, ?_,
        (move.stepsLeft_lt holds.policy holds.outside).2⟩
      have allocated := holds.allocated
      generalize before.producer = point at move
      cases move with
      | write =>
          rcases Option.ne_none_iff_exists'.mp allocated with ⟨slots, array⟩
          simp [LogQueue.writeSlot, array]
      | _ => exact allocated
  | pop =>
      rcases step_pop moves with ⟨_, rfl⟩
      exact ⟨holds.policy, holds.allocated, holds.outside⟩
  | consumer =>
      rcases step_consumer moves with ⟨progress, move, rfl⟩
      exact ⟨move.frame.overflow ▸ holds.policy, move.frame.logArray ▸ holds.allocated,
        holds.outside⟩
  | setFinished =>
      rw [step_setFinished moves]
      exact ⟨holds.policy, holds.allocated, holds.outside⟩

theorem neverWaits_of_reachable (never : profile.NeverWaits) {system : QueueSystem Entry}
    (reached : (queueMachine Entry capacity profile).Reachable system) : system.NeverWaits := by
  refine reached.invariant ?_ (fun _ _ _ _ holds _ moves => holds.step moves)
  rintro _ ⟨queue, telemetry, fresh, rfl⟩
  exact ⟨fresh.profile ▸ never, fresh.allocated, nofun⟩

/-- The rank of the producing thread pays for its steps, and ten come with each
call. -/
theorem producer_pays (holds : NeverWaits before) {action : QueueAction Entry}
    (moves : before.step action = some after) :
    after.producer.stepsLeft + action.producerSteps ≤ before.producer.stepsLeft + 10 *
      action.pushCalls := by
  cases action with
  | push logLine =>
      rcases step_push moves with ⟨idle, rfl⟩
      rw [idle]
      exact Nat.le_refl _
  | producer =>
      rcases step_producer moves with ⟨progress, move, rfl⟩
      exact (move.stepsLeft_lt holds.policy holds.outside).1
  | pop =>
      rcases step_pop moves with ⟨_, rfl⟩
      exact Nat.le_refl _
  | consumer =>
      rcases step_consumer moves with ⟨progress, _, rfl⟩
      exact Nat.le_refl _
  | setFinished =>
      rw [step_setFinished moves]
      exact Nat.le_refl _

/-- The rank of the consuming thread pays for its steps, and nine come with each
call. -/
theorem consumer_pays {action : QueueAction Entry} (moves : before.step action = some after) :
    after.consumer.stepsLeft + action.consumerSteps ≤ before.consumer.stepsLeft + 9 *
      action.popCalls := by
  cases action with
  | push logLine =>
      rcases step_push moves with ⟨_, rfl⟩
      exact Nat.le_refl _
  | producer =>
      rcases step_producer moves with ⟨progress, _, rfl⟩
      exact Nat.le_refl _
  | pop =>
      rcases step_pop moves with ⟨⟨result, returned⟩, rfl⟩
      rw [returned]
      exact Nat.le_refl _
  | consumer =>
      rcases step_consumer moves with ⟨progress, move, rfl⟩
      exact move.stepsLeft_lt
  | setFinished =>
      rw [step_setFinished moves]
      exact Nat.le_refl _

theorem producer_enabled {system : QueueSystem Entry} (calls : system.producer ≠ .idle) :
    Exists fun after => system.step .producer = some after := by
  rcases @pushStep_isSome _ _ system.queue system.telemetry _ calls with ⟨progress, steps⟩
  exact ⟨_, by rw [step, steps]; rfl⟩

/-- A call of `pop` in progress has a next step, if the queue has its array. -/
theorem consumer_enabled {system : QueueSystem Entry} (allocated : system.queue.logArray ≠ none)
    (calls : forall result, system.consumer ≠ .returned result) :
    Exists fun after => system.step .consumer = some after := by
  have progresses : Exists fun progress =>
      popStep system.queue system.telemetry system.consumer = some progress := by
    unfold popStep
    cases point : system.consumer with
    | returned result => exact absurd point (calls result)
    | reading currentTail =>
        rcases Option.ne_none_iff_exists'.mp allocated with ⟨slots, array⟩
        rw [array]
        exact ⟨_, rfl⟩
    | entered | loadingHead | rechecking | measuring =>
        simp only
        split <;> exact ⟨_, rfl⟩
    | _ => exact ⟨_, rfl⟩
  rcases progresses with ⟨progress, steps⟩
  exact ⟨_, by rw [step, steps]; rfl⟩

end QueueSystem

/-! ## Every run -/

section Runs

variable [Leveled Entry] {capacity : Nat} {profile : OverflowProfile}

theorem producerBudget (never : profile.NeverWaits) :
    Machine.Budget (queueMachine Entry capacity profile) Machine.anyAction
      (queueMachine Entry capacity profile).Reachable (fun _ => False)
        (fun system => system.producer.stepsLeft)
      QueueAction.producerSteps (fun action => 10 * action.pushCalls) where
  keeps := fun _ _ _ reached admitted moves => reached.next admitted moves
  stays := fun _ _ _ achieved _ _ => achieved
  pays := fun _ _ _ reached _ moves _ =>
    QueueSystem.producer_pays (QueueSystem.neverWaits_of_reachable never reached) moves

theorem consumerBudget :
    Machine.Budget (queueMachine Entry capacity profile) Machine.anyAction
      (queueMachine Entry capacity profile).Reachable (fun _ => False)
        (fun system => system.consumer.stepsLeft)
      QueueAction.consumerSteps (fun action => 9 * action.popCalls) where
  keeps := fun _ _ _ reached admitted moves => reached.next admitted moves
  stays := fun _ _ _ achieved _ _ => achieved
  pays := fun _ _ _ _ _ moves _ => QueueSystem.consumer_pays moves

/-- In every run the producing thread takes at most ten steps for each call of
`push` and the consuming thread at most nine for each call of `pop`; a thread
that has used up its steps has returned, and one that has not can go on. -/
theorem push_and_pop_are_wait_free (never : profile.NeverWaits) {before after : QueueSystem Entry}
    {actions : List (QueueAction Entry)}
    (reached : (queueMachine Entry capacity profile).Reachable before)
    (run : (queueMachine Entry capacity profile).Executes Machine.anyAction before actions after) :
    (after.producer.stepsLeft + Machine.weigh QueueAction.producerSteps actions ≤
        before.producer.stepsLeft + 10 * Machine.weigh QueueAction.pushCalls actions) ∧
      (after.consumer.stepsLeft + Machine.weigh QueueAction.consumerSteps actions ≤
        before.consumer.stepsLeft + 9 * Machine.weigh QueueAction.popCalls actions) ∧
        (after.producer ≠ .idle -> Exists fun next => after.step .producer = some next) ∧
          ((forall result, after.consumer ≠ .returned result) ->
            Exists fun next => after.step .consumer = some next) := by
  have holds := QueueSystem.neverWaits_of_reachable never (reached.continue run.runs)
  have producer := (producerBudget never).total reached run not_false
  have consumer := (@consumerBudget Entry _ capacity profile).total reached run not_false
  rw [Machine.weigh_mul] at producer consumer
  exact ⟨producer, consumer, QueueSystem.producer_enabled,
    QueueSystem.consumer_enabled holds.allocated⟩

end Runs

/-- A call that publishes and one that drops, on the smallest queue: thirteen
steps of the at most twenty. -/
theorem push_and_pop_are_wait_free_twoSlots :
    Machine.weigh QueueAction.producerSteps (fillSchedule default default) ≤
      10 * Machine.weigh QueueAction.pushCalls (fillSchedule default default) := by
  have within := push_and_pop_are_wait_free (Or.inl rfl)
    (Machine.ReachableUnder.start (twoSlotsStart_initial .dropAll))
    (Machine.executes_of_execute (Option.some_get
      (show ((queueMachine LogEntry (2 ^ 1) .dropAll).executeUnder Machine.anyAction
        (twoSlotsStart .dropAll)
        (fillSchedule default default)).isSome = true by decide)).symm)
  exact (Nat.le_add_left _ _).trans (within.1.trans (Nat.le_of_eq (Nat.zero_add _)))

end Core
end VortexEngine
