import VortexEngine.Core.PushLedger
import VortexEngine.Core.QueueEntries
import VortexEngine.Core.WaitingPolicies

open VortexEngine.Foundations

namespace VortexEngine
namespace Core

/-!
# What every overflow profile keeps

Under a profile that stores an entry without room the queue loses entries and
returns others twice.  Two things survive every profile, every interleaving and
a `set_finished` at any moment.  Each access to the array is inside of it, also
with indices that are out of date, and `pop` returns nothing but what has been
handed to `push`: neither the value that a slot was allocated with nor one that
somebody has made up.
-/

variable {Entry : Type} {exponent : Nat} {profile : OverflowProfile}

namespace QueueSystem

/-- Everything that is in the queue, on its way, or has been popped was handed to
`push`. -/
structure OnlyPushed (exponent : Nat) (system : QueueSystem Entry) : Prop where
  carries : system.CarriesOnly (fun entry => entry ∈ system.begun) exponent
  popped : forall entry, entry ∈ system.history.popped -> entry ∈ system.begun

variable [Leveled Entry] {before after : QueueSystem Entry}

theorem popped_step {action : QueueAction Entry} (moves : before.step action = some after)
    {entry : Entry} (popped : entry ∈ after.history.popped) :
    entry ∈ before.history.popped ∨ Exists fun currentTail =>
      before.consumer = .releasing currentTail entry := by
  cases action with
  | push logLine =>
      rcases step_push moves with ⟨_, rfl⟩
      exact Or.inl popped
  | producer =>
      rcases step_producer moves with ⟨progress, move, rfl⟩
      dsimp only at popped
      generalize before.producer = point at move popped
      cases move <;> exact Or.inl popped
  | pop =>
      rcases step_pop moves with ⟨_, rfl⟩
      exact Or.inl popped
  | consumer =>
      rcases step_consumer moves with ⟨progress, move, rfl⟩
      dsimp only at popped
      generalize before.consumer = point at move popped
      cases move with
      | @release currentTail outLog =>
          rcases List.mem_append.mp popped with earlier | last
          · exact Or.inl earlier
          · exact Or.inr ⟨currentTail, List.mem_singleton.mp last ▸ rfl⟩
      | _ => exact Or.inl popped
  | setFinished =>
      rw [step_setFinished moves] at popped
      exact Or.inl popped

theorem OnlyPushed.step (holds : OnlyPushed exponent before) {action : QueueAction Entry}
    (moves : before.step action = some after) : OnlyPushed exponent after := by
  have grown := begun_step moves
  have kept : forall entry, entry ∈ before.begun -> entry ∈ after.begun := by
    intro entry member
    rw [grown]
    exact List.mem_append_left _ member
  have brought : Admits (fun entry => entry ∈ after.begun) action := by
    cases action with
    | push logLine =>
        change logLine ∈ after.begun
        rw [grown]
        exact List.mem_append_right _ (List.mem_singleton.mpr rfl)
    | _ => trivial
  refine ⟨(holds.carries.weaken kept).step brought moves, ?_⟩
  intro entry popped
  rcases popped_step moves popped with earlier | ⟨currentTail, releases⟩
  · exact kept entry (holds.popped entry earlier)
  · have consumer := holds.carries.consumer
    rw [releases] at consumer
    exact kept entry consumer.2

theorem onlyPushed_of_reachable {system : QueueSystem Entry}
    (reached : (queueMachine Entry (2 ^ exponent) profile).Reachable system) :
      system.OnlyPushed exponent := by
  refine reached.invariant ?_ (fun _ _ _ _ holds _ moves => holds.step moves)
  rintro _ ⟨queue, telemetry, fresh, rfl⟩
  exact ⟨carriesOnly_start fresh, fun entry popped => absurd popped List.not_mem_nil⟩

end QueueSystem

end Core
end VortexEngine
