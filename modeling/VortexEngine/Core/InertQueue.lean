import VortexEngine.Core.QueueInvariant

namespace VortexEngine
namespace Core

/-!
# A queue without an array

The constructor returns early when the shared memory has not been mapped and
when the array would have fewer than two slots, and the object stays in
service.  `push` asks for the array before anything else.  `pop` does not ask:
it finds both indices at zero, and a queue with equal indices is empty.
-/

variable {Entry : Type}

namespace LogQueue

/-- The constructor returns before it makes the array. -/
def ReturnsEarly (mainConfig : MainConfig) (initialized : Bool) : Prop :=
  initialized = false ∨ getMaxRamUsage mainConfig.usableRam / BitVec.ofNat 64 LogEntry.size < 2

instance (mainConfig : MainConfig)
    (initialized : Bool) : Decidable (ReturnsEarly mainConfig initialized) :=
  inferInstanceAs (Decidable (_ ∨ _))

variable [Inhabited Entry] {mainConfig : MainConfig} {initialized : Bool} {indeterminate : SizeT}

/-- The array is missing behind an early return, and only there. -/
theorem create_logArray_eq_none_iff :
    (create mainConfig initialized indeterminate : LogQueue Entry).logArray = none ↔
      ReturnsEarly mainConfig initialized := by
  unfold create ReturnsEarly
  simp only
  split
  · rename_i unmapped
    exact ⟨fun _ => Or.inl unmapped, fun _ => rfl⟩
  · rename_i mapped
    split
    · rename_i few
      exact ⟨fun _ => Or.inr few, fun _ => rfl⟩
    · rename_i enough
      exact ⟨nofun, fun early => False.elim (early.elim mapped enough)⟩

theorem create_indices :
    (create mainConfig initialized indeterminate : LogQueue Entry).head = 0 ∧
      (create mainConfig initialized indeterminate : LogQueue Entry).tail = 0 := by
  unfold create
  simp only
  split
  · exact ⟨rfl, rfl⟩
  · split <;> exact ⟨rfl, rfl⟩

end LogQueue

/-- `push` has not got past its first tests. -/
def PushPoint.Outside : PushPoint Entry -> Prop
  | .idle | .entered _ => True
  | _ => False

/-- `pop` is on its way to `false`, with a tail of zero if it has loaded one. -/
def PopPoint.FindsNothing : PopPoint Entry -> Prop
  | .returned outLog => outLog = none
  | .entered | .loadingTail => True
  | .loadingHead currentTail => currentTail = 0
  | _ => False

namespace QueueSystem

/-- The next step of one of the threads accesses a slot of the array. -/
def AtSlot (system : QueueSystem Entry) : Prop :=
  (Exists fun logLine => Exists fun currentHead => Exists fun nextHead =>
    system.producer = .writing logLine currentHead nextHead) ∨
      Exists fun currentTail => system.consumer = .reading currentTail

/-- Without an array nothing gets in and nothing comes out. -/
structure Inert (system : QueueSystem Entry) : Prop where
  missing : system.queue.logArray = none
  head : system.queue.head = 0
  tail : system.queue.tail = 0
  producer : system.producer.Outside
  consumer : system.consumer.FindsNothing
  published : system.history.published = []
  popped : system.history.popped = []

theorem inert_start {queue : LogQueue Entry} (missing : queue.logArray = none)
    (head : queue.head = 0)
    (tail : queue.tail = 0) (telemetry : Telemetry) : (start queue telemetry).Inert :=
  ⟨missing, head, tail, trivial, rfl, rfl, rfl⟩

variable {before after : QueueSystem Entry}

theorem Inert.not_atSlot (inert : before.Inert) : ¬ before.AtSlot := by
  rintro (⟨logLine, currentHead, nextHead, writing⟩ | ⟨currentTail, reading⟩)
  · have outside := inert.producer
    rw [writing] at outside
    exact outside
  · have nothing := inert.consumer
    rw [reading] at nothing
    exact nothing

/-- Every `pop` that has returned has returned `false`. -/
theorem Inert.returned (inert : before.Inert) {outLog : Option Entry}
    (returns : before.consumer = .returned outLog) :
    outLog = none := by
  have nothing := inert.consumer
  rw [returns] at nothing
  exact nothing

variable [Leveled Entry]

/-- The first test of `push` sends the call back. -/
theorem Inert.producer_step (inert : before.Inert) (moves : before.step .producer = some after) :
    after.Inert ∧ after.telemetry = before.telemetry := by
  have outside := inert.producer
  unfold QueueSystem.step at moves
  cases point : before.producer with
  | idle =>
      rw [point] at moves
      cases moves
  | entered logLine =>
      have refused : pushStep before.queue before.telemetry (.entered logLine) =
          some ⟨before.queue, before.telemetry, .idle⟩ := by
        unfold pushStep
        rw [inert.missing]
        rfl
      rw [point, refused] at moves
      cases moves
      exact ⟨{ inert with producer := trivial }, rfl⟩
  | _ =>
      rw [point] at outside
      exact False.elim outside

/-- `pop` finds equal indices. -/
theorem Inert.consumer_step (inert : before.Inert) (moves : before.step .consumer = some after) :
    after.Inert ∧ after.telemetry = before.telemetry := by
  have nothing := inert.consumer
  rcases step_consumer moves with ⟨progress, move, rfl⟩
  generalize point : before.consumer = former at move nothing ⊢
  have stays : forall next : PopPoint Entry, next.FindsNothing ->
      ({ before with consumer := next, history := before.history.afterPop former } :
        QueueSystem Entry).Inert := by
    intro next finds
    have popped : (before.history.afterPop former).popped = [] := by
      cases former with
      | releasing => exact False.elim nothing
      | _ => exact inert.popped
    have published : (before.history.afterPop former).published = [] := by
      cases former <;> exact inert.published
    exact { inert with consumer := finds, published := published, popped := popped }
  cases move with
  | refuse => exact ⟨stays _ rfl, rfl⟩
  | enter => exact ⟨stays _ trivial, rfl⟩
  | loadTail => exact ⟨stays _ inert.tail, rfl⟩
  | findEmpty => exact ⟨stays _ rfl, rfl⟩
  | findEntry nonempty => exact absurd (nothing.trans inert.head.symm) nonempty
  | _ => exact False.elim nothing

theorem Inert.step (inert : before.Inert) {action : QueueAction Entry}
    (moves : before.step action = some after) :
    after.Inert ∧ after.telemetry = before.telemetry := by
  cases action with
  | push logLine =>
      rcases step_push moves with ⟨_, rfl⟩
      exact ⟨{ inert with producer := trivial }, rfl⟩
  | producer => exact inert.producer_step moves
  | pop =>
      rcases step_pop moves with ⟨_, rfl⟩
      exact ⟨{ inert with consumer := trivial }, rfl⟩
  | consumer => exact inert.consumer_step moves
  | setFinished =>
      rw [step_setFinished moves]
      exact ⟨{ inert with }, rfl⟩

end QueueSystem

end Core
end VortexEngine
