import VortexEngine.Core.InertQueue
import VortexEngine.Core.QueueRefinement
import VortexEngine.Core.WholeCalls

open VortexEngine.Foundations

namespace VortexEngine
namespace Core

/-!
# The entries of a queue and the counters

`push` counts an entry after the store of `head` that publishes it, and `pop`
counts an entry after the store of `tail` that takes it out.  Between the two
an entry is published or popped, and not counted yet.  The counters belong to
all queues; what one step adds to them is what it adds to the counted entries
of its own queue.
-/

variable {Entry : Type}

/-- The published entries that the producer has yet to count. -/
def PushPoint.uncounted : PushPoint Entry -> Nat
  | .notifying _ | .counting _ => 1
  | _ => 0

/-- The popped entries that the consumer has yet to count. -/
def PopPoint.uncounted : PopPoint Entry -> Nat
  | .counting _ _ => 1
  | _ => 0

section Moves

variable {queue : LogQueue Entry} {telemetry : Telemetry}

/-- What a thread does to the entries that it has handled and to their counter: a
step handles some, leaves some uncounted, and counts some. -/
structure Counts (handled uncounted handled' uncounted' count : Nat)
    (counter counter' : UInt64T) : Prop where
  balance : handled' + uncounted = handled + uncounted' + count
  grows : handled ≤ handled'
  counter : counter' = counter + BitVec.ofNat 64 count

/-- A step that neither handles nor counts an entry. -/
theorem Counts.idle (handled uncounted : Nat) (counter : UInt64T) :
    Counts handled uncounted handled uncounted 0 counter counter :=
  ⟨rfl, Nat.le_refl handled, (BitVec.add_zero counter).symm⟩

theorem PushMove.counts [Leveled Entry] {point : PushPoint Entry}
    {progress : Progress Entry (PushPoint Entry)}
    (move : PushMove queue telemetry point progress) (history : History Entry) :
    (Exists fun pushed => Counts history.published.length point.uncounted
      (history.afterPush queue progress.queue point progress.point).published.length
        progress.point.uncounted pushed
      telemetry.pushedLogs progress.telemetry.pushedLogs) ∧
      (history.afterPush queue progress.queue point progress.point).popped = history.popped ∧
        progress.telemetry.eliminatedLogs = telemetry.eliminatedLogs := by
  cases move with
  | publish =>
      refine ⟨⟨0, ?_, ?_, (BitVec.add_zero _).symm⟩, rfl, rfl⟩
      · exact List.length_append
      · change history.published.length ≤ (history.published ++ [_]).length
        rw [List.length_append]
        exact Nat.le_add_right _ _
  | count => exact ⟨⟨1, rfl, Nat.le_refl _, rfl⟩, rfl, rfl⟩
  | _ => exact ⟨⟨0, Counts.idle _ _ _⟩, rfl, rfl⟩

theorem PopMove.counts {point : PopPoint Entry} {progress : Progress Entry (PopPoint Entry)}
    (move : PopMove queue telemetry point progress) (history : History Entry) :
    (Exists fun popped => Counts history.popped.length point.uncounted
      (history.afterPop point).popped.length progress.point.uncounted popped
      telemetry.eliminatedLogs progress.telemetry.eliminatedLogs) ∧
      (history.afterPop point).published = history.published ∧
        progress.telemetry.pushedLogs = telemetry.pushedLogs := by
  cases move with
  | release =>
      refine ⟨⟨0, ?_, ?_, (BitVec.add_zero _).symm⟩, rfl, rfl⟩
      · exact List.length_append
      · change history.popped.length ≤ (history.popped ++ [_]).length
        rw [List.length_append]
        exact Nat.le_add_right _ _
  | count => exact ⟨⟨1, rfl, Nat.le_refl _, rfl⟩, rfl, rfl⟩
  | _ => exact ⟨⟨0, Counts.idle _ _ _⟩, rfl, rfl⟩

end Moves

namespace QueueSystem

/-- The calls of `RegisterPushed` for this queue. -/
def countedPushes (system : QueueSystem Entry) : Nat :=
  system.history.published.length - system.producer.uncounted

/-- The calls of `RegisterEliminated` for this queue. -/
def countedPops (system : QueueSystem Entry) : Nat :=
  system.history.popped.length - system.consumer.uncounted

/-- No call of `push` or `pop` is in progress. -/
def Quiet (system : QueueSystem Entry) : Prop :=
  system.producer = .idle ∧ Exists fun outLog => system.consumer = .returned outLog

/-- A queue under `DropAll`: either it has no array, or it is a ring that loses
nothing.  What is not counted has at least happened. -/
structure EntryAccount (system : QueueSystem Entry) : Prop where
  service : system.Inert ∨ Exists fun exponent => system.RingInvariant exponent ∧ system.DropsAll ∧
    system.history.published = system.history.popped ++ system.queue.contents
  pushes : system.producer.uncounted ≤ system.history.published.length
  pops : system.consumer.uncounted ≤ system.history.popped.length

/-- What a step adds to the counted entries, it adds to the counters. -/
structure CountedStep (before after : QueueSystem Entry) (pushed popped : Nat) : Prop where
  countedPushes : after.countedPushes = before.countedPushes + pushed
  countedPops : after.countedPops = before.countedPops + popped
  pushedLogs : after.telemetry.pushedLogs = before.telemetry.pushedLogs + BitVec.ofNat 64 pushed
  eliminatedLogs : after.telemetry.eliminatedLogs =
    before.telemetry.eliminatedLogs + BitVec.ofNat 64 popped
  published : before.history.published.length ≤ after.history.published.length

variable {before after : QueueSystem Entry}

theorem EntryAccount.conserved (account : before.EntryAccount) :
    before.history.published.length = before.history.popped.length + before.queue.occupancy := by
  rcases account.service with inert | ⟨exponent, holds, _, conserved⟩
  · have none : before.queue.occupancy = 0 := by
      unfold LogQueue.occupancy LogQueue.occupiedSlots
      rw [inert.head, inert.tail]
      simp
    rw [inert.published, inert.popped, none]
    rfl
  · rw [conserved, List.length_append, holds.ring.occupancy_eq_length]

theorem EntryAccount.withTelemetry (account : before.EntryAccount) (telemetry : Telemetry) :
    ({ before with telemetry := telemetry } : QueueSystem Entry).EntryAccount := by
  refine ⟨?_, account.pushes, account.pops⟩
  rcases account.service with inert | ⟨exponent, holds, drops, conserved⟩
  · exact Or.inl { inert with }
  · exact Or.inr ⟨exponent, { holds with }, drops, conserved⟩

theorem CountedStep.ofCounts {pushed popped : Nat}
    (pushes : Counts before.history.published.length before.producer.uncounted
      after.history.published.length
      after.producer.uncounted pushed before.telemetry.pushedLogs after.telemetry.pushedLogs)
    (pops : Counts before.history.popped.length before.consumer.uncounted
      after.history.popped.length
      after.consumer.uncounted popped before.telemetry.eliminatedLogs
        after.telemetry.eliminatedLogs)
    (enoughPushes : before.producer.uncounted ≤ before.history.published.length)
    (enoughPops : before.consumer.uncounted ≤ before.history.popped.length) :
    after.producer.uncounted ≤ after.history.published.length ∧
      after.consumer.uncounted ≤ after.history.popped.length ∧
        CountedStep before after pushed popped := by
  have pushBalance := pushes.balance
  have popBalance := pops.balance
  refine ⟨by omega, by omega, ?_, ?_, pushes.counter, pops.counter, pushes.grows⟩
  · unfold QueueSystem.countedPushes
    omega
  · unfold QueueSystem.countedPops
    omega

variable [Leveled Entry]

/-- Publishing, popping and counting are steps of their own. -/
theorem step_counted {action : QueueAction Entry} (moves : before.step action = some after)
    (enoughPushes : before.producer.uncounted ≤ before.history.published.length)
    (enoughPops : before.consumer.uncounted ≤ before.history.popped.length) :
    after.producer.uncounted ≤ after.history.published.length ∧
      after.consumer.uncounted ≤ after.history.popped.length ∧
        Exists fun pushed => Exists fun popped => CountedStep before after pushed popped := by
  suffices counts : Exists fun pushed => Exists fun popped =>
      Counts before.history.published.length before.producer.uncounted
        after.history.published.length
        after.producer.uncounted pushed before.telemetry.pushedLogs after.telemetry.pushedLogs ∧
      Counts before.history.popped.length before.consumer.uncounted after.history.popped.length
        after.consumer.uncounted popped before.telemetry.eliminatedLogs
          after.telemetry.eliminatedLogs by
    rcases counts with ⟨pushed, popped, pushes, pops⟩
    rcases CountedStep.ofCounts pushes pops enoughPushes enoughPops with
      ⟨pushesLeft, popsLeft, counted⟩
    exact ⟨pushesLeft, popsLeft, pushed, popped, counted⟩
  cases action with
  | push logLine =>
      rcases step_push moves with ⟨idle, rfl⟩
      rw [idle]
      exact ⟨0, 0, Counts.idle _ _ _, Counts.idle _ _ _⟩
  | producer =>
      rcases step_producer moves with ⟨progress, move, rfl⟩
      rcases move.counts before.history with ⟨⟨pushed, counts⟩, popped, eliminated⟩
      refine ⟨pushed, 0, counts, ?_⟩
      rw [popped, eliminated]
      exact Counts.idle _ _ _
  | pop =>
      rcases step_pop moves with ⟨⟨outLog, returned⟩, rfl⟩
      rw [returned]
      exact ⟨0, 0, Counts.idle _ _ _, Counts.idle _ _ _⟩
  | consumer =>
      rcases step_consumer moves with ⟨progress, move, rfl⟩
      rcases move.counts before.history with ⟨⟨popped, counts⟩, published, pushed⟩
      refine ⟨0, popped, ?_, counts⟩
      rw [published, pushed]
      exact Counts.idle _ _ _
  | setFinished =>
      rw [step_setFinished moves]
      exact ⟨0, 0, Counts.idle _ _ _, Counts.idle _ _ _⟩

theorem EntryAccount.step (account : before.EntryAccount) {action : QueueAction Entry}
    (moves : before.step action = some after) :
    after.EntryAccount ∧ Exists fun pushed => Exists fun popped =>
      CountedStep before after pushed popped := by
  rcases step_counted moves account.pushes account.pops with ⟨pushes, pops, counted⟩
  refine ⟨⟨?_, pushes, pops⟩, counted⟩
  rcases account.service with inert | ⟨exponent, holds, drops, conserved⟩
  · exact Or.inl (inert.step moves).1
  · refine Or.inr
      ⟨exponent, holds.step (drops.leavesWaitWithRoom action) moves, drops.step moves, ?_⟩
    have sound : Channel.Sound (2 ^ exponent - 1) before.channel :=
      ⟨conserved, Nat.le_sub_one_of_lt holds.ring.length_contents_lt⟩
    rcases channel_step holds moves with same | ⟨channelAction, _, channelMoves⟩
    · change after.channel.accepted = after.channel.delivered ++ after.channel.pending
      rw [same]
      exact conserved
    · exact (Channel.step_sound sound channelMoves).conserved

end QueueSystem

theorem create_entryAccount [Inhabited Entry] {mainConfig : MainConfig} (initialized : Bool)
    (indeterminate : SizeT) (profile : mainConfig.profile = .dropAll) (telemetry : Telemetry) :
    (QueueSystem.start (LogQueue.create mainConfig initialized indeterminate : LogQueue Entry)
      telemetry).EntryAccount := by
  refine ⟨?_, Nat.zero_le _, Nat.zero_le _⟩
  by_cases missing :
    (LogQueue.create mainConfig initialized indeterminate : LogQueue Entry).logArray = none
  · exact Or.inl
      (QueueSystem.inert_start missing LogQueue.create_indices.1
        LogQueue.create_indices.2 telemetry)
  · rcases LogQueue.create_fresh missing with ⟨exponent, _, fresh⟩
    have ring := fresh.isRing
    have empty := ring.empty_iff.mp (fresh.tail.trans fresh.head.symm)
    have drops := fresh.profile.trans profile
    refine Or.inr ⟨exponent, ⟨ring, ?_, trivial, trivial⟩, ⟨drops, nofun⟩, empty.symm⟩
    exact fun other => nomatch drops.symm.trans other

end Core
end VortexEngine
