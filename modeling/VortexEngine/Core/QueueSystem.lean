import VortexEngine.Core.LogQueue
import VortexEngine.Foundations.Machine
import VortexEngine.Foundations.RingWindow

open VortexEngine.Foundations

namespace VortexEngine
namespace Core

/-!
# One producer and one consumer on a queue

The system interleaves the steps of one producing thread, which runs any
sequence of `push` calls, with those of one consuming thread, which runs any
sequence of `pop` calls; `set_finished` may occur at any moment.  Beginning a
call is an action of its own, so that the arguments and the calls are
arbitrary.

A slot of the array is written in one step and read in one step.  In the source
both are copies of 29 bytes, and what the one step says of them holds wherever
the threads never stand on the same slot: in every run under `DropAll`, as
`SlotCopy` shows, and in runs of whole calls.  Under the other profiles a run
below may have an entry whole that the real copy would have torn.

The history records what the two threads have done.  No step reads it.  An
entry is published by the store of `head` and popped by the store of `tail`.

Every step is inverted once, into the moves below.  Invariants are proved over
the moves and never unfold the step functions.
-/

variable {Entry : Type}

/-! ## Contents -/

/-- The number of slots of the array, one more than the mask. -/
def LogQueue.capacity (queue : LogQueue Entry) : Nat :=
  queue.capacityMask.toNat + 1

/-- The entries from tail to head, oldest first. -/
def LogQueue.contents (queue : LogQueue Entry) : List Entry :=
  match queue.logArray with
  | none => []
  | some slots =>
      window slots queue.capacity queue.tail.toNat (queue.occupiedSlots queue.head queue.tail).toNat

/-! ## Histories -/

/-- How a call of `push` was decided: by the store of `head`, by the overflow
profile, or by a missing array or a queue that no longer runs. -/
inductive PushOutcome
  | published
  | dropped
  | refused
  deriving DecidableEq, Repr

/-- A decided call: its argument, its outcome, the entries in the queue when
its full test loaded `tail`, and the queue at its beginning and its decision. -/
structure PushRecord (Entry : Type) where
  logLine : Entry
  outcome : PushOutcome
  seen : Nat
  atCall : LogQueue Entry
  atDecision : LogQueue Entry

structure History (Entry : Type) where
  published : List Entry
  popped : List Entry
  pushes : List (PushRecord Entry)
  /-- the queue when the latest call of `push` began -/
  atCall : LogQueue Entry
  /-- the entries in the queue when the latest full test loaded `tail` -/
  seen : Nat

namespace History

/-- Nothing has happened on this queue yet. -/
def start (queue : LogQueue Entry) : History Entry :=
  { published := [], popped := [], pushes := [], atCall := queue, seen := 0 }

def decide (history : History Entry) (logLine : Entry) (outcome : PushOutcome) (seen : Nat)
    (queue : LogQueue Entry) : History Entry :=
  { history with
    pushes := history.pushes ++ [⟨logLine, outcome, seen, history.atCall, queue⟩] }

/-- Record one step of the producing thread from its two points. -/
def afterPush (history : History Entry) (before after : LogQueue Entry) :
    PushPoint Entry -> PushPoint Entry -> History Entry
  | .entered logLine, .idle => history.decide logLine .refused history.seen after
  | .loadingTail logLine _ _, .idle =>
      { history with seen := before.contents.length }.decide logLine .dropped
        before.contents.length after
  | .loadingTail _ _ _, _ => { history with seen := before.contents.length }
  | .rechecking logLine _ _, .idle => history.decide logLine .refused history.seen after
  | .publishing logLine _ _, _ =>
      { history with published := history.published ++ [logLine] }.decide logLine .published
        history.seen after
  | _, _ => history

/-- Record one step of the consuming thread from its former point. -/
def afterPop (history : History Entry) : PopPoint Entry -> History Entry
  | .releasing _ outLog => { history with popped := history.popped ++ [outLog] }
  | _ => history

end History

/-! ## The interleaved system -/

structure QueueSystem (Entry : Type) where
  queue : LogQueue Entry
  telemetry : Telemetry
  producer : PushPoint Entry
  consumer : PopPoint Entry
  history : History Entry

inductive QueueAction (Entry : Type)
  /-- the producing thread calls `push(logLine)` -/
  | push (logLine : Entry)
  /-- the next step of the call in progress -/
  | producer
  /-- the consuming thread calls `pop` -/
  | pop
  | consumer
  | setFinished

namespace QueueSystem

/-- A queue with no call in progress. -/
def start (queue : LogQueue Entry) (telemetry : Telemetry) : QueueSystem Entry :=
  { queue := queue
    telemetry := telemetry
    producer := .idle
    consumer := .returned none
    history := History.start queue }

variable [Leveled Entry]

def step (system : QueueSystem Entry) : QueueAction Entry -> Option (QueueSystem Entry)
  | .push logLine =>
      match system.producer with
      | .idle =>
          some { system with
            producer := .entered logLine
            history := { system.history with atCall := system.queue } }
      | _ => none
  | .producer =>
      (pushStep system.queue system.telemetry system.producer).map fun after =>
        { system with
          queue := after.queue
          telemetry := after.telemetry
          producer := after.point
          history := system.history.afterPush system.queue after.queue system.producer after.point }
  | .pop =>
      match system.consumer with
      | .returned _ => some { system with consumer := .entered }
      | _ => none
  | .consumer =>
      (popStep system.queue system.telemetry system.consumer).map fun after =>
        { system with
          queue := after.queue
          telemetry := after.telemetry
          consumer := after.point
          history := system.history.afterPop system.consumer }
  | .setFinished => some { system with queue := system.queue.setFinished }

end QueueSystem

/-! ## Moves -/

section Moves

variable [Leveled Entry] {queue : LogQueue Entry} {telemetry : Telemetry}

/-- What one step of `push` can do. -/
inductive PushMove (queue : LogQueue Entry) (telemetry : Telemetry) :
    PushPoint Entry -> Progress Entry (PushPoint Entry) -> Prop
  | refuse {logLine} (closed : queue.logArray = none ∨ queue.isRunning = false) :
      PushMove queue telemetry (.entered logLine) ⟨queue, telemetry, .idle⟩
  | enter {logLine} (running : queue.isRunning = true) :
      PushMove queue telemetry (.entered logLine) ⟨queue, telemetry, .loadingHead logLine⟩
  | loadHead {logLine} :
      PushMove queue telemetry (.loadingHead logLine)
        ⟨queue, telemetry, .loadingTail logLine queue.head (queue.nextIndex queue.head)⟩
  | findRoom {logLine currentHead nextHead} (room : nextHead ≠ queue.tail) :
      PushMove queue telemetry (.loadingTail logLine currentHead nextHead)
        ⟨queue, telemetry, .rechecking logLine currentHead nextHead⟩
  | drop {logLine currentHead nextHead} (full : nextHead = queue.tail)
      (policy : queue.overflow = .dropAll ∨
        (queue.overflow ≠ .block ∧ Leveled.level logLine ≠ .critical)) :
      PushMove queue telemetry (.loadingTail logLine currentHead nextHead) ⟨queue, telemetry, .idle⟩
  | wait {logLine currentHead nextHead} (full : nextHead = queue.tail)
      (policy : queue.overflow = .block ∨
        (queue.overflow = .dropNonCritical ∧ Leveled.level logLine = .critical)) :
      PushMove queue telemetry (.loadingTail logLine currentHead nextHead)
        ⟨queue, telemetry, .waiting logLine currentHead nextHead⟩
  | passCritical {logLine currentHead nextHead} (full : nextHead = queue.tail)
      (policy : queue.overflow = .passCriticalDropElse) :
      PushMove queue telemetry (.loadingTail logLine currentHead nextHead)
        ⟨queue, telemetry, .rechecking logLine currentHead nextHead⟩
  | spin {logLine currentHead nextHead} (same : currentHead = queue.tail) :
      PushMove queue telemetry (.waiting logLine currentHead nextHead)
        ⟨queue, telemetry, .waiting logLine currentHead nextHead⟩
  | leave {logLine currentHead nextHead} (different : currentHead ≠ queue.tail) :
      PushMove queue telemetry (.waiting logLine currentHead nextHead)
        ⟨queue, telemetry, .rechecking logLine currentHead nextHead⟩
  | giveUp {logLine currentHead nextHead} (stopped : queue.isRunning = false) :
      PushMove queue telemetry (.rechecking logLine currentHead nextHead) ⟨queue, telemetry, .idle⟩
  | proceed {logLine currentHead nextHead} (running : queue.isRunning = true) :
      PushMove queue telemetry (.rechecking logLine currentHead nextHead)
        ⟨queue, telemetry, .writing logLine currentHead nextHead⟩
  | write {logLine currentHead nextHead} :
      PushMove queue telemetry (.writing logLine currentHead nextHead)
        ⟨queue.writeSlot currentHead logLine, telemetry, .publishing logLine currentHead nextHead⟩
  | publish {logLine currentHead nextHead} :
      PushMove queue telemetry (.publishing logLine currentHead nextHead)
        ⟨{ queue with head := nextHead }, telemetry, .notifying nextHead⟩
  | notify {nextHead} :
      PushMove queue telemetry (.notifying nextHead) ⟨queue, telemetry, .counting nextHead⟩
  | count {nextHead} :
      PushMove queue telemetry (.counting nextHead)
        ⟨queue, telemetry.registerPushed, .measuring nextHead⟩
  | trip {nextHead} (high : queue.highWatermark ≤ queue.occupiedSlots nextHead queue.tail) :
      PushMove queue telemetry (.measuring nextHead) ⟨queue, telemetry, .tripping⟩
  | calm {nextHead} (low : ¬ queue.highWatermark ≤ queue.occupiedSlots nextHead queue.tail) :
      PushMove queue telemetry (.measuring nextHead) ⟨queue, telemetry, .idle⟩
  | setFlag :
      PushMove queue telemetry .tripping
        ⟨{ queue with highWatermarkTripped := true }, telemetry, .idle⟩

theorem pushStep_move {point : PushPoint Entry} {after : Progress Entry (PushPoint Entry)}
    (stepped : pushStep queue telemetry point = some after) :
    PushMove queue telemetry point after := by
  cases point with
  | idle => cases stepped
  | entered logLine =>
      simp only [pushStep] at stepped
      split at stepped
      · cases stepped
        exact .refuse (Or.inl (Option.isNone_iff_eq_none.mp (by assumption)))
      · split at stepped <;> cases stepped
        · exact .refuse (Or.inr (by assumption))
        · exact .enter (Bool.eq_true_of_not_eq_false (by assumption))
  | loadingHead logLine =>
      cases stepped
      exact .loadHead
  | loadingTail logLine currentHead nextHead =>
      simp only [pushStep] at stepped
      split at stepped
      · rename_i full
        cases profile : queue.overflow <;> rw [profile] at stepped <;> simp only at stepped
        · cases stepped
          exact .wait full (Or.inl profile)
        · cases stepped
          exact .drop full (Or.inl profile)
        · split at stepped <;> cases stepped
          · exact .drop full (Or.inr ⟨by rw [profile]; decide, by assumption⟩)
          · exact .wait full (Or.inr ⟨profile, Decidable.of_not_not (by assumption)⟩)
        · split at stepped <;> cases stepped
          · exact .drop full (Or.inr ⟨by rw [profile]; decide, by assumption⟩)
          · exact .passCritical full profile
      · cases stepped
        exact .findRoom (by assumption)
  | waiting logLine currentHead nextHead =>
      simp only [pushStep] at stepped
      split at stepped <;> cases stepped
      · exact .spin (by assumption)
      · exact .leave (by assumption)
  | rechecking logLine currentHead nextHead =>
      simp only [pushStep] at stepped
      split at stepped <;> cases stepped
      · exact .giveUp (by assumption)
      · exact .proceed (Bool.eq_true_of_not_eq_false (by assumption))
  | writing logLine currentHead nextHead =>
      cases stepped
      exact .write
  | publishing logLine currentHead nextHead =>
      cases stepped
      exact .publish
  | notifying nextHead =>
      cases stepped
      exact .notify
  | counting nextHead =>
      cases stepped
      exact .count
  | measuring nextHead =>
      simp only [pushStep] at stepped
      split at stepped <;> cases stepped
      · exact .trip (by assumption)
      · exact .calm (by assumption)
  | tripping =>
      cases stepped
      exact .setFlag

/-- What one step of `pop` can do. -/
inductive PopMove (queue : LogQueue Entry) (telemetry : Telemetry) :
    PopPoint Entry -> Progress Entry (PopPoint Entry) -> Prop
  | refuse (stopped : queue.isRunning = false) :
      PopMove queue telemetry .entered ⟨queue, telemetry, .returned none⟩
  | enter (running : queue.isRunning = true) :
      PopMove queue telemetry .entered ⟨queue, telemetry, .loadingTail⟩
  | loadTail :
      PopMove queue telemetry .loadingTail ⟨queue, telemetry, .loadingHead queue.tail⟩
  | findEmpty {currentTail} (empty : currentTail = queue.head) :
      PopMove queue telemetry (.loadingHead currentTail) ⟨queue, telemetry, .returned none⟩
  | findEntry {currentTail} (nonempty : currentTail ≠ queue.head) :
      PopMove queue telemetry (.loadingHead currentTail)
        ⟨queue, telemetry, .rechecking currentTail⟩
  | giveUp {currentTail} (stopped : queue.isRunning = false) :
      PopMove queue telemetry (.rechecking currentTail) ⟨queue, telemetry, .returned none⟩
  | proceed {currentTail} (running : queue.isRunning = true) :
      PopMove queue telemetry (.rechecking currentTail) ⟨queue, telemetry, .reading currentTail⟩
  | read {currentTail} {slots : Nat -> Entry} (allocated : queue.logArray = some slots) :
      PopMove queue telemetry (.reading currentTail)
        ⟨queue, telemetry, .releasing currentTail (slots currentTail.toNat)⟩
  | release {currentTail outLog} :
      PopMove queue telemetry (.releasing currentTail outLog)
        ⟨{ queue with tail := queue.nextIndex currentTail }, telemetry,
          .counting currentTail outLog⟩
  | count {currentTail outLog} :
      PopMove queue telemetry (.counting currentTail outLog)
        ⟨queue, telemetry.registerEliminated, .measuring currentTail outLog⟩
  | settle {currentTail outLog}
      (low : queue.totalSlots - queue.occupiedSlots queue.head currentTail ≤ queue.lowWatermark) :
      PopMove queue telemetry (.measuring currentTail outLog) ⟨queue, telemetry, .untripping outLog⟩
  | finish {currentTail outLog}
      (high : ¬ queue.totalSlots - queue.occupiedSlots queue.head currentTail ≤
        queue.lowWatermark) :
      PopMove queue telemetry (.measuring currentTail outLog)
        ⟨queue, telemetry, .returned (some outLog)⟩
  | clearFlag {outLog} :
      PopMove queue telemetry (.untripping outLog)
        ⟨{ queue with highWatermarkTripped := false }, telemetry, .returned (some outLog)⟩

omit [Leveled Entry] in
theorem popStep_move {point : PopPoint Entry} {after : Progress Entry (PopPoint Entry)}
    (stepped : popStep queue telemetry point = some after) :
      PopMove queue telemetry point after := by
  cases point with
  | returned result => cases stepped
  | entered =>
      simp only [popStep] at stepped
      split at stepped <;> cases stepped
      · exact .refuse (by assumption)
      · exact .enter (Bool.eq_true_of_not_eq_false (by assumption))
  | loadingTail =>
      cases stepped
      exact .loadTail
  | loadingHead currentTail =>
      simp only [popStep] at stepped
      split at stepped <;> cases stepped
      · exact .findEmpty (by assumption)
      · exact .findEntry (by assumption)
  | rechecking currentTail =>
      simp only [popStep] at stepped
      split at stepped <;> cases stepped
      · exact .giveUp (by assumption)
      · exact .proceed (Bool.eq_true_of_not_eq_false (by assumption))
  | reading currentTail =>
      rcases Option.map_eq_some_iff.mp stepped with ⟨slots, allocated, result⟩
      cases result
      exact .read allocated
  | releasing currentTail outLog =>
      cases stepped
      exact .release
  | counting currentTail outLog =>
      cases stepped
      exact .count
  | measuring currentTail outLog =>
      simp only [popStep] at stepped
      split at stepped <;> cases stepped
      · exact .settle (by assumption)
      · exact .finish (by assumption)
  | untripping outLog =>
      cases stepped
      exact .clearFlag

/-- The producing thread stores neither the tail nor the run flag, and the
capacity and the profile are constants. -/
structure LogQueue.SameForConsumer (before after : LogQueue Entry) : Prop where
  tail : after.tail = before.tail
  isRunning : after.isRunning = before.isRunning
  capacityMask : after.capacityMask = before.capacityMask
  overflow : after.overflow = before.overflow

theorem PushMove.frame {point : PushPoint Entry} {after : Progress Entry (PushPoint Entry)}
    (move : PushMove queue telemetry point after) : queue.SameForConsumer after.queue := by
  cases move <;> exact ⟨rfl, rfl, rfl, rfl⟩

/-- The consuming thread stores neither the array, the head nor the run flag. -/
structure LogQueue.SameForProducer (before after : LogQueue Entry) : Prop where
  logArray : after.logArray = before.logArray
  head : after.head = before.head
  isRunning : after.isRunning = before.isRunning
  capacityMask : after.capacityMask = before.capacityMask
  overflow : after.overflow = before.overflow

omit [Leveled Entry] in
theorem PopMove.frame {point : PopPoint Entry} {after : Progress Entry (PopPoint Entry)}
    (move : PopMove queue telemetry point after) : queue.SameForProducer after.queue := by
  cases move <;> exact ⟨rfl, rfl, rfl, rfl, rfl⟩

end Moves

namespace QueueSystem

variable [Leveled Entry] {before after : QueueSystem Entry}

/-- A call of `push` begins only when none is in progress. -/
theorem step_push {logLine : Entry} (moves : before.step (.push logLine) = some after) :
    before.producer = .idle ∧
      after = { before with
        producer := .entered logLine
        history := { before.history with atCall := before.queue } } := by
  cases point : before.producer <;> simp only [step, point] at moves <;> cases moves
  exact ⟨rfl, rfl⟩

theorem step_producer (moves : before.step .producer = some after) :
    Exists fun progress => PushMove before.queue before.telemetry before.producer progress ∧
      after = { before with
        queue := progress.queue
        telemetry := progress.telemetry
        producer := progress.point
        history := before.history.afterPush before.queue progress.queue before.producer
          progress.point } := by
  rcases Option.map_eq_some_iff.mp moves with ⟨progress, stepped, result⟩
  exact ⟨progress, pushStep_move stepped, result.symm⟩

theorem step_pop (moves : before.step .pop = some after) :
    (Exists fun result => before.consumer = .returned result) ∧
      after = { before with consumer := .entered } := by
  cases point : before.consumer <;> simp only [step, point] at moves <;> cases moves
  exact ⟨⟨_, rfl⟩, rfl⟩

theorem step_consumer (moves : before.step .consumer = some after) :
    Exists fun progress => PopMove before.queue before.telemetry before.consumer progress ∧
      after = { before with
        queue := progress.queue
        telemetry := progress.telemetry
        consumer := progress.point
        history := before.history.afterPop before.consumer } := by
  rcases Option.map_eq_some_iff.mp moves with ⟨progress, stepped, result⟩
  exact ⟨progress, popStep_move stepped, result.symm⟩

theorem step_setFinished (moves : before.step .setFinished = some after) :
    after = { before with queue := before.queue.setFinished } :=
  (Option.some.inj moves).symm

end QueueSystem

end Core
end VortexEngine
