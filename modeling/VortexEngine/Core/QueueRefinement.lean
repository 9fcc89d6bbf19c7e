import VortexEngine.Core.QueueInvariant

open VortexEngine.Foundations

namespace VortexEngine
namespace Core

/-!
# The queue refines a bounded channel

A queue of `2 ^ exponent` slots is simulated by a channel that holds one value
less.  The pending values are the entries from tail to head, the accepted ones
are those whose `push` stored `head`, and the delivered ones are those whose
`pop` stored `tail`.  The simulation needs the ring invariant, and so it holds
for the runs whose wait loops end with room; under `DropAll` there is no wait
loop and it holds for every run.

Under `DropAll` every decided call of `push` is accounted for: it was dropped
exactly when its load of `tail` saw all usable slots occupied, it was refused
only by a queue that no longer ran, and a dropped call left slots and head as
it found them.
-/

variable {Entry : Type} [Leveled Entry] {exponent : Nat} {profile : OverflowProfile}

namespace QueueSystem

/-- The channel that a queue system stands for. -/
def channel (system : QueueSystem Entry) : Channel Entry :=
  { pending := system.queue.contents
    accepted := system.history.published
    delivered := system.history.popped }

theorem channel_producer_step {before after : QueueSystem Entry}
    (holds : RingInvariant exponent before) (moves : before.step .producer = some after) :
    after.channel = before.channel ∨
      (Channel.machine Entry (2 ^ exponent - 1)).StepUnder Machine.anyAction
        before.channel after.channel := by
  rcases step_producer moves with ⟨progress, move, rfl⟩
  rcases holds with ⟨ring, _, producer, _⟩
  simp only [channel]
  generalize before.producer = point at move producer
  cases move with
  | write =>
      rcases producer with ⟨rfl, _, _⟩
      exact Or.inl (by rw [ring.contents_writeSlot]; rfl)
  | publish =>
      rcases producer with ⟨rfl, rfl, room, stored⟩
      have notFull := mt ring.full_iff.mpr room
      have short := ring.length_contents_lt
      have below : before.queue.contents.length < 2 ^ exponent - 1 := by omega
      rename_i logLine
      refine Or.inr ⟨.accept logLine, trivial, ?_⟩
      dsimp only
      rw [ring.contents_storeHead room stored]
      exact Channel.step_accept logLine below
  | _ => exact Or.inl rfl

theorem channel_consumer_step {before after : QueueSystem Entry}
    (holds : RingInvariant exponent before) (moves : before.step .consumer = some after) :
    after.channel = before.channel ∨
      (Channel.machine Entry (2 ^ exponent - 1)).StepUnder Machine.anyAction
        before.channel after.channel := by
  rcases step_consumer moves with ⟨progress, move, rfl⟩
  rcases holds with ⟨ring, _, _, consumer⟩
  simp only [channel]
  generalize before.consumer = point at move consumer
  cases move with
  | release =>
      rcases consumer with ⟨rfl, nonempty, stored⟩
      refine Or.inr ⟨.deliver, trivial, ?_⟩
      dsimp only
      exact Channel.step_deliver (2 ^ exponent - 1) (ring.contents_storeTail nonempty stored)
  | _ => exact Or.inl rfl

/-- A step of any thread is invisible or one step of the channel. -/
theorem channel_step {before after : QueueSystem Entry} {action : QueueAction Entry}
    (holds : RingInvariant exponent before) (moves : before.step action = some after) :
    after.channel = before.channel ∨
      (Channel.machine Entry (2 ^ exponent - 1)).StepUnder Machine.anyAction
        before.channel after.channel := by
  cases action with
  | push logLine =>
      rcases step_push moves with ⟨_, rfl⟩
      exact Or.inl rfl
  | producer => exact channel_producer_step holds moves
  | pop =>
      rcases step_pop moves with ⟨_, rfl⟩
      exact Or.inl rfl
  | consumer => exact channel_consumer_step holds moves
  | setFinished =>
      rw [step_setFinished moves]
      exact Or.inl rfl

end QueueSystem

/-- The queue is simulated by the bounded channel along the guarded runs. -/
def queueSimulation (policy : profile ≠ .passCriticalDropElse) :
    Machine.Simulation (queueMachine Entry (2 ^ exponent) profile) QueueSystem.LeavesWaitWithRoom
      (Channel.machine Entry (2 ^ exponent - 1)) Machine.anyAction where
  view := QueueSystem.channel
  initial := by
    rintro _ ⟨queue, telemetry, fresh, rfl⟩
    have ring := fresh.isRing
    have empty := ring.empty_iff.mp (fresh.tail.trans fresh.head.symm)
    simp only [QueueSystem.channel, QueueSystem.start, empty]
    rfl
  step := by
    intro before action after reached guarded moves
    exact QueueSystem.channel_step (ringInvariant_of_reachable policy reached) moves

theorem published_eq_popped_append_contents (policy : profile ≠ .passCriticalDropElse)
    {system : QueueSystem Entry}
    (reached : (queueMachine Entry (2 ^ exponent) profile).ReachableUnder
      QueueSystem.LeavesWaitWithRoom system) :
    system.history.published = system.history.popped ++ system.queue.contents :=
  (Channel.reachable_sound ((queueSimulation policy).reachable reached)).conserved

/-! ## The profile that drops everything -/

namespace QueueSystem

/-- Under `DropAll` the profile never changes and no call ever waits. -/
def DropsAll (system : QueueSystem Entry) : Prop :=
  system.queue.overflow = .dropAll ∧
    forall logLine currentHead nextHead, system.producer ≠ .waiting logLine currentHead nextHead

theorem DropsAll.step {before after : QueueSystem Entry} {action : QueueAction Entry}
    (holds : DropsAll before) (moves : before.step action = some after) : DropsAll after := by
  rcases holds with ⟨profile, active⟩
  cases action with
  | push logLine =>
      rcases step_push moves with ⟨_, rfl⟩
      exact ⟨profile, nofun⟩
  | producer =>
      rcases step_producer moves with ⟨progress, move, rfl⟩
      generalize before.producer = point at move active
      cases move with
      | wait _ policy =>
          rw [profile] at policy
          rcases policy with waits | ⟨waits, _⟩ <;> cases waits
      | spin => exact False.elim (active _ _ _ rfl)
      | _ => exact ⟨profile, nofun⟩
  | pop =>
      rcases step_pop moves with ⟨_, rfl⟩
      exact ⟨profile, active⟩
  | consumer =>
      rcases step_consumer moves with ⟨progress, move, rfl⟩
      generalize before.consumer = point at move
      cases move <;> exact ⟨profile, active⟩
  | setFinished =>
      rw [step_setFinished moves]
      exact ⟨profile, active⟩

omit [Leveled Entry] in
/-- A queue under `DropAll` never waits, so that the ring invariant needs no guard. -/
theorem DropsAll.leavesWaitWithRoom {before : QueueSystem Entry} (drops : before.DropsAll)
    (action : QueueAction Entry) : LeavesWaitWithRoom before action := by
  cases action with
  | producer =>
      have active := drops.2
      change before.producer.LeavesWithRoom before.queue
      generalize before.producer = point at active
      cases point with
      | waiting => exact False.elim (active _ _ _ rfl)
      | _ => trivial
  | _ => trivial

end QueueSystem

theorem dropsAll_of_reachable {capacity : Nat}
    {guard : QueueSystem Entry -> QueueAction Entry -> Prop} {system : QueueSystem Entry}
    (reached : (queueMachine Entry capacity .dropAll).ReachableUnder guard system) :
    system.DropsAll := by
  refine reached.invariant ?_ (fun _ _ _ _ holds _ moves => holds.step moves)
  rintro _ ⟨queue, telemetry, fresh, rfl⟩
  exact ⟨fresh.profile, nofun⟩

theorem leavesWaitWithRoom_of_dropAll {capacity : Nat}
    {guard : QueueSystem Entry -> QueueAction Entry -> Prop} {system : QueueSystem Entry}
    (reached : (queueMachine Entry capacity .dropAll).ReachableUnder guard system) :
    (queueMachine Entry capacity .dropAll).ReachableUnder QueueSystem.LeavesWaitWithRoom
      system := by
  refine reached.reguard ?_
  intro before action reachedBefore _
  exact (dropsAll_of_reachable reachedBefore).leavesWaitWithRoom action

/-! ## Decided calls -/

namespace QueueSystem

/-- The account of one decided call on a ring of `2 ^ exponent` slots. -/
structure Accounted (exponent : Nat) (record : PushRecord Entry) : Prop where
  refused : record.outcome = .refused -> record.atDecision.isRunning = false
  dropped : record.outcome ≠ .refused ->
    (record.outcome = .dropped ↔ record.seen = 2 ^ exponent - 1)
  untouched : record.outcome = .dropped ->
    record.atDecision.logArray = record.atCall.logArray ∧
      record.atDecision.head = record.atCall.head

/-- Until the slot is written, slots and head are as the call found them. -/
def PushUntouched (system : QueueSystem Entry) : Prop :=
  system.queue.logArray = system.history.atCall.logArray ∧
    system.queue.head = system.history.atCall.head

/-- What the call in progress will need for its record. -/
def CallKnows (exponent : Nat) (system : QueueSystem Entry) : PushPoint Entry -> Prop
  | .entered _ | .loadingHead _ | .loadingTail _ _ _ => PushUntouched system
  | .rechecking _ _ _ | .writing _ _ _ | .publishing _ _ _ =>
      system.history.seen ≠ 2 ^ exponent - 1
  | _ => True

structure CallInvariant (exponent : Nat) (system : QueueSystem Entry) : Prop where
  records : forall record, record ∈ system.history.pushes -> Accounted exponent record
  call : CallKnows exponent system system.producer

omit [Leveled Entry] in
theorem accounted_append {history : History Entry} {record : PushRecord Entry}
    (records : forall record, record ∈ history.pushes -> Accounted exponent record)
    (accounted : Accounted exponent record) :
    forall other, other ∈ history.pushes ++ [record] -> Accounted exponent other := by
  intro other member
  rcases List.mem_append.mp member with earlier | last
  · exact records other earlier
  · exact List.mem_singleton.mp last ▸ accounted

omit [Leveled Entry] in
/-- A refused call is accounted for by the queue that no longer runs. -/
theorem accounted_refused {logLine : Entry} {seen : Nat} {atCall queue : LogQueue Entry}
    (stopped : queue.isRunning = false) :
    Accounted exponent ⟨logLine, .refused, seen, atCall, queue⟩ where
  refused := fun _ => stopped
  dropped := fun decided => False.elim (decided rfl)
  untouched := nofun

theorem CallInvariant.producer_step {before after : QueueSystem Entry}
    (ringHolds : RingInvariant exponent before) (dropsAll : DropsAll before)
    (holds : CallInvariant exponent before) (moves : before.step .producer = some after) :
    CallInvariant exponent after := by
  rcases step_producer moves with ⟨progress, move, rfl⟩
  rcases holds with ⟨records, call⟩
  have producer := ringHolds.producer
  have ring := ringHolds.ring
  have active := dropsAll.2
  generalize before.producer = point at move call producer active
  cases move with
  | refuse closed =>
      have stopped := closed.resolve_left ring.allocated
      exact ⟨accounted_append records (accounted_refused stopped), trivial⟩
  | enter => exact ⟨records, call⟩
  | loadHead => exact ⟨records, call⟩
  | findRoom room =>
      rcases producer with ⟨rfl, rfl⟩
      exact ⟨records, mt ring.full_iff.mpr room⟩
  | drop full =>
      rcases producer with ⟨rfl, rfl⟩
      refine ⟨accounted_append records ⟨nofun, ?_, ?_⟩, trivial⟩
      · exact fun _ => ⟨fun _ => ring.full_iff.mp full, fun _ => rfl⟩
      · exact fun _ => call
  | wait _ policy =>
      rw [dropsAll.1] at policy
      rcases policy with waits | ⟨waits, _⟩ <;> cases waits
  | passCritical _ passes => exact False.elim (ringHolds.policy passes)
  | spin => exact False.elim (active _ _ _ rfl)
  | leave => exact False.elim (active _ _ _ rfl)
  | giveUp stopped => exact ⟨accounted_append records (accounted_refused stopped), trivial⟩
  | proceed => exact ⟨records, call⟩
  | write => exact ⟨records, call⟩
  | publish =>
      refine ⟨accounted_append records ⟨nofun, ?_, ?_⟩, trivial⟩
      · exact fun _ => ⟨nofun,
          fun full => False.elim (call full)⟩
      · exact nofun
  | _ => exact ⟨records, trivial⟩

theorem CallInvariant.step {before after : QueueSystem Entry} {action : QueueAction Entry}
    (ringHolds : RingInvariant exponent before) (dropsAll : DropsAll before)
    (holds : CallInvariant exponent before) (moves : before.step action = some after) :
    CallInvariant exponent after := by
  cases action with
  | push logLine =>
      rcases step_push moves with ⟨_, rfl⟩
      exact ⟨holds.records, ⟨rfl, rfl⟩⟩
  | producer => exact holds.producer_step ringHolds dropsAll moves
  | pop =>
      rcases step_pop moves with ⟨_, rfl⟩
      exact ⟨holds.records, holds.call⟩
  | consumer =>
      rcases step_consumer moves with ⟨progress, move, rfl⟩
      generalize before.consumer = point at move
      cases move <;> exact ⟨holds.records, holds.call⟩
  | setFinished =>
      rw [step_setFinished moves]
      rcases holds with ⟨records, call⟩
      exact ⟨records, call⟩

end QueueSystem

/-! ## The ledger of the calls

Every entry handed to `push` is decided once, in the order of the calls, and
the call in progress brings the only one that is not decided yet.
-/

/-- The argument of a call that is not decided yet. -/
def PushPoint.undecided : PushPoint Entry -> List Entry
  | .entered logLine | .loadingHead logLine | .loadingTail logLine _ _ | .waiting logLine _ _
  | .rechecking logLine _ _ | .writing logLine _ _ | .publishing logLine _ _ => [logLine]
  | _ => []

/-- What an action hands to `push`. -/
def QueueAction.pushes : QueueAction Entry -> List Entry
  | .push logLine => [logLine]
  | _ => []

/-- The calls that were decided by the store of `head`. -/
def History.stored (history : History Entry) : List Entry :=
  (history.pushes.filter fun record => Decidable.decide (record.outcome = .published)).map
    PushRecord.logLine

/-- The arguments of all calls, in the order of the calls. -/
def QueueSystem.begun (system : QueueSystem Entry) : List Entry :=
  system.history.pushes.map PushRecord.logLine ++ system.producer.undecided

namespace QueueSystem

variable {before after : QueueSystem Entry}

/-- The calls stay in their order, and only a new call adds its argument. -/
theorem begun_step {action : QueueAction Entry} (moves : before.step action = some after) :
    after.begun = before.begun ++ action.pushes := by
  rw [begun, begun]
  cases action with
  | push logLine =>
      rcases step_push moves with ⟨idle, rfl⟩
      rw [idle]
      exact (congrArg (· ++ [logLine]) (List.append_nil _)).symm
  | producer =>
      rcases step_producer moves with ⟨progress, move, rfl⟩
      generalize before.producer = point at move
      simp only [QueueAction.pushes, List.append_nil]
      cases move with
      | refuse => exact (List.append_nil _).trans List.map_append
      | drop => exact (List.append_nil _).trans List.map_append
      | giveUp => exact (List.append_nil _).trans List.map_append
      | publish => exact (List.append_nil _).trans List.map_append
      | _ => rfl
  | pop =>
      rcases step_pop moves with ⟨_, rfl⟩
      exact (List.append_nil _).symm
  | consumer =>
      rcases step_consumer moves with ⟨progress, move, rfl⟩
      generalize before.consumer = point at move
      simp only [QueueAction.pushes, List.append_nil]
      cases move <;> rfl
  | setFinished =>
      rw [step_setFinished moves]
      exact (List.append_nil _).symm

omit [Leveled Entry] in
theorem stored_published (history : History Entry) (logLine : Entry) (seen : Nat)
    (queue : LogQueue Entry) :
    (history.decide logLine .published seen queue).stored = history.stored ++ [logLine] := by
  simp [History.stored, History.decide, List.filter_append]

omit [Leveled Entry] in
theorem stored_of_ne (history : History Entry) (logLine : Entry) {outcome : PushOutcome}
    (other : outcome ≠ .published) (seen : Nat) (queue : LogQueue Entry) :
    (history.decide logLine outcome seen queue).stored = history.stored := by
  simp [History.stored, History.decide, List.filter_append, other]

theorem stored_step {action : QueueAction Entry}
    (published : before.history.published = before.history.stored)
    (moves : before.step action = some after) : after.history.published = after.history.stored := by
  cases action with
  | push logLine =>
      rcases step_push moves with ⟨_, rfl⟩
      exact published
  | producer =>
      rcases step_producer moves with ⟨progress, move, rfl⟩
      dsimp only
      generalize before.producer = point at move
      cases move with
      | refuse => exact published.trans (stored_of_ne _ _ (by decide) _ _).symm
      | drop => exact published.trans (stored_of_ne _ _ (by decide) _ _).symm
      | giveUp => exact published.trans (stored_of_ne _ _ (by decide) _ _).symm
      | publish => exact (congrArg (· ++ _) published).trans (stored_published _ _ _ _).symm
      | _ => exact published
  | pop =>
      rcases step_pop moves with ⟨_, rfl⟩
      exact published
  | consumer =>
      rcases step_consumer moves with ⟨progress, move, rfl⟩
      dsimp only
      generalize before.consumer = point at move
      cases move <;> exact published
  | setFinished =>
      rw [step_setFinished moves]
      exact published

end QueueSystem

/-- What a run with the given actions has made of a fresh queue of `2 ^ exponent`
slots when the queue behaves as a bounded channel. -/
structure QueueSystem.IsBoundedFifo (exponent : Nat) (actions : List (QueueAction Entry))
    (system : QueueSystem Entry) : Prop where
  headBelow : system.queue.head.toNat < 2 ^ exponent
  tailBelow : system.queue.tail.toNat < 2 ^ exponent
  occupancy : (system.queue.occupiedSlots system.queue.head system.queue.tail).toNat ≤ 2 ^
    exponent - 1
  /-- nothing is lost, repeated or reordered -/
  conserved : system.history.published = system.history.popped ++ system.queue.contents
  /-- a slot about to be written holds no unread entry -/
  writesRead : forall logLine currentHead nextHead,
    system.producer = .writing logLine currentHead nextHead -> forall offset,
      offset < (system.queue.occupiedSlots system.queue.head system.queue.tail).toNat ->
        (system.queue.tail.toNat + offset) % 2 ^ exponent ≠ currentHead.toNat
  /-- nor is it the slot that the consumer reads or still holds -/
  writesReleased : forall logLine currentHead nextHead currentTail,
    system.producer = .writing logLine currentHead nextHead ->
      (system.consumer = .reading currentTail ∨
        Exists fun outLog => system.consumer = .releasing currentTail outLog) ->
      currentTail ≠ currentHead
  /-- every decided call was dropped exactly when it saw the queue full, and a
  dropped call changed no slot and no head -/
  accounted : forall record, record ∈ system.history.pushes -> Accounted exponent record
  /-- every call of `push` is decided, in the order of the calls, or in progress -/
  called : system.begun = actions.flatMap QueueAction.pushes
  /-- the published entries are those of the calls that were decided by the store
  of `head` -/
  stored : system.history.published = system.history.stored
  /-- no step of a call of `push` changes the tail -/
  tailOwned : forall after, system.step .producer = some after ->
    after.queue.tail = system.queue.tail

namespace QueueSystem

theorem callInvariant_of_reachable {system : QueueSystem Entry}
    (reached : (queueMachine Entry (2 ^ exponent) .dropAll).Reachable system) :
    system.CallInvariant exponent := by
  refine reached.invariant ?_ ?_
  · rintro _ ⟨queue, telemetry, fresh, rfl⟩
    exact ⟨fun _ member => False.elim (List.not_mem_nil member), trivial⟩
  · intro before action after reachedBefore holds _ moves
    exact holds.step
      (ringInvariant_of_reachable (by decide) (leavesWaitWithRoom_of_dropAll reachedBefore))
      (dropsAll_of_reachable reachedBefore) moves

theorem begun_of_initial {capacity : Nat} {start : QueueSystem Entry}
    (starts : (queueMachine Entry capacity profile).initial start) : start.begun = [] := by
  rcases starts with ⟨queue, telemetry, _, rfl⟩
  rfl

theorem stored_of_reachable {capacity : Nat}
    {guard : QueueSystem Entry -> QueueAction Entry -> Prop} {system : QueueSystem Entry}
    (reached : (queueMachine Entry capacity profile).ReachableUnder guard system) :
    system.history.published = system.history.stored := by
  refine reached.invariant ?_ (fun _ _ _ _ published _ moves => stored_step published moves)
  rintro _ ⟨queue, telemetry, _, rfl⟩
  rfl

omit [Leveled Entry] in
/-- Before the write the producer's slot is the head's, which lies outside of
the window of unread entries. -/
theorem RingInvariant.writing_slot {system : QueueSystem Entry}
    (holds : RingInvariant exponent system) {logLine : Entry} {currentHead nextHead : SizeT}
    (writes : system.producer = .writing logLine currentHead nextHead) :
    currentHead = system.queue.head := by
  have producer := holds.producer
  rw [writes] at producer
  exact producer.1

omit [Leveled Entry] in
/-- A slot that the consumer reads or holds is the tail's, and there is an
unread entry in it. -/
theorem RingInvariant.held_slot {system : QueueSystem Entry}
    (holds : RingInvariant exponent system) {currentTail : SizeT}
    (reads : system.consumer = .reading currentTail ∨
      Exists fun outLog => system.consumer = .releasing currentTail outLog) :
    currentTail = system.queue.tail ∧ system.queue.tail ≠ system.queue.head := by
  have consumer := holds.consumer
  rcases reads with reads | ⟨outLog, holding⟩
  · rw [reads] at consumer
    exact consumer
  · rw [holding] at consumer
    exact ⟨consumer.1, consumer.2.1⟩

end QueueSystem

/-- Under `DropAll` the queue refines a bounded channel at every atomic step
of every interleaving, with `set_finished` at any moment. -/
theorem dropAll_isBoundedFifo {start system : QueueSystem Entry}
    {actions : List (QueueAction Entry)}
    (starts : (queueMachine Entry (2 ^ exponent) .dropAll).initial start)
    (run : (queueMachine Entry (2 ^ exponent) .dropAll).Executes Machine.anyAction start
      actions system) :
    system.IsBoundedFifo exponent actions := by
  have reached : (queueMachine Entry (2 ^ exponent) .dropAll).Reachable system :=
    ⟨start, starts, run.runs⟩
  have guarded := leavesWaitWithRoom_of_dropAll reached
  have holds := ringInvariant_of_reachable (by decide) guarded
  have ring := holds.ring
  constructor
  · exact ring.headBound
  · exact ring.tailBound
  · have short : distance (2 ^ exponent) system.queue.head.toNat system.queue.tail.toNat <
        2 ^ exponent :=
      distance_lt (Nat.two_pow_pos exponent)
    rw [ring.occupiedSlots_toNat]
    omega
  · exact published_eq_popped_append_contents (by decide) guarded
  · intro logLine currentHead nextHead writes offset inside
    rw [ring.occupiedSlots_toNat] at inside
    rw [holds.writing_slot writes]
    exact head_outside_window ring.headBound ring.tailBound offset inside
  · intro logLine currentHead nextHead currentTail writes reads
    rcases holds.held_slot reads with ⟨rfl, nonempty⟩
    exact holds.writing_slot writes ▸ nonempty
  · exact (QueueSystem.callInvariant_of_reachable reached).records
  · have gathered :=
      run.gathers QueueSystem.begun QueueAction.pushes (fun _ _ _ => QueueSystem.begun_step)
    rwa [QueueSystem.begun_of_initial starts, List.nil_append] at gathered
  · exact QueueSystem.stored_of_reachable reached
  · intro after moves
    rcases QueueSystem.step_producer moves with ⟨progress, move, rfl⟩
    exact move.frame.tail

/-! ## A run on two slots -/

/-- The smallest queue that the constructor can set up. -/
def twoSlots (profile : OverflowProfile) : LogQueue LogEntry :=
  { logArray := some (fun _ => default)
    tail := 0
    isRunning := true
    maxCapacity := 58
    highWatermark := 1
    lowWatermark := 0
    capacityMask := 1
    highWatermarkTripped := false
    overflow := profile
    head := 0 }

theorem twoSlots_fresh (profile : OverflowProfile) : (twoSlots profile).Fresh (2 ^ 1) profile where
  capacity := rfl
  profile := rfl
  allocated := nofun
  head := rfl
  tail := rfl
  running := rfl

/-- No call has begun on the smallest queue. -/
def twoSlotsStart (profile : OverflowProfile) : QueueSystem LogEntry :=
  QueueSystem.start (twoSlots profile) {}

theorem twoSlotsStart_initial (profile : OverflowProfile) :
    (queueMachine LogEntry (2 ^ 1) profile).initial (twoSlotsStart profile) :=
  ⟨twoSlots profile, {}, twoSlots_fresh profile, rfl⟩

/-- One entry is published, and the next call finds the queue full. -/
def fillSchedule (first second : LogEntry) : List (QueueAction LogEntry) :=
  .push first :: List.replicate 10 .producer ++ .push second :: List.replicate 3 .producer

theorem dropAll_isBoundedFifo_twoSlots :
    (((queueMachine LogEntry (2 ^ 1) .dropAll).executeUnder Machine.anyAction
      (twoSlotsStart .dropAll) (fillSchedule default default)).get (by decide)).IsBoundedFifo 1
        (fillSchedule default default) :=
  dropAll_isBoundedFifo (twoSlotsStart_initial .dropAll)
    (Machine.executes_of_execute (Option.some_get _).symm)

end Core
end VortexEngine
