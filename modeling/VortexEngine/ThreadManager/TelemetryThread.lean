import VortexEngine.Core.EntryAccount
import Mathlib.Algebra.BigOperators.Group.List.Basic
import Mathlib.Data.BitVec

open VortexEngine.Foundations VortexEngine.Core

namespace VortexEngine
namespace ThreadManager

/-!
# The telemetry thread

All queues count into one pair of counters, and the telemetry thread loads the
two counters one after the other.  Between the loads the queues go on, and an
entry may be popped and counted before its `push` has counted it.  So a
snapshot may show more eliminated than pushed entries.

What a snapshot keeps is a balance.  The entries that the first load has missed
and the entries that are not eliminated at the second load make up the
difference between its two values.
-/

/-! ## Sums over queues -/

section Sums

variable {Part : Type} {f : Part -> Nat} {parts : List Part}

/-- A sum over all parts. -/
def total (f : Part -> Nat) (parts : List Part) : Nat :=
  (parts.map f).sum

theorem total_set {index : Nat} {before after : Part} (found : parts[index]? = some before) :
    total f (parts.set index after) + f before = total f parts + f after := by
  unfold total
  induction parts generalizing index with
  | nil => cases found
  | cons part parts ih =>
      cases index with
      | zero =>
          cases found
          simp only [List.set_cons_zero, List.map_cons, List.sum_cons]
          omega
      | succ index =>
          have rest := ih found
          simp only [List.set_cons_succ, List.map_cons, List.sum_cons]
          omega

theorem total_set_of_add {index : Nat} {before after : Part} {count : Nat}
    (found : parts[index]? = some before) (grows : f after = f before + count) :
      total f (parts.set index after) = total f parts + count := by
  have replaced := @total_set _ f _ _ _ after found
  omega

theorem total_set_le {index : Nat} {before after : Part} (found : parts[index]? = some before)
    (grows : f before ≤ f after) : total f parts ≤ total f (parts.set index after) := by
  have replaced := @total_set _ f _ _ _ after found
  omega

theorem total_add {g h : Part -> Nat}
    (sums : forall part, part ∈ parts -> f part = g part + h part) :
    total f parts = total g parts + total h parts := by
  unfold total
  rw [List.map_congr_left sums, List.sum_map_add]

end Sums

/-! ## The reports -/

/-- `last_pushed` and `last_popped`, with the differences that have been printed:
they add up to the last values. -/
structure Velocity where
  lastPushed : UInt64T
  lastPopped : UInt64T
  printed : List (UInt64T × UInt64T)
  pushed : (printed.map Prod.fst).sum = lastPushed
  popped : (printed.map Prod.snd).sum = lastPopped

namespace Velocity

def start : Velocity :=
  { lastPushed := 0, lastPopped := 0, printed := [], pushed := rfl, popped := rfl }

def getVelocity (velocity : Velocity) (pushed popped : UInt64T) : Velocity where
  lastPushed := pushed
  lastPopped := popped
  printed := velocity.printed ++ [(pushed - velocity.lastPushed, popped - velocity.lastPopped)]
  pushed := by simp [velocity.pushed]
  popped := by simp [velocity.popped]

end Velocity

/-- Where the telemetry thread stands in `update_telemetry`. -/
inductive ReportPoint
  /-- the load of `pushed_logs` comes next -/
  | idle
  | loadingEliminated (pushed : UInt64T)
  | printing (pushed eliminated : UInt64T)
  deriving DecidableEq, Repr

/-- The entries of all queues at a moment. -/
structure Tally where
  published : Nat
  /-- `RegisterPushed` has been called for them -/
  countedPushes : Nat
  uncountedPushes : Nat
  /-- `RegisterEliminated` has been called for them -/
  countedPops : Nat
  uncountedPops : Nat
  occupancy : Nat
  deriving DecidableEq, Repr

/-- The two loaded values, with the entries at either load. -/
structure Snapshot where
  pushed : UInt64T
  eliminated : UInt64T
  first : Tally
  second : Tally
  deriving DecidableEq, Repr

namespace Snapshot

/-- The entries that the first load has missed: published and not yet counted, or
published later. -/
def missed (snapshot : Snapshot) : Nat :=
  snapshot.first.uncountedPushes + (snapshot.second.published - snapshot.first.published)

/-- The entries that are not counted as eliminated at the second load. -/
def remaining (snapshot : Snapshot) : Nat :=
  snapshot.second.uncountedPops + snapshot.second.occupancy

/-- The balance of a snapshot: the two values are the numbers of entries that have
been counted, modulo the width of the counters. -/
structure Balanced (snapshot : Snapshot) : Prop where
  pushed : snapshot.pushed = BitVec.ofNat 64 snapshot.first.countedPushes
  eliminated : snapshot.eliminated = BitVec.ofNat 64 snapshot.second.countedPops
  balance : snapshot.second.countedPops + snapshot.remaining =
    snapshot.first.countedPushes + snapshot.missed
  /-- until the counters wrap, the order of the two values is a matter of the rest -/
  ordered : snapshot.second.published < 2 ^ 64 ->
    (snapshot.eliminated ≤ snapshot.pushed ↔ snapshot.missed ≤ snapshot.remaining)

end Snapshot

/-! ## The threads of all queues -/

variable {Entry : Type}

/-- The queues with their threads, the counters, and the telemetry thread. -/
structure Engine (Entry : Type) where
  queues : List (QueueSystem Entry)
  telemetry : Telemetry
  reporter : ReportPoint
  velocity : Velocity
  /-- the entries at the latest load of `pushed_logs` -/
  first : Tally
  snapshots : List Snapshot

inductive EngineAction (Entry : Type)
  /-- a thread of one of the queues -/
  | queue (index : Nat) (action : QueueAction Entry)
  /-- the telemetry thread -/
  | report

/-- The entries of all queues. -/
def tally (queues : List (QueueSystem Entry)) : Tally :=
  { published := total (fun system => system.history.published.length) queues
    countedPushes := total QueueSystem.countedPushes queues
    uncountedPushes := total (fun system => system.producer.uncounted) queues
    countedPops := total QueueSystem.countedPops queues
    uncountedPops := total (fun system => system.consumer.uncounted) queues
    occupancy := total (fun system => system.queue.occupancy) queues }

namespace Engine

/-- No thread has begun. -/
def start (queues : List (LogQueue Entry)) : Engine Entry :=
  { queues := queues.map fun queue => QueueSystem.start queue {}
    telemetry := {}
    reporter := .idle
    velocity := Velocity.start
    first := tally (queues.map fun queue => QueueSystem.start queue {})
    snapshots := [] }

/-- The next step of `update_telemetry`. -/
def updateTelemetry (engine : Engine Entry) : Engine Entry :=
  match engine.reporter with
  | .idle =>
      { engine with
        reporter := .loadingEliminated engine.telemetry.pushedLogs
        first := tally engine.queues }
  | .loadingEliminated pushed =>
      let eliminated := engine.telemetry.eliminatedLogs
      { engine with
        reporter := .printing pushed eliminated
        snapshots := engine.snapshots ++ [⟨pushed, eliminated, engine.first, tally engine.queues⟩] }
  | .printing pushed eliminated =>
      { engine with reporter := .idle, velocity := engine.velocity.getVelocity pushed eliminated }

variable [Leveled Entry]

/-- A queue's thread finds the counters as the others have left them. -/
def step (engine : Engine Entry) : EngineAction Entry -> Option (Engine Entry)
  | .queue index action =>
      engine.queues[index]?.bind fun system =>
        (QueueSystem.step { system with telemetry := engine.telemetry } action).map fun after =>
          { engine with queues := engine.queues.set index after, telemetry := after.telemetry }
  | .report => some engine.updateTelemetry

end Engine

/-- Any number of queues that have been constructed under `DropAll`. -/
def telemetryMachine (Entry : Type) [Inhabited Entry] [Leveled Entry] :
    Machine (Engine Entry) (EngineAction Entry) where
  initial := fun engine => Exists fun queues :
    List (LogQueue Entry) => engine = Engine.start queues ∧
    forall queue, queue ∈ queues -> Exists fun mainConfig : MainConfig => Exists fun initialized =>
      Exists fun indeterminate => mainConfig.profile = .dropAll ∧
        queue = LogQueue.create mainConfig initialized indeterminate
  step := Engine.step

/-! ## Tallies -/

section Tallies

variable {queues : List (QueueSystem Entry)}

/-- Every published entry is counted or not, and popped or not. -/
structure Tally.Conserves (tally : Tally) : Prop where
  pushes : tally.published = tally.countedPushes + tally.uncountedPushes
  pops : tally.published = tally.countedPops + tally.uncountedPops + tally.occupancy

theorem tally_conserves (accounts : forall system, system ∈ queues -> system.EntryAccount) :
    (tally queues).Conserves := by
  constructor
  · apply total_add
    intro system member
    have enough := (accounts system member).pushes
    unfold QueueSystem.countedPushes
    omega
  · have pops : total (fun system : QueueSystem Entry => system.history.popped.length) queues =
        (tally queues).countedPops + (tally queues).uncountedPops := by
      apply total_add
      intro system member
      have enough := (accounts system member).pops
      unfold QueueSystem.countedPops
      omega
    rw [← pops]
    apply total_add
    intro system member
    exact (accounts system member).conserved

end Tallies

/-- Two tallies, one after the other, make a balanced snapshot. -/
theorem Snapshot.balanced {first second : Tally} (before : first.Conserves)
    (after : second.Conserves) (grows : first.published ≤ second.published) :
    Snapshot.Balanced
      ⟨BitVec.ofNat 64 first.countedPushes, BitVec.ofNat 64 second.countedPops, first, second⟩ := by
  have pushes := before.pushes
  have pops := after.pops
  have balance : second.countedPops + (second.uncountedPops + second.occupancy) =
      first.countedPushes + (first.uncountedPushes + (second.published - first.published)) := by
        omega
  refine ⟨rfl, rfl, balance, ?_⟩
  intro narrow
  change second.published < 2 ^ 64 at narrow
  change BitVec.ofNat 64 second.countedPops ≤ BitVec.ofNat 64 first.countedPushes ↔
    first.uncountedPushes + (second.published - first.published) ≤ second.uncountedPops +
      second.occupancy
  rw [BitVec.le_def, BitVec.toNat_ofNat, BitVec.toNat_ofNat, Nat.mod_eq_of_lt (by omega),
    Nat.mod_eq_of_lt (by omega)]
  omega

/-! ## Runs -/

namespace Engine

variable {before after : Engine Entry}

/-- The counters are the counted entries of all queues. -/
structure Accounts (engine : Engine Entry) : Prop where
  queues : forall system, system ∈ engine.queues -> system.EntryAccount
  pushedLogs : engine.telemetry.pushedLogs = BitVec.ofNat 64 (tally engine.queues).countedPushes
  eliminatedLogs : engine.telemetry.eliminatedLogs =
    BitVec.ofNat 64 (tally engine.queues).countedPops
  first : engine.first.Conserves
  later : engine.first.published ≤ (tally engine.queues).published
  loaded : forall pushed, engine.reporter = .loadingEliminated pushed ->
    pushed = BitVec.ofNat 64 engine.first.countedPushes
  snapshots : forall snapshot, snapshot ∈ engine.snapshots -> snapshot.Balanced

theorem Accounts.queue_step [Leveled Entry] (accounts : before.Accounts) {index : Nat}
    {action : QueueAction Entry}
    (moves : before.step (.queue index action) = some after) : after.Accounts := by
  rcases Option.bind_eq_some_iff.mp moves with ⟨system, found, moved⟩
  rcases Option.map_eq_some_iff.mp moved with ⟨next, stepped, rfl⟩
  have account :=
    (accounts.queues system (List.mem_of_getElem? found)).withTelemetry before.telemetry
  rcases account.step stepped with ⟨nextAccount, pushed, popped, counted⟩
  have pushes : (tally (before.queues.set index next)).countedPushes =
      (tally before.queues).countedPushes + pushed :=
    total_set_of_add found counted.countedPushes
  have pops : (tally (before.queues.set index next)).countedPops =
      (tally before.queues).countedPops + popped :=
    total_set_of_add found counted.countedPops
  have grows : (tally before.queues).published ≤ (tally (before.queues.set index next)).published :=
    total_set_le found counted.published
  refine ⟨?_, ?_, ?_, accounts.first, Nat.le_trans accounts.later grows, accounts.loaded,
    accounts.snapshots⟩
  · intro other member
    rcases List.mem_or_eq_of_mem_set member with former | rfl
    · exact accounts.queues other former
    · exact nextAccount
  · change next.telemetry.pushedLogs =
      BitVec.ofNat 64 (tally (before.queues.set index next)).countedPushes
    rw [counted.pushedLogs, pushes, BitVec.ofNat_add, ← accounts.pushedLogs]
  · change next.telemetry.eliminatedLogs =
      BitVec.ofNat 64 (tally (before.queues.set index next)).countedPops
    rw [counted.eliminatedLogs, pops, BitVec.ofNat_add, ← accounts.eliminatedLogs]

theorem Accounts.report_step (accounts : before.Accounts) : before.updateTelemetry.Accounts := by
  unfold updateTelemetry
  cases point : before.reporter with
  | idle =>
      refine ⟨accounts.queues, accounts.pushedLogs, accounts.eliminatedLogs,
        tally_conserves accounts.queues,
        Nat.le_refl _, ?_, accounts.snapshots⟩
      intro pushed loads
      cases loads
      exact accounts.pushedLogs
  | loadingEliminated pushed =>
      refine ⟨accounts.queues, accounts.pushedLogs, accounts.eliminatedLogs, accounts.first,
        accounts.later, nofun, ?_⟩
      intro snapshot member
      rcases List.mem_append.mp member with former | latest
      · exact accounts.snapshots snapshot former
      · rw [List.mem_singleton.mp latest, accounts.loaded pushed point, accounts.eliminatedLogs]
        exact Snapshot.balanced accounts.first (tally_conserves accounts.queues) accounts.later
  | printing pushed eliminated =>
      exact ⟨accounts.queues, accounts.pushedLogs, accounts.eliminatedLogs, accounts.first,
        accounts.later, nofun, accounts.snapshots⟩

theorem accounts_start {queues : List (LogQueue Entry)}
    (constructed : forall queue, queue ∈ queues -> (QueueSystem.start queue {}).EntryAccount) :
    (Engine.start queues).Accounts := by
  have accounts : forall system, system ∈ (Engine.start queues).queues -> system.EntryAccount := by
    intro system member
    rcases List.mem_map.mp member with ⟨queue, listed, rfl⟩
    exact constructed queue listed
  have none : forall f : QueueSystem Entry -> Nat,
    (forall queue, f (QueueSystem.start queue {}) = 0) ->
      total f (Engine.start queues).queues = 0 := by
    intro f zero
    apply List.sum_eq_zero_iff_forall_eq_nat.mpr
    intro count member
    rcases List.mem_map.mp member with ⟨system, listed, rfl⟩
    rcases List.mem_map.mp listed with ⟨queue, _, rfl⟩
    exact zero queue
  refine ⟨accounts, ?_, ?_, tally_conserves accounts, Nat.le_refl _, nofun, nofun⟩
  · change 0 = BitVec.ofNat 64 (total QueueSystem.countedPushes (Engine.start queues).queues)
    rw [none _ fun _ => rfl]
    rfl
  · change 0 = BitVec.ofNat 64 (total QueueSystem.countedPops (Engine.start queues).queues)
    rw [none _ fun _ => rfl]
    rfl

/-- No call of `push` or `pop` is in progress on any queue. -/
def Quiet (engine : Engine Entry) : Prop :=
  forall system, system ∈ engine.queues -> system.Quiet

/-- Without a call in progress everything is counted. -/
theorem Accounts.quiet (accounts : before.Accounts) (quiet : before.Quiet) :
    before.telemetry.pushedLogs - before.telemetry.eliminatedLogs =
      BitVec.ofNat 64 (tally before.queues).occupancy := by
  have conserves := tally_conserves accounts.queues
  have pushes : (tally before.queues).uncountedPushes = 0 := by
    apply List.sum_eq_zero_iff_forall_eq_nat.mpr
    intro count member
    rcases List.mem_map.mp member with ⟨system, listed, rfl⟩
    rw [(quiet system listed).1]
    rfl
  have pops : (tally before.queues).uncountedPops = 0 := by
    apply List.sum_eq_zero_iff_forall_eq_nat.mpr
    intro count member
    rcases List.mem_map.mp member with ⟨system, listed, rfl⟩
    rcases (quiet system listed).2 with ⟨outLog, returned⟩
    rw [returned]
    rfl
  have counted : (tally before.queues).countedPushes =
      (tally before.queues).occupancy + (tally before.queues).countedPops := by
    have published := conserves.pushes
    have popped := conserves.pops
    omega
  rw [accounts.pushedLogs, accounts.eliminatedLogs, counted, BitVec.ofNat_add]
  exact BitVec.add_sub_cancel _ _

end Engine

/-- Every snapshot is balanced, and when no call is in progress the difference of
the counters is the number of entries in the queues. -/
theorem telemetry_balanced [Inhabited Entry] [Leveled Entry] {engine : Engine Entry}
    (reached : (telemetryMachine Entry).Reachable engine) :
    (forall snapshot, snapshot ∈ engine.snapshots -> snapshot.Balanced) ∧
      (engine.Quiet -> engine.telemetry.pushedLogs - engine.telemetry.eliminatedLogs =
        BitVec.ofNat 64 (tally engine.queues).occupancy) := by
  have accounts : engine.Accounts := by
    apply reached.invariant
    · rintro _ ⟨queues, rfl, constructed⟩
      apply Engine.accounts_start
      intro queue listed
      rcases constructed queue listed with ⟨mainConfig, initialized, indeterminate, profile, rfl⟩
      exact create_entryAccount initialized indeterminate profile {}
    · intro before action after _ accounts _ moves
      cases action with
      | queue index action => exact accounts.queue_step moves
      | report =>
          cases moves
          exact accounts.report_step
  exact ⟨accounts.snapshots, accounts.quiet⟩

/-! ## A pop that is counted first -/

/-- Two queues of the default configuration. -/
def twoQueues : Engine LogEntry :=
  Engine.start [LogQueue.create {} true 0, LogQueue.create {} true 0]

theorem twoQueues_initial : (telemetryMachine LogEntry).initial twoQueues := by
  refine ⟨_, rfl, ?_⟩
  intro queue listed
  refine ⟨{}, true, 0, rfl, ?_⟩
  rcases List.mem_pair.mp listed with rfl | rfl <;> rfl

/-- An entry is published on the first queue, and popped and counted before its
`push` counts it; then the telemetry thread loads both counters. -/
def popCountedFirst : List (EngineAction LogEntry) :=
  .queue 0 (.push default) :: List.replicate 6 (.queue 0 .producer) ++
    .queue 0 .pop :: List.replicate 7 (.queue 0 .consumer) ++ [.report, .report]

/-- Where that run ends. -/
def eliminatedBeforePushed : Engine LogEntry :=
  ((telemetryMachine LogEntry).executeUnder Machine.anyAction twoQueues popCountedFirst).get
    (by decide)

/-- Both calls return, and an entry is pushed on the second queue. -/
def afterwards : List (EngineAction LogEntry) :=
  List.replicate 3 (.queue 0 .producer) ++ .queue 0 .consumer :: .queue 1 (.push default) ::
    List.replicate 9 (.queue 1 .producer)

/-- Where the longer run ends. -/
def oneEntryLeft : Engine LogEntry :=
  ((telemetryMachine LogEntry).executeUnder Machine.anyAction twoQueues
    (popCountedFirst ++ afterwards)).get
    (by decide)

theorem oneEntryLeft_quiet : oneEntryLeft.Quiet := by
  intro system listed
  rcases List.mem_pair.mp listed with rfl | rfl
  · exact ⟨rfl, some default, rfl⟩
  · exact ⟨rfl, none, rfl⟩

theorem telemetry_balanced_oneEntryLeft :
    (forall snapshot, snapshot ∈ oneEntryLeft.snapshots -> snapshot.Balanced) ∧
      oneEntryLeft.telemetry.pushedLogs - oneEntryLeft.telemetry.eliminatedLogs =
        BitVec.ofNat 64 (tally oneEntryLeft.queues).occupancy :=
  have reached : (telemetryMachine LogEntry).Reachable oneEntryLeft :=
    Machine.reachableUnder_of_execute twoQueues_initial _
  ⟨(telemetry_balanced reached).1, (telemetry_balanced reached).2 oneEntryLeft_quiet⟩

/-- The snapshot shows one eliminated entry and no pushed one. -/
theorem eliminated_exceeds_pushed :
    (telemetryMachine LogEntry).Reachable eliminatedBeforePushed ∧
      Exists fun snapshot => snapshot ∈ eliminatedBeforePushed.snapshots ∧
        ¬ snapshot.eliminated ≤ snapshot.pushed := by
  refine ⟨Machine.reachableUnder_of_execute twoQueues_initial _, ?_⟩
  exact ⟨_, List.mem_singleton.mpr rfl, by decide⟩

end ThreadManager
end VortexEngine
