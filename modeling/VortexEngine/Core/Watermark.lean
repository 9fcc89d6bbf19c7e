import VortexEngine.Core.WholeCalls
import VortexEngine.Foundations.Hysteresis

open VortexEngine.Foundations

namespace VortexEngine
namespace Core

/-!
# The watermark flag

`push` measures the occupied slots behind its own store and trips the flag at
the high mark.  `pop` compares something else with the low mark: the slots that
were free before its own store.  Few free slots mean a full queue, so the flag
is cleared by every pop that begins above the high mark, and by no pop that
brings the queue down to the low one.

The flag is compared with a hysteresis between the two marks, over sequences of
whole calls.
-/

variable {Entry : Type}

namespace SequentialRun

/-- The flag is set exactly when the occupancy has reached the high mark since
it was last at or below the low mark. -/
def Hysteresis (run : SequentialRun Entry) : Prop :=
  run.queue.highWatermarkTripped = true ↔
    ReachedSince (run.queue.capacity * 8 / 10) (run.queue.capacity * 2 / 10) run.occupancies

/-- No pop begins above the high mark, and none brings the queue down to the
low mark while the flag is set. -/
def Calm (run : SequentialRun Entry) : Operation Entry -> Prop
  | .push _ => True
  | .pop => run.queue.occupancy ≤ run.queue.capacity * 8 / 10 ∧
      ¬ (run.queue.occupancy = run.queue.capacity * 2 / 10 + 1 ∧
        run.queue.highWatermarkTripped = true)

instance (run : SequentialRun Entry) : (operation : Operation Entry) ->
    Decidable (run.Calm operation)
  | .push _ => inferInstanceAs (Decidable True)
  | .pop => inferInstanceAs (Decidable (_ ∧ ¬ (_ ∧ _)))

end SequentialRun

/-! ## The marks -/

/-- A power of two is no multiple of ten, so the marks leave one slot between
them and the capacity. -/
theorem marks_add (exponent : Nat) :
    2 ^ exponent * 8 / 10 + 2 ^ exponent * 2 / 10 + 1 = 2 ^ exponent := by
  have odd : 2 ^ exponent % 5 ≠ 0 := by
    induction exponent with
    | zero => decide
    | succ exponent ih =>
        rw [Nat.pow_succ]
        omega
  generalize 2 ^ exponent = capacity at odd
  have cases : capacity % 5 = 1 ∨ capacity % 5 = 2 ∨ capacity % 5 = 3 ∨ capacity % 5 = 4 := by omega
  rcases cases with remainder | remainder | remainder | remainder <;> omega

namespace LogQueue

/-- A running queue under `DropAll` with the marks that the constructor sets. -/
structure Marked (exponent : Nat) (queue : LogQueue Entry) : Prop where
  ring : queue.IsRing exponent
  least : 1 ≤ exponent
  most : exponent ≤ 60
  running : queue.isRunning = true
  profile : queue.overflow = .dropAll
  high : queue.highWatermark.toNat = 2 ^ exponent * 8 / 10
  low : queue.lowWatermark.toNat = 2 ^ exponent * 2 / 10

theorem create_marked [Inhabited Entry] {mainConfig : MainConfig} {initialized : Bool}
    {indeterminate : SizeT}
    (allocated : (create mainConfig initialized indeterminate : LogQueue Entry).logArray ≠ none)
    (profile : mainConfig.profile = .dropAll) :
    (Exists fun exponent =>
      (create mainConfig initialized indeterminate : LogQueue Entry).Marked exponent) ∧
      (create mainConfig initialized indeterminate : LogQueue Entry).occupancy = 0 ∧
      (create mainConfig initialized indeterminate : LogQueue Entry).highWatermarkTripped =
        false := by
  rcases create_fresh allocated with ⟨exponent, least, fresh⟩
  have empty := fresh.isRing.occupancy_zero.mp (fresh.tail.trans fresh.head.symm)
  have shape :
    (create mainConfig initialized indeterminate : LogQueue Entry).highWatermarkTripped = false ∧
      Exists fun optimizedCapacity :
        SizeT => optimizedCapacity.toNat = 2 ^ exponent ∧ exponent ≤ 60 ∧
        (create mainConfig initialized indeterminate : LogQueue Entry).highWatermark =
          optimizedCapacity * 8 / 10 ∧
        (create mainConfig initialized indeterminate : LogQueue Entry).lowWatermark =
          optimizedCapacity * 2 / 10 := by
    have capacity := fresh.capacity
    rw [create] at allocated capacity ⊢
    simp only at allocated capacity ⊢
    split at allocated
    · exact absurd rfl allocated
    · split at allocated
      · exact absurd rfl allocated
      · rename_i initializes enough
        rw [if_neg initializes, if_neg enough] at capacity ⊢
        refine ⟨rfl, bitCeil (getMaxRamUsage mainConfig.usableRam / BitVec.ofNat 64 LogEntry.size),
          ?_⟩
        rcases bitCeil_cases (rawSlots_le (getMaxRamUsage mainConfig.usableRam)) (by decide) with
          ⟨other, small, power⟩
        have positive := Nat.two_pow_pos other
        have same : 2 ^ other = 2 ^ exponent := by
          rw [← capacity, LogQueue.capacity]
          change _ = (bitCeil _ - 1).toNat + 1
          have most : 2 ^ other ≤ 2 ^ 60 := Nat.pow_le_pow_right (by decide) small
          rw [BitVec.toNat_sub, power, show (1 : SizeT).toNat = 1 from rfl]
          omega
        rw [Nat.pow_right_injective (Nat.le_refl 2) same] at power small
        exact ⟨power, small, rfl, rfl⟩
  rcases shape with ⟨calm, optimizedCapacity, power, most, high, low⟩
  have bound : 2 ^ exponent ≤ 2 ^ 60 := Nat.pow_le_pow_right (by decide) most
  refine ⟨⟨exponent, fresh.isRing, least, most, fresh.running, fresh.profile.trans profile, ?_, ?_⟩,
    empty, calm⟩
  · rw [high, BitVec.toNat_udiv, BitVec.toNat_mul, power, show (8 : SizeT).toNat = 8 from rfl,
      show (10 : SizeT).toNat = 10 from rfl, Nat.mod_eq_of_lt (by omega)]
  · rw [low, BitVec.toNat_udiv, BitVec.toNat_mul, power, show (2 : SizeT).toNat = 2 from rfl,
      show (10 : SizeT).toNat = 10 from rfl, Nat.mod_eq_of_lt (by omega)]

/-! ## What a call does to the flag -/

namespace Marked

variable {exponent : Nat} {queue : LogQueue Entry}

theorem capacity_eq (marked : queue.Marked exponent) : queue.capacity = 2 ^ exponent :=
  marked.ring.power

theorem transfer (marked : queue.Marked exponent) (after : LogQueue Entry)
    (ring : after.IsRing exponent)
    (running : after.isRunning = queue.isRunning) (profile : after.overflow = queue.overflow)
    (high : after.highWatermark = queue.highWatermark)
    (low : after.lowWatermark = queue.lowWatermark) :
    after.Marked exponent :=
  ⟨ring, marked.least, marked.most, running.trans marked.running, profile.trans marked.profile,
    high ▸ marked.high, low ▸ marked.low⟩

/-- The test of `push` compares the occupancy with the high mark. -/
theorem markHigh (marked : queue.Marked exponent) :
    queue.markHigh.Marked exponent ∧ queue.markHigh.occupancy = queue.occupancy ∧
      queue.markHigh.highWatermarkTripped =
        (decide (2 ^ exponent * 8 / 10 ≤ queue.occupancy) || queue.highWatermarkTripped) := by
  have test : queue.highWatermark ≤ queue.occupiedSlots queue.head queue.tail ↔
      2 ^ exponent * 8 / 10 ≤ queue.occupancy := by
    rw [BitVec.le_def, marked.high]
    rfl
  have ring := marked.ring
  unfold LogQueue.markHigh
  by_cases reached : 2 ^ exponent * 8 / 10 ≤ queue.occupancy
  · rw [if_pos (test.mpr reached), decide_eq_true reached, Bool.true_or]
    have tripped := marked.transfer { queue with highWatermarkTripped := true }
      ⟨ring.power, ring.headBound, ring.tailBound, ring.allocated⟩ rfl rfl rfl rfl
    exact ⟨tripped, rfl, rfl⟩
  · rw [if_neg (mt test.mp reached), decide_eq_false reached, Bool.false_or]
    exact ⟨marked, rfl, rfl⟩

/-- The test of `pop` asks whether the occupancy at its beginning was above
the high mark. -/
theorem markLow (marked : queue.Marked exponent) (nonempty : queue.tail ≠ queue.head) :
    (queue.released.markLow queue.tail).Marked exponent ∧
      (queue.released.markLow queue.tail).occupancy + 1 = queue.occupancy ∧
      (queue.released.markLow queue.tail).highWatermarkTripped =
        (decide (queue.occupancy ≤ 2 ^ exponent * 8 / 10) && queue.highWatermarkTripped) := by
  have ring := marked.ring
  rcases ring.released nonempty with ⟨releasedRing, count⟩
  have released := marked.transfer queue.released releasedRing rfl rfl rfl rfl
  have test : queue.released.totalSlots -
    queue.released.occupiedSlots queue.released.head queue.tail ≤
      queue.released.lowWatermark ↔ ¬ queue.occupancy ≤ 2 ^ exponent * 8 / 10 := by
    have bound : 2 ^ exponent ≤ 2 ^ 60 := Nat.pow_le_pow_right (by decide) marked.most
    have short := ring.occupancy_lt
    have sum := marks_add exponent
    have total : queue.totalSlots.toNat = 2 ^ exponent := by
      rw [totalSlots, BitVec.toNat_add, show (1 : SizeT).toNat = 1 from rfl, ring.power]
      exact Nat.mod_eq_of_lt (by omega)
    have freed : (queue.totalSlots - queue.occupiedSlots queue.head queue.tail).toNat =
        2 ^ exponent - queue.occupancy := by
      rw [BitVec.toNat_sub_of_le, total]
      · rfl
      · rw [BitVec.le_def, total]
        exact short.le
    change queue.totalSlots - queue.occupiedSlots queue.head queue.tail ≤ queue.lowWatermark ↔ _
    rw [BitVec.le_def, freed, marked.low]
    omega
  unfold LogQueue.markLow
  by_cases calm : queue.occupancy ≤ 2 ^ exponent * 8 / 10
  · rw [if_neg (fun low => test.mp low calm), decide_eq_true calm, Bool.true_and]
    exact ⟨released, count.symm, rfl⟩
  · rw [if_pos (test.mpr calm), decide_eq_false calm, Bool.false_and]
    have cleared := released.transfer { queue.released with highWatermarkTripped := false }
      ⟨releasedRing.power, releasedRing.headBound, releasedRing.tailBound, releasedRing.allocated⟩
        rfl rfl rfl rfl
    exact ⟨cleared, count.symm, rfl⟩

end Marked

end LogQueue

/-! ## The flag along a run -/

namespace SequentialRun

variable {exponent : Nat} {run later : SequentialRun Entry}

/-- The queue is marked, and its occupancy is the latest one. -/
structure Tracked (exponent : Nat) (run : SequentialRun Entry) : Prop where
  marked : run.queue.Marked exponent
  latest : Exists fun older => run.occupancies = older ++ [run.queue.occupancy]

/-- What a completed call has done. -/
inductive Effect (run later : SequentialRun Entry) : Operation Entry -> Prop
  | drop {logLine} (full : run.queue.occupancy + 1 = run.queue.capacity)
      (same : later.queue = run.queue) :
      Effect run later (.push logLine)
  | publish {logLine} (room : run.queue.occupancy + 1 ≠ run.queue.capacity)
      (count : later.queue.occupancy = run.queue.occupancy + 1)
      (flag : later.queue.highWatermarkTripped =
        (decide (run.queue.capacity * 8 / 10 ≤ run.queue.occupancy + 1) ||
          run.queue.highWatermarkTripped)) :
      Effect run later (.push logLine)
  | findEmpty (empty : run.queue.occupancy = 0) (same : later.queue = run.queue) :
      Effect run later .pop
  | release (count : later.queue.occupancy + 1 = run.queue.occupancy)
      (flag : later.queue.highWatermarkTripped =
        (decide (run.queue.occupancy ≤ run.queue.capacity * 8 / 10) &&
          run.queue.highWatermarkTripped)) :
      Effect run later .pop

variable [Leveled Entry]

/-- Every call returns, and does one of these things. -/
theorem Tracked.step (tracked : run.Tracked exponent) (operation : Operation Entry) :
    Exists fun later => run.step operation = some later ∧ later.Tracked exponent ∧
      later.occupancies = run.occupancies ++ [later.queue.occupancy] ∧
        Effect run later operation := by
  rcases tracked with ⟨marked, older, latest⟩
  have ring := marked.ring
  have positive := Nat.two_pow_pos exponent
  cases operation with
  | push logLine =>
      by_cases full : run.queue.nextIndex run.queue.head = run.queue.tail
      · have done :=
          LogQueue.callPush_full run.telemetry ring marked.running marked.profile full logLine
        refine ⟨run.completed run.queue run.telemetry, ?_, ⟨marked, _, rfl⟩, rfl, ?_⟩
        · simp only [SequentialRun.step, done]
        · refine .drop ?_ rfl
          rw [ring.occupancy_full.mp full, marked.capacity_eq]
          omega
      · have done := LogQueue.callPush_room run.telemetry ring marked.running full logLine
        rcases ring.published full logLine with ⟨publishedRing, count⟩
        have published :=
          marked.transfer (run.queue.published logLine) publishedRing rfl rfl rfl rfl
        rcases published.markHigh with ⟨after, same, flag⟩
        refine
          ⟨run.completed (run.queue.published logLine).markHigh run.telemetry.registerPushed,
            ?_, ⟨after, _, rfl⟩, rfl, ?_⟩
        · simp only [SequentialRun.step, done]
        · rw [count] at same flag
          refine .publish ?_ same ?_
          · rw [marked.capacity_eq]
            intro last
            exact full (ring.occupancy_full.mpr (by omega))
          · rw [marked.capacity_eq]
            exact flag
  | pop =>
      by_cases empty : run.queue.tail = run.queue.head
      · have done := LogQueue.callPop_empty run.telemetry marked.running empty
        refine ⟨run.completed run.queue run.telemetry, ?_, ⟨marked, _, rfl⟩, rfl, ?_⟩
        · simp only [SequentialRun.step, done]
        · exact .findEmpty (ring.occupancy_zero.mp empty) rfl
      · rcases LogQueue.callPop_entry run.telemetry ring marked.running empty with ⟨outLog, done⟩
        rcases marked.markLow empty with ⟨after, count, flag⟩
        refine ⟨run.completed (run.queue.released.markLow run.queue.tail)
          run.telemetry.registerEliminated, ?_,
          ⟨after, _, rfl⟩, rfl, ?_⟩
        · simp only [SequentialRun.step, done]
        · refine .release count ?_
          rw [marked.capacity_eq]
          exact flag

/-- Behind a call, the flag is right exactly when the call was calm. -/
theorem Tracked.hysteresis_iff (tracked : run.Tracked exponent) (holds : run.Hysteresis)
    {operation : Operation Entry} (moves : run.step operation = some later) :
    later.Hysteresis ↔ run.Calm operation := by
  rcases tracked.step operation with ⟨after, moved, trackedLater, history, effect⟩
  cases moves.symm.trans moved
  have sum := marks_add exponent
  have bound : 2 ^ 1 ≤ 2 ^ exponent := Nat.pow_le_pow_right (by decide) tracked.marked.least
  have capacity := tracked.marked.capacity_eq
  rcases tracked.latest with ⟨older, latest⟩
  unfold Hysteresis at holds ⊢
  rw [trackedLater.marked.capacity_eq, history]
  rw [capacity] at holds
  have apart : 2 ^ exponent * 2 / 10 < 2 ^ exponent * 8 / 10 := by omega
  rw [reachedSince_append apart]
  have above : ReachedSince (2 ^ exponent * 8 / 10) (2 ^ exponent * 2 / 10) run.occupancies ->
      2 ^ exponent * 2 / 10 < run.queue.occupancy := by
    rw [latest]
    exact ReachedSince.above apart
  have peak : 2 ^ exponent * 8 / 10 ≤ run.queue.occupancy ->
      ReachedSince (2 ^ exponent * 8 / 10) (2 ^ exponent * 2 / 10) run.occupancies := by
    intro reached
    rw [latest]
    exact (reachedSince_append apart _ _).mpr (Or.inl reached)
  generalize ReachedSince (2 ^ exponent * 8 / 10) (2 ^ exponent * 2 / 10) run.occupancies = before
    at holds above peak
  cases effect with
  | drop full same =>
      rw [same, holds]
      exact iff_of_true
        ⟨fun reached => Or.inr ⟨above reached, reached⟩, fun now => now.elim peak And.right⟩ trivial
  | publish room count flag =>
      rw [count, flag, capacity, Bool.or_eq_true, decide_eq_true_iff, holds]
      refine iff_of_true ⟨?_, ?_⟩ trivial
      · exact Or.imp_right fun reached => ⟨Nat.lt_succ_of_lt (above reached), reached⟩
      · exact Or.imp_right And.right
  | findEmpty empty same =>
      rw [same, holds]
      refine iff_of_true
        ⟨fun reached => Or.inr ⟨above reached, reached⟩, fun now => now.elim peak And.right⟩ ?_
      refine ⟨?_, ?_⟩
      · rw [empty]
        exact Nat.zero_le _
      · rw [empty]
        rintro ⟨none, _⟩
        cases none
  | release count flag =>
      rw [flag, capacity, Bool.and_eq_true, decide_eq_true_iff, holds, Calm, capacity, holds]
      by_cases reached : before
      · have above := above reached
        simp only [reached, and_true]
        omega
      · simp only [reached, and_false, or_false, false_iff, not_false_eq_true, and_true]
        have below := mt peak reached
        omega

/-- Along a run of calm calls the flag is right. -/
theorem hysteresis_of_calm {queue : LogQueue Entry} (marked : queue.Marked exponent)
    (empty : queue.occupancy = 0) (untripped : queue.highWatermarkTripped = false)
    (reached : (sequentialMachine queue).ReachableUnder Calm run) :
    run.Tracked exponent ∧ run.Hysteresis := by
  apply reached.invariant
  · rintro start ⟨rfl, beginning⟩
    refine ⟨⟨marked, [], beginning⟩, ?_⟩
    unfold Hysteresis
    rw [untripped, beginning, empty]
    refine iff_of_false Bool.false_ne_true fun reached => ?_
    have sum := marks_add exponent
    have bound : 2 ^ 1 ≤ 2 ^ exponent := Nat.pow_le_pow_right (by decide) marked.least
    rw [marked.capacity_eq] at reached
    have apart : 2 ^ exponent * 2 / 10 < 2 ^ exponent * 8 / 10 := by omega
    have above := @ReachedSince.above _ _ _ _ apart [] 0 reached
    exact absurd above (Nat.not_lt_zero _)
  · rintro before operation after _ ⟨tracked, holds⟩ calm moves
    rcases tracked.step operation with ⟨_, moved, trackedAfter, _⟩
    cases moves.symm.trans moved
    exact ⟨trackedAfter, (tracked.hysteresis_iff holds moves).mpr calm⟩

/-- Pushes fill the queue up to any number of entries, and they are all calm. -/
theorem exists_filled {queue : LogQueue Entry} (marked : queue.Marked exponent)
    (empty : queue.occupancy = 0) (logLine : Entry) (count : Nat) (fits : count < 2 ^ exponent) :
    Exists fun run => (sequentialMachine queue).ReachableUnder Calm run ∧ run.Tracked exponent ∧
      run.queue.occupancy = count := by
  induction count with
  | zero =>
      let start : SequentialRun Entry :=
        { queue := queue, telemetry := {}, occupancies := [queue.occupancy] }
      exact ⟨start, Machine.ReachableUnder.start ⟨rfl, rfl⟩, ⟨marked, [], rfl⟩, empty⟩
  | succ count ih =>
      rcases ih (Nat.lt_of_succ_lt fits) with ⟨run, reached, tracked, filled⟩
      rcases tracked.step (.push logLine) with ⟨later, moves, trackedLater, _, effect⟩
      have calm : run.Calm (.push logLine) := trivial
      refine ⟨later, reached.next calm moves, trackedLater, ?_⟩
      cases effect with
      | drop full _ =>
          rw [filled, tracked.marked.capacity_eq] at full
          exact absurd full (Nat.ne_of_lt fits)
      | publish _ occupied _ => rw [occupied, filled]

end SequentialRun

/-- On every queue that the constructor sets up under `DropAll`, the flag follows
the hysteresis along every run of calm calls, and a call behind which it does
no longer is one that is not calm. -/
theorem watermark_hysteresis [Inhabited Entry] [Leveled Entry] {mainConfig : MainConfig}
    {initialized : Bool} {indeterminate : SizeT} {run : SequentialRun Entry}
    (allocated : (LogQueue.create mainConfig initialized indeterminate : LogQueue Entry).logArray ≠
      none)
    (profile : mainConfig.profile = .dropAll)
    (reached :
      (sequentialMachine (LogQueue.create mainConfig initialized indeterminate)).ReachableUnder
      SequentialRun.Calm run) :
    run.Hysteresis ∧ forall operation later, run.step operation = some later ->
      (later.Hysteresis ↔ run.Calm operation) := by
  rcases LogQueue.create_marked allocated profile with ⟨⟨exponent, marked⟩, empty, untripped⟩
  rcases SequentialRun.hysteresis_of_calm marked empty untripped reached with ⟨tracked, holds⟩
  exact ⟨holds, fun operation later => tracked.hysteresis_iff holds⟩

/-! ## The smallest configured queue -/

/-- The queue of the default configuration, with `2 ^ 20` slots. -/
def sixteenMebibytes : LogQueue LogEntry :=
  LogQueue.create {} true 0

theorem sixteenMebibytes_allocated : sixteenMebibytes.logArray ≠ none :=
  nofun

/-- The queue is filled up to the high mark.  The flag is set then, and the next
pop is calm, so it stays set. -/
theorem watermark_hysteresis_sixteenMebibytes :
    Exists fun run => (sequentialMachine sixteenMebibytes).ReachableUnder SequentialRun.Calm run ∧
      run.queue.highWatermarkTripped = true ∧ run.Calm .pop ∧ run.Hysteresis ∧
        forall operation later, run.step operation = some later ->
          (later.Hysteresis ↔ run.Calm operation) := by
  rcases LogQueue.create_marked sixteenMebibytes_allocated rfl with ⟨⟨exponent, marked⟩, empty, _⟩
  have power : 2 ^ exponent = 2 ^ 20 := marked.capacity_eq.symm.trans (by decide)
  rcases SequentialRun.exists_filled marked empty default (2 ^ exponent * 8 / 10)
      (by rw [power]; decide) with
    ⟨run, reached, tracked, filled⟩
  have holds := watermark_hysteresis sixteenMebibytes_allocated rfl reached
  have capacity := tracked.marked.capacity_eq
  have tripped : run.queue.highWatermarkTripped = true := by
    rcases tracked.latest with ⟨older, latest⟩
    apply holds.1.mpr
    rw [latest, reachedSince_append (by rw [capacity, power]; decide), capacity, filled]
    exact Or.inl (Nat.le_refl _)
  refine ⟨run, reached, tripped, ⟨?_, ?_⟩, holds⟩
  · rw [capacity, filled]
  · rintro ⟨last, _⟩
    rw [capacity, filled, power] at last
    exact absurd last (by decide)

/-- Once the queue has been filled beyond the high mark, the first pop clears the
flag, although the occupancy is still at the high mark. -/
theorem first_pop_clears_flag :
    Exists fun run => (sequentialMachine sixteenMebibytes).Reachable run ∧
      run.queue.occupancy = run.queue.capacity * 8 / 10 ∧ run.queue.highWatermarkTripped = false ∧
        ¬ run.Hysteresis := by
  rcases LogQueue.create_marked sixteenMebibytes_allocated rfl with
    ⟨⟨exponent, marked⟩, empty, untripped⟩
  have capacity : 2 ^ exponent = 2 ^ 20 := marked.capacity_eq.symm.trans (by decide)
  rcases SequentialRun.exists_filled marked empty default (2 ^ exponent * 8 / 10 + 1)
      (by rw [capacity]; decide) with
    ⟨run, reached, tracked, filled⟩
  have holds := (SequentialRun.hysteresis_of_calm marked empty untripped reached).2
  rcases tracked.step .pop with ⟨later, moves, trackedLater, _, effect⟩
  have wrong : ¬ later.Hysteresis := by
    intro right
    have calm := ((tracked.hysteresis_iff holds moves).mp right).1
    rw [filled, tracked.marked.capacity_eq] at calm
    exact Nat.not_succ_le_self _ calm
  have anyReached : (sequentialMachine sixteenMebibytes).Reachable run :=
    reached.reguard fun _ _ _ _ => trivial
  have admitted : Machine.anyAction run (Operation.pop : Operation LogEntry) := trivial
  refine ⟨later, anyReached.next admitted moves, ?_⟩
  cases effect with
  | findEmpty none _ => exact absurd (filled.symm.trans none) (Nat.succ_ne_zero _)
  | release count flag =>
      rw [filled] at count
      rw [filled, tracked.marked.capacity_eq, decide_eq_false (Nat.not_succ_le_self _),
        Bool.false_and] at flag
      rw [trackedLater.marked.capacity_eq]
      exact ⟨Nat.succ.inj count, flag, wrong⟩

end Core
end VortexEngine
