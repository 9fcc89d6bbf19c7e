import VortexEngine.Configuration
import Mathlib.Logic.Function.Basic

namespace VortexEngine
namespace Core

/-!
# The log queue, one atomic access at a time

`LogQueue` is a circular array with one producing and one consuming thread.
`push` and `pop` are written here as programs with explicit points: a step
performs the one shared access that the point names, together with the local
computation up to the next shared access.  Nothing else of the other thread's
progress is visible to a step, so stale copies of the indices are the local
data of the points.

The log array is a null pointer when the constructor gave up.  It is an
optional array here, and only a step that has seen the array may touch a slot.
The watermarks and the capacity mask do not change after construction, so a
comparison with them belongs to the step that loads the index.

The copy of an entry to or from its slot is one step too, although the source
copies 29 bytes with no atomic access.  `SlotCopy` takes the copies apart.
-/

/-- The counters that all queues share. -/
structure Telemetry where
  pushedLogs : UInt64T := 0
  eliminatedLogs : UInt64T := 0
  deriving DecidableEq, Repr

namespace Telemetry

def registerPushed (telemetry : Telemetry) : Telemetry :=
  { telemetry with pushedLogs := telemetry.pushedLogs + 1 }

def registerEliminated (telemetry : Telemetry) : Telemetry :=
  { telemetry with eliminatedLogs := telemetry.eliminatedLogs + 1 }

end Telemetry

structure LogQueue (Entry : Type) where
  logArray : Option (Nat -> Entry)
  tail : SizeT
  isRunning : Bool
  maxCapacity : SizeT
  highWatermark : SizeT
  lowWatermark : SizeT
  capacityMask : SizeT
  highWatermarkTripped : Bool
  overflow : OverflowProfile
  head : SizeT

variable {Entry : Type}

namespace LogQueue

/-- `GetMaxRamUsage`: mebibytes to bytes, modulo the width. -/
def getMaxRamUsage (usableRam : SizeT) : SizeT :=
  usableRam * 1024 * 1024

/-- The constructor.  `initialized` is the result of mapping the shared memory,
and `indeterminate` stands for the members that an early return never sets. -/
def create [Inhabited Entry] (mainConfig : MainConfig) (initialized : Bool)
    (indeterminate : SizeT) : LogQueue Entry :=
  let blank : LogQueue Entry :=
    { logArray := none
      tail := 0
      isRunning := true
      maxCapacity := indeterminate
      highWatermark := 0
      lowWatermark := 0
      capacityMask := indeterminate
      highWatermarkTripped := false
      overflow := mainConfig.profile
      head := 0 }
  if initialized = false then blank
  else
    let maxCapacity := getMaxRamUsage mainConfig.usableRam
    let rawSlots := maxCapacity / BitVec.ofNat 64 LogEntry.size
    if rawSlots < 2 then { blank with maxCapacity := maxCapacity }
    else
      let optimizedCapacity := Foundations.bitCeil rawSlots
      { blank with
        maxCapacity := maxCapacity
        capacityMask := optimizedCapacity - 1
        logArray := some (fun _ => default)
        highWatermark := optimizedCapacity * 8 / 10
        lowWatermark := optimizedCapacity * 2 / 10 }

/-- The successor of an index. -/
def nextIndex (queue : LogQueue Entry) (index : SizeT) : SizeT :=
  (index + 1) &&& queue.capacityMask

/-- The occupied slots between two indices. -/
def occupiedSlots (queue : LogQueue Entry) (head tail : SizeT) : SizeT :=
  (head - tail) &&& queue.capacityMask

def totalSlots (queue : LogQueue Entry) : SizeT :=
  queue.capacityMask + 1

/-- Assign one slot of the array. -/
def writeSlot (queue : LogQueue Entry) (index : SizeT) (entry : Entry) : LogQueue Entry :=
  { queue with
    logArray := queue.logArray.map (fun slots => Function.update slots index.toNat entry) }

def setFinished (queue : LogQueue Entry) : LogQueue Entry :=
  { queue with isRunning := false }

end LogQueue

/-! ## Program points -/

/-- Where the producing thread stands in `push`.  Every point names the shared
access that comes next. -/
inductive PushPoint (Entry : Type)
  | idle
  /-- `if (!log_array) return;` and the first test of `is_running` -/
  | entered (logLine : Entry)
  | loadingHead (logLine : Entry)
  /-- the test `next_head == tail` and the switch on the overflow profile -/
  | loadingTail (logLine : Entry) (currentHead nextHead : SizeT)
  /-- `while (current_head == tail.load(...))` -/
  | waiting (logLine : Entry) (currentHead nextHead : SizeT)
  /-- the second test of `is_running` -/
  | rechecking (logLine : Entry) (currentHead nextHead : SizeT)
  | writing (logLine : Entry) (currentHead nextHead : SizeT)
  | publishing (logLine : Entry) (currentHead nextHead : SizeT)
  | notifying (nextHead : SizeT)
  | counting (nextHead : SizeT)
  /-- the load of `tail` for `occupied_slots` -/
  | measuring (nextHead : SizeT)
  | tripping
  deriving DecidableEq, Repr

/-- Where the consuming thread stands in `pop`.  A returned call keeps its
result until the next one begins. -/
inductive PopPoint (Entry : Type)
  | returned (outLog : Option Entry)
  /-- the first test of `is_running` -/
  | entered
  | loadingTail
  | loadingHead (currentTail : SizeT)
  /-- the second test of `is_running` -/
  | rechecking (currentTail : SizeT)
  | reading (currentTail : SizeT)
  | releasing (currentTail : SizeT) (outLog : Entry)
  | counting (currentTail : SizeT) (outLog : Entry)
  /-- the load of `head` for `freed_slots` -/
  | measuring (currentTail : SizeT) (outLog : Entry)
  | untripping (outLog : Entry)
  deriving DecidableEq, Repr

/-- The shared state and one thread's point after a step of that thread. -/
structure Progress (Entry : Type) (Point : Type) where
  queue : LogQueue Entry
  telemetry : Telemetry
  point : Point

/-! ## Steps -/

/-- One step of `push`.  No step is left when no call is in progress. -/
def pushStep [Leveled Entry] (queue : LogQueue Entry) (telemetry : Telemetry) :
    PushPoint Entry -> Option (Progress Entry (PushPoint Entry))
  | .idle => none
  | .entered logLine =>
      if queue.logArray.isNone then some ⟨queue, telemetry, .idle⟩
      else if queue.isRunning = false then some ⟨queue, telemetry, .idle⟩
      else some ⟨queue, telemetry, .loadingHead logLine⟩
  | .loadingHead logLine =>
      let currentHead := queue.head
      some ⟨queue, telemetry, .loadingTail logLine currentHead (queue.nextIndex currentHead)⟩
  | .loadingTail logLine currentHead nextHead =>
      if nextHead = queue.tail then
        match queue.overflow with
        | .block => some ⟨queue, telemetry, .waiting logLine currentHead nextHead⟩
        | .dropAll => some ⟨queue, telemetry, .idle⟩
        | .dropNonCritical =>
            if Leveled.level logLine ≠ .critical then some ⟨queue, telemetry, .idle⟩
            else some ⟨queue, telemetry, .waiting logLine currentHead nextHead⟩
        | .passCriticalDropElse =>
            if Leveled.level logLine ≠ .critical then some ⟨queue, telemetry, .idle⟩
            else some ⟨queue, telemetry, .rechecking logLine currentHead nextHead⟩
      else some ⟨queue, telemetry, .rechecking logLine currentHead nextHead⟩
  | .waiting logLine currentHead nextHead =>
      -- the source compares `current_head` here, not `next_head`
      if currentHead = queue.tail then
        some ⟨queue, telemetry, .waiting logLine currentHead nextHead⟩
      else some ⟨queue, telemetry, .rechecking logLine currentHead nextHead⟩
  | .rechecking logLine currentHead nextHead =>
      if queue.isRunning = false then some ⟨queue, telemetry, .idle⟩
      else some ⟨queue, telemetry, .writing logLine currentHead nextHead⟩
  | .writing logLine currentHead nextHead =>
      some ⟨queue.writeSlot currentHead logLine, telemetry,
        .publishing logLine currentHead nextHead⟩
  | .publishing _ _ nextHead =>
      some ⟨{ queue with head := nextHead }, telemetry, .notifying nextHead⟩
  | .notifying nextHead => some ⟨queue, telemetry, .counting nextHead⟩
  | .counting nextHead => some ⟨queue, telemetry.registerPushed, .measuring nextHead⟩
  | .measuring nextHead =>
      if queue.highWatermark ≤ queue.occupiedSlots nextHead queue.tail then
        some ⟨queue, telemetry, .tripping⟩
      else some ⟨queue, telemetry, .idle⟩
  | .tripping => some ⟨{ queue with highWatermarkTripped := true }, telemetry, .idle⟩

/-- One step of `pop`.  A slot of a missing array cannot be read. -/
def popStep (queue : LogQueue Entry) (telemetry : Telemetry) :
    PopPoint Entry -> Option (Progress Entry (PopPoint Entry))
  | .returned _ => none
  | .entered =>
      if queue.isRunning = false then some ⟨queue, telemetry, .returned none⟩
      else some ⟨queue, telemetry, .loadingTail⟩
  | .loadingTail => some ⟨queue, telemetry, .loadingHead queue.tail⟩
  | .loadingHead currentTail =>
      if currentTail = queue.head then some ⟨queue, telemetry, .returned none⟩
      else some ⟨queue, telemetry, .rechecking currentTail⟩
  | .rechecking currentTail =>
      if queue.isRunning = false then some ⟨queue, telemetry, .returned none⟩
      else some ⟨queue, telemetry, .reading currentTail⟩
  | .reading currentTail =>
      queue.logArray.map fun slots =>
        ⟨queue, telemetry, .releasing currentTail (slots currentTail.toNat)⟩
  | .releasing currentTail outLog =>
      some ⟨{ queue with tail := queue.nextIndex currentTail }, telemetry,
        .counting currentTail outLog⟩
  | .counting currentTail outLog =>
      some ⟨queue, telemetry.registerEliminated, .measuring currentTail outLog⟩
  | .measuring currentTail outLog =>
      let freedSlots := queue.totalSlots - queue.occupiedSlots queue.head currentTail
      if freedSlots ≤ queue.lowWatermark then some ⟨queue, telemetry, .untripping outLog⟩
      else some ⟨queue, telemetry, .returned (some outLog)⟩
  | .untripping outLog =>
      some ⟨{ queue with highWatermarkTripped := false }, telemetry, .returned (some outLog)⟩

end Core
end VortexEngine
