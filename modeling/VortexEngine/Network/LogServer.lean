import VortexEngine.Configuration

open VortexEngine.Core

namespace VortexEngine
namespace Network

/-!
# Assigning connections to queues

The server owns as many worker contexts as its constructor creates, and each of
them runs on one thread.  An accepted connection runs on the context whose turn
it is, and its session pushes to the queue at the same index of `ptr_queue`.
That vector has one element for every consumer thread of the configuration, so
the two numbers come from different components.

Contexts and queues are named by their creation order.
-/

/-- What the session of an accepted connection runs on and pushes to. -/
structure Assignment where
  workerIndex : Nat
  /-- `*(context_vec[worker_index])` -/
  context : Option Nat
  /-- `ptr_queue[worker_index]`, and none for a read beyond the end -/
  queue : Option Nat
  deriving DecidableEq, Repr

/-- How an asynchronous accept completes. -/
inductive AcceptOutcome
  | accepted
  | failed
  deriving DecidableEq, Repr

structure LogServer where
  logSize : SizeT
  contextVec : List Nat
  ptrQueue : List Nat
  nextWorkerIndex : SizeT
  deriving Repr

namespace LogServer

/-- The constructor creates two contexts. -/
def create (maxSize : SizeT) : LogServer :=
  { logSize := maxSize, contextVec := List.range 2, ptrQueue := [], nextWorkerIndex := 0 }

def start (server : LogServer) (ptr : List Nat) : LogServer :=
  { server with ptrQueue := ptr }

/-- `next_worker_index++ % context_vec.size()`. -/
def workerIndex (server : LogServer) : Nat :=
  (server.nextWorkerIndex % BitVec.ofNat 64 server.contextVec.length).toNat

def advance (server : LogServer) : LogServer :=
  { server with nextWorkerIndex := server.nextWorkerIndex + 1 }

/-- The handler of a successful accept. -/
def assign (server : LogServer) (workerIndex : Nat) : Assignment :=
  { workerIndex := workerIndex
    context := server.contextVec[workerIndex]?
    queue := server.ptrQueue[workerIndex]? }

/-- `start_accept`, whose handler calls it again, along the outcomes of its
accepts.  A failed accept takes its turn too. -/
def startAccept (server : LogServer) : List AcceptOutcome -> List Assignment
  | [] => []
  | .accepted :: later => server.assign server.workerIndex :: startAccept server.advance later
  | .failed :: later => startAccept server.advance later

/-- `start_threads` creates one queue for each consumer thread. -/
def allQueues (config : MainConfig) : List Nat :=
  List.range config.threadNum.toNat

/-- The server of an engine that was started with a configuration file. -/
def ofConfig (file : ConfigFile) : LogServer :=
  let config := MainConfig.getUserCofig file
  (create config.logSize).start (allQueues config.normalize)

/-- The number of consumer threads, and so of queues. -/
def threadCount (file : ConfigFile) : Nat :=
  (MainConfig.getUserCofig file).normalize.threadNum.toNat

section Turns

variable {server : LogServer}

theorem workerIndex_eq (twoContexts : server.contextVec.length = 2) :
    server.workerIndex = server.nextWorkerIndex.toNat % 2 := by
  rw [workerIndex, twoContexts, BitVec.toNat_umod]
  rfl

/-- The contexts take turns, and the wrap of the counter keeps them in step. -/
theorem mem_startAccept (twoContexts : server.contextVec.length = 2) (outcomes : List AcceptOutcome)
    (assignment : Assignment) :
    assignment ∈ server.startAccept outcomes ↔
      Exists fun position => outcomes[position]? = some .accepted ∧
        assignment = server.assign ((server.nextWorkerIndex.toNat + position) % 2) := by
  induction outcomes generalizing server with
  | nil => simp [startAccept]
  | cons outcome later ih =>
      have turns : forall position, (server.advance.nextWorkerIndex.toNat + position) % 2 =
          (server.nextWorkerIndex.toNat + (position + 1)) % 2 := by
        intro position
        rw [advance, BitVec.toNat_add, show (1 : SizeT).toNat = 1 from rfl]
        omega
      have tail : assignment ∈ server.advance.startAccept later ↔
          Exists fun position => (outcome :: later)[position + 1]? = some .accepted ∧
            assignment = server.assign ((server.nextWorkerIndex.toNat + (position + 1)) % 2) := by
        rw [@ih server.advance twoContexts]
        simp only [turns]
        rfl
      rw [← Nat.or_exists_add_one, ← tail]
      cases outcome with
      | accepted =>
          rw [startAccept, List.mem_cons, workerIndex_eq twoContexts]
          exact or_congr ⟨fun same => ⟨rfl, same⟩, fun head => head.2⟩ Iff.rfl
      | failed =>
          rw [startAccept]
          exact ⟨Or.inr, fun either => either.resolve_left (fun head => nomatch head.1)⟩

theorem startAccept_append (twoContexts : server.contextVec.length = 2)
    (outcomes : List AcceptOutcome) (outcome : AcceptOutcome) :
    server.startAccept (outcomes ++ [outcome]) = server.startAccept outcomes ++
      match outcome with
      | .accepted => [server.assign ((server.nextWorkerIndex.toNat + outcomes.length) % 2)]
      | .failed => [] := by
  induction outcomes generalizing server with
  | nil =>
      cases outcome with
      | accepted => simp [startAccept, workerIndex_eq twoContexts]
      | failed => simp [startAccept]
  | cons first later ih =>
      have turn : (server.advance.nextWorkerIndex.toNat + later.length) % 2 =
          (server.nextWorkerIndex.toNat + (later.length + 1)) % 2 := by
        rw [advance, BitVec.toNat_add, show (1 : SizeT).toNat = 1 from rfl]
        omega
      have rest := @ih server.advance twoContexts
      rw [turn] at rest
      cases first with
      | accepted =>
          rw [List.cons_append, startAccept, rest]
          rfl
      | failed =>
          rw [List.cons_append, startAccept, rest]
          rfl

end Turns

/-- Every session reads `ptr_queue` inside of its bounds, and sessions with the
same queue run on the same context, whose one thread produces for that queue. -/
structure ValidAssignments (server : LogServer) (assignments : List Assignment) : Prop where
  inBounds : forall assignment, assignment ∈ assignments ->
    assignment.workerIndex < server.ptrQueue.length
  oneProducer : forall left, left ∈ assignments -> forall right, right ∈ assignments ->
    left.queue ≠ none -> left.queue = right.queue -> left.context = right.context

/-- The turns of an engine that was started with a configuration file. -/
theorem mem_assignments (file : ConfigFile) (outcomes : List AcceptOutcome)
    (assignment : Assignment) :
    assignment ∈ (ofConfig file).startAccept outcomes ↔
      Exists fun position => outcomes[position]? = some .accepted ∧
        assignment = (ofConfig file).assign (position % 2) := by
  have turns := @mem_startAccept (ofConfig file) rfl outcomes assignment
  have first : (ofConfig file).nextWorkerIndex.toNat = 0 := rfl
  simp only [first, Nat.zero_add] at turns
  exact turns

theorem length_ptrQueue (file : ConfigFile) : (ofConfig file).ptrQueue.length = threadCount file :=
  List.length_range

theorem workerIndex_of_queue (file : ConfigFile) {left right : Nat}
    (inside : ((ofConfig file).assign left).queue ≠ none)
    (same : ((ofConfig file).assign left).queue = ((ofConfig file).assign right).queue) :
      left = right := by
  change (List.range (threadCount file))[left]? ≠ none at inside
  change (List.range (threadCount file))[left]? = (List.range (threadCount file))[right]? at same
  have leftInside : left < threadCount file := by
    by_contra beyond
    exact inside (List.getElem?_eq_none (by rw [List.length_range]; omega))
  rw [List.getElem?_range leftInside] at same
  have rightInside : right < threadCount file := by
    by_contra beyond
    rw [List.getElem?_eq_none (by rw [List.length_range]; omega)] at same
    cases same
  rw [List.getElem?_range rightInside] at same
  exact Option.some.inj same

end LogServer

open LogServer

/-- The assignments are valid exactly when there are two queues, or no accept
succeeds in the second context's turn. -/
theorem assignments_valid_iff (file : ConfigFile) (outcomes : List AcceptOutcome) :
    (ofConfig file).ValidAssignments ((ofConfig file).startAccept outcomes) ↔
      2 ≤ threadCount file ∨
        forall position, position % 2 = 1 -> outcomes[position]? ≠ some .accepted := by
  have positive : 0 < threadCount file := MainConfig.normalize_threadNum_pos _
  constructor
  · rintro ⟨inBounds, _⟩
    by_contra neither
    rcases not_or.mp neither with ⟨oneQueue, someAccepted⟩
    apply someAccepted
    intro position odd accepted
    have bound := inBounds _ ((mem_assignments file outcomes _).mpr ⟨position, accepted, rfl⟩)
    rw [length_ptrQueue] at bound
    change position % 2 < threadCount file at bound
    omega
  · intro condition
    constructor
    · intro assignment member
      rcases (mem_assignments file outcomes assignment).mp member with ⟨position, accepted, rfl⟩
      rw [length_ptrQueue]
      change position % 2 < threadCount file
      rcases condition with twoQueues | evenOnly
      · omega
      · have even : position % 2 ≠ 1 := fun odd => evenOnly position odd accepted
        omega
    · intro left leftMember right rightMember inside same
      rcases (mem_assignments file outcomes left).mp leftMember with ⟨leftPosition, _, rfl⟩
      rcases (mem_assignments file outcomes right).mp rightMember with ⟨rightPosition, _, rfl⟩
      rw [workerIndex_of_queue file inside same]

/-- With the default configuration the second connection reads beyond the only
queue. -/
theorem second_connection_without_queue :
    ¬ (ofConfig .unreadable).ValidAssignments
      ((ofConfig .unreadable).startAccept [.accepted, .accepted]) := by
  rintro ⟨inBounds, _⟩
  exact absurd (inBounds ⟨1, some 1, none⟩ (by decide)) (by decide)

end Network
end VortexEngine
