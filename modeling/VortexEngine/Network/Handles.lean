import VortexEngine.Foundations.Ownership
import VortexEngine.Network.SessionSizing
import VortexEngine.Network.SlabPool

open VortexEngine.Foundations

namespace VortexEngine
namespace Network

/-!
# Handles and mapped views

A slab pool and a stash buffer each own a section handle and what they have
mapped of it.  Both can be moved, both give back what they own when they are
destroyed, and a constructor that fails gives back some of what it has got.

Handles and addresses are numbers, and zero is the null pointer.  What the API
calls answer is a parameter of every construction.  A process holds any number
of both objects, under names of its own, and constructs, initialises, moves and
destroys them in any order.
-/

/-- What the process has got from the system. -/
inductive OsResource
  | sectionHandle (handle : Nat)
  | view (address : Nat)
  /-- reserved addresses that no view has replaced -/
  | placeholder (address : Nat)
  deriving DecidableEq, Repr

abbrev OsResource.IsPlaceholder : OsResource -> Prop
  | .placeholder _ => True
  | _ => False

abbrev Windows := ResourceTable OsResource

/-- `INVALID_HANDLE_VALUE`, which is not the null handle. -/
def invalidHandleValue : Nat := 2 ^ 64 - 1

/-- A resource, unless the pointer to it is null. -/
def unlessNull (pointer : Nat) (resource : OsResource) : List OsResource :=
  if pointer = 0 then [] else [resource]

/-- Give a resource back, unless the pointer to it is null. -/
def releaseUnlessNull (pointer : Nat) (resource : OsResource) (windows : Windows) : Windows :=
  if pointer = 0 then windows else windows.release resource

theorem releaseAll_unlessNull (pointer : Nat) (resource : OsResource) (windows : Windows) :
    windows.releaseAll (unlessNull pointer resource) =
      releaseUnlessNull pointer resource windows := by
  unfold unlessNull releaseUnlessNull
  split <;> rfl

theorem releaseAll_append (windows : Windows) (first second : List OsResource) :
    windows.releaseAll (first ++ second) = (windows.releaseAll first).releaseAll second :=
  List.foldl_append

/-! ## The pool -/

/-- The answers to the calls of `InitializeSharedMemory`. -/
structure PoolAnswers where
  createFileMapping : Nat
  mapViewOfFile : Nat

/-- A handle is new, and so is the address of a view.  The call that creates a
section answers with the null handle when it fails. -/
def PoolAnswers.Documented (answers : PoolAnswers) (windows : Windows) : Prop :=
  answers.createFileMapping ≠ invalidHandleValue ∧
    (answers.createFileMapping ≠ 0 ->
      windows.isOpen (.sectionHandle answers.createFileMapping) = false) ∧
      (answers.mapViewOfFile ≠ 0 -> windows.isOpen (.view answers.mapViewOfFile) = false)

instance (answers : PoolAnswers) (windows : Windows) : Decidable (answers.Documented windows) :=
  inferInstanceAs (Decidable (_ ∧ _ ∧ _))

/-- A slab pool with its handle. -/
structure MappedPool where
  pool : SlabPool
  hMapFile : Nat

namespace MappedPool

def create (max size : SizeT) : MappedPool :=
  { pool := SlabPool.create max size, hMapFile := 0 }

/-- The move constructor: the new object, and what is left of the other. -/
def move (other : MappedPool) : MappedPool × MappedPool :=
  (other, { pool := { other.pool with sharedMemoryBasePtr := 0 }, hMapFile := 0 })

/-- The destructor. -/
def destroy (mapped : MappedPool) (windows : Windows) : Windows :=
  releaseUnlessNull mapped.hMapFile (.sectionHandle mapped.hMapFile)
    (releaseUnlessNull mapped.pool.sharedMemoryBasePtr
      (.view mapped.pool.sharedMemoryBasePtr) windows)

/-- `InitializeSharedMemory`. -/
def initializeSharedMemory (mapped : MappedPool) (answers : PoolAnswers) (windows : Windows) :
    MappedPool × Windows × Bool :=
  let handle := answers.createFileMapping
  let basePtr := answers.mapViewOfFile
  if handle = 0 ∨ handle = invalidHandleValue then
    ({ mapped with hMapFile := handle }, windows, false)
  else if basePtr = 0 then
    ({ pool := mapped.pool.initializeSharedMemory basePtr, hMapFile := 0 },
      (windows.acquire (.sectionHandle handle)).release (.sectionHandle handle), false)
  else
    ({ pool := mapped.pool.initializeSharedMemory basePtr, hMapFile := handle },
      (windows.acquire (.sectionHandle handle)).acquire (.view basePtr), true)

/-- What the pool refers to, in the order of the destructor. -/
def holdings (mapped : MappedPool) : List OsResource :=
  unlessNull mapped.pool.sharedMemoryBasePtr (.view mapped.pool.sharedMemoryBasePtr) ++
    unlessNull mapped.hMapFile (.sectionHandle mapped.hMapFile)

theorem destroy_eq (mapped : MappedPool) (windows : Windows) :
    mapped.destroy windows = windows.releaseAll mapped.holdings := by
  rw [holdings, releaseAll_append, releaseAll_unlessNull, releaseAll_unlessNull, destroy]

/-- Whatever the calls answer, what the pool has got or had before is what it
refers to then and what it has forgotten. -/
theorem initializeSharedMemory_opens {answers : PoolAnswers} {windows : Windows}
    (documented : answers.Documented windows) (mapped : MappedPool) :
    Exists fun fresh => Exists fun dropped =>
      windows.Opens (mapped.initializeSharedMemory answers windows).2.1 fresh ∧
        (mapped.holdings ++ fresh).Perm
          ((mapped.initializeSharedMemory answers windows).1.holdings ++ dropped) ∧
          (mapped.holdings = [] -> dropped = []) := by
  rcases documented with ⟨valid, freshSection, freshView⟩
  unfold initializeSharedMemory
  by_cases failed : answers.createFileMapping = 0
  · rw [if_pos (Or.inl failed)]
    refine ⟨[], unlessNull mapped.hMapFile (.sectionHandle mapped.hMapFile),
      ResourceTable.Opens.nothing, ?_,
      fun nothing => (List.append_eq_nil_iff.mp nothing).2⟩
    simp [holdings, failed, unlessNull]
  · rw [if_neg (not_or.mpr ⟨failed, valid⟩)]
    have opened := ResourceTable.Opens.nothing.acquire (freshSection failed) List.not_mem_nil
    by_cases unmapped : answers.mapViewOfFile = 0
    · rw [if_pos unmapped]
      refine ⟨[], mapped.holdings, opened.release, ?_, fun nothing => nothing⟩
      simp [holdings, SlabPool.initializeSharedMemory, unmapped, unlessNull]
    · rw [if_neg unmapped]
      have outside : OsResource.view answers.mapViewOfFile ∉
          [.sectionHandle answers.createFileMapping] := by
        intro member
        cases List.mem_singleton.mp member
      refine ⟨_, mapped.holdings, opened.acquire (freshView unmapped) outside, ?_,
        fun nothing => nothing⟩
      have kept : unlessNull answers.mapViewOfFile (.view answers.mapViewOfFile) ++
          unlessNull answers.createFileMapping (.sectionHandle answers.createFileMapping) =
            [.view answers.mapViewOfFile, .sectionHandle answers.createFileMapping] := by
        rw [unlessNull, if_neg unmapped, unlessNull, if_neg failed]
        rfl
      exact kept ▸ List.perm_append_comm

end MappedPool

/-! ## The ring -/

/-- The answers to the calls of `start_portal`, and the bytes of the section. -/
structure PortalAnswers where
  reserved : Nat
  subdivided : Bool
  createFileMapping : Nat
  viewA : Nat
  viewB : Nat
  contents : Nat -> Byte

/-- Reserved addresses are in nobody's use, a handle is new, and a view that
replaces a placeholder stands where the placeholder stood. -/
def PortalAnswers.Documented (answers : PortalAnswers) (size : SizeT) (windows : Windows) : Prop :=
  (answers.reserved ≠ 0 -> forall address,
      address ∈ [answers.reserved, answers.reserved + size.toNat] ->
        windows.isOpen (.placeholder address) = false ∧ windows.isOpen (.view address) = false) ∧
    (answers.createFileMapping ≠ 0 ->
      windows.isOpen (.sectionHandle answers.createFileMapping) = false) ∧
      (answers.viewA ≠ 0 -> answers.viewA = answers.reserved) ∧
        (answers.viewB ≠ 0 -> answers.viewB = answers.reserved + size.toNat)

instance (answers : PortalAnswers) (size : SizeT) (windows : Windows) :
    Decidable (answers.Documented size windows) :=
  inferInstanceAs (Decidable (_ ∧ _ ∧ _ ∧ _))

/-- A stash buffer with its handle and its views. -/
structure MappedRing where
  ring : MagicRingBuffer
  hMapFile : Nat
  viewA : Nat
  viewB : Nat

namespace MappedRing

/-- `start_portal`: nothing is constructed when it throws. -/
def startPortal (size : SizeT) (answers : PortalAnswers)
    (windows : Windows) : Option MappedRing × Windows :=
  let basePtr := answers.reserved
  let hMapFile := answers.createFileMapping
  let second := basePtr + size.toNat
  if basePtr = 0 then (none, windows)
  else
    let reserved := windows.acquire (.placeholder basePtr)
    if answers.subdivided = false then (none, reserved.release (.placeholder basePtr))
    else
      let divided := reserved.acquire (.placeholder second)
      if hMapFile = 0 then (none, divided)
      else
        let opened := divided.acquire (.sectionHandle hMapFile)
        if answers.viewA = 0 then (none, opened.release (.sectionHandle hMapFile))
        else
          let mirrored := (opened.release (.placeholder basePtr)).acquire (.view answers.viewA)
          if answers.viewB = 0 then
            (none, (mirrored.release (.view answers.viewA)).release (.sectionHandle hMapFile))
          else
            (some
                { ring :=
                    { basePtr := basePtr, size := size, head := 0, tail := 0,
                      mapped := answers.contents }
                  hMapFile := hMapFile
                  viewA := answers.viewA
                  viewB := answers.viewB },
              (mirrored.release (.placeholder second)).acquire (.view answers.viewB))

/-- The constructor. -/
def create (physicalSize : SizeT) (answers : PortalAnswers)
    (windows : Windows) : Option MappedRing × Windows :=
  if physicalSize = 0 ∨ physicalSize % (64 * 1024) ≠ 0 then (none, windows)
  else startPortal physicalSize answers windows

/-- The move constructor: the new object, and what is left of the other. -/
def move (other : MappedRing) : MappedRing × MappedRing :=
  (other,
    { ring := { other.ring with
      basePtr := 0, head := 0, tail := 0 }, hMapFile := 0, viewA := 0, viewB := 0 })

/-- The destructor, which is `free_portal`. -/
def freePortal (mapped : MappedRing) (windows : Windows) : Windows :=
  releaseUnlessNull mapped.hMapFile (.sectionHandle mapped.hMapFile)
    (releaseUnlessNull mapped.viewA (.view mapped.viewA)
      (releaseUnlessNull mapped.viewB (.view mapped.viewB) windows))

/-- What the ring refers to, in the order of the destructor. -/
def holdings (mapped : MappedRing) : List OsResource :=
  unlessNull mapped.viewB (.view mapped.viewB) ++ unlessNull mapped.viewA (.view mapped.viewA) ++
    unlessNull mapped.hMapFile (.sectionHandle mapped.hMapFile)

theorem freePortal_eq (mapped : MappedRing) (windows : Windows) :
    mapped.freePortal windows = windows.releaseAll mapped.holdings := by
  rw [holdings, releaseAll_append, releaseAll_append, releaseAll_unlessNull, releaseAll_unlessNull,
    releaseAll_unlessNull, freePortal]

/-- A constructed ring refers to what the calls have opened.  What a throwing
constructor leaves open are placeholders. -/
structure Constructs (windows : Windows) (result : Option MappedRing × Windows)
    (fresh : List OsResource) :
    Prop where
  opens : windows.Opens result.2 fresh
  held : forall mapped, result.1 = some mapped -> mapped.holdings = fresh
  lost : result.1 = none -> forall resource, resource ∈ fresh -> resource.IsPlaceholder

theorem Constructs.thrown {windows after : Windows} {fresh : List OsResource}
    (opens : windows.Opens after fresh)
    (lost : forall resource, resource ∈ fresh -> resource.IsPlaceholder) :
    Constructs windows (none, after) fresh := by
  refine ⟨opens, ?_, fun _ => lost⟩
  intro mapped absent
  cases absent

theorem startPortal_constructs {size : SizeT} {answers : PortalAnswers} {windows : Windows}
    (wide : size ≠ 0) (documented : answers.Documented size windows) :
    Exists fun fresh => Constructs windows (startPortal size answers windows) fresh := by
  rcases documented with ⟨region, freshSection, placedA, placedB⟩
  have positive : 0 < size.toNat :=
    Nat.pos_of_ne_zero (fun zero => wide (BitVec.eq_of_toNat_eq zero))
  have nothingLost : forall resource, resource ∈ ([] : List OsResource) ->
      resource.IsPlaceholder := by
    intro resource member
    cases member
  unfold startPortal
  by_cases unreserved : answers.reserved = 0
  · rw [if_pos unreserved]
    exact ⟨[], Constructs.thrown ResourceTable.Opens.nothing nothingLost⟩
  have regionA := region unreserved answers.reserved List.mem_cons_self
  have regionB :=
    region unreserved (answers.reserved + size.toNat) (List.mem_cons_of_mem _ List.mem_cons_self)
  have reserved := ResourceTable.Opens.nothing.acquire regionA.1 List.not_mem_nil
  rw [if_neg unreserved]
  by_cases undivided : answers.subdivided = false
  · rw [if_pos undivided]
    exact ⟨[], Constructs.thrown reserved.release nothingLost⟩
  have divided := reserved.acquire regionB.1 (by simp; omega)
  have bothPlaceholders : forall resource,
      resource ∈
        [OsResource.placeholder (answers.reserved + size.toNat), .placeholder answers.reserved] ->
        resource.IsPlaceholder := by
    intro resource member
    rcases List.mem_pair.mp member with rfl | rfl <;> trivial
  rw [if_neg undivided]
  by_cases noSection : answers.createFileMapping = 0
  · rw [if_pos noSection]
    exact ⟨_, Constructs.thrown divided bothPlaceholders⟩
  have opened := divided.acquire (freshSection noSection) (by simp)
  rw [if_neg noSection]
  by_cases noViewA : answers.viewA = 0
  · rw [if_pos noViewA]
    exact ⟨_, Constructs.thrown opened.release bothPlaceholders⟩
  have freshA : windows.isOpen (.view answers.viewA) = false := by
    rw [placedA noViewA]
    exact regionA.2
  -- the view takes the place of the first placeholder
  have mirrored := (opened.perm (List.reverse_perm _).symm).release.acquire freshA (by simp)
  rw [if_neg noViewA]
  by_cases noViewB : answers.viewB = 0
  · rw [if_pos noViewB]
    refine ⟨_, Constructs.thrown (mirrored.release.perm (List.Perm.swap _ _ _)).release ?_⟩
    intro resource member
    rw [List.mem_singleton.mp member]
    trivial
  have freshB : windows.isOpen (.view answers.viewB) = false := by
    rw [placedB noViewB]
    exact regionB.2
  have apart : answers.viewB ≠ answers.viewA := by
    rw [placedA noViewA, placedB noViewB]
    omega
  rw [if_neg noViewB]
  refine ⟨_, (mirrored.perm (List.Perm.swap _ _ _)).release.acquire freshB (by simp [apart]), ?_,
    ?_⟩
  · intro mapped constructed
    cases constructed
    simp [holdings, unlessNull, noSection, noViewA, noViewB]
  · intro absent
    cases absent

theorem create_constructs {size : SizeT} {answers : PortalAnswers} {windows : Windows}
    (documented : answers.Documented size windows) :
    Exists fun fresh => Constructs windows (create size answers windows) fresh := by
  unfold create
  split
  · refine ⟨[], Constructs.thrown ResourceTable.Opens.nothing ?_⟩
    intro resource member
    cases member
  · next accepted => exact startPortal_constructs (not_or.mp accepted).1 documented

/-- The answers are those of an API in which only these calls are made. -/
structure AnsweredBy (answers : PortalAnswers) (api : MemoryApi) (size : SizeT) : Prop where
  reserved : api.reserve (size * 2) = if answers.reserved = 0 then none else some answers.reserved
  subdivided : api.split answers.reserved size = answers.subdivided
  createFileMapping : api.createSection (size.setWidth 32) = decide (answers.createFileMapping ≠ 0)
  viewA : api.mapView (size.setWidth 32) answers.reserved size = decide (answers.viewA ≠ 0)
  viewB : api.mapView (size.setWidth 32) (answers.reserved + size.toNat) size =
    decide (answers.viewB ≠ 0)

/-- Apart from its handle and its views the object is the one that the parsers
work on. -/
theorem create_ring {size : SizeT} {answers : PortalAnswers} {api : MemoryApi}
    (answered : AnsweredBy answers api size) (windows : Windows) :
    (create size answers windows).1.map MappedRing.ring =
      MagicRingBuffer.create api answers.contents size := by
  unfold create MagicRingBuffer.create
  split
  · rfl
  · unfold startPortal MagicRingBuffer.startPortal
    rw [answered.reserved]
    by_cases unreserved : answers.reserved = 0
    · simp [unreserved]
    · simp only [if_neg unreserved, answered.subdivided, answered.createFileMapping, answered.viewA,
        answered.viewB]
      by_cases undivided : answers.subdivided = false <;> by_cases noSection :
        answers.createFileMapping = 0 <;>
        by_cases noViewA : answers.viewA = 0 <;> by_cases noViewB : answers.viewB = 0 <;>
          simp [undivided, noSection, noViewA, noViewB]

/-! ### The ring of a configured session -/

/-- Every call succeeds. -/
def willingAnswers (size : SizeT) : PortalAnswers :=
  { reserved := 0x10000
    subdivided := true
    createFileMapping := 4
    viewA := 0x10000
    viewB := 0x10000 + size.toNat
    contents := fun _ => 0 }

theorem answeredBy_willing {size : SizeT} {basePtr : Nat}
    (portal : MagicRingBuffer.startPortal MemoryApi.willing size = some basePtr) :
    AnsweredBy (willingAnswers size) MemoryApi.willing size := by
  have narrow := NetworkSession.narrow_of_portal portal
  have mapped : forall address,
      MemoryApi.willing.mapView (size.setWidth 32) address size = true := by
    intro address
    apply decide_eq_true
    rw [BitVec.toNat_setWidth, Nat.mod_eq_of_lt narrow]
  constructor
  · rfl
  · rfl
  · exact decide_eq_true (NetworkSession.size_of_startPortal portal)
  · exact mapped _
  · have placed : (willingAnswers size).viewB ≠ 0 := Nat.ne_of_gt (Nat.add_pos_left (by decide) _)
    rw [mapped, decide_eq_true placed]

/-- Whatever the calls answer, the constructor makes the ring that the session
works on, or neither of them comes into being.  They can come into being exactly
when the configured `log_size` is in its range modulo `2 ^ 44`. -/
theorem configured_ring_is_constructed (file : ConfigFile) (windows : Windows) :
    (forall answers api,
      AnsweredBy answers api (NetworkSession.ringSize (MainConfig.getUserCofig file).logSize) ->
        (create (NetworkSession.ringSize (MainConfig.getUserCofig file).logSize)
          answers windows).1.map ring =
          (NetworkSession.create api answers.contents (MainConfig.getUserCofig file).logSize).map
            NetworkSession.stashBuffer) ∧
    ((Exists fun answers => Exists fun api => Exists fun mapped =>
        AnsweredBy answers api (NetworkSession.ringSize (MainConfig.getUserCofig file).logSize) ∧
          (create (NetworkSession.ringSize (MainConfig.getUserCofig file).logSize)
            answers windows).1 = some mapped) ↔
      0 < (MainConfig.getUserCofig file).logSize.toNat % 2 ^ 44 ∧
        (MainConfig.getUserCofig file).logSize.toNat % 2 ^ 44 < 4096) := by
  generalize (MainConfig.getUserCofig file).logSize = maxSize
  have same : forall answers api, AnsweredBy answers api (NetworkSession.ringSize maxSize) ->
      (create (NetworkSession.ringSize maxSize) answers windows).1.map ring =
        (NetworkSession.create api answers.contents maxSize).map NetworkSession.stashBuffer := by
    intro answers api answered
    rw [create_ring answered, NetworkSession.create, Option.map_map]
    exact Option.map_id'.symm
  rw [← NetworkSession.sizingSound_iff]
  refine ⟨same, ?_, ?_⟩
  · rintro ⟨answers, api, mapped, answered, constructed⟩
    have made := same answers api answered
    rw [constructed] at made
    rcases Option.map_eq_some_iff.mp made.symm with ⟨session, created, _⟩
    exact NetworkSession.sizingSound_of_created created
  · intro sound
    have portal := sound.startPortal
    have answered := answeredBy_willing portal
    have made := create_ring answered windows
    rcases MagicRingBuffer.create_of_accepted (fun _ => 0) sound.accepted portal with
      ⟨stash, created⟩
    rw [show (willingAnswers (NetworkSession.ringSize maxSize)).contents = fun _ => 0 from rfl,
      created] at made
    rcases Option.map_eq_some_iff.mp made with ⟨mapped, constructed, _⟩
    exact ⟨_, _, mapped, answered, constructed⟩

end MappedRing

/-! ## The process -/

inductive MappedObject
  | pool (mapped : MappedPool)
  | ring (mapped : MappedRing)

namespace MappedObject

def holdings : MappedObject -> List OsResource
  | .pool mapped => mapped.holdings
  | .ring mapped => mapped.holdings

def destroy : MappedObject -> Windows -> Windows
  | .pool mapped, windows => mapped.destroy windows
  | .ring mapped, windows => mapped.freePortal windows

/-- The new object, and what is left of the other. -/
def move : MappedObject -> MappedObject × MappedObject
  | .pool mapped => (.pool mapped.move.1, .pool mapped.move.2)
  | .ring mapped => (.ring mapped.move.1, .ring mapped.move.2)

theorem destroy_eq (mapped : MappedObject) (windows : Windows) :
    mapped.destroy windows = windows.releaseAll mapped.holdings := by
  cases mapped with
  | pool mapped => exact mapped.destroy_eq windows
  | ring mapped => exact mapped.freePortal_eq windows

theorem holdings_move (mapped : MappedObject) :
    mapped.move.1.holdings = mapped.holdings ∧ mapped.move.2.holdings = [] := by
  cases mapped <;> exact ⟨rfl, rfl⟩

end MappedObject

structure Process where
  windows : Windows
  objects : Nat -> Option MappedObject

inductive HandleAction
  | newPool (object : Nat) (max size : SizeT)
  | initializePool (object : Nat) (answers : PoolAnswers)
  | newRing (object : Nat) (physicalSize : SizeT) (answers : PortalAnswers)
  | move (source target : Nat)
  | delete (object : Nat)

namespace Process

/-- What an object refers to. -/
def claims (process : Process) (object : Nat) : List OsResource :=
  (process.objects object).elim [] MappedObject.holdings

def place (process : Process) (windows : Windows) (object : Nat)
    (mapped : Option MappedObject) : Process :=
  { windows := windows, objects := Function.update process.objects object mapped }

/-- Objects are constructed and moved to under names that are not in use. -/
def step (process : Process) : HandleAction -> Option Process
  | .newPool object max size =>
      match process.objects object with
      | none =>
          some (process.place process.windows object (some (.pool (MappedPool.create max size))))
      | some _ => none
  | .initializePool object answers =>
      match process.objects object with
      | some (.pool mapped) =>
          let initialized := mapped.initializeSharedMemory answers process.windows
          some (process.place initialized.2.1 object (some (.pool initialized.1)))
      | _ => none
  | .newRing object physicalSize answers =>
      match process.objects object with
      | none =>
          let constructed := MappedRing.create physicalSize answers process.windows
          some (process.place constructed.2 object (constructed.1.map .ring))
      | some _ => none
  | .move source target =>
      match process.objects source, process.objects target with
      | some mapped, none =>
          some ((process.place process.windows target (some mapped.move.1)).place
            process.windows source
            (some mapped.move.2))
      | _, _ => none
  | .delete object =>
      match process.objects object with
      | some mapped => some (process.place (mapped.destroy process.windows) object none)
      | none => none

def empty : Process :=
  { windows := { isOpen := fun _ => false, misuses := 0 }, objects := fun _ => none }

def machine : Machine Process HandleAction where
  initial process := process = empty
  step := step

/-- The system answers as documented. -/
def Documented (process : Process) : HandleAction -> Prop
  | .initializePool _ answers => answers.Documented process.windows
  | .newRing _ physicalSize answers => answers.Documented physicalSize process.windows
  | _ => True

/-- Moreover a pool is initialised only while it refers to nothing. -/
def InitializedOnce (process : Process) : HandleAction -> Prop
  | .initializePool object answers =>
      answers.Documented process.windows ∧ process.claims object = []
  | action => Documented process action

instance (process : Process) (action : HandleAction) : Decidable (Documented process action) :=
  match action with
  | .initializePool _ answers => inferInstanceAs (Decidable (answers.Documented _))
  | .newRing _ physicalSize answers =>
      inferInstanceAs (Decidable (answers.Documented physicalSize _))
  | .newPool _ _ _ => inferInstanceAs (Decidable True)
  | .move _ _ => inferInstanceAs (Decidable True)
  | .delete _ => inferInstanceAs (Decidable True)

instance (process : Process) (action : HandleAction) : Decidable (InitializedOnce process action) :=
  match action with
  | .initializePool _ answers => inferInstanceAs (Decidable (answers.Documented _ ∧ _ = []))
  | .newRing _ physicalSize answers =>
      inferInstanceAs (Decidable (answers.Documented physicalSize _))
  | .newPool _ _ _ => inferInstanceAs (Decidable True)
  | .move _ _ => inferInstanceAs (Decidable True)
  | .delete _ => inferInstanceAs (Decidable True)

theorem InitializedOnce.documented {process : Process} {action : HandleAction}
    (once : InitializedOnce process action) : Documented process action := by
  cases action with
  | initializePool object answers => exact once.1
  | newPool object max size => exact once
  | newRing object physicalSize answers => exact once
  | move source target => exact once
  | delete object => exact once

theorem claims_place (process : Process) (windows : Windows) (object : Nat)
    (mapped : Option MappedObject) :
    (process.place windows object mapped).claims =
      Function.update process.claims object (mapped.elim [] MappedObject.holdings) :=
  Function.comp_update (fun mapped : Option MappedObject => mapped.elim [] MappedObject.holdings)
    process.objects
    object mapped

/-- Every open resource has one owner, or is abandoned. -/
abbrev Accounted (process : Process) (abandoned : List OsResource) : Prop :=
  Held process.windows process.claims abandoned

theorem accounted_empty : empty.Accounted [] := by
  constructor
  · intro object resource holds
    cases holds
  · intro object
    exact List.nodup_nil
  · intro object other resource holds
    cases holds
  · intro resource member
    cases member
  · intro resource opened
    cases opened
  · rfl

theorem claims_of_free {process : Process} {object : Nat} (free : process.objects object = none) :
    process.claims object = [] := by
  rw [claims, free]
  rfl

theorem claims_of_some {process : Process} {object : Nat} {mapped : MappedObject}
    (used : process.objects object = some mapped) : process.claims object = mapped.holdings := by
  rw [claims, used]
  rfl

variable {process after : Process} {abandoned : List OsResource}

/-- An object is put in the place of another, and refers to some of what that
has referred to and of what has been opened. -/
theorem accounted_place (accounted : process.Accounted abandoned) {windows : Windows} {object : Nat}
    {mapped : Option MappedObject} {fresh dropped : List OsResource}
    (opens : process.windows.Opens windows fresh)
    (balance : (process.claims object ++ fresh).Perm
      (mapped.elim [] MappedObject.holdings ++ dropped)) :
    (process.place windows object mapped).Accounted (abandoned ++ dropped) := by
  unfold Accounted
  rw [claims_place]
  exact accounted.exchange opens balance

theorem accounted_newPool (accounted : process.Accounted abandoned) {object : Nat}
    {max size : SizeT}
    (moves : process.step (.newPool object max size) = some after) : after.Accounted abandoned := by
  rw [step] at moves
  split at moves
  · next free =>
      cases moves
      have balance : (process.claims object ++ []).Perm
          ((some (MappedObject.pool (.create max size))).elim [] MappedObject.holdings ++ []) := by
        rw [claims_of_free free]
        exact List.Perm.refl []
      have placed := accounted_place accounted ResourceTable.Opens.nothing balance
      rwa [List.append_nil] at placed
  · cases moves

/-- A pool that is initialised a second time forgets what it refers to. -/
theorem accounted_initializePool (accounted : process.Accounted abandoned) {object : Nat}
    {answers : PoolAnswers} (documented : answers.Documented process.windows)
    (moves : process.step (.initializePool object answers) = some after) :
    Exists fun dropped => after.Accounted (abandoned ++ dropped) ∧
      (process.claims object = [] -> dropped = []) := by
  rw [step] at moves
  split at moves
  · next mapped used =>
      cases moves
      rcases mapped.initializeSharedMemory_opens documented with
        ⟨fresh, dropped, opens, balance, nothing⟩
      refine ⟨dropped, accounted_place accounted opens ?_, ?_⟩
      · rw [claims_of_some used]
        exact balance
      · rw [claims_of_some used]
        exact nothing
  · cases moves

/-- A constructor that throws abandons nothing but placeholders. -/
theorem accounted_newRing (accounted : process.Accounted abandoned) {object : Nat}
    {physicalSize : SizeT}
    {answers : PortalAnswers} (documented : answers.Documented physicalSize process.windows)
    (moves : process.step (.newRing object physicalSize answers) = some after) :
    Exists fun dropped => after.Accounted (abandoned ++ dropped) ∧
      forall resource, resource ∈ dropped -> resource.IsPlaceholder := by
  rw [step] at moves
  split at moves
  · next free =>
      cases moves
      rcases MappedRing.create_constructs documented with ⟨fresh, constructs⟩
      cases result : (MappedRing.create physicalSize answers process.windows).1 with
      | none =>
          refine ⟨fresh, accounted_place accounted constructs.opens ?_, constructs.lost result⟩
          rw [claims_of_free free]
          exact List.Perm.refl fresh
      | some mapped =>
          refine ⟨[], accounted_place accounted constructs.opens ?_, ?_⟩
          · rw [claims_of_free free, ← constructs.held mapped result, List.append_nil]
            exact List.Perm.refl mapped.holdings
          · intro resource member
            cases member
  · cases moves

theorem accounted_move (accounted : process.Accounted abandoned) {source target : Nat}
    (moves : process.step (.move source target) = some after) : after.Accounted abandoned := by
  rw [step] at moves
  split at moves
  · next mapped used free =>
      cases moves
      have differs : source ≠ target := by
        rintro rfl
        rw [used] at free
        cases free
      have given := accounted.give differs (claims_of_free free)
      unfold Accounted
      rw [claims_place, claims_place]
      rw [claims_of_some used, ← mapped.holdings_move.1] at given
      have rest : (some mapped.move.2).elim [] MappedObject.holdings = [] := mapped.holdings_move.2
      rw [rest]
      exact given
  · cases moves

theorem accounted_delete (accounted : process.Accounted abandoned) {object : Nat}
    (moves : process.step (.delete object) = some after) : after.Accounted abandoned := by
  rw [step] at moves
  split at moves
  · next mapped used =>
      cases moves
      have surrendered := accounted.surrender object
      unfold Accounted
      rw [claims_place, mapped.destroy_eq, ← claims_of_some used]
      exact surrendered
  · cases moves

/-- Every step leaves every resource accounted for, and abandons nothing but
placeholders unless it initialises a pool that refers to something. -/
theorem accounted_step {action : HandleAction} (accounted : process.Accounted abandoned)
    (documented : Documented process action) (moves : process.step action = some after) :
    Exists fun dropped => after.Accounted (abandoned ++ dropped) ∧
      (InitializedOnce process action -> forall resource, resource ∈ dropped ->
        resource.IsPlaceholder) := by
  have nothingDropped : after.Accounted abandoned ->
      Exists fun dropped => after.Accounted (abandoned ++ dropped) ∧
        (InitializedOnce process action -> forall resource, resource ∈ dropped ->
          resource.IsPlaceholder) := by
    intro kept
    refine ⟨[], ?_, ?_⟩
    · rw [List.append_nil]
      exact kept
    · intro _ resource member
      cases member
  cases action with
  | newPool object max size => exact nothingDropped (accounted_newPool accounted moves)
  | initializePool object answers =>
      rcases accounted_initializePool accounted documented moves with ⟨dropped, kept, nothing⟩
      refine ⟨dropped, kept, ?_⟩
      intro once resource member
      rw [nothing once.2] at member
      cases member
  | newRing object physicalSize answers =>
      rcases accounted_newRing accounted documented moves with ⟨dropped, kept, placeholders⟩
      exact ⟨dropped, kept, fun _ => placeholders⟩
  | move source target => exact nothingDropped (accounted_move accounted moves)
  | delete object => exact nothingDropped (accounted_delete accounted moves)

/-! ## Runs -/

theorem accounted_of_reachable (reached : machine.ReachableUnder Documented process) :
    Exists fun abandoned => process.Accounted abandoned := by
  refine reached.invariant
    (I := fun process => Exists fun abandoned => process.Accounted abandoned) ?_ ?_
  · rintro start rfl
    exact ⟨[], accounted_empty⟩
  · intro before action after _ ⟨abandoned, accounted⟩ documented moves
    rcases accounted_step accounted documented moves with ⟨dropped, kept, _⟩
    exact ⟨abandoned ++ dropped, kept⟩

theorem placeholders_of_reachable (reached : machine.ReachableUnder InitializedOnce process) :
    Exists fun abandoned => process.Accounted abandoned ∧
      forall resource, resource ∈ abandoned -> resource.IsPlaceholder := by
  refine reached.invariant
    (I := fun process => Exists fun abandoned => process.Accounted abandoned ∧
    forall resource, resource ∈ abandoned -> resource.IsPlaceholder) ?_ ?_
  · rintro start rfl
    refine ⟨[], accounted_empty, ?_⟩
    intro resource member
    cases member
  · intro before action after _ ⟨abandoned, accounted, earlier⟩ once moves
    rcases accounted_step accounted once.documented moves with ⟨dropped, kept, now⟩
    refine ⟨abandoned ++ dropped, kept, ?_⟩
    intro resource member
    rcases List.mem_append.mp member with before | new
    · exact earlier resource before
    · exact now once resource new

/-- A pool is initialised and moved, and a ring is constructed where another one
has failed to map its second view. -/
def crowdedActions : List HandleAction :=
  let answers : PortalAnswers :=
    { reserved := 0x100000
      subdivided := true
      createFileMapping := 8
      viewA := 0x100000
      viewB := 0
      contents := fun _ => 0 }
  [.newPool 0 8 1, .initializePool 0 { createFileMapping := 4, mapViewOfFile := 0x10000 },
    .move 0 1, .delete 0, .newRing 2 65536 answers,
    .newRing 2 65536 { answers with reserved := 0x200000, viewA := 0x200000, viewB := 0x210000 },
    .move 2 3]

theorem crowded_executes :
    (machine.executeUnder InitializedOnce empty crowdedActions).isSome = true := by
  decide

def crowded : Process :=
  (machine.executeUnder InitializedOnce empty crowdedActions).get crowded_executes

theorem crowded_reachable : machine.ReachableUnder InitializedOnce crowded :=
  Machine.reachableUnder_of_execute rfl crowded_executes

/-- Nothing has been given back that was not open, and what an object refers to
is open and its own. -/
structure Disciplined (process : Process) : Prop where
  noMisuse : process.windows.misuses = 0
  backed : forall object resource, resource ∈ process.claims object ->
    process.windows.isOpen resource = true
  apart : forall object other resource, resource ∈ process.claims object ->
    resource ∈ process.claims other ->
    object = other
  single : forall object, (process.claims object).Nodup

/-- No handle is closed twice and no view is unmapped twice, and no object is
left with a handle or a view that is gone or another object's, in whatever order
objects are constructed, initialised, moved and destroyed and whichever calls
fail. -/
theorem nothing_is_released_twice (reached : machine.ReachableUnder Documented process) :
    process.Disciplined := by
  rcases accounted_of_reachable reached with ⟨abandoned, accounted⟩
  exact ⟨accounted.clean, accounted.backed, accounted.apart, accounted.single⟩

theorem nothing_is_released_twice_crowded : crowded.Disciplined :=
  nothing_is_released_twice (crowded_reachable.reguard fun _ _ _ once => once.documented)

/-- Sections and views are open as long as one object refers to them, and what
is left behind the last object are placeholders. -/
structure Tidy (process : Process) : Prop where
  owned : forall resource, ¬ resource.IsPlaceholder ->
    (process.windows.isOpen resource = true ↔
      ExistsUnique fun object => resource ∈ process.claims object)
  left : (forall object, process.objects object = none) ->
    forall resource, process.windows.isOpen resource = true -> resource.IsPlaceholder

/-- No handle and no view is lost, also by the constructors that fail, when
every pool is initialised once. -/
theorem nothing_is_left_open
    (reached : machine.ReachableUnder InitializedOnce process) : process.Tidy := by
  rcases placeholders_of_reachable reached with ⟨abandoned, accounted, placeholders⟩
  constructor
  · intro resource other
    constructor
    · intro opened
      rcases accounted.covered resource opened with lost | ⟨object, holds⟩
      · exact absurd (placeholders resource lost) other
      · exact ⟨object, holds, fun another holds' =>
          accounted.apart another object resource holds' holds⟩
    · rintro ⟨object, holds, _⟩
      exact accounted.backed object resource holds
  · intro gone resource opened
    rcases accounted.covered resource opened with lost | ⟨object, holds⟩
    · exact placeholders resource lost
    · rw [claims_of_free (gone object)] at holds
      cases holds

theorem nothing_is_left_open_crowded : crowded.Tidy :=
  nothing_is_left_open crowded_reachable

/-- The failed ring has left a placeholder, and the moved one has its views. -/
example : crowded.windows.isOpen (.placeholder 0x110000) = true ∧
    crowded.claims 3 = [.view 0x210000, .view 0x200000, .sectionHandle 8] ∧
      crowded.claims 2 = [] := by
  decide

end Process

end Network
end VortexEngine
