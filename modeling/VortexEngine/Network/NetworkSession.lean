import VortexEngine.Foundations.PowerOfTwo
import VortexEngine.Network.MagicRingBuffer

open VortexEngine.Foundations

namespace VortexEngine
namespace Network

/-!
# A network session

A session reads from its socket into the stash ring and takes complete records
out of it.  `read_header` starts one read, and the completion handler commits
the bytes, runs `process_stash` and calls `read_header` again.  All of this
happens on one thread, so a session is a machine whose points are the places
where the handler's parts begin, and whose only outside influence is the
completion of the outstanding read.

Disconnecting does not leave the framing loop or stop the reads.  It sets a
flag, once, and posts the closing of the socket.
-/

/-- The reasons that `disconnect` is called with. -/
inductive DisconnectReason
  | packageExceedsLimit
  | packageExceedsEstablished
  | textWithoutDelimiter
  | malformedTime
  | timeFormat
  | invalidTime
  | malformedLevel
  | levelFormat
  | invalidLevel
  | malformedId
  | idFormat
  | invalidId
  | messageTooBig
  deriving DecidableEq, Repr

def DisconnectReason.text : DisconnectReason -> String
  | packageExceedsLimit => "The package exceeds the size limit."
  | packageExceedsEstablished => "The package exceeds the established size."
  | textWithoutDelimiter => "Error: Text log exceeds max_log_size without delimiter"
  | malformedTime => "Malformed or Invalid Time"
  | timeFormat => "Invalid Time Format"
  | invalidTime => "Invalid Time"
  | malformedLevel => "Malformed or Invalid Level"
  | levelFormat => "Invalid Level Format"
  | invalidLevel => "Invalid Level"
  | malformedId => "Malformed or Invalid ID"
  | idFormat => "Invalid ID Format"
  | invalidId => "Invalid ID"
  | messageTooBig => "Message too big for slab"

/-- A line that a session writes to the error stream. -/
inductive Diagnostic
  | disconnecting (reason : DisconnectReason)
  | asioError
  deriving DecidableEq, Repr

structure NetworkSession where
  stashBuffer : MagicRingBuffer
  maxLogSize : SizeT
  isClosing : Bool
  diagnostics : List Diagnostic
  /-- the closing handlers that have been posted to the executor -/
  postedCloses : Nat

/-- What `process_stash` hands to the parser, and what it consumes afterwards. -/
structure StashRecord where
  logData : StringView
  framed : SizeT
  deriving DecidableEq, Repr

/-- The outcome of one evaluation of the loop in `process_stash`, up to the
parser call. -/
inductive StashIteration
  /-- the loop condition fails, or a `break` -/
  | leave
  | oversized (reason : DisconnectReason)
  | handOver (record : StashRecord)
  deriving DecidableEq, Repr

namespace NetworkSession

/-- The constructor.  It is `noexcept`, so there is no session when the ring
cannot be set up. -/
def create (api : MemoryApi) (mapped : Nat -> Byte) (maxSize : SizeT) : Option NetworkSession :=
  let ringSize := bitFloor (maxSize * 1024 * 1024)
  (MagicRingBuffer.create api mapped ringSize).map fun stash =>
    { stashBuffer := stash
      maxLogSize := ringSize - 32
      isClosing := false
      diagnostics := []
      postedCloses := 0 }

/-- The part that `disconnect` and `handle_error` share: the first call marks
the session, reports, and posts the closing of the socket. -/
def closeWith (session : NetworkSession) (report : Diagnostic) : NetworkSession :=
  if session.isClosing then session
  else
    { session with
      isClosing := true
      diagnostics := session.diagnostics ++ [report]
      postedCloses := session.postedCloses + 1 }

def disconnect (session : NetworkSession) (reason : DisconnectReason) : NetworkSession :=
  session.closeWith (.disconnecting reason)

def handleError (session : NetworkSession) : NetworkSession :=
  session.closeWith .asioError

@[simp] theorem closeWith_stashBuffer (session : NetworkSession) (report : Diagnostic) :
    (session.closeWith report).stashBuffer = session.stashBuffer := by
  unfold closeWith
  split <;> rfl

@[simp] theorem closeWith_maxLogSize (session : NetworkSession) (report : Diagnostic) :
    (session.closeWith report).maxLogSize = session.maxLogSize := by
  unfold closeWith
  split <;> rfl

@[simp] theorem closeWith_isClosing (session : NetworkSession) (report : Diagnostic) :
    (session.closeWith report).isClosing = true := by
  unfold closeWith
  split
  · assumption
  · rfl

@[simp] theorem disconnect_maxLogSize (session : NetworkSession) (reason : DisconnectReason) :
    (session.disconnect reason).maxLogSize = session.maxLogSize :=
  closeWith_maxLogSize session _

@[simp] theorem disconnect_isClosing (session : NetworkSession) (reason : DisconnectReason) :
    (session.disconnect reason).isClosing = true :=
  closeWith_isClosing session _

def magic : UInt32T := 0xDEADBEEF

/-- The magic word as a little-endian load sees it. -/
def networkMagic : UInt32T := byteswap magic

/-- `ntohl` on a little-endian host. -/
def ntohl (word : UInt32T) : UInt32T := byteswap word

/-- One evaluation of the loop in `process_stash`.  The sum `8 + log_len` is
computed in 32 bits. -/
def stashIteration (session : NetworkSession) : StashIteration :=
  let stash := session.stashBuffer
  if stash.getBytesAvailable < 4 then .leave
  else
    let signature := stash.peek 0
    if signature = networkMagic then
      if stash.getBytesAvailable < 8 then .leave
      else
        let logLen := ntohl (stash.peek 4)
        if logLen = 0 ∨ session.maxLogSize < logLen.setWidth 64 then
          .oversized .packageExceedsEstablished
        else
          let framed : SizeT := (8 + logLen).setWidth 64
          if stash.getBytesAvailable < framed then .leave
          else
            let fullView := stash.getView framed
            .handOver
              { logData :=
                  { data := fullView.data + 8, bytes := stash.bytesAt (stash.readOffset +
                    8) logLen.toNat }
                framed := framed }
    else
      let fullView := stash.getView stash.getBytesAvailable
      match fullView.bytes.findIdx? (· == 0x0A) with
      | none =>
          if session.maxLogSize < stash.getBytesAvailable then .oversized .textWithoutDelimiter
          else .leave
      | some len =>
          .handOver
            { logData := { data := fullView.data, bytes := fullView.bytes.take len }
              framed := BitVec.ofNat 64 len + 1 }

/-- With room for a header the sum does not wrap for an accepted length. -/
theorem framed_toNat {limit : SizeT} {logLen : UInt32T} (room : 8 + limit.toNat < 2 ^ 32)
    (accepted : ¬ (logLen = 0 ∨ limit < logLen.setWidth 64)) :
    logLen.toNat ≤ limit.toNat ∧ (8 + logLen).toNat = 8 + logLen.toNat := by
  have bound := logLen.isLt
  have short : logLen.toNat ≤ limit.toNat := by
    have below : ¬ limit < logLen.setWidth 64 := fun above => accepted (Or.inr above)
    rw [BitVec.lt_def, BitVec.toNat_setWidth, Nat.mod_eq_of_lt (by omega)] at below
    exact Nat.le_of_not_lt below
  refine ⟨short, ?_⟩
  rw [BitVec.toNat_add, show (8 : UInt32T).toNat = 8 from rfl]
  exact Nat.mod_eq_of_lt (by omega)

end NetworkSession

/-! ## The handler, part by part -/

/-- Where `process_stash` returns to. -/
inductive ProcessCaller
  /-- `read_header`, which found less than 1024 bytes of space -/
  | readHeader
  /-- the completion handler -/
  | completion
  deriving DecidableEq, Repr

inductive SessionPoint
  /-- `read_header` is about to load the write space -/
  | readingHeader
  | processing (caller : ProcessCaller)
  /-- the parser has been called with the record, and `consume` comes after -/
  | parsing (caller : ProcessCaller) (record : StashRecord)
  /-- the second load of the write space in `read_header` -/
  | rechecking
  /-- `async_read_some` is outstanding, with a buffer of that many bytes -/
  | awaiting (space : SizeT)
  /-- no read will be started any more -/
  | stopped
  deriving DecidableEq, Repr

def ProcessCaller.resume : ProcessCaller -> SessionPoint
  | readHeader => .rechecking
  | completion => .readingHeader

/-- `process_stash` is not running. -/
def SessionPoint.Settled : SessionPoint -> Prop
  | processing _ => False
  | parsing _ _ => False
  | _ => True

inductive SessionAction
  /-- the next part of the handler; a parser that is running returns and has
  disconnected for the given reason, if any -/
  | proceed (verdict : Option DisconnectReason)
  /-- the outstanding read completes with some bytes -/
  | complete (bytes : List Byte)
  /-- the outstanding read completes with an error -/
  | fail

/-- A session with its point, all bytes received, all records handed to the
parser, and the disconnects that the framing code has asked for. -/
structure SessionTrace where
  session : NetworkSession
  point : SessionPoint
  received : List Byte
  handed : List StashRecord
  sizeDisconnects : List DisconnectReason

namespace SessionTrace

def start (session : NetworkSession) : SessionTrace :=
  { session := session, point := .readingHeader, received := [], handed := [],
    sizeDisconnects := [] }

/-- The framing code asks for a disconnect. -/
def sizeDisconnect (trace : SessionTrace) (reason : DisconnectReason)
    (next : SessionPoint) : SessionTrace :=
  { trace with
    session := trace.session.disconnect reason
    sizeDisconnects := trace.sizeDisconnects ++ [reason]
    point := next }

/-- The parser returns, having asked for a disconnect or not, and the record is
consumed. -/
def consumeRecord (trace : SessionTrace) (verdict : Option DisconnectReason)
    (caller : ProcessCaller) (record : StashRecord) : SessionTrace :=
  let session := verdict.elim trace.session trace.session.disconnect
  { trace with
    session := { session with stashBuffer := session.stashBuffer.consume record.framed }
    point := .processing caller }

/-- The bytes of a completed read are committed. -/
def receive (trace : SessionTrace) (bytes : List Byte) : SessionTrace :=
  { trace with
    session := { trace.session with stashBuffer := trace.session.stashBuffer.receive bytes }
    received := trace.received ++ bytes
    point := .processing .completion }

/-- The next part of the handler. -/
def proceed (trace : SessionTrace) (verdict : Option DisconnectReason) : Option SessionTrace :=
  let space := trace.session.stashBuffer.getWriteSpace
  match trace.point with
  | .readingHeader =>
      if space < 1024 then some { trace with point := .processing .readHeader }
      else some { trace with point := .awaiting space }
  | .rechecking =>
      if space < 1024 then some (trace.sizeDisconnect .packageExceedsLimit .stopped)
      else some { trace with point := .awaiting space }
  | .processing caller =>
      match trace.session.stashIteration with
      | .leave => some { trace with point := caller.resume }
      | .oversized reason => some (trace.sizeDisconnect reason caller.resume)
      | .handOver record =>
          some { trace with point := .parsing caller record, handed := trace.handed ++ [record] }
  | .parsing caller record => some (trace.consumeRecord verdict caller record)
  | .awaiting _ => none
  | .stopped => none

def step (trace : SessionTrace) : SessionAction -> Option SessionTrace
  | .proceed verdict => trace.proceed verdict
  | .complete bytes =>
      match trace.point with
      | .awaiting space =>
          if bytes ≠ [] ∧ bytes.length ≤ space.toNat then some (trace.receive bytes) else none
      | _ => none
  | .fail =>
      match trace.point with
      | .awaiting _ => some { trace with session := trace.session.handleError, point := .stopped }
      | _ => none

/-- A session just after its construction with some `log_size`. -/
def Created (session : NetworkSession) : Prop :=
  Exists fun api => Exists fun mapped => Exists fun maxSize =>
    NetworkSession.create api mapped maxSize = some session

def machine : Machine SessionTrace SessionAction where
  initial := fun trace => Exists fun session => Created session ∧ trace = start session
  step := step

/-! ## Moves -/

/-- What one step of a session can do. -/
inductive Move (before : SessionTrace) : SessionAction -> SessionTrace -> Prop
  | retry {verdict} (reads : before.point = .readingHeader)
      (narrow : before.session.stashBuffer.getWriteSpace < 1024) :
      Move before (.proceed verdict) { before with point := .processing .readHeader }
  | await {verdict} (reads : before.point = .readingHeader ∨ before.point = .rechecking)
      (wide : ¬ before.session.stashBuffer.getWriteSpace < 1024) :
      Move before (.proceed verdict)
        { before with point := .awaiting before.session.stashBuffer.getWriteSpace }
  | giveUp {verdict} (rechecks : before.point = .rechecking)
      (narrow : before.session.stashBuffer.getWriteSpace < 1024) :
      Move before (.proceed verdict) (before.sizeDisconnect .packageExceedsLimit .stopped)
  | leave {verdict caller} (processes : before.point = .processing caller)
      (iteration : before.session.stashIteration = .leave) :
      Move before (.proceed verdict) { before with point := caller.resume }
  | oversize {verdict caller reason} (processes : before.point = .processing caller)
      (iteration : before.session.stashIteration = .oversized reason) :
      Move before (.proceed verdict) (before.sizeDisconnect reason caller.resume)
  | handOver {verdict caller record} (processes : before.point = .processing caller)
      (iteration : before.session.stashIteration = .handOver record) :
      Move before (.proceed verdict)
        { before with point := .parsing caller record, handed := before.handed ++ [record] }
  | consume {verdict caller record} (parses : before.point = .parsing caller record) :
      Move before (.proceed verdict) (before.consumeRecord verdict caller record)
  | receive {bytes space} (awaits : before.point = .awaiting space) (nonempty : bytes ≠ [])
      (room : bytes.length ≤ space.toNat) : Move before (.complete bytes) (before.receive bytes)
  | fail {space} (awaits : before.point = .awaiting space) :
      Move before .fail { before with session := before.session.handleError, point := .stopped }

variable {before after : SessionTrace}

theorem proceed_move {verdict : Option DisconnectReason}
    (moves : before.proceed verdict = some after) :
    Move before (.proceed verdict) after := by
  rw [proceed] at moves
  cases point : before.point with
  | readingHeader =>
      rw [point] at moves
      simp only at moves
      split at moves <;> cases moves
      · exact .retry point (by assumption)
      · exact .await (Or.inl point) (by assumption)
  | rechecking =>
      rw [point] at moves
      simp only at moves
      split at moves <;> cases moves
      · exact .giveUp point (by assumption)
      · exact .await (Or.inr point) (by assumption)
  | processing caller =>
      rw [point] at moves
      simp only at moves
      cases iteration : before.session.stashIteration <;> rw [iteration] at moves <;> cases moves
      · exact .leave point iteration
      · exact .oversize point iteration
      · exact .handOver point iteration
  | parsing caller record =>
      rw [point] at moves
      cases moves
      exact .consume point
  | awaiting space =>
      rw [point] at moves
      cases moves
  | stopped =>
      rw [point] at moves
      cases moves

theorem step_move {action : SessionAction} (moves : before.step action = some after) :
    Move before action after := by
  cases action with
  | proceed verdict => exact proceed_move moves
  | complete bytes =>
      cases point : before.point <;> simp only [step, point] at moves <;> try cases moves
      split at moves
      · rename_i admitted
        cases moves
        exact .receive point admitted.1 admitted.2
      · cases moves
  | fail =>
      cases point : before.point <;> simp only [step, point] at moves <;> cases moves
      exact .fail point

/-- The moves are exactly the steps. -/
theorem Move.step {action : SessionAction} (move : Move before action after) :
    before.step action = some after := by
  cases move with
  | retry reads narrow => simp only [SessionTrace.step, proceed, reads, if_pos narrow]
  | await reads wide =>
      rcases reads with reads | reads <;> simp only [SessionTrace.step, proceed, reads, if_neg wide]
  | giveUp rechecks narrow => simp only [SessionTrace.step, proceed, rechecks, if_pos narrow]
  | leave processes iteration => simp only [SessionTrace.step, proceed, processes, iteration]
  | oversize processes iteration => simp only [SessionTrace.step, proceed, processes, iteration]
  | handOver processes iteration => simp only [SessionTrace.step, proceed, processes, iteration]
  | consume parses => simp only [SessionTrace.step, proceed, parses]
  | receive awaits nonempty room =>
      simp only [SessionTrace.step, awaits]
      rw [if_pos ⟨nonempty, room⟩]
  | fail awaits => simp only [SessionTrace.step, awaits]

/-- The handler of a session that neither waits for a read nor has stopped goes on. -/
theorem proceed_isSome {trace : SessionTrace} (verdict : Option DisconnectReason)
    (waits : forall space, trace.point ≠ .awaiting space) (stops : trace.point ≠ .stopped) :
    Exists fun after => trace.step (.proceed verdict) = some after := by
  rw [step, proceed]
  cases point : trace.point with
  | readingHeader =>
      simp only
      split <;> exact ⟨_, rfl⟩
  | processing caller =>
      simp only
      split <;> exact ⟨_, rfl⟩
  | parsing caller record => exact ⟨_, rfl⟩
  | rechecking =>
      simp only
      split <;> exact ⟨_, rfl⟩
  | awaiting space => exact absurd point (waits space)
  | stopped => exact absurd point stops

end SessionTrace

/-! ## The sizes -/

namespace NetworkSession

/-- A ring of at least 64 KiB and at most 2 GiB, and the limit derived from it. -/
structure Sized (exponent : Nat) (session : NetworkSession) : Prop where
  power : session.stashBuffer.size.toNat = 2 ^ exponent
  least : 16 ≤ exponent
  most : exponent ≤ 31
  limit : session.maxLogSize.toNat = 2 ^ exponent - 32

/-- The section must be created, so the ring's size survives the cast to
`DWORD`. -/
theorem size_of_startPortal {api : MemoryApi} {size : SizeT} {basePtr : Nat}
    (mapped : MagicRingBuffer.startPortal api size = some basePtr) : size.setWidth 32 ≠ 0 := by
  intro zero
  rw [MagicRingBuffer.startPortal, zero] at mapped
  split at mapped
  · cases mapped
  · simp only [api.createSection_zero] at mapped
    split at mapped
    · cases mapped
    · cases mapped

/-- A ring with both of its views mapped counts less than `2 ^ 32` bytes. -/
theorem narrow_of_portal {api : MemoryApi} {size : SizeT} {basePtr : Nat}
    (portal : MagicRingBuffer.startPortal api size = some basePtr) : size.toNat < 2 ^ 32 := by
  unfold MagicRingBuffer.startPortal at portal
  split at portal
  · cases portal
  · rename_i address _
    by_cases mapped : api.mapView (size.setWidth 32) address size = true
    · exact Nat.lt_of_le_of_lt (api.mapView_within _ _ _ mapped) (size.setWidth 32).isLt
    · simp only [Bool.eq_false_of_not_eq_true mapped, if_true] at portal
      split at portal
      · cases portal
      · split at portal <;> cases portal

theorem create_size {api : MemoryApi} {mapped : Nat -> Byte} {maxSize : SizeT}
    {session : NetworkSession} (created : create api mapped maxSize = some session) :
    session.stashBuffer.size = bitFloor (maxSize * 1024 * 1024) := by
  rcases Option.map_eq_some_iff.mp created with ⟨stash, ring, rfl⟩
  rw [MagicRingBuffer.create] at ring
  split at ring
  · cases ring
  · rcases Option.map_eq_some_iff.mp ring with ⟨basePtr, _, rfl⟩
    rfl

theorem create_sized {api : MemoryApi} {mapped : Nat -> Byte} {maxSize : SizeT}
    {session : NetworkSession} (created : create api mapped maxSize = some session) :
    (Exists fun exponent => session.Sized exponent) ∧ session.stashBuffer.head = 0 ∧
      session.stashBuffer.tail = 0 ∧ session.isClosing = false := by
  rcases Option.map_eq_some_iff.mp created with ⟨stash, ring, rfl⟩
  rw [MagicRingBuffer.create] at ring
  split at ring
  · cases ring
  · rename_i accepted
    rcases Option.map_eq_some_iff.mp ring with ⟨basePtr, portal, rfl⟩
    refine ⟨?_, rfl, rfl, rfl⟩
    have nonzero : bitFloor (maxSize * 1024 * 1024) ≠ 0 := fun zero => accepted (Or.inl zero)
    have aligned : (bitFloor (maxSize * 1024 * 1024)).toNat % 65536 = 0 := by
      have multiple := Decidable.of_not_not (fun differs => accepted (Or.inr differs))
      have position := congrArg BitVec.toNat multiple
      rw [BitVec.toNat_umod] at position
      exact position
    have narrow := size_of_startPortal portal
    rcases bitFloor_cases (maxSize * 1024 * 1024) with zero | ⟨exponent, _, power⟩
    · exact False.elim (nonzero zero)
    · rw [power] at aligned
      have least : 16 ≤ exponent := by
        have whole : 2 ^ 16 ∣ 2 ^ exponent := Nat.dvd_of_mod_eq_zero aligned
        exact (Nat.pow_dvd_pow_iff_le_right (by decide)).mp whole
      have most : exponent ≤ 31 := by
        by_contra large
        apply narrow
        apply BitVec.eq_of_toNat_eq
        rw [BitVec.toNat_setWidth, power]
        exact Nat.mod_eq_zero_of_dvd (Nat.pow_dvd_pow 2 (by omega))
      have room : 2 ^ 16 ≤ 2 ^ exponent := Nat.pow_le_pow_right (by decide) least
      refine ⟨exponent, power, least, most, ?_⟩
      change (bitFloor (maxSize * 1024 * 1024) - 32).toNat = _
      have bound := (bitFloor (maxSize * 1024 * 1024)).isLt
      rw [BitVec.toNat_sub, power, show (32 : SizeT).toNat = 32 from rfl]
      rw [power] at bound
      omega

end NetworkSession

/-! ## A session of the default size -/

/-- Calls that succeed whenever their documentation allows it. -/
def MemoryApi.willing : MemoryApi where
  reserve := fun _ => some 0x10000
  split := fun _ _ => true
  createSection := fun low => decide (low ≠ 0)
  mapView := fun sectionBytes _ bytes => decide (bytes.toNat ≤ sectionBytes.toNat)
  createSection_zero := rfl
  mapView_within := fun _ _ _ mapped => of_decide_eq_true mapped

/-- The session that the default `log_size` of one MiB gives. -/
def NetworkSession.oneMebibyte : NetworkSession :=
  (NetworkSession.create MemoryApi.willing (fun _ => 0) 1).get (by decide)

theorem NetworkSession.oneMebibyte_created : SessionTrace.Created NetworkSession.oneMebibyte :=
  ⟨MemoryApi.willing, fun _ => 0, 1, (Option.some_get _).symm⟩

theorem SessionTrace.oneMebibyte_initial :
    SessionTrace.machine.initial (SessionTrace.start NetworkSession.oneMebibyte) :=
  ⟨_, NetworkSession.oneMebibyte_created, rfl⟩

end Network
end VortexEngine
