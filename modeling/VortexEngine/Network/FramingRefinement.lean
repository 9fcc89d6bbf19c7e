import Mathlib.Data.List.Forall2
import VortexEngine.Network.Framing
import VortexEngine.Network.NetworkSession

open VortexEngine.Foundations

namespace VortexEngine
namespace Network

/-!
# The framing loop decodes the stream

One evaluation of the loop in `process_stash` agrees with the reference
decoder on the pending bytes of the ring: it hands over the first frame, or
leaves because there is none yet, or asks for a disconnect because there will
never be one.  Along a run the frames handed over and the pending bytes are a
decoding in progress of everything received, so the way the stream is cut into
reads does not matter.
-/

/-! ## One iteration -/

section Iteration

variable {exponent limit : Nat} {session : NetworkSession} {pending : List Byte}

/-- What an iteration must be, given the pending bytes. -/
def StashIteration.Agrees (limit : Nat) (pending : List Byte) : StashIteration -> Prop
  | .leave => nextFrame limit pending = none ∧ ¬ Oversized limit pending
  | .oversized _ => nextFrame limit pending = none ∧ Oversized limit pending
  | .handOver record => Exists fun frame => nextFrame limit pending = some frame ∧
      record.logData.bytes = frame.payload ∧ record.framed.toNat = frame.framedSize

theorem networkMagic_eq :
    NetworkSession.networkMagic = BitVec.ofNat 32 (littleEndian Frame.magic) := by
  decide

theorem signature_iff {ring : MagicRingBuffer} (holds : ring.Represents exponent pending)
    (probed : 4 ≤ pending.length) :
    ring.peek 0 = NetworkSession.networkMagic ↔ pending.take 4 = Frame.magic := by
  rw [holds.peek_eq 0 probed, networkMagic_eq]
  change BitVec.ofNat 32 (littleEndian (pending.take 4)) = _ ↔ _
  constructor
  · intro same
    have four : (pending.take 4).length = 4 := by rw [List.length_take]; omega
    have bound := littleEndian_lt (pending.take 4)
    rw [four] at bound
    have values := congrArg BitVec.toNat same
    rw [BitVec.toNat_ofNat, BitVec.toNat_ofNat, Nat.mod_eq_of_lt (b := 2 ^ 32) bound] at values
    exact littleEndian_injective four values
  · exact fun same => same ▸ rfl

theorem announcedLength_lt (stream : List Byte) (header : 8 ≤ stream.length) :
    announcedLength stream < 2 ^ 32 := by
  have bound := littleEndian_lt ((stream.drop 4).take 4).reverse
  rw [List.length_reverse, List.length_take, List.length_drop,
    show min 4 (stream.length - 4) = 4 by omega]
    at bound
  exact bound

theorem logLen_toNat {ring : MagicRingBuffer} (holds : ring.Represents exponent pending)
    (header : 8 ≤ pending.length) :
    (NetworkSession.ntohl (ring.peek 4)).toNat = announcedLength pending := by
  have four : ((pending.drop 4).take 4).length = 4 := by
    rw [List.length_take, List.length_drop]
    omega
  rw [NetworkSession.ntohl, holds.peek_eq 4 header]
  change (byteswap (BitVec.ofNat 32 (littleEndian ((pending.drop 4).take 4)))).toNat = _
  rw [byteswap_littleEndian four, BitVec.toNat_ofNat]
  exact Nat.mod_eq_of_lt (announcedLength_lt pending header)

theorem takeWhile_of_findIdx {stream : List Byte} {len : Nat}
    (found : stream.findIdx? (· == Frame.newline) = some len) :
    Frame.newline ∈ stream ∧ len < stream.length ∧
      stream.take len = stream.takeWhile (· != Frame.newline) := by
  induction stream generalizing len with
  | nil => cases found
  | cons byte rest ih =>
      rw [List.findIdx?_cons] at found
      by_cases delimiter : byte = Frame.newline
      · subst delimiter
        cases found
        exact ⟨List.mem_cons_self, Nat.succ_pos _, rfl⟩
      · rw [if_neg (by simpa using delimiter)] at found
        rcases Option.map_eq_some_iff.mp found with ⟨before, earlier, rfl⟩
        rcases ih earlier with ⟨member, inside, same⟩
        refine ⟨List.mem_cons_of_mem _ member, Nat.succ_lt_succ inside, ?_⟩
        rw [List.take_succ_cons, same, List.takeWhile_cons_of_pos (by simpa using delimiter)]

/-- The loop on a binary frame.  The ring is at most 2 GiB, so the sum
`8 + log_len` does not wrap. -/
theorem binaryIteration_agrees (sized : session.Sized exponent)
    (holds : session.stashBuffer.Represents exponent pending)
    (probed : 4 ≤ pending.length) (startsBinary : pending.take 4 = Frame.magic) :
    session.stashIteration.Agrees session.maxLogSize.toNat pending := by
  rw [NetworkSession.stashIteration]
  simp only
  rw [if_neg (mt (holds.available_lt 4).mp (Nat.not_lt.mpr probed)),
    if_pos ((signature_iff holds probed).mpr startsBinary)]
  split
  · rename_i partialHeader
    have short : pending.length < 8 := (holds.available_lt 8).mp partialHeader
    refine ⟨?_, fun oversized => ?_⟩
    · rw [nextFrame, if_neg (by omega), if_pos startsBinary, if_pos short]
    · rw [Oversized, if_pos startsBinary] at oversized
      omega
  · rename_i wholeHeader
    have header : 8 ≤ pending.length := Nat.not_lt.mp (mt (holds.available_lt 8).mpr wholeHeader)
    have announced := logLen_toNat holds header
    generalize NetworkSession.ntohl (session.stashBuffer.peek 4) = logLen at announced
    have zero : logLen = 0 ↔ announcedLength pending = 0 := by
      rw [← announced, ← BitVec.toNat_inj]
      rfl
    have above : session.maxLogSize < logLen.setWidth 64 ↔
        session.maxLogSize.toNat < announcedLength pending := by
      have bound := logLen.isLt
      rw [BitVec.lt_def, BitVec.toNat_setWidth, Nat.mod_eq_of_lt (by omega), announced]
    split
    · rename_i refused
      rw [zero, above] at refused
      refine ⟨?_, probed, ?_⟩
      · rw [nextFrame, if_neg (by omega), if_pos startsBinary, if_neg (by omega)]
        simp only
        rw [if_pos refused]
      · rw [if_pos startsBinary]
        exact ⟨header, refused⟩
    · rename_i accepted
      have framed : ((8 + logLen).setWidth 64 : SizeT).toNat = 8 + announcedLength pending := by
        have most : 2 ^ exponent ≤ 2 ^ 31 := Nat.pow_le_pow_right (by decide) sized.most
        have limit := sized.limit
        rcases NetworkSession.framed_toNat (by omega) accepted with ⟨short, sum⟩
        rw [BitVec.toNat_setWidth, sum, announced]
        omega
      rw [zero, above] at accepted
      split
      · rename_i partialBody
        rw [holds.available_lt, framed] at partialBody
        refine ⟨?_, fun oversized => ?_⟩
        · rw [nextFrame, if_neg (by omega), if_pos startsBinary, if_neg (by omega)]
          simp only
          rw [if_neg accepted, if_pos partialBody]
        · rw [Oversized, if_pos startsBinary] at oversized
          exact accepted oversized.2.2
      · rename_i wholeBody
        rw [holds.available_lt, framed] at wholeBody
        refine ⟨_, nextFrame_binary (by omega) startsBinary (by omega) (by omega), ?_, ?_⟩
        · exact announced ▸ holds.bytesAt_readOffset (by omega)
        · rw [Frame.framedSize, framed, List.length_take, List.length_drop]
          omega

theorem lineIteration_agrees (holds : session.stashBuffer.Represents exponent pending)
    (probed : 4 ≤ pending.length) (startsText : pending.take 4 ≠ Frame.magic) :
    session.stashIteration.Agrees session.maxLogSize.toNat pending := by
  have whole : (session.stashBuffer.getView session.stashBuffer.getBytesAvailable).bytes =
      pending := by
    rw [holds.getView_bytes (Nat.le_of_eq holds.available), holds.available, List.take_length]
  rw [NetworkSession.stashIteration]
  simp only
  rw [if_neg (mt (holds.available_lt 4).mp (Nat.not_lt.mpr probed)),
    if_neg (mt (signature_iff holds probed).mp startsText), whole]
  split
  · rename_i undelimited
    have missing : Frame.newline ∉ pending := by
      intro member
      have differs := List.findIdx?_eq_none_iff.mp undelimited Frame.newline member
      cases (beq_self_eq_true Frame.newline).symm.trans differs
    have nothing : nextFrame session.maxLogSize.toNat pending = none := by
      rw [nextFrame, if_neg (by omega), if_neg startsText, if_neg missing]
    have above : session.maxLogSize < session.stashBuffer.getBytesAvailable ↔
        session.maxLogSize.toNat < pending.length := by
      rw [BitVec.lt_def, holds.available]
    split
    · rename_i large
      refine ⟨nothing, probed, ?_⟩
      rw [if_neg startsText]
      exact ⟨missing, above.mp large⟩
    · rename_i small
      refine ⟨nothing, fun oversized => ?_⟩
      rw [Oversized, if_neg startsText] at oversized
      exact small (above.mpr oversized.2.2)
  · rename_i len found
    rcases takeWhile_of_findIdx found with ⟨delimited, inside, line⟩
    have fits := holds.fits
    have bound : pending.length < 2 ^ 64 :=
      holds.available ▸ (session.stashBuffer.getBytesAvailable).isLt
    refine ⟨_, nextFrame_line probed startsText delimited, line, ?_⟩
    rw [Frame.framedSize, ← line, List.length_take, BitVec.toNat_add, BitVec.toNat_ofNat,
      show (1 : SizeT).toNat = 1 from rfl]
    omega

/-- One evaluation of the loop agrees with the reference decoder. -/
theorem stashIteration_agrees (sized : session.Sized exponent)
    (holds : session.stashBuffer.Represents exponent pending) :
    session.stashIteration.Agrees session.maxLogSize.toNat pending := by
  by_cases probed : 4 ≤ pending.length
  · by_cases startsBinary : pending.take 4 = Frame.magic
    · exact binaryIteration_agrees sized holds probed startsBinary
    · exact lineIteration_agrees holds probed startsBinary
  · have short : session.stashBuffer.getBytesAvailable < 4 :=
      (holds.available_lt 4).mpr (Nat.lt_of_not_le probed)
    rw [NetworkSession.stashIteration]
    simp only
    rw [if_pos short]
    refine ⟨?_, fun oversized => probed oversized.1⟩
    rw [nextFrame, if_pos (Nat.lt_of_not_le probed)]

end Iteration

/-! ## Runs -/

/-- The record is the frame, as the parser and `consume` see it. -/
def StashRecord.Carries (record : StashRecord) (frame : Frame) : Prop :=
  record.logData.bytes = frame.payload ∧ record.framed.toNat = frame.framedSize

namespace SessionTrace

/-- The limit that the session passes to the reference decoder. -/
def limit (trace : SessionTrace) : Nat :=
  trace.session.maxLogSize.toNat

/-- What the session's point says about the pending bytes.  While a parser call
is running its frame is handed over but not consumed, and outside of
`process_stash` no frame is pending. -/
def Knows (limit : Nat) (writeSpace : SizeT) (pending : List Byte) (inFlight : List Frame) :
    SessionPoint -> Prop
  | .processing _ => inFlight = []
  | .parsing _ record => Exists fun frame => inFlight = [frame] ∧
      nextFrame limit pending = some frame ∧ record.Carries frame
  | .awaiting space => inFlight = [] ∧ nextFrame limit pending = none ∧ space = writeSpace
  | _ => inFlight = [] ∧ nextFrame limit pending = none

/-- The frames consumed so far and the pending bytes decode what has been
received; the handed records are the consumed frames and the one in flight. -/
structure FramingInvariant (exponent : Nat) (trace : SessionTrace) (emitted inFlight : List Frame)
    (pending : List Byte) : Prop where
  sized : trace.session.Sized exponent
  represents : trace.session.stashBuffer.Represents exponent pending
  decoded : (reference trace.limit).Decoded trace.received emitted pending
  tail : trace.session.stashBuffer.tail.toNat = (reference trace.limit).totalSize emitted % 2 ^ 64
  handed : List.Forall₂ StashRecord.Carries trace.handed (emitted ++ inFlight)
  point : Knows trace.limit trace.session.stashBuffer.getWriteSpace pending inFlight trace.point

/-- Some decoding in progress explains the trace. -/
def Framed (trace : SessionTrace) : Prop :=
  Exists fun exponent => Exists fun emitted => Exists fun inFlight => Exists fun pending =>
    FramingInvariant exponent trace emitted inFlight pending

theorem framed_start {session : NetworkSession}
    (created : Created session) : Framed (start session) := by
  rcases created with ⟨api, mapped, maxSize, created⟩
  rcases NetworkSession.create_sized created with ⟨⟨exponent, sized⟩, head, tail, _⟩
  refine ⟨exponent, [], [], [], sized, ⟨sized.power, ?_, Nat.zero_le _, rfl⟩, .nothing, ?_,
    .nil, rfl, rfl⟩
  · change (session.stashBuffer.head - session.stashBuffer.tail).toNat = 0
    rw [head, tail]
    rfl
  · change session.stashBuffer.tail.toNat = 0
    rw [tail]
    rfl

section Steps

variable {exponent : Nat} {trace : SessionTrace} {emitted inFlight : List Frame}
    {pending : List Byte}

theorem FramingInvariant.goto (holds : FramingInvariant exponent trace emitted inFlight pending)
    (point : SessionPoint)
    (knows : Knows trace.limit trace.session.stashBuffer.getWriteSpace pending inFlight point) :
    FramingInvariant exponent { trace with point := point } emitted inFlight pending :=
  ⟨holds.sized, holds.represents, holds.decoded, holds.tail, holds.handed, knows⟩

theorem FramingInvariant.closed (holds : FramingInvariant exponent trace emitted inFlight pending)
    (report : Diagnostic) (sizeDisconnects : List DisconnectReason) :
    FramingInvariant exponent
      { trace with session := trace.session.closeWith report, sizeDisconnects := sizeDisconnects }
      emitted inFlight pending := by
  have stash := NetworkSession.closeWith_stashBuffer trace.session report
  have limitEq := congrArg BitVec.toNat (NetworkSession.closeWith_maxLogSize trace.session report)
  rcases holds with ⟨⟨power, least, most, limit⟩, represents, decoded, tail, handed, point⟩
  constructor
  · exact ⟨stash ▸ power, least, most, limitEq.trans limit⟩
  · exact stash ▸ represents
  · rw [SessionTrace.limit, limitEq]
    exact decoded
  · rw [SessionTrace.limit, limitEq, stash]
    exact tail
  · exact handed
  · rw [SessionTrace.limit, limitEq, stash]
    exact point

theorem knows_resume {limit : Nat} {writeSpace : SizeT} {caller : ProcessCaller}
    (nothing : inFlight = []) (settled : nextFrame limit pending = none) :
    Knows limit writeSpace pending inFlight caller.resume := by
  cases caller <;> exact ⟨nothing, settled⟩

theorem FramingInvariant.handOver (holds : FramingInvariant exponent trace emitted [] pending)
    (caller : ProcessCaller) {record : StashRecord} {frame : Frame}
    (found : nextFrame trace.limit pending = some frame) (carries : record.Carries frame) :
    FramingInvariant exponent
      { trace with point := .parsing caller record, handed := trace.handed ++ [record] }
      emitted [frame] pending := by
  have handed := holds.handed
  rw [List.append_nil] at handed
  exact ⟨holds.sized, holds.represents, holds.decoded, holds.tail,
    List.rel_append handed (.cons carries .nil), ⟨frame, rfl, found, carries⟩⟩

theorem FramingInvariant.consume (holds : FramingInvariant exponent trace emitted inFlight pending)
    {caller : ProcessCaller} {record : StashRecord}
    (parses : trace.point = .parsing caller record) :
    Exists fun frame =>
      FramingInvariant exponent (trace.consumeRecord none caller record) (emitted ++ [frame]) []
        (pending.drop frame.framedSize) := by
  have point := holds.point
  rw [parses] at point
  rcases point with ⟨frame, rfl, found, carries⟩
  have within := framedSize_le found
  refine ⟨frame, ?_⟩
  constructor
  · exact ⟨holds.sized.power, holds.sized.least, holds.sized.most, holds.sized.limit⟩
  · rw [← carries.2]
    exact holds.represents.consume (carries.2 ▸ within)
  · exact holds.decoded.emit found
  · have advanced : (trace.consumeRecord none caller record).session.stashBuffer.tail =
        trace.session.stashBuffer.tail + record.framed := rfl
    rw [advanced, BitVec.toNat_add, holds.tail, carries.2, Nat.mod_add_mod]
    exact congrArg (· % 2 ^ 64) (StreamDecoder.totalSize_append_singleton emitted frame).symm
  · rw [List.append_nil]
    exact holds.handed
  · rfl

theorem FramingInvariant.receive (holds : FramingInvariant exponent trace emitted inFlight pending)
    {space : SizeT} (awaits : trace.point = .awaiting space) {bytes : List Byte}
    (room : bytes.length ≤ space.toNat) :
    FramingInvariant exponent (trace.receive bytes) emitted inFlight (pending ++ bytes) := by
  have point := holds.point
  rw [awaits] at point
  rcases point with ⟨nothing, _, rfl⟩
  have extended := holds.represents.receive room
  refine ⟨⟨extended.power, holds.sized.least, holds.sized.most, holds.sized.limit⟩, extended,
    holds.decoded.receive bytes,
    ?_, holds.handed, nothing⟩
  change (trace.session.stashBuffer.receive bytes).tail.toNat = _
  rw [MagicRingBuffer.receive_tail]
  exact holds.tail

/-- Every step keeps the decoding in progress. -/
theorem Framed.step {before after : SessionTrace} {action : SessionAction} (framed : Framed before)
    (moves : before.step action = some after) : Framed after := by
  rcases framed with ⟨exponent, emitted, inFlight, pending, holds⟩
  have knows := holds.point
  have agrees := stashIteration_agrees holds.sized holds.represents
  cases step_move moves with
  | retry reads narrow =>
      rw [reads] at knows
      exact ⟨_, _, _, _, holds.goto (.processing .readHeader) knows.1⟩
  | await reads wide =>
      have settled : inFlight = [] ∧ nextFrame before.limit pending = none := by
        rcases reads with reads | reads <;> rw [reads] at knows <;> exact knows
      exact ⟨_, _, _, _, holds.goto (.awaiting _) ⟨settled.1, settled.2, rfl⟩⟩
  | giveUp rechecks narrow =>
      rw [rechecks] at knows
      exact ⟨_, _, _, _, (holds.goto .stopped knows).closed _ _⟩
  | leave processes iteration =>
      rw [processes] at knows
      rw [iteration] at agrees
      exact ⟨_, _, _, _, holds.goto _ (knows_resume knows agrees.1)⟩
  | oversize processes iteration =>
      rw [processes] at knows
      rw [iteration] at agrees
      exact ⟨_, _, _, _, (holds.goto _ (knows_resume knows agrees.1)).closed _ _⟩
  | @handOver _ caller record processes iteration =>
      rw [processes] at knows
      rw [iteration] at agrees
      cases knows
      rcases agrees with ⟨frame, found, carries⟩
      exact ⟨_, _, _, _, holds.handOver caller found carries⟩
  | @consume verdict caller record parses =>
      cases verdict with
      | none =>
          rcases holds.consume parses with ⟨frame, consumed⟩
          exact ⟨_, _, _, _, consumed⟩
      | some reason =>
          rcases (holds.closed (.disconnecting reason) before.sizeDisconnects).consume parses with
            ⟨frame, consumed⟩
          exact ⟨_, _, _, _, consumed⟩
  | receive awaits nonempty room => exact ⟨_, _, _, _, holds.receive awaits room⟩
  | fail awaits =>
      rw [awaits] at knows
      exact ⟨_, _, _, _, (holds.goto .stopped ⟨knows.1, knows.2.1⟩).closed _ _⟩

/-- Outside of `process_stash` no frame is pending. -/
theorem FramingInvariant.nothing_pending
    (holds : FramingInvariant exponent trace emitted inFlight pending)
    (settled : trace.point.Settled) : nextFrame trace.limit pending = none := by
  have knows := holds.point
  cases point : trace.point <;> rw [point] at knows settled
  · exact knows.2
  · exact False.elim settled
  · exact False.elim settled
  · exact knows.2
  · exact knows.2.1
  · exact knows.2

end Steps

theorem framed_of_reachable {guard : SessionTrace -> SessionAction -> Prop} {trace : SessionTrace}
    (reached : machine.ReachableUnder guard trace) : Framed trace := by
  refine reached.invariant ?_ (fun _ _ _ _ framed _ moves => framed.step moves)
  rintro _ ⟨session, created, rfl⟩
  exact framed_start created

theorem step_limit {before after : SessionTrace} {action : SessionAction}
    (moves : before.step action = some after) : after.limit = before.limit := by
  cases step_move moves with
  | giveUp _ _ => exact congrArg BitVec.toNat (NetworkSession.disconnect_maxLogSize _ _)
  | oversize _ _ => exact congrArg BitVec.toNat (NetworkSession.disconnect_maxLogSize _ _)
  | fail _ => exact congrArg BitVec.toNat (NetworkSession.closeWith_maxLogSize _ _)
  | @consume verdict _ _ _ =>
      cases verdict with
      | none => rfl
      | some reason => exact congrArg BitVec.toNat (NetworkSession.disconnect_maxLogSize _ reason)
  | _ => rfl

theorem limit_of_run {guard : SessionTrace -> SessionAction -> Prop} {before after : SessionTrace}
    (run : machine.RunsUnder guard before after) : after.limit = before.limit :=
  run.preserves (I := fun trace => trace.limit = before.limit)
    (fun _ _ _ same _ moves => (step_limit moves).trans same) rfl

theorem Framed.size_eq {trace : SessionTrace} (framed : Framed trace) :
    trace.session.stashBuffer.size.toNat = trace.limit + 32 ∧ trace.limit < 2 ^ 31 := by
  rcases framed with ⟨exponent, _, _, _, holds⟩
  have least : 2 ^ 16 ≤ 2 ^ exponent := Nat.pow_le_pow_right (by decide) holds.sized.least
  have most : 2 ^ exponent ≤ 2 ^ 31 := Nat.pow_le_pow_right (by decide) holds.sized.most
  rw [limit, holds.sized.power, holds.sized.limit]
  omega

/-- The parts of the handler, with a parser that accepts everything. -/
def handlerOnly (_trace : SessionTrace) (action : SessionAction) : Prop :=
  action = .proceed none

theorem Move.handled {before after : SessionTrace} (move : Move before (.proceed none) after) :
    machine.RunsUnder handlerOnly before after :=
  Relation.ReflTransGen.single ⟨.proceed none, rfl, move.step⟩

/-- The loop of `process_stash` ends: every record that it takes out leaves
fewer bytes pending. -/
theorem processing_settles {exponent : Nat} (bound : Nat) {trace : SessionTrace}
    {emitted : List Frame}
    {pending : List Byte} (holds : FramingInvariant exponent trace emitted [] pending)
    (short : pending.length < bound) {caller : ProcessCaller}
    (processes : trace.point = .processing caller) :
    Exists fun after => machine.RunsUnder handlerOnly trace after ∧ after.point = caller.resume ∧
      after.received = trace.received := by
  induction bound generalizing trace emitted pending with
  | zero => omega
  | succ bound ih =>
      have agrees := stashIteration_agrees holds.sized holds.represents
      cases iteration : trace.session.stashIteration with
      | leave => exact ⟨_, (Move.leave processes iteration).handled, rfl, rfl⟩
      | oversized reason => exact ⟨_, (Move.oversize processes iteration).handled, rfl, rfl⟩
      | handOver record =>
          rw [iteration] at agrees
          rcases agrees with ⟨frame, found, carries⟩
          have handed := (Move.handOver processes iteration).handled
          rcases (holds.handOver caller found carries).consume rfl with ⟨taken, consumed⟩
          have smaller : (pending.drop taken.framedSize).length < bound := by
            have positive := taken.payload_length_lt
            have inside := framedSize_le found
            rw [List.length_drop]
            have some_pending : 0 < pending.length :=
              Nat.lt_of_lt_of_le (framedSize_pos found) inside
            omega
          rcases ih consumed smaller rfl with ⟨after, run, done, same⟩
          exact ⟨after, (handed.trans (Move.consume rfl).handled).trans run, done, same⟩

/-- After a completed read the handler comes back to `read_header`. -/
theorem Framed.readsAgain {trace : SessionTrace} (framed : Framed trace)
    (processes : trace.point = .processing .completion) :
    Exists fun after => machine.RunsUnder handlerOnly trace after ∧ after.point = .readingHeader ∧
      after.received = trace.received := by
  rcases framed with ⟨exponent, emitted, inFlight, pending, holds⟩
  have nothing := holds.point
  rw [processes] at nothing
  cases nothing
  exact processing_settles _ holds (Nat.lt_succ_self _) processes

/-- From every state the handler comes to an end of `process_stash`. -/
theorem Framed.settles {trace : SessionTrace} (framed : Framed trace) :
    Exists fun after => machine.RunsUnder handlerOnly trace after ∧ after.point.Settled ∧
      after.received = trace.received := by
  rcases framed with ⟨exponent, emitted, inFlight, pending, holds⟩
  have settled : forall caller : ProcessCaller, caller.resume.Settled := fun caller => by
    cases caller <;> trivial
  cases point : trace.point with
  | processing caller =>
      have nothing := holds.point
      rw [point] at nothing
      cases nothing
      rcases processing_settles _ holds (Nat.lt_succ_self _) point with ⟨after, run, done, same⟩
      exact ⟨after, run, done ▸ settled caller, same⟩
  | parsing caller record =>
      rcases holds.consume point with ⟨frame, consumed⟩
      rcases processing_settles _ consumed (Nat.lt_succ_self _) rfl with ⟨after, run, done, same⟩
      exact ⟨after, (Move.consume point).handled.trans run, done ▸ settled caller, same⟩
  | _ => exact ⟨trace, Relation.ReflTransGen.refl, point ▸ trivial, rfl⟩

/-- The payloads handed to the parser, in order. -/
def payloads (trace : SessionTrace) : List (List Byte) :=
  trace.handed.map (fun record => record.logData.bytes)

/-- The number of handed records whose parser call has returned. -/
def consumedRecords (trace : SessionTrace) : Nat :=
  match trace.point with
  | .parsing _ _ => trace.handed.length - 1
  | _ => trace.handed.length

/-- What framing promises in every reachable state. -/
structure IsExactFraming (trace : SessionTrace) : Prop where
  /-- the parser has seen a prefix of the reference decode -/
  isPrefix : trace.payloads <+: referencePayloads trace.limit trace.received
  /-- the tail stands behind the frames whose parser calls have returned -/
  tail : trace.session.stashBuffer.tail.toNat =
    ((((reference trace.limit).frames trace.received).take trace.consumedRecords).map
      Frame.framedSize).sum %
      2 ^ 64
  /-- outside of `process_stash` the parser has seen the whole reference decode -/
  settled : trace.point.Settled -> trace.payloads = referencePayloads trace.limit trace.received

section Observations

variable {exponent : Nat} {trace : SessionTrace} {emitted inFlight : List Frame}
    {pending : List Byte}

theorem payloads_of_carries {records : List StashRecord} {frames : List Frame}
    (carried : List.Forall₂ StashRecord.Carries records frames) :
    records.map (fun record => record.logData.bytes) = frames.map Frame.payload := by
  induction carried with
  | nil => rfl
  | cons carries _ ih => rw [List.map_cons, List.map_cons, carries.1, ih]

theorem FramingInvariant.consumedRecords_eq
    (holds : FramingInvariant exponent trace emitted inFlight pending) :
    trace.consumedRecords = emitted.length := by
  have handed := holds.handed.length_eq
  have knows := holds.point
  rw [List.length_append] at handed
  rw [consumedRecords]
  cases point : trace.point with
  | parsing caller record =>
      rw [point] at knows
      rcases knows with ⟨frame, rfl, _⟩
      rw [List.length_singleton] at handed
      exact Nat.sub_eq_of_eq_add handed
  | processing caller =>
      rw [point] at knows
      cases knows
      exact handed
  | _ =>
      rw [point] at knows
      rcases knows with ⟨rfl, _⟩
      exact handed

theorem FramingInvariant.frames_eq
    (holds : FramingInvariant exponent trace emitted inFlight pending) :
    Exists fun rest => (reference trace.limit).frames trace.received = emitted ++ inFlight ++ rest ∧
      (trace.point.Settled -> rest = []) := by
  have knows := holds.point
  have whole := holds.decoded.frames_eq
  cases point : trace.point with
  | parsing caller record =>
      rw [point] at knows
      rcases knows with ⟨frame, rfl, found, _⟩
      have first : (reference trace.limit).next pending = some frame := found
      rw [StreamDecoder.frames_of_some first] at whole
      refine ⟨(reference trace.limit).frames (pending.drop frame.framedSize), ?_, nofun⟩
      rw [whole, List.append_assoc]
      rfl
  | processing caller =>
      rw [point] at knows
      cases knows
      exact ⟨(reference trace.limit).frames pending, by rw [whole, List.append_nil], nofun⟩
  | awaiting space =>
      rw [point] at knows
      rcases knows with ⟨rfl, settled, _⟩
      exact ⟨[], by rw [whole, StreamDecoder.frames_of_none settled, List.append_nil,
        List.append_nil], fun _ => rfl⟩
  | _ =>
      rw [point] at knows
      rcases knows with ⟨rfl, settled⟩
      exact ⟨[], by rw [whole, StreamDecoder.frames_of_none settled, List.append_nil,
        List.append_nil], fun _ => rfl⟩

end Observations

theorem Framed.isExactFraming {trace : SessionTrace}
    (framed : Framed trace) : trace.IsExactFraming := by
  rcases framed with ⟨exponent, emitted, inFlight, pending, holds⟩
  rcases holds.frames_eq with ⟨rest, whole, complete⟩
  have payloads : trace.payloads = (emitted ++ inFlight).map Frame.payload :=
    payloads_of_carries holds.handed
  constructor
  · refine ⟨rest.map Frame.payload, ?_⟩
    rw [payloads, ← List.map_append, ← whole]
    rfl
  · rw [holds.consumedRecords_eq, whole, List.append_assoc, List.take_left]
    exact holds.tail
  · intro settled
    rw [payloads, referencePayloads, whole, complete settled, List.append_nil]

end SessionTrace

/-- Framing is exact, for every stream and every way of cutting it into reads. -/
theorem framing_isExact {trace : SessionTrace} (reached : SessionTrace.machine.Reachable trace) :
    trace.IsExactFraming :=
  (SessionTrace.framed_of_reachable reached).isExactFraming

/-! ## A short stream -/

/-- A line that arrives in two pieces. -/
theorem framing_isExact_twoPieces :
    ((SessionTrace.machine.executeUnder Machine.anyAction
      (SessionTrace.start NetworkSession.oneMebibyte)
      [.proceed none, .complete [0x31, 0x20], .proceed none, .proceed none,
        .complete [0x32, 0x33, 0x0A],
        .proceed none]).get (by decide)).IsExactFraming :=
  framing_isExact (Machine.reachableUnder_of_execute SessionTrace.oneMebibyte_initial (by decide))

end Network
end VortexEngine
