import VortexEngine.Network.FramingRefinement

open VortexEngine.Foundations

namespace VortexEngine
namespace Network

/-!
# Delivery of admissible binary frames

A frame whose length is between one and `max_log_size` fits into the ring with
its header.  `read_header` nevertheless gives up on it when a read ends with
the frame unfinished and less than 1024 bytes of the ring free, although the
next read would have completed it.  Whether that happens depends on how the
network cuts the stream.

The runs below receive the wire format of a list of payloads, cut in any way.
In the runs in which every read leaves at most `size - 1024` bytes of an
unfinished frame, no size disconnect is issued and every payload is delivered.
The condition is exact: after a read that leaves more, the session disconnects.
-/

/-- The wire format of a sequence of binary frames. -/
def binaryStream (payloads : List (List Byte)) : List Byte :=
  payloads.flatMap Frame.encodeBinary

/-- Every payload is neither empty nor above the limit. -/
def Admissible (limit : Nat) (payloads : List (List Byte)) : Prop :=
  forall payload, payload ∈ payloads -> 1 ≤ payload.length ∧ payload.length ≤ limit

instance (limit : Nat) (payloads : List (List Byte)) : Decidable (Admissible limit payloads) :=
  inferInstanceAs (Decidable (forall payload, payload ∈ payloads -> _))

/-! ## The wire format -/

section WireFormat

variable {limit : Nat} {payload : List Byte} {rest : List Byte}

theorem length_encodeBinary (payload : List Byte) :
    (Frame.encodeBinary payload).length = 8 + payload.length := by
  rw [Frame.encodeBinary, List.length_append, List.length_append, List.length_reverse,
    length_toLittleEndian]
  rfl

theorem encodeBinary_append (payload rest : List Byte) :
    Frame.encodeBinary payload ++ rest =
      Frame.magic ++ ((toLittleEndian 4 payload.length).reverse ++ (payload ++ rest)) := by
  rw [Frame.encodeBinary, List.append_assoc, List.append_assoc]

theorem take_four_encodeBinary (payload rest : List Byte) :
    (Frame.encodeBinary payload ++ rest).take 4 = Frame.magic := by
  rw [encodeBinary_append]
  rfl

theorem announcedLength_encodeBinary (short : payload.length < 2 ^ 32) (rest : List Byte) :
    announcedLength (Frame.encodeBinary payload ++ rest) = payload.length := by
  have header : (((Frame.encodeBinary payload ++ rest).drop 4).take 4) =
      (toLittleEndian 4 payload.length).reverse := by
    have four : (toLittleEndian 4 payload.length).reverse.length = 4 := by
      rw [List.length_reverse, length_toLittleEndian]
    rw [encodeBinary_append, List.drop_left' (show Frame.magic.length = 4 from rfl),
      List.take_left' four]
  rw [announcedLength, header, bigEndian, List.reverse_reverse,
    littleEndian_toLittleEndian 4 payload.length short]

theorem nextFrame_encodeBinary (short : payload.length < 2 ^ 32) (positive : 1 ≤ payload.length)
    (within : payload.length ≤ limit) (rest : List Byte) :
    nextFrame limit (Frame.encodeBinary payload ++ rest) = some (.binary payload) := by
  have announced := announcedLength_encodeBinary short rest
  have body : ((Frame.encodeBinary payload ++ rest).drop 8).take payload.length = payload := by
    rw [Frame.encodeBinary, List.append_assoc,
      List.drop_left' (by rw [List.length_append, List.length_reverse, length_toLittleEndian]; rfl)]
    exact List.take_left
  rw [nextFrame_binary (by rw [announced, List.length_append, length_encodeBinary]; omega)
    (take_four_encodeBinary payload rest) (by omega) (by omega), announced, body]

/-- No part of an encoding that has arrived looks oversized. -/
theorem not_oversized_of_isPrefix {arrived : List Byte} (short : payload.length < 2 ^ 32)
    (positive : 1 ≤ payload.length) (within : payload.length ≤ limit)
    (isPrefix : arrived <+: Frame.encodeBinary payload ++ rest) : ¬ Oversized limit arrived := by
  rintro ⟨probed, refused⟩
  rcases isPrefix with ⟨later, whole⟩
  have head : arrived.take 4 = Frame.magic := by
    rw [← take_four_encodeBinary payload rest, ← whole, List.take_append_of_le_length probed]
  rw [if_pos head] at refused
  rcases refused with ⟨header, refused⟩
  have announced : announcedLength arrived = payload.length := by
    rw [← announcedLength_encodeBinary short rest, ← whole, announcedLength, announcedLength,
      List.drop_append_of_le_length (by omega),
      List.take_append_of_le_length (by rw [List.length_drop]; omega)]
  omega

variable {payloads : List (List Byte)}

theorem frames_binaryStream (small : limit < 2 ^ 32) (admissible : Admissible limit payloads) :
    (reference limit).frames (binaryStream payloads) = payloads.map Frame.binary := by
  induction payloads with
  | nil => exact StreamDecoder.frames_of_none rfl
  | cons payload others ih =>
      rcases admissible payload List.mem_cons_self with ⟨positive, within⟩
      have first : (reference limit).next (binaryStream (payload :: others)) =
          some (.binary payload) :=
        nextFrame_encodeBinary (Nat.lt_of_le_of_lt within small) positive within
          (binaryStream others)
      have remaining :
        (binaryStream (payload :: others)).drop ((reference limit).size (.binary payload)) =
          binaryStream others := List.drop_left' (length_encodeBinary payload)
      rw [StreamDecoder.frames_of_some first, remaining,
        ih (fun other member => admissible other (List.mem_cons_of_mem _ member)), List.map_cons]

theorem length_binaryStream (payloads : List (List Byte)) :
    (binaryStream payloads).length = (reference limit).totalSize (payloads.map Frame.binary) := by
  induction payloads with
  | nil => rfl
  | cons payload others ih =>
      have tail : (binaryStream (payload :: others)).length =
          (Frame.encodeBinary payload).length + (binaryStream others).length := List.length_append
      rw [tail, length_encodeBinary, ih]
      rfl

theorem pending_isPrefix {received : List Byte} {done others : List (List Byte)}
    {pending : List Byte}
    (decoded : (reference limit).Decoded received (done.map Frame.binary) pending)
    (isPrefix : received <+: binaryStream (done ++ others)) : pending <+: binaryStream others := by
  have split : binaryStream (done ++ others) = binaryStream done ++ binaryStream others :=
    List.flatMap_append
  have remaining := isPrefix.drop (binaryStream done).length
  rw [split, List.drop_left] at remaining
  rw [decoded.pending_eq.1, ← length_binaryStream]
  exact remaining

/-- A decoding in progress of a binary stream has emitted its first payloads
and holds the beginning of the others. -/
theorem decoded_binaryStream (small : limit < 2 ^ 32) (admissible : Admissible limit payloads)
    {received : List Byte} {emitted : List Frame} {pending : List Byte}
    (decoded : (reference limit).Decoded received emitted pending)
    (isPrefix : received <+: binaryStream payloads) :
    Exists fun done => Exists fun others => payloads = done ++ others ∧
      emitted = done.map Frame.binary ∧ pending <+: binaryStream others := by
  suffices emits : Exists fun done => Exists fun others => payloads = done ++ others ∧
      emitted = done.map Frame.binary by
    rcases emits with ⟨done, others, whole, rfl⟩
    exact ⟨done, others, whole, rfl, pending_isPrefix decoded (whole ▸ isPrefix)⟩
  induction decoded with
  | nothing => exact ⟨[], payloads, rfl, rfl⟩
  | receive earlier piece ih => exact ih ((List.prefix_append _ piece).trans isPrefix)
  | @emit received emitted pending frame earlier found ih =>
      rcases ih isPrefix with ⟨done, others, whole, rfl⟩
      have remaining := pending_isPrefix earlier (whole ▸ isPrefix)
      cases others with
      | nil =>
          rw [List.prefix_nil.mp remaining] at found
          cases found
      | cons payload others =>
          have member : payload ∈ payloads := whole ▸ List.mem_append_right _ List.mem_cons_self
          rcases admissible payload member with ⟨positive, within⟩
          rcases remaining with ⟨later, continued⟩
          have first := nextFrame_encodeBinary (Nat.lt_of_le_of_lt within small) positive within
            (binaryStream others)
          have again : nextFrame limit (pending ++ later) = some frame :=
            nextFrame_stable later found
          rw [continued] at again
          cases first.symm.trans again
          exact ⟨done ++ [payload], others, by rw [whole, List.append_assoc]; rfl, by
            rw [List.map_append]; rfl⟩

/-- Nothing that arrives of a binary stream looks oversized. -/
theorem not_oversized_of_binaryStream (small : limit < 2 ^ 32)
    (admissible : Admissible limit payloads)
    {received : List Byte} {emitted : List Frame} {pending : List Byte}
    (decoded : (reference limit).Decoded received emitted pending)
    (isPrefix : received <+: binaryStream payloads) : ¬ Oversized limit pending := by
  rcases decoded_binaryStream small admissible decoded isPrefix with
    ⟨done, others, whole, _, remaining⟩
  cases others with
  | nil =>
      rw [List.prefix_nil.mp remaining]
      exact fun oversized => absurd oversized.1 (by decide)
  | cons payload others =>
      have member : payload ∈ payloads := whole ▸ List.mem_append_right _ List.mem_cons_self
      rcases admissible payload member with ⟨positive, within⟩
      exact not_oversized_of_isPrefix (Nat.lt_of_le_of_lt within small) positive within remaining

theorem unfinished_of_partial {arrived : List Byte} (short : payload.length < 2 ^ 32)
    (positive : 1 ≤ payload.length) (within : payload.length ≤ limit)
    (isPrefix : arrived <+: Frame.encodeBinary payload)
    (less : arrived.length < 8 + payload.length) :
    (reference limit).unfinished arrived = arrived.length := by
  have nothing : (reference limit).next arrived = none := by
    cases found : nextFrame limit arrived with
    | none => exact found
    | some frame =>
        rcases isPrefix with ⟨later, whole⟩
        have again := nextFrame_stable later found
        have first := nextFrame_encodeBinary short positive within []
        rw [List.append_nil] at first
        rw [whole, first] at again
        cases again
        have inside := framedSize_le found
        rw [Frame.framedSize] at inside
        omega
  rw [StreamDecoder.unfinished, StreamDecoder.frames_of_none nothing]
  rfl

end WireFormat

/-! ## Runs -/

namespace SessionTrace

/-- Reads deliver the stream of the payloads, cut in any way. -/
def Delivers (payloads : List (List Byte)) (trace : SessionTrace) : SessionAction -> Prop
  | .complete bytes => trace.received ++ bytes <+: binaryStream payloads
  | _ => True

/-- Reads deliver the stream, and each leaves at most `size - 1024` bytes of an
unfinished frame. -/
def DeliversInTime (payloads : List (List Byte)) (trace : SessionTrace) : SessionAction -> Prop
  | .complete bytes => trace.received ++ bytes <+: binaryStream payloads ∧
      (reference trace.limit).unfinished (trace.received ++ bytes) + 1024 ≤
        trace.session.stashBuffer.size.toNat
  | _ => True

/-- Nothing has gone wrong, and the unfinished frame leaves room for a read. -/
structure Punctual (payloads : List (List Byte)) (trace : SessionTrace) : Prop where
  quiet : trace.sizeDisconnects = []
  isPrefix : trace.received <+: binaryStream payloads
  room : (reference trace.limit).unfinished trace.received + 992 ≤ trace.limit

variable {payloads : List (List Byte)}

theorem Punctual.frame {before after : SessionTrace} (holds : Punctual payloads before)
    (quiet : after.sizeDisconnects = before.sizeDisconnects)
    (received : after.received = before.received)
    (limit : after.limit = before.limit) : Punctual payloads after := by
  constructor
  · rw [quiet]
    exact holds.quiet
  · rw [received]
    exact holds.isPrefix
  · rw [received, limit]
    exact holds.room

/-- Outside of `process_stash` the pending bytes are the unfinished ones, which
fixes the write space. -/
theorem Framed.space_of_settled {trace : SessionTrace} (framed : Framed trace)
    (settled : trace.point.Settled) :
    trace.session.stashBuffer.getWriteSpace.toNat =
      trace.session.stashBuffer.size.toNat - (reference trace.limit).unfinished trace.received := by
  rcases framed with ⟨exponent, emitted, inFlight, pending, holds⟩
  have nothing : (reference trace.limit).next pending = none := holds.nothing_pending settled
  rw [holds.represents.space, holds.sized.power, holds.decoded.length_pending nothing]

theorem Punctual.step {before after : SessionTrace} {action : SessionAction}
    (admissible : Admissible before.limit payloads) (framed : Framed before)
    (holds : Punctual payloads before) (admitted : DeliversInTime payloads before action)
    (moves : before.step action = some after) : Punctual payloads after := by
  have limit := step_limit moves
  have size := framed.size_eq
  cases step_move moves with
  | giveUp rechecks narrow =>
      have space := framed.space_of_settled (by rw [rechecks]; trivial)
      have room := holds.room
      have below : before.session.stashBuffer.getWriteSpace.toNat < 1024 := narrow
      omega
  | oversize processes iteration =>
      rcases framed with ⟨exponent, emitted, inFlight, pending, decoding⟩
      have agrees := stashIteration_agrees decoding.sized decoding.represents
      rw [iteration] at agrees
      exact False.elim (not_oversized_of_binaryStream (by omega) admissible decoding.decoded
        holds.isPrefix agrees.2)
  | receive awaits nonempty room =>
      refine ⟨holds.quiet, admitted.1, ?_⟩
      have fits := admitted.2
      rw [size.1] at fits
      exact Nat.le_of_add_le_add_right (b := 32) fits
  | _ => exact holds.frame rfl rfl limit

theorem punctual_of_reachable {trace : SessionTrace} (admissible : Admissible trace.limit payloads)
    (reached : machine.ReachableUnder (DeliversInTime payloads) trace) :
      Punctual payloads trace := by
  refine reached.invariant
    (I := fun trace => Admissible trace.limit payloads -> Punctual payloads trace)
    ?_ ?_ admissible
  · rintro _ ⟨session, created, rfl⟩ _
    have size := (framed_start created).size_eq
    rcases created with ⟨api, mapped, maxSize, created⟩
    rcases NetworkSession.create_sized created with ⟨⟨exponent, sized⟩, _⟩
    have least : 2 ^ 16 ≤ 2 ^ exponent := Nat.pow_le_pow_right (by decide) sized.least
    have power : (start session).session.stashBuffer.size.toNat = 2 ^ exponent := sized.power
    have nothing : (reference (start session).limit).unfinished (start session).received = 0 :=
      Nat.zero_sub _
    exact ⟨rfl, List.nil_prefix, by omega⟩
  · intro before action after reachedBefore holds admitted moves admissible
    rw [step_limit moves] at admissible
    exact (holds admissible).step admissible (framed_of_reachable reachedBefore) admitted moves

/-- A session that comes back to `read_header` with too much of an unfinished
frame disconnects before another read. -/
theorem late_read_disconnects {trace : SessionTrace} (framed : Framed trace)
    (reads : trace.point = .readingHeader)
    (late : trace.session.stashBuffer.size.toNat <
      (reference trace.limit).unfinished trace.received + 1024) :
    Exists fun after => machine.RunsUnder handlerOnly trace after ∧ after.sizeDisconnects ≠ [] := by
  have space := framed.space_of_settled (by rw [reads]; trivial)
  have narrow : trace.session.stashBuffer.getWriteSpace < 1024 := by
    rw [BitVec.lt_def, space, show (1024 : SizeT).toNat = 1024 from rfl]
    omega
  have retried : Move trace (.proceed none) { trace with point := .processing .readHeader } :=
    .retry reads narrow
  rcases framed with ⟨exponent, emitted, inFlight, pending, holds⟩
  have nothing := holds.nothing_pending (by rw [reads]; trivial)
  have agrees := stashIteration_agrees holds.sized holds.represents
  cases iteration : trace.session.stashIteration with
  | leave =>
      have left : Move { trace with point := .processing .readHeader } (.proceed none)
          { trace with point := .rechecking } := @Move.leave _ none .readHeader rfl iteration
      have given : Move { trace with point := .rechecking } (.proceed none)
          (trace.sizeDisconnect .packageExceedsLimit .stopped) := .giveUp rfl narrow
      exact ⟨_, (retried.handled.trans left.handled).trans given.handled, List.concat_ne_nil _ _⟩
  | oversized reason =>
      have refused : Move { trace with point := .processing .readHeader } (.proceed none)
          (trace.sizeDisconnect reason .rechecking) :=
        @Move.oversize _ none .readHeader reason rfl iteration
      exact ⟨_, retried.handled.trans refused.handled, List.concat_ne_nil _ _⟩
  | handOver record =>
      rw [iteration] at agrees
      rcases agrees with ⟨frame, found, _⟩
      cases nothing.symm.trans found

/-- A settled session that has received the whole stream has delivered it. -/
theorem delivered_of_settled {trace : SessionTrace} (admissible : Admissible trace.limit payloads)
    (framed : Framed trace) (whole : trace.received = binaryStream payloads)
    (settled : trace.point.Settled) : trace.payloads = payloads := by
  have size := framed.size_eq
  rw [framed.isExactFraming.settled settled, referencePayloads, whole,
    frames_binaryStream (by omega) admissible, List.map_map]
  exact List.map_id payloads

end SessionTrace

/-- If no read leaves more than `size - 1024` bytes of an unfinished frame, then
no size disconnect is issued, and once all bytes have been read `process_stash`
completes with every payload delivered exactly once and in order. -/
theorem admissible_frames_delivered {payloads : List (List Byte)} {trace : SessionTrace}
    (admissible : Admissible trace.limit payloads)
    (reached : SessionTrace.machine.ReachableUnder (SessionTrace.DeliversInTime payloads) trace) :
    trace.sizeDisconnects = [] ∧
      (trace.received = binaryStream payloads ->
        (trace.point.Settled -> trace.payloads = payloads) ∧
        Exists fun after => SessionTrace.machine.RunsUnder SessionTrace.handlerOnly trace after ∧
          after.point.Settled ∧ after.payloads = payloads ∧ after.sizeDisconnects = []) := by
  have framed := SessionTrace.framed_of_reachable reached
  refine ⟨(SessionTrace.punctual_of_reachable admissible reached).quiet, fun whole => ⟨?_, ?_⟩⟩
  · exact SessionTrace.delivered_of_settled admissible framed whole
  · rcases framed.settles with ⟨after, run, settled, same⟩
    have continued :
        SessionTrace.machine.ReachableUnder (SessionTrace.DeliversInTime payloads) after :=
      reached.continue (run.weaken (fun _ _ handler => handler ▸ trivial))
    have limit : after.limit = trace.limit := SessionTrace.limit_of_run run
    have admissible' : Admissible after.limit payloads := limit ▸ admissible
    exact ⟨after, run, settled,
      SessionTrace.delivered_of_settled admissible' (SessionTrace.framed_of_reachable continued)
        (same.trans whole) settled,
      (SessionTrace.punctual_of_reachable admissible' continued).quiet⟩

instance (payloads : List (List Byte)) (trace : SessionTrace) (action : SessionAction) :
    Decidable (SessionTrace.DeliversInTime payloads trace action) :=
  match action with
  | .complete _ => inferInstanceAs (Decidable (_ ∧ _))
  | .proceed _ => inferInstanceAs (Decidable True)
  | .fail => inferInstanceAs (Decidable True)

/-- One frame of two bytes, in two pieces. -/
theorem admissible_frames_delivered_twoPieces :
    let reached := (SessionTrace.machine.executeUnder (SessionTrace.DeliversInTime [[0x31, 0x32]])
      (SessionTrace.start NetworkSession.oneMebibyte)
      [.proceed none, .complete [0xDE, 0xAD, 0xBE, 0xEF, 0, 0], .proceed none, .proceed none,
        .complete [0, 2, 0x31, 0x32]]).get (by decide)
    reached.sizeDisconnects = [] ∧
      (reached.received = binaryStream [[0x31, 0x32]] ->
        (reached.point.Settled -> reached.payloads = [[0x31, 0x32]]) ∧
        Exists fun after => SessionTrace.machine.RunsUnder SessionTrace.handlerOnly reached after ∧
          after.point.Settled ∧ after.payloads = [[0x31, 0x32]] ∧ after.sizeDisconnects = []) :=
  admissible_frames_delivered (by decide)
    (Machine.reachableUnder_of_execute SessionTrace.oneMebibyte_initial (by decide))

/-! ## A frame that is refused -/

namespace SessionTrace

theorem start_space {session : NetworkSession} (created : Created session) :
    session.stashBuffer.getWriteSpace.toNat = session.stashBuffer.size.toNat ∧
      2 ^ 16 ≤ session.stashBuffer.size.toNat := by
  constructor
  · have all := (framed_start created).space_of_settled trivial
    have nothing : (reference (start session).limit).unfinished (start session).received = 0 :=
      Nat.zero_sub _
    rw [nothing] at all
    exact all
  · rcases created with ⟨_, _, _, created⟩
    rcases NetworkSession.create_sized created with ⟨⟨exponent, sized⟩, _⟩
    exact sized.power ▸ Nat.pow_le_pow_right (by decide) sized.least

theorem first_read {guard : SessionTrace -> SessionAction -> Prop} {session : NetworkSession}
    (created : Created session) {bytes : List Byte} (nonempty : bytes ≠ [])
    (room : bytes.length ≤ session.stashBuffer.size.toNat)
    (begins : guard (start session) (.proceed none))
    (admitted : guard { start session with point := .awaiting session.stashBuffer.getWriteSpace }
      (.complete bytes)) :
    machine.RunsUnder guard (start session) ((start session).receive bytes) := by
  rcases start_space created with ⟨space, large⟩
  have awaits : Move (start session) (.proceed none)
      { start session with point := .awaiting session.stashBuffer.getWriteSpace } := by
    refine .await (Or.inl rfl) ?_
    rw [BitVec.lt_def]
    change ¬ session.stashBuffer.getWriteSpace.toNat < 1024
    omega
  have reads : Move { start session with point := .awaiting session.stashBuffer.getWriteSpace }
    (.complete bytes)
      ((start session).receive bytes) := .receive rfl nonempty (by omega)
  exact (Relation.ReflTransGen.single ⟨_, begins, awaits.step⟩).tail ⟨_, admitted, reads.step⟩

/-- The first read brings any part of the stream that fits into the ring. -/
theorem first_read_delivered {payloads : List (List Byte)} {session : NetworkSession}
    (created : Created session) {bytes : List Byte}
    (isPrefix : bytes <+: binaryStream payloads) (nonempty : bytes ≠ [])
    (room : bytes.length ≤ session.stashBuffer.size.toNat) :
    machine.ReachableUnder (Delivers payloads) ((start session).receive bytes) :=
  ⟨start session, ⟨session, created, rfl⟩, first_read created nonempty room trivial isPrefix⟩

end SessionTrace

/-- When the first read brings all but a few bytes of a large frame, the session
disconnects instead of reading the rest. -/
theorem late_first_read_disconnects {session : NetworkSession}
    (created : SessionTrace.Created session)
    {payload bytes : List Byte} (admissible : Admissible session.maxLogSize.toNat [payload])
    (isPrefix : bytes <+: Frame.encodeBinary payload) (less : bytes.length < 8 + payload.length)
    (room : bytes.length ≤ session.stashBuffer.size.toNat)
    (late : session.stashBuffer.size.toNat < bytes.length + 1024) :
    Exists fun trace => trace.limit = session.maxLogSize.toNat ∧
      SessionTrace.machine.ReachableUnder (SessionTrace.Delivers [payload]) trace ∧
      trace.sizeDisconnects ≠ [] := by
  rcases admissible payload List.mem_cons_self with ⟨positive, within⟩
  have admitted : forall trace action, SessionTrace.handlerOnly trace action ->
      SessionTrace.Delivers [payload] trace action := fun _ _ handler => handler ▸ trivial
  have size : session.stashBuffer.size.toNat = session.maxLogSize.toNat + 32 :=
    (SessionTrace.framed_start created).size_eq.1
  have small : session.maxLogSize.toNat < 2 ^ 31 := (SessionTrace.framed_start created).size_eq.2
  have nonempty : bytes ≠ [] := by
    have large := (SessionTrace.start_space created).2
    rintro rfl
    rw [List.length_nil] at late
    omega
  have whole : binaryStream [payload] = Frame.encodeBinary payload := List.flatMap_singleton _ _
  have delivered := SessionTrace.first_read_delivered created (whole.symm ▸ isPrefix) nonempty room
  rcases (SessionTrace.framed_of_reachable delivered).readsAgain rfl with
    ⟨settled, run, reads, received⟩
  have reached := delivered.continue (run.weaken admitted)
  have framed := SessionTrace.framed_of_reachable reached
  have limit : settled.limit = session.maxLogSize.toNat := SessionTrace.limit_of_run run
  have unfinished : (reference settled.limit).unfinished settled.received = bytes.length := by
    rw [received, limit]
    exact unfinished_of_partial (by omega) positive within isPrefix less
  have tooLate : settled.session.stashBuffer.size.toNat <
      (reference settled.limit).unfinished settled.received + 1024 := by
    rw [unfinished, framed.size_eq.1, limit]
    omega
  rcases SessionTrace.late_read_disconnects framed reads tooLate with ⟨after, more, refused⟩
  exact ⟨after, (SessionTrace.limit_of_run more).trans limit,
    reached.continue (more.weaken admitted), refused⟩

/-- A frame of the greatest admissible length is refused when the first read
leaves only a thousand bytes of the ring free. -/
theorem admissible_frame_refused :
    Exists fun payloads => Exists fun trace => Admissible (SessionTrace.limit trace) payloads ∧
      SessionTrace.machine.ReachableUnder (SessionTrace.Delivers payloads) trace ∧
      trace.sizeDisconnects ≠ [] := by
  have limit : NetworkSession.oneMebibyte.maxLogSize.toNat = 1048544 := by decide
  have size : NetworkSession.oneMebibyte.stashBuffer.size.toNat = 1048576 := by decide
  have length : (List.replicate 1048544 (0 : Byte)).length = 1048544 := List.length_replicate
  have admissible : Admissible NetworkSession.oneMebibyte.maxLogSize.toNat
      [List.replicate 1048544 (0 : Byte)] := by
    intro payload member
    rw [List.mem_singleton.mp member, length, limit]
    decide
  have taken : ((Frame.encodeBinary (List.replicate 1048544 0)).take 1047576).length = 1047576 := by
    rw [List.length_take, length_encodeBinary, length]
    decide
  rcases late_first_read_disconnects NetworkSession.oneMebibyte_created admissible
    (List.take_prefix 1047576 _) (by omega) (by omega) (by omega) with
      ⟨trace, same, reached, refused⟩
  exact ⟨_, trace, by rw [same]; exact admissible, reached, refused⟩

end Network
end VortexEngine
