import VortexEngine.Foundations.StreamEncoder
import VortexEngine.Network.FrameDelivery

open VortexEngine.Foundations

namespace VortexEngine
namespace Network

/-!
# Streams of both framings

A client may change between binary frames and text lines from one frame to the
next.  A line is told from a binary frame by its first four bytes, so three
bytes of a short line wait for what follows it.

The session reads such a stream back, whatever the pieces are, and gives up on
no frame that leaves 1024 bytes of the ring free: then `read_header` always
finds room for another read.
-/

namespace Frame

/-- The wire format of a frame. -/
def encode : Frame -> List Byte
  | binary payload => encodeBinary payload
  | line payload => payload ++ [newline]

/-- A client can send the frame: a binary frame is neither empty nor above the
limit, and a line contains no newline, does not look like a binary frame and is
not above the limit. -/
def Sendable (limit : Nat) : Frame -> Prop
  | binary payload => 1 ≤ payload.length ∧ payload.length ≤ limit
  | line payload => newline ∉ payload ∧ payload.take 4 ≠ magic ∧ payload.length ≤ limit

instance (limit : Nat) : (frame : Frame) -> Decidable (frame.Sendable limit)
  | binary payload => inferInstanceAs (Decidable (1 ≤ payload.length ∧ payload.length ≤ limit))
  | line payload =>
      inferInstanceAs
        (Decidable (newline ∉ payload ∧ payload.take 4 ≠ magic ∧ payload.length ≤ limit))

theorem length_encode (frame : Frame) : frame.encode.length = frame.framedSize := by
  cases frame with
  | binary payload => exact length_encodeBinary payload
  | line payload => exact List.length_append

end Frame

/-- The frames one behind the other. -/
def mixedStream (frames : List Frame) : List Byte :=
  frames.flatMap Frame.encode

section WireFormat

variable {limit : Nat} {payload rest : List Byte}

/-- A line does not start like a binary frame, not even with what follows it. -/
theorem take_four_line (startsText : payload.take 4 ≠ Frame.magic) :
    (payload ++ Frame.newline :: rest).take 4 ≠ Frame.magic := by
  by_cases long : 4 ≤ payload.length
  · rw [List.take_append_of_le_length long]
    exact startsText
  · intro looksBinary
    have ends : Frame.newline ∈ (payload ++ Frame.newline :: rest).take 4 := by
      have room : 4 - payload.length = (3 - payload.length) + 1 := by omega
      rw [List.take_append, room, List.take_succ_cons]
      exact List.mem_append_right _ List.mem_cons_self
    rw [looksBinary] at ends
    exact absurd ends (by decide)

theorem takeWhile_line (whole : Frame.newline ∉ payload) :
    (payload ++ Frame.newline :: rest).takeWhile (· != Frame.newline) = payload := by
  have passes : forall byte, byte ∈ payload -> (byte != Frame.newline) = true := by
    intro byte member
    rw [bne_iff_ne]
    rintro rfl
    exact whole member
  rw [List.takeWhile_append_of_pos passes, List.takeWhile_cons_of_neg (by simp), List.append_nil]

theorem nextFrame_encodeLine (whole : Frame.newline ∉ payload)
    (startsText : payload.take 4 ≠ Frame.magic)
    (probed : 4 ≤ (payload ++ Frame.newline :: rest).length) :
    nextFrame limit (payload ++ Frame.newline :: rest) = some (.line payload) := by
  have delimited : Frame.newline ∈ payload ++ Frame.newline :: rest :=
    List.mem_append_right _ List.mem_cons_self
  rw [nextFrame_line probed (take_four_line startsText) delimited, takeWhile_line whole]

/-- Both framings, as one encoder. -/
def wire (limit : Nat) : StreamEncoder (reference limit) where
  encode := Frame.encode
  Admits := fun frame => limit < 2 ^ 32 ∧ frame.Sendable limit
  lookahead := 4
  length_encode := fun _ => Frame.length_encode _
  next_encode := by
    rintro frame rest ⟨small, sendable⟩ enough
    cases frame with
    | binary payload =>
        exact nextFrame_encodeBinary
          (Nat.lt_of_le_of_lt sendable.2 small) sendable.1 sendable.2 rest
    | line payload =>
        change nextFrame limit (payload ++ [Frame.newline] ++ rest) = _
        have joined : payload ++ [Frame.newline] ++ rest = payload ++ Frame.newline :: rest :=
          List.append_assoc _ _ _
        have probed : 4 ≤ (payload ++ [Frame.newline] ++ rest).length := enough
        rw [joined] at probed ⊢
        exact nextFrame_encodeLine sendable.1 sendable.2.1 probed
  next_short := by
    intro stream short
    change nextFrame limit stream = none
    rw [nextFrame, if_pos short]

/-- No part of a sendable frame that has arrived looks oversized. -/
theorem not_oversized_of_encode {frame : Frame} {arrived : List Byte} (small : limit < 2 ^ 32)
    (sendable : frame.Sendable limit)
    (isPrefix : arrived <+: frame.encode ++ rest) : ¬ Oversized limit arrived := by
  cases frame with
  | binary payload =>
      exact not_oversized_of_isPrefix
        (Nat.lt_of_le_of_lt sendable.2 small) sendable.1 sendable.2 isPrefix
  | line payload =>
      rintro ⟨probed, refused⟩
      have joined : Frame.encode (.line payload) ++ rest = payload ++ Frame.newline :: rest :=
        List.append_assoc _ _ _
      rw [joined] at isPrefix
      have text : arrived.take 4 ≠ Frame.magic := by
        rcases isPrefix with ⟨later, whole⟩
        rw [← List.take_append_of_le_length probed, whole]
        exact take_four_line sendable.2.1
      rw [if_neg text] at refused
      -- without its newline no more than the payload can have arrived
      have within : arrived.length ≤ payload.length := by
        by_contra long
        have covers : payload ++ [Frame.newline] <+: arrived := by
          refine List.prefix_of_prefix_length_le ⟨rest, List.append_assoc _ _ _⟩ isPrefix ?_
          rw [List.length_append, List.length_singleton]
          omega
        exact refused.1 (covers.subset (List.mem_append_right _ (List.mem_singleton.mpr rfl)))
      exact Nat.not_lt_of_le (within.trans sendable.2.2) refused.2

end WireFormat

/-! ## Runs -/

/-- Every frame can be sent and leaves 1024 bytes of the ring, which is 32 bytes
larger than the limit. -/
def Manageable (limit : Nat) (frames : List Frame) : Prop :=
  forall frame, frame ∈ frames -> frame.Sendable limit ∧ frame.framedSize + 992 ≤ limit

instance (limit : Nat) (frames : List Frame) : Decidable (Manageable limit frames) :=
  inferInstanceAs (Decidable (forall frame, frame ∈ frames -> _))

namespace SessionTrace

/-- Reads deliver the stream of the frames, cut in any way. -/
def DeliversFrames (frames : List Frame) (trace : SessionTrace) : SessionAction -> Prop
  | .complete bytes => trace.received ++ bytes <+: mixedStream frames
  | _ => True

instance (frames : List Frame) (trace : SessionTrace) :
    (action : SessionAction) -> Decidable (DeliversFrames frames trace action)
  | .complete bytes => inferInstanceAs (Decidable (trace.received ++ bytes <+: mixedStream frames))
  | .proceed _ => inferInstanceAs (Decidable True)
  | .fail => inferInstanceAs (Decidable True)

/-- Nothing but the stream has arrived, and the framing code is content. -/
structure Served (frames : List Frame) (trace : SessionTrace) : Prop where
  quiet : trace.sizeDisconnects = []
  isPrefix : trace.received <+: mixedStream frames

variable {frames : List Frame} {before after trace : SessionTrace}

theorem admits_of_manageable (framed : trace.Framed) (manageable : Manageable trace.limit frames) :
    forall frame, frame ∈ frames -> (wire trace.limit).Admits frame := by
  intro frame member
  have small := framed.size_eq.2
  exact ⟨by omega, (manageable frame member).1⟩

/-- Between two passes of the framing loop there is room for a read. -/
theorem Served.space (framed : trace.Framed) (manageable : Manageable trace.limit frames)
    (served : Served frames trace) (settled : trace.point.Settled) :
    1024 ≤ trace.session.stashBuffer.getWriteSpace.toNat := by
  have size := framed.size_eq.1
  have admitted := admits_of_manageable framed manageable
  rw [framed.space_of_settled settled, size]
  rcases framed with ⟨exponent, emitted, inFlight, pending, holds⟩
  have nothing : (reference trace.limit).next pending = none := holds.nothing_pending settled
  have least : 2 ^ 16 ≤ 2 ^ exponent := Nat.pow_le_pow_right (by decide) holds.sized.least
  have power := holds.sized.power
  rw [← holds.decoded.length_pending nothing]
  rcases (wire trace.limit).decoded_stream admitted holds.decoded served.isPrefix with
    ⟨others, rfl, isPrefix⟩
  cases others with
  | nil =>
      rw [List.prefix_nil.mp isPrefix, List.length_nil]
      omega
  | cons frame others =>
      have member : frame ∈ emitted ++ frame :: others := List.mem_append_right _ List.mem_cons_self
      have short := StreamEncoder.pending_short (admitted frame member) isPrefix nothing
      have room := (manageable frame member).2
      change pending.length < max 4 frame.framedSize at short
      omega

theorem Served.step (framed : before.Framed) (manageable : Manageable before.limit frames)
    (served : Served frames before) {action : SessionAction}
    (admitted : DeliversFrames frames before action)
    (moves : before.step action = some after) : Served frames after := by
  cases step_move moves with
  | giveUp rechecks narrow =>
      have space := served.space framed manageable (by rw [rechecks]; trivial)
      have below : before.session.stashBuffer.getWriteSpace.toNat < 1024 := narrow
      omega
  | oversize processes iteration =>
      have admits := admits_of_manageable framed manageable
      have small : before.limit < 2 ^ 32 := framed.size_eq.2.trans (by decide)
      rcases framed with ⟨exponent, emitted, inFlight, pending, holds⟩
      have agrees := stashIteration_agrees holds.sized holds.represents
      rw [iteration] at agrees
      rcases (wire before.limit).decoded_stream admits holds.decoded served.isPrefix with
        ⟨others, rfl, isPrefix⟩
      cases others with
      | nil =>
          have oversized := agrees.2
          rw [List.prefix_nil.mp isPrefix] at oversized
          exact absurd oversized.1 (by decide)
      | cons frame others =>
          have sendable := (manageable frame (List.mem_append_right _ List.mem_cons_self)).1
          rw [StreamEncoder.stream_cons] at isPrefix
          exact absurd agrees.2 (not_oversized_of_encode small sendable isPrefix)
  | receive awaits nonempty room => exact ⟨served.quiet, admitted⟩
  | _ => exact ⟨served.quiet, served.isPrefix⟩

theorem served_of_reachable (manageable : Manageable trace.limit frames)
    (reached : machine.ReachableUnder (DeliversFrames frames) trace) : Served frames trace := by
  refine reached.invariant (I := fun trace => Manageable trace.limit frames -> Served frames trace)
    ?_ ?_ manageable
  · rintro _ ⟨session, _, rfl⟩ _
    exact ⟨rfl, List.nil_prefix⟩
  · intro before action after reachedBefore holds admitted moves manageable
    rw [step_limit moves] at manageable
    exact (holds manageable).step (framed_of_reachable reachedBefore) manageable admitted moves

theorem Served.payloads_prefix (served : Served frames trace) (framed : trace.Framed)
    (manageable : Manageable trace.limit frames) : trace.payloads <+: frames.map Frame.payload := by
  rcases served.isPrefix with ⟨later, whole⟩
  have read := (wire trace.limit).frames_stream (admits_of_manageable framed manageable)
  have stream : trace.received ++ later = (wire trace.limit).stream frames := whole
  have begins :=
    @StreamDecoder.frames_prefix_append _ _ (reference trace.limit) trace.received later
  rw [stream, read] at begins
  exact framed.isExactFraming.isPrefix.trans
    ((begins.trans (StreamEncoder.settled_prefix frames)).map Frame.payload)

/-- A settled session that has received the whole stream has handed everything
over but what the lookahead holds back. -/
theorem handed_of_settled (framed : trace.Framed) (manageable : Manageable trace.limit frames)
    (whole : trace.received = mixedStream frames) (settled : trace.point.Settled) :
    trace.payloads = ((wire trace.limit).settled frames).map Frame.payload := by
  have read := (wire trace.limit).frames_stream (admits_of_manageable framed manageable)
  rw [framed.isExactFraming.settled settled, referencePayloads, whole]
  exact congrArg (List.map Frame.payload) read

/-- What a session does with a stream of both framings. -/
structure ReadsBack (frames : List Frame) (trace : SessionTrace) : Prop where
  /-- the framing code never asks for a disconnect -/
  quiet : trace.sizeDisconnects = []
  /-- there is room for the next read whenever the framing loop has ended -/
  room : trace.point.Settled -> 1024 ≤ trace.session.stashBuffer.getWriteSpace.toNat
  /-- the payloads arrive in order, each once, whichever framing they had -/
  isPrefix : trace.payloads <+: frames.map Frame.payload
  /-- the handler ends, and a stream that has arrived then is handed over -/
  complete : trace.received = mixedStream frames -> Exists fun after =>
    machine.RunsUnder handlerOnly trace after ∧ after.point.Settled ∧
      after.payloads = ((wire trace.limit).settled frames).map Frame.payload
  /-- a last frame of at least four bytes is not held back -/
  last : forall others frame, frames = others ++ [frame] -> 4 ≤ frame.framedSize ->
    (wire trace.limit).settled frames = frames

end SessionTrace

open SessionTrace in
/-- A session reads back every stream of binary frames and text lines that are
at most 1024 bytes smaller than its ring, however the network cuts it. -/
theorem mixed_stream_read_back {frames : List Frame} {trace : SessionTrace}
    (manageable : Manageable trace.limit frames)
    (reached : machine.ReachableUnder (DeliversFrames frames) trace) :
    trace.ReadsBack frames := by
  have framed := framed_of_reachable reached
  have served := served_of_reachable manageable reached
  constructor
  · exact served.quiet
  · exact served.space framed manageable
  · exact served.payloads_prefix framed manageable
  · intro whole
    rcases framed.settles with ⟨after, run, settled, same⟩
    have limit : after.limit = trace.limit := limit_of_run run
    refine ⟨after, run, settled, ?_⟩
    rw [← limit]
    have continued : machine.ReachableUnder (DeliversFrames frames) after :=
      reached.continue (run.weaken (fun _ _ handler => handler ▸ trivial))
    exact handed_of_settled (framed_of_reachable continued) (limit ▸ manageable)
      (same.trans whole) settled
  · rintro others frame rfl long
    exact StreamEncoder.settled_of_last (Frame.length_encode frame ▸ long)

/-- A line of two bytes waits for the binary frame behind it, which arrives in
two pieces. -/
theorem mixed_stream_read_back_twoFramings :
    ((SessionTrace.machine.executeUnder (SessionTrace.DeliversFrames [.line [0x31], .binary [0x32]])
      (SessionTrace.start NetworkSession.oneMebibyte)
      [.proceed none, .complete [0x31, 0x0A], .proceed none, .proceed none,
        .complete [0xDE, 0xAD, 0xBE, 0xEF, 0, 0], .proceed none, .proceed none, .proceed none,
          .proceed none, .complete [0, 1, 0x32], .proceed none]).get (by decide)).ReadsBack
            [.line [0x31], .binary [0x32]] :=
  mixed_stream_read_back (by decide)
    (Machine.reachableUnder_of_execute SessionTrace.oneMebibyte_initial (by decide))

end Network
end VortexEngine
