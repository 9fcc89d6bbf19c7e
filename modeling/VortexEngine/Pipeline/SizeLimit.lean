import VortexEngine.Network.FrameDelivery
import VortexEngine.Network.SlabRotation
import VortexEngine.Pipeline.PayloadIntegrity

open VortexEngine.Foundations VortexEngine.Network

namespace VortexEngine
namespace Pipeline

/-!
# The configured size limit

`process_stash` compares the announced length of a binary frame with
`max_log_size` before anything else.  For a text line the limit is compared
with the number of buffered bytes, and only while there is no newline among
them.  The ring is 32 bytes larger than the limit, so a line that arrives
together with its newline may exceed the limit by up to 31 bytes, and then its
message may exceed a slab too.

Both halves of the limit hold exactly for the streams without such a line.
-/

/-- No line of the stream, as the reference decoder splits it, exceeds the limit. -/
def ShortLines (limit : Nat) (stream : List Byte) : Prop :=
  forall line, Frame.line line ∈ (reference limit).frames stream -> line.length ≤ limit

/-- Every record handed over is within `max_log_size`, and whenever the parser
accepts it, any pool with the slab size that belongs to the `log_size` has a
region for its message. -/
structure KeepsSizeLimit (maxSize : SizeT) (trace : SessionTrace) : Prop where
  limited : forall record, record ∈ trace.handed -> record.logData.bytes.length ≤ trace.limit
  allocated : forall record, record ∈ trace.handed -> forall (parser : ParserFunc) clock fields,
    parser.fields clock record.logData = some (.ok fields) ->
      forall pool : SlabPool, pool.slabSize = maxSize * 1024 * 1024 ->
        pool.getNextSlab fields.message ≠ none

/-! ## The reference decode -/

section Reference

variable {limit : Nat} {stream : List Byte}

/-- The decoder refuses binary frames above the limit. -/
theorem binary_length_le {payload : List Byte}
    (member : .binary payload ∈ (reference limit).frames stream) :
    payload.length ≤ limit := by
  rcases StreamDecoder.exists_next_of_mem_frames member with ⟨remaining, found⟩
  rcases nextFrame_cases found with ⟨_, _, within, _, same⟩ | ⟨_, _, _, same⟩
  · cases same
    exact Nat.le_trans (List.length_take_le _ _) within
  · cases same

/-- Only lines can exceed the limit. -/
theorem referencePayloads_le_iff :
    (forall payload, payload ∈ referencePayloads limit stream -> payload.length ≤ limit) ↔
      ShortLines limit stream := by
  unfold referencePayloads
  constructor
  · intro bounded line member
    exact bounded line (List.mem_map_of_mem member)
  · intro short payload member
    rcases List.mem_map.mp member with ⟨frame, found, rfl⟩
    cases frame with
    | binary payload => exact binary_length_le found
    | line payload => exact short payload found

end Reference

/-! ## Runs -/

section Runs

variable {guard : SessionTrace -> SessionAction -> Prop} {before after trace : SessionTrace}

/-- A record that is handed over stands in the ring as a whole, with its header
or its newline. -/
theorem handed_lt_size (reached : SessionTrace.machine.ReachableUnder guard trace) :
    forall record, record ∈ trace.handed ->
      record.logData.bytes.length < trace.session.stashBuffer.size.toNat := by
  have bounded : forall record, record ∈ trace.handed ->
      record.logData.bytes.length < trace.limit + 32 := by
    refine reached.invariant (I := fun trace => forall record, record ∈ trace.handed ->
      record.logData.bytes.length < trace.limit + 32) ?_ ?_
    · rintro _ ⟨session, _, rfl⟩ record member
      cases member
    · intro before action after reached holds _ moves
      have framed := SessionTrace.framed_of_reachable reached
      rw [SessionTrace.step_limit moves]
      cases SessionTrace.step_move moves with
      | @handOver _ _ record processes iteration =>
          intro handed member
          rcases List.mem_append.mp member with earlier | last
          · exact holds handed earlier
          · rw [List.mem_singleton.mp last]
            have size := framed.size_eq.1
            rcases framed with ⟨exponent, _, _, pending, decoding⟩
            have agrees := stashIteration_agrees decoding.sized decoding.represents
            rw [iteration] at agrees
            rcases agrees with ⟨frame, found, payload, _⟩
            have inside := framedSize_le found
            have fits := decoding.represents.fits
            have power := decoding.sized.power
            have shorter := frame.payload_length_lt
            rw [payload]
            omega
      | _ => exact holds
  intro record member
  rw [(SessionTrace.framed_of_reachable reached).size_eq.1]
  exact bounded record member

/-- No record is longer than the largest ring. -/
theorem handed_length_le (reached : SessionTrace.machine.ReachableUnder guard trace) :
    forall record, record ∈ trace.handed -> record.logData.bytes.length ≤ 2 ^ 31 := by
  intro record member
  have inside := handed_lt_size reached record member
  rcases SessionTrace.framed_of_reachable reached with ⟨exponent, _, _, _, decoding⟩
  have most : 2 ^ exponent ≤ 2 ^ 31 := Nat.pow_le_pow_right (by decide) decoding.sized.most
  rw [decoding.sized.power] at inside
  omega

/-- The next parts of the handler, whatever the parser decides, and no read. -/
def handlerParts (_trace : SessionTrace) (action : SessionAction) : Prop :=
  Exists fun verdict => action = .proceed verdict

theorem received_of_handlerParts (run : SessionTrace.machine.RunsUnder handlerParts before after) :
    after.received = before.received := by
  refine run.preserves (I := fun trace => trace.received = before.received) ?_ rfl
  rintro state _ state' same ⟨verdict, rfl⟩ moves
  have moved : state.step (.proceed verdict) = some state' := moves
  cases SessionTrace.step_move moved <;> exact same

/-- A message within the limit fits into a slab of the configured size. -/
theorem getNextSlab_of_le_limit {api : MemoryApi} {mapped : Nat -> Byte} {maxSize : SizeT}
    {session : NetworkSession} (created : NetworkSession.create api mapped maxSize = some session)
    {message : List Byte}
    (within : message.length ≤ session.maxLogSize.toNat) {pool : SlabPool}
    (configured : pool.slabSize = maxSize * 1024 * 1024) : pool.getNextSlab message ≠ none := by
  have framed := SessionTrace.framed_start ⟨api, mapped, maxSize, created⟩
  have size : session.stashBuffer.size.toNat = session.maxLogSize.toNat + 32 := framed.size_eq.1
  have rounded := bitFloor_le (maxSize * 1024 * 1024)
  have bound := session.maxLogSize.isLt
  have small : session.maxLogSize.toNat < 2 ^ 31 := framed.size_eq.2
  rw [← NetworkSession.create_size created, ← configured] at rounded
  have needed := @SlabPool.totalNeeded_toNat message (by omega)
  intro refused
  have large : pool.slabSize.toNat < (SlabPool.totalNeeded message).toNat :=
    SlabPool.getNextSlab_eq_none.mp refused
  rw [needed, SharedLogEntryHeader.size] at large
  omega

theorem KeepsSizeLimit.of_limited {api : MemoryApi} {mapped : Nat -> Byte} {maxSize : SizeT}
    {session : NetworkSession} (created : NetworkSession.create api mapped maxSize = some session)
    (run : SessionTrace.machine.RunsUnder guard (SessionTrace.start session) trace)
    (limited : forall record, record ∈ trace.handed -> record.logData.bytes.length ≤ trace.limit) :
    KeepsSizeLimit maxSize trace := by
  refine ⟨limited, ?_⟩
  intro record member parser clock fields parsed pool configured
  have part := ParserFunc.message_length_le parsed
  have within := limited record member
  rw [SessionTrace.limit_of_run run] at within
  exact getNextSlab_of_le_limit created (Nat.le_trans part within) configured

/-- The records of every reachable state are within the limit when no line of
the stream exceeds it. -/
theorem handed_le_of_shortLines (framed : SessionTrace.Framed trace)
    (short : ShortLines trace.limit trace.received) :
    forall record, record ∈ trace.handed -> record.logData.bytes.length ≤ trace.limit := by
  intro record member
  have payload : record.logData.bytes ∈ trace.payloads := List.mem_map_of_mem member
  exact referencePayloads_le_iff.mpr short _ (framed.isExactFraming.isPrefix.subset payload)

/-- Outside of `process_stash` every line has been handed over. -/
theorem shortLines_of_settled (framed : SessionTrace.Framed trace) (settled : trace.point.Settled)
    (limited : forall record, record ∈ trace.handed -> record.logData.bytes.length ≤ trace.limit) :
    ShortLines trace.limit trace.received := by
  apply referencePayloads_le_iff.mp
  rw [← framed.isExactFraming.settled settled]
  intro payload member
  rcases List.mem_map.mp member with ⟨record, handed, rfl⟩
  exact limited record handed

end Runs

/-- The size limit holds until the next read exactly when no line received so
far exceeds it. -/
theorem size_limit_kept_iff {api : MemoryApi} {mapped : Nat -> Byte} {maxSize : SizeT}
    {session : NetworkSession} {trace : SessionTrace}
    (created : NetworkSession.create api mapped maxSize = some session)
    (run : SessionTrace.machine.Runs (SessionTrace.start session) trace) :
    (forall after, SessionTrace.machine.RunsUnder handlerParts trace after ->
      KeepsSizeLimit maxSize after) ↔
      ShortLines trace.limit trace.received := by
  have initial : SessionTrace.machine.initial (SessionTrace.start session) :=
    ⟨session, ⟨api, mapped, maxSize, created⟩, rfl⟩
  have continued : forall after, SessionTrace.machine.RunsUnder handlerParts trace after ->
      SessionTrace.machine.Runs (SessionTrace.start session) after := fun after more =>
    run.trans (more.weaken (fun _ _ _ => trivial))
  constructor
  · intro keeps
    have reached : SessionTrace.machine.Reachable trace := ⟨_, initial, run⟩
    rcases (SessionTrace.framed_of_reachable reached).settles with ⟨after, more, settled, received⟩
    have parts : SessionTrace.machine.RunsUnder handlerParts trace after :=
      more.weaken (fun _ _ handler => ⟨none, handler⟩)
    have framed := SessionTrace.framed_of_reachable ⟨_, initial, continued after parts⟩
    rw [← received, ← SessionTrace.limit_of_run more]
    exact shortLines_of_settled framed settled (keeps after parts).limited
  · intro short after more
    have framed := SessionTrace.framed_of_reachable ⟨_, initial, continued after more⟩
    apply KeepsSizeLimit.of_limited created (continued after more)
    apply handed_le_of_shortLines framed
    rw [received_of_handlerParts more, SessionTrace.limit_of_run more]
    exact short

/-- Two lines in one read. -/
theorem size_limit_kept_iff_twoLines :
    let trace := (SessionTrace.machine.executeUnder Machine.anyAction
      (SessionTrace.start NetworkSession.oneMebibyte)
      [.proceed none, .complete [0x31, 0x20, 0x32, 0x0A, 0x33, 0x20, 0x34, 0x0A],
        .proceed none]).get (by decide)
    (forall after, SessionTrace.machine.RunsUnder handlerParts trace after ->
      KeepsSizeLimit 1 after) ↔
      ShortLines trace.limit trace.received :=
  @size_limit_kept_iff MemoryApi.willing (fun _ => 0) 1 _ _ (Option.some_get _).symm
    (Machine.runsUnder_of_execute (Option.some_get _).symm)

/-! ## A line that is too long -/

/-- A line with the message, at the second 1000. -/
def lineOf (message : List Byte) : List Byte :=
  (recordAt (recordTime 0x30) message).bytes

theorem length_lineOf (message : List Byte) : (lineOf message).length = message.length + 9 := by
  simp [lineOf, recordAt, recordTime]

theorem lineOf_undelimited {message : List Byte}
    (clean : forall byte, byte ∈ message -> byte ≠ Frame.newline) :
    forall byte, byte ∈ lineOf message -> (byte != Frame.newline) = true := by
  intro byte member
  simp only [lineOf, recordAt, recordTime, List.cons_append, List.nil_append,
    List.mem_cons] at member
  rcases member with rfl | rfl | rfl | rfl | rfl | rfl | rfl | rfl | rfl | last
  all_goals first | decide | exact bne_iff_ne.mpr (clean byte last)

theorem nextFrame_lineOf {limit : Nat} {message : List Byte}
    (clean : forall byte, byte ∈ message -> byte ≠ Frame.newline) (later : List Byte) :
    nextFrame limit (lineOf message ++ Frame.newline :: later) = some (.line (lineOf message)) := by
  have probed : 4 ≤ (lineOf message ++ Frame.newline :: later).length := by
    rw [List.length_append, length_lineOf]
    omega
  have startsText : (lineOf message ++ Frame.newline :: later).take 4 = recordTime 0x30 := rfl
  rw [nextFrame_line probed (by rw [startsText]; decide)
    (List.mem_append_right _ List.mem_cons_self),
    List.takeWhile_append_of_pos (lineOf_undelimited clean), List.takeWhile_cons_of_neg (by decide),
    List.append_nil]

/-- A line that arrives in one read with its newline reaches the parser although
it exceeds the limit, and then there is no region for its message. -/
theorem overlong_line_without_slab :
    Exists fun trace => SessionTrace.machine.Runs
      (SessionTrace.start NetworkSession.oneMebibyte) trace ∧
      Exists fun record => record ∈ trace.handed ∧ trace.limit < record.logData.bytes.length ∧
        Exists fun fields => ParserFunc.parseAndPush.fields 1000 record.logData =
          some (.ok fields) ∧
          forall pool : SlabPool, pool.slabSize = 1 * 1024 * 1024 ->
            pool.getNextSlab fields.message = none := by
  have large : Exists fun message : List Byte => message.length = 1048566 ∧
      forall byte, byte ∈ message -> byte ≠ Frame.newline := by
    refine ⟨messageOfLength 1048566, List.length_replicate, ?_⟩
    intro byte member
    rw [List.eq_of_mem_replicate member]
    decide
  rcases large with ⟨message, length, clean⟩
  have size : NetworkSession.oneMebibyte.stashBuffer.size.toNat = 1048576 := by decide
  have limit : NetworkSession.oneMebibyte.maxLogSize.toNat = 1048544 := by decide
  have room : (lineOf message ++ [Frame.newline]).length ≤
      NetworkSession.oneMebibyte.stashBuffer.size.toNat := by
    rw [List.length_append, length_lineOf, length, size, List.length_singleton]
  have received := @SessionTrace.first_read Machine.anyAction _ NetworkSession.oneMebibyte_created _
    (List.concat_ne_nil Frame.newline (lineOf message)) room trivial trivial
  have initial := SessionTrace.oneMebibyte_initial
  have framed := SessionTrace.framed_of_reachable ⟨_, initial, received⟩
  rcases framed.readsAgain rfl with ⟨trace, run, reads, same⟩
  have reached := received.trans (run.weaken (fun _ _ _ => trivial))
  have framing := (SessionTrace.framed_of_reachable ⟨_, initial, reached⟩).isExactFraming
  have sameLimit : trace.limit = 1048544 := (SessionTrace.limit_of_run run).trans limit
  have delivered : lineOf message ∈ trace.payloads := by
    have first : (reference trace.limit).next (lineOf message ++ [Frame.newline]) =
        some (.line (lineOf message)) := @nextFrame_lineOf trace.limit message clean []
    rw [framing.settled (by rw [reads]; trivial), same]
    change lineOf message ∈ referencePayloads _ (lineOf message ++ [Frame.newline])
    rw [referencePayloads, StreamDecoder.frames_of_some first]
    exact List.mem_cons_self
  rcases List.mem_map.mp delivered with ⟨record, handed, bytes⟩
  refine ⟨trace, reached, record, handed, ?_, recordFields 1000 message, ?_, ?_⟩
  · rw [bytes, length_lineOf]
    omega
  · have accepted := fields_recordAt message (Or.inl ⟨rfl, rfl⟩)
    rw [ParserFunc.fields] at accepted ⊢
    rw [bytes]
    exact accepted
  · intro pool configured
    have needed := @SlabPool.totalNeeded_toNat message (by omega)
    rw [SharedLogEntryHeader.size, length] at needed
    have slab : (1 * 1024 * 1024 : SizeT).toNat = 1048576 := by decide
    apply SlabPool.getNextSlab_eq_none.mpr
    rw [BitVec.lt_def, configured, slab]
    change _ < (SlabPool.totalNeeded message).toNat
    omega

end Pipeline
end VortexEngine
