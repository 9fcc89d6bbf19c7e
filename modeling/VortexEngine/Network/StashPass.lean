import VortexEngine.Network.FramingRefinement

open VortexEngine.Foundations

namespace VortexEngine
namespace Network

/-!
# One call of `process_stash`

The loop of `process_stash` goes on as long as there are bytes and a record is
complete.  A record takes at least one byte, and no more than there are, so the
loop ends after at most as many iterations as bytes are available.  At its end
no record is complete; a second call finds the same bytes and does nothing that
the first one has not done.

The parser is anything that may disconnect.  It has a state of its own, and
nothing is assumed about it.
-/

/-- The parser of a session: its next state, and the reason of a disconnect. -/
abbrev Parser (World : Type) :=
    World -> NetworkSession -> StashRecord -> World × Option DisconnectReason

/-- What one call of `process_stash` leaves, the records that it has handed over,
and the evaluations of its loop's body. -/
structure StashPass (World : Type) where
  world : World
  session : NetworkSession
  handed : List StashRecord
  iterations : Nat

variable {World : Type}

namespace NetworkSession

/-- The parser has returned, and the record is consumed. -/
def consumeRecord (session : NetworkSession) (record : StashRecord)
    (verdict : Option DisconnectReason) :
    NetworkSession :=
  let parsed := verdict.elim session session.disconnect
  { parsed with stashBuffer := parsed.stashBuffer.consume record.framed }

/-- `process_stash`, with a bound on the evaluations of its loop's body. -/
def processStash (parser : Parser World) (fuel : Nat) (world : World) (session : NetworkSession) :
    Option (StashPass World) :=
  if session.stashBuffer.getBytesAvailable < 4 then
    some { world := world, session := session, handed := [], iterations := 0 }
  else
    match fuel with
    | 0 => none
    | fuel + 1 =>
        match session.stashIteration with
        | .leave => some { world := world, session := session, handed := [], iterations := 1 }
        | .oversized reason =>
            some
              { world := world, session := session.disconnect reason, handed := [],
                iterations := 1 }
        | .handOver record =>
            let answer := parser world session record
            (processStash parser fuel answer.1
              (session.consumeRecord record answer.2)).map fun pass =>
              { pass with handed := record :: pass.handed, iterations := pass.iterations + 1 }

/-- What `read_header` does before it reads: the space of the read that it
starts, or none when it has disconnected. -/
def readHeader (parser : Parser World) (fuel : Nat) (world : World) (session : NetworkSession) :
    Option (World × NetworkSession × Option SizeT) :=
  let space := session.stashBuffer.getWriteSpace
  if space < 1024 then
    (processStash parser fuel world session).map fun pass =>
      let space := pass.session.stashBuffer.getWriteSpace
      if space < 1024 then (pass.world, pass.session.disconnect .packageExceedsLimit, none)
      else (pass.world, pass.session, some space)
  else some (world, session, some space)

/-- The bytes that a list of records takes. -/
def framedBytes (records : List StashRecord) : Nat :=
  (records.map fun record => record.framed.toNat).sum

/-- No record is complete, and where the size is to be complained about, that has
been done. -/
structure Drained (session : NetworkSession) : Prop where
  incomplete : forall record, session.stashIteration ≠ .handOver record
  complained : forall reason, session.stashIteration = .oversized reason -> session.isClosing = true

/-- The limit leaves room for a header in a ring that counts less than `2 ^ 32`
bytes. -/
structure Fitting (session : NetworkSession) : Prop where
  limit : 8 + session.maxLogSize.toNat ≤ session.stashBuffer.size.toNat
  narrow : session.stashBuffer.size.toNat < 2 ^ 32

/-! ## One iteration -/

variable {session : NetworkSession} {record : StashRecord}

@[simp] theorem disconnect_stashBuffer (session : NetworkSession) (reason : DisconnectReason) :
    (session.disconnect reason).stashBuffer = session.stashBuffer :=
  closeWith_stashBuffer session _

theorem disconnect_of_closing (closing : session.isClosing = true) (reason : DisconnectReason) :
    session.disconnect reason = session := by
  unfold disconnect closeWith
  rw [if_pos closing]

/-- The framing looks at the stash and the limit only. -/
theorem stashIteration_congr {other : NetworkSession}
    (stash : other.stashBuffer = session.stashBuffer)
    (limit : other.maxLogSize = session.maxLogSize) :
      other.stashIteration = session.stashIteration := by
  unfold stashIteration
  rw [stash, limit]

theorem consumeRecord_frame (session : NetworkSession) (record : StashRecord)
    (verdict : Option DisconnectReason) :
    (session.consumeRecord record verdict).stashBuffer = session.stashBuffer.consume record.framed ∧
      (session.consumeRecord record verdict).maxLogSize = session.maxLogSize := by
  unfold consumeRecord
  cases verdict with
  | none => exact ⟨rfl, rfl⟩
  | some reason => exact ⟨by simp, by simp⟩

/-- A frame counts its header, and is complete when it is handed over. -/
theorem frame_framed (fitting : session.Fitting) {logLen : UInt32T}
    (accepted : ¬ (logLen = 0 ∨ session.maxLogSize < logLen.setWidth 64))
    (complete : ¬ session.stashBuffer.getBytesAvailable < (8 + logLen).setWidth 64) :
    1 ≤ ((8 + logLen).setWidth 64 : SizeT).toNat ∧
      ((8 + logLen).setWidth 64 : SizeT).toNat ≤ session.stashBuffer.getBytesAvailable.toNat := by
  have limit := fitting.limit
  have narrow := fitting.narrow
  have sum := (framed_toNat (by omega) accepted).2
  refine ⟨?_, Nat.le_of_not_lt complete⟩
  rw [BitVec.toNat_setWidth, sum]
  omega

/-- A line counts its newline, which is one of the bytes. -/
theorem line_framed {len : Nat}
    (found : (session.stashBuffer.getView session.stashBuffer.getBytesAvailable).bytes.findIdx?
      (· == 0x0A) =
      some len) :
    1 ≤ (BitVec.ofNat 64 len + 1 : SizeT).toNat ∧
      (BitVec.ofNat 64 len + 1 : SizeT).toNat ≤ session.stashBuffer.getBytesAvailable.toNat := by
  rcases List.findIdx?_eq_some_iff_getElem.mp found with ⟨inside, _⟩
  have count : (session.stashBuffer.getView session.stashBuffer.getBytesAvailable).bytes.length =
      session.stashBuffer.getBytesAvailable.toNat := by
    simp [MagicRingBuffer.getView, MagicRingBuffer.bytesAt]
  rw [count] at inside
  have bound := session.stashBuffer.getBytesAvailable.isLt
  have sum : (BitVec.ofNat 64 len + 1 : SizeT).toNat = len + 1 := by
    rw [BitVec.toNat_add, BitVec.toNat_ofNat, show (1 : SizeT).toNat = 1 from rfl]
    omega
  rw [sum]
  omega

/-- A record takes a byte at least, and no more than there are. -/
theorem handOver_framed (fitting : session.Fitting)
    (iteration : session.stashIteration = .handOver record) :
    1 ≤ record.framed.toNat ∧
      record.framed.toNat ≤ session.stashBuffer.getBytesAvailable.toNat := by
  unfold stashIteration at iteration
  simp only at iteration
  split at iteration
  · cases iteration
  · split at iteration
    · split at iteration
      · cases iteration
      · split at iteration
        · cases iteration
        · rename_i accepted
          split at iteration
          · cases iteration
          · rename_i complete
            cases iteration
            exact frame_framed fitting accepted complete
    · split at iteration
      · split at iteration <;> cases iteration
      · rename_i len found
        cases iteration
        exact line_framed found

/-! ## A whole call -/

/-- What a call has done to the ring: nothing but moving the tail, by the bytes
of its records. -/
structure PassesOn (session : NetworkSession) (pass : StashPass World) : Prop where
  bounded : pass.iterations ≤ session.stashBuffer.getBytesAvailable.toNat
  within : framedBytes pass.handed ≤ session.stashBuffer.getBytesAvailable.toNat
  stash : pass.session.stashBuffer =
    session.stashBuffer.consume (BitVec.ofNat 64 (framedBytes pass.handed))
  limit : pass.session.maxLogSize = session.maxLogSize
  drained : pass.session.Drained

theorem stashIteration_of_short (short : session.stashBuffer.getBytesAvailable < 4) :
    session.stashIteration = .leave := by
  unfold stashIteration
  simp only [if_pos short]

theorem processStash_of_short (parser : Parser World) (fuel : Nat) (world : World)
    (short : session.stashBuffer.getBytesAvailable < 4) :
    processStash parser fuel world session =
      some { world := world, session := session, handed := [], iterations := 0 } := by
  unfold processStash
  rw [if_pos short]

theorem drained_of_leave (leaves : session.stashIteration = .leave) : session.Drained := by
  constructor
  · intro record complete
    cases leaves.symm.trans complete
  · intro reason oversized
    cases leaves.symm.trans oversized

theorem drained_of_oversized {reason : DisconnectReason}
    (oversized : session.stashIteration = .oversized reason) :
    (session.disconnect reason).Drained := by
  have same : (session.disconnect reason).stashIteration = session.stashIteration :=
    stashIteration_congr (disconnect_stashBuffer session reason)
      (disconnect_maxLogSize session reason)
  constructor
  · intro record complete
    rw [same] at complete
    cases oversized.symm.trans complete
  · intro _ _
    exact disconnect_isClosing session reason

theorem passesOn_nothing {world : World} {next : NetworkSession} {iterations : Nat}
    (stash : next.stashBuffer = session.stashBuffer) (limit : next.maxLogSize = session.maxLogSize)
    (drained : next.Drained) (bounded : iterations ≤ session.stashBuffer.getBytesAvailable.toNat) :
    session.PassesOn
      { world := world, session := next, handed := [], iterations := iterations } := by
  refine ⟨bounded, Nat.zero_le _, ?_, limit, drained⟩
  rw [stash]
  simp [framedBytes, MagicRingBuffer.consume]

theorem passesOn_of_short {world : World} (short : session.stashBuffer.getBytesAvailable < 4) :
    session.PassesOn { world := world, session := session, handed := [], iterations := 0 } :=
  passesOn_nothing rfl rfl (drained_of_leave (stashIteration_of_short short)) (Nat.zero_le _)

theorem available_consume {ring : MagicRingBuffer} {count : SizeT}
    (within : count.toNat ≤ ring.getBytesAvailable.toNat) :
    (ring.consume count).getBytesAvailable.toNat = ring.getBytesAvailable.toNat - count.toNat := by
  have moved : (ring.consume count).getBytesAvailable = ring.getBytesAvailable - count := by
    change ring.head - (ring.tail + count) = ring.head - ring.tail - count
    rw [BitVec.sub_sub]
  rw [moved, BitVec.toNat_sub_of_le (BitVec.le_def.mpr within)]

/-- A call that hands a record over, and then whatever follows. -/
theorem PassesOn.handOver (fitting : session.Fitting)
    (iteration : session.stashIteration = .handOver record)
    {verdict : Option DisconnectReason} {pass : StashPass World}
    (passes : (session.consumeRecord record verdict).PassesOn pass) :
    session.PassesOn
      { pass with handed := record :: pass.handed, iterations := pass.iterations + 1 } := by
  rcases handOver_framed fitting iteration with ⟨some, within⟩
  rcases consumeRecord_frame session record verdict with ⟨stash, limit⟩
  rcases passes with ⟨bounded, sum, moved, same, drained⟩
  rw [stash, available_consume within] at bounded sum
  have total : framedBytes (record :: pass.handed) =
    record.framed.toNat + framedBytes pass.handed := List.sum_cons
  refine ⟨?_, ?_, ?_, same.trans limit, drained⟩
  · change pass.iterations + 1 ≤ _
    omega
  · change framedBytes (record :: pass.handed) ≤ _
    rw [total]
    omega
  · change pass.session.stashBuffer =
      session.stashBuffer.consume (BitVec.ofNat 64 (framedBytes (record :: pass.handed)))
    rw [moved, stash, total, BitVec.ofNat_add, BitVec.ofNat_toNat, BitVec.setWidth_eq]
    unfold MagicRingBuffer.consume
    rw [BitVec.add_assoc]

theorem Fitting.consumeRecord (fitting : session.Fitting) (record : StashRecord)
    (verdict : Option DisconnectReason) :
    (session.consumeRecord record verdict).Fitting := by
  rcases consumeRecord_frame session record verdict with ⟨stash, limit⟩
  refine ⟨?_, ?_⟩
  · rw [stash, limit]
    exact fitting.limit
  · rw [stash]
    exact fitting.narrow

/-- The loop ends within as many iterations as there are bytes. -/
theorem processStash_passesOn (parser : Parser World) (fuel : Nat) (world : World)
    (fitting : session.Fitting) (enough : session.stashBuffer.getBytesAvailable.toNat ≤ fuel) :
    Exists fun pass => processStash parser fuel world session = some pass ∧
      session.PassesOn pass := by
  induction fuel generalizing world session with
  | zero =>
      have short : session.stashBuffer.getBytesAvailable < 4 := by
        rw [BitVec.lt_def]
        exact Nat.lt_of_le_of_lt enough (by decide)
      exact ⟨_, processStash_of_short parser 0 world short, passesOn_of_short short⟩
  | succ fuel ih =>
      by_cases short : session.stashBuffer.getBytesAvailable < 4
      · exact ⟨_, processStash_of_short parser (fuel + 1) world short, passesOn_of_short short⟩
      · unfold processStash
        rw [if_neg short]
        have positive : 1 ≤ session.stashBuffer.getBytesAvailable.toNat := by
          have long := Nat.le_of_not_lt (mt BitVec.lt_def.mpr short)
          exact Nat.le_trans (by decide) long
        cases iteration : session.stashIteration with
        | leave => exact ⟨_, rfl, passesOn_nothing rfl rfl (drained_of_leave iteration) positive⟩
        | oversized reason =>
            refine ⟨_, rfl, passesOn_nothing ?_ ?_ (drained_of_oversized iteration) positive⟩
            · exact disconnect_stashBuffer session reason
            · exact disconnect_maxLogSize session reason
        | handOver record =>
            rcases handOver_framed fitting iteration with ⟨some, within⟩
            let answer := parser world session record
            have fewer :
                (session.consumeRecord record answer.2).stashBuffer.getBytesAvailable.toNat ≤
                fuel := by
              rw [(consumeRecord_frame session record answer.2).1, available_consume within]
              omega
            rcases ih answer.1 (fitting.consumeRecord record answer.2) fewer with
              ⟨pass, done, passes⟩
            refine ⟨_, ?_, passes.handOver fitting iteration⟩
            change (processStash parser fuel answer.1
              (session.consumeRecord record answer.2)).map _ = _
            rw [done]
            rfl

/-- A drained session is left as it is, by any parser. -/
theorem Drained.processStash_eq (drained : session.Drained) (parser : Parser World) {fuel : Nat}
    (world : World) (enough : session.stashBuffer.getBytesAvailable.toNat ≤ fuel) :
    Exists fun iterations => processStash parser fuel world session =
      some { world := world, session := session, handed := [], iterations := iterations } := by
  by_cases short : session.stashBuffer.getBytesAvailable < 4
  · exact ⟨0, processStash_of_short parser fuel world short⟩
  · unfold processStash
    rw [if_neg short]
    have long := Nat.le_of_not_lt (mt BitVec.lt_def.mpr short)
    cases fuel with
    | zero => exact absurd (Nat.le_trans long enough) (by decide)
    | succ fuel =>
        cases iteration : session.stashIteration with
        | leave => exact ⟨1, rfl⟩
        | oversized reason =>
            refine ⟨1, ?_⟩
            simp only [disconnect_of_closing (drained.complained reason iteration)]
        | handOver record => exact absurd iteration (drained.incomplete record)

/-- What is promised about one call and about the next one. -/
structure SettlesIn (session : NetworkSession)
    (pass : StashPass World) : Prop extends session.PassesOn pass where
  /-- a second call hands nothing over and changes nothing, whatever the parser does -/
  again : forall (Later : Type) (parser : Parser Later) (world : Later), Exists fun iterations =>
    processStash parser pass.session.stashBuffer.getBytesAvailable.toNat world pass.session =
      some { world := world, session := pass.session, handed := [], iterations := iterations }
  /-- the retry of `read_header` finds the space that it has found before -/
  retry : forall (Later : Type) (parser : Parser Later) (world : Later),
    readHeader parser pass.session.stashBuffer.getBytesAvailable.toNat world pass.session =
      if pass.session.stashBuffer.getWriteSpace < 1024 then
        some (world, pass.session.disconnect .packageExceedsLimit, none)
      else some (world, pass.session, some pass.session.stashBuffer.getWriteSpace)

theorem PassesOn.settlesIn {pass : StashPass World}
    (passes : session.PassesOn pass) : session.SettlesIn pass := by
  refine ⟨passes, ?_, ?_⟩
  · exact fun Later parser world => passes.drained.processStash_eq parser world (Nat.le_refl _)
  · intro Later parser world
    rcases passes.drained.processStash_eq parser world (Nat.le_refl _) with ⟨iterations, done⟩
    unfold readHeader
    by_cases narrow : pass.session.stashBuffer.getWriteSpace < 1024
    · simp only [if_pos narrow, done, Option.map_some]
    · simp only [if_neg narrow]

/-- On every ring that could be mapped, with any bytes in it and any limit that
leaves room for a header, `process_stash` comes to its end and has nothing left
to do. -/
theorem processStash_settles {api : MemoryApi} {basePtr : Nat} (session : NetworkSession)
    (portal : MagicRingBuffer.startPortal api session.stashBuffer.size = some basePtr)
    (limit : 8 + session.maxLogSize.toNat ≤ session.stashBuffer.size.toNat) (parser : Parser World)
    (world : World) :
    Exists fun pass =>
      processStash parser session.stashBuffer.getBytesAvailable.toNat world session = some pass ∧
        session.SettlesIn pass := by
  have fitting : session.Fitting := ⟨limit, narrow_of_portal portal⟩
  rcases processStash_passesOn parser _ world fitting (Nat.le_refl _) with ⟨pass, done, passes⟩
  exact ⟨pass, done, passes.settlesIn⟩

/-- A line and the beginning of another one are in the stash. -/
def oneLineReceived : NetworkSession :=
  { oneMebibyte with stashBuffer := oneMebibyte.stashBuffer.receive [0x61, 0x62, 0x63, 0x0A, 0x64] }

theorem oneLineReceived_portal :
    MagicRingBuffer.startPortal MemoryApi.willing oneLineReceived.stashBuffer.size =
      some 0x10000 := by
  decide

/-- A parser that refuses everything. -/
def refusingParser : Parser Unit :=
  fun _ _ _ => ((), some .malformedTime)

theorem processStash_settles_oneLine :
    Exists fun pass =>
      processStash refusingParser oneLineReceived.stashBuffer.getBytesAvailable.toNat
        () oneLineReceived = some pass ∧
        oneLineReceived.SettlesIn pass :=
  processStash_settles oneLineReceived oneLineReceived_portal (by decide) refusingParser ()

end NetworkSession

/-! ## The call as a run of the handler -/

namespace SessionTrace

open NetworkSession

variable {trace after : SessionTrace} {caller : ProcessCaller}

/-- The handler comes back from the loop with what the call has left, and no read
has completed in between. -/
structure Returns (trace : SessionTrace) (caller : ProcessCaller) (pass : StashPass World)
    (after : SessionTrace) :
    Prop where
  session : after.session = pass.session
  point : after.point = caller.resume
  handed : after.handed = trace.handed ++ pass.handed
  received : after.received = trace.received

theorem leave_runs (processes : trace.point = .processing caller)
    (leaves : trace.session.stashIteration = .leave) :
    machine.Runs trace { trace with point := caller.resume } :=
  Relation.ReflTransGen.single ⟨.proceed none, trivial, (Move.leave processes leaves).step⟩

theorem short_runs (parser : Parser World) {fuel : Nat} (world : World) {pass : StashPass World}
    (processes : trace.point = .processing caller)
    (short : trace.session.stashBuffer.getBytesAvailable < 4)
    (done : processStash parser fuel world trace.session = some pass) :
    Exists fun after => machine.Runs trace after ∧ trace.Returns caller pass after := by
  rw [processStash_of_short parser fuel world short] at done
  cases done
  exact ⟨_, leave_runs processes (stashIteration_of_short short), rfl, rfl,
    (List.append_nil _).symm, rfl⟩

/-- The call is what the handler does from its entry into the loop to its return. -/
theorem processStash_runs (parser : Parser World) (fuel : Nat) (world : World)
    {pass : StashPass World} (processes : trace.point = .processing caller)
    (done : processStash parser fuel world trace.session = some pass) :
    Exists fun after => machine.Runs trace after ∧ trace.Returns caller pass after := by
  induction fuel generalizing world trace pass with
  | zero =>
      by_cases short : trace.session.stashBuffer.getBytesAvailable < 4
      · exact short_runs parser world processes short done
      · unfold processStash at done
        rw [if_neg short] at done
        cases done
  | succ fuel ih =>
      by_cases short : trace.session.stashBuffer.getBytesAvailable < 4
      · exact short_runs parser world processes short done
      · unfold processStash at done
        rw [if_neg short] at done
        simp only at done
        cases iteration : trace.session.stashIteration with
        | leave =>
            rw [iteration] at done
            cases done
            exact ⟨_, leave_runs processes iteration, rfl, rfl, (List.append_nil _).symm, rfl⟩
        | oversized reason =>
            rw [iteration] at done
            cases done
            have oversizes : machine.Runs trace (trace.sizeDisconnect reason caller.resume) :=
              Relation.ReflTransGen.single
                ⟨.proceed none, trivial, (Move.oversize processes iteration).step⟩
            exact ⟨_, oversizes, rfl, rfl, (List.append_nil _).symm, rfl⟩
        | handOver record =>
            rw [iteration] at done
            rcases Option.map_eq_some_iff.mp done with ⟨rest, goesOn, rfl⟩
            let parsing : SessionTrace :=
              { trace with point := .parsing caller record, handed := trace.handed ++ [record] }
            have hands : machine.StepUnder Machine.anyAction trace parsing :=
              ⟨.proceed none, trivial, (Move.handOver processes iteration).step⟩
            let verdict := (parser world trace.session record).2
            have consumed :
                Move parsing (.proceed verdict) (parsing.consumeRecord verdict caller record) :=
              .consume rfl
            have consumes : machine.StepUnder Machine.anyAction parsing
                (parsing.consumeRecord verdict caller record) :=
                  ⟨.proceed verdict, trivial, consumed.step⟩
            have consumer : (parsing.consumeRecord verdict caller record).point =
              .processing caller := rfl
            rcases ih (parser world trace.session record).1 consumer goesOn with
              ⟨after, runs, returns⟩
            refine ⟨after, (runs.head consumes).head hands, returns.session, returns.point, ?_,
              returns.received⟩
            rw [returns.handed]
            exact List.append_assoc trace.handed [record] rest.handed

theorem fitting_of_framed (framed : trace.Framed) : trace.session.Fitting := by
  rcases framed.size_eq with ⟨size, limit⟩
  rw [SessionTrace.limit] at size limit
  exact ⟨by omega, by omega⟩

/-- Wherever a handler enters the framing loop in a run of a session, the call of
`process_stash` comes to its end with any parser, and the handler can make the
same records of the same bytes, step by step. -/
theorem process_stash_is_a_run (reached : machine.Reachable trace)
    (processes : trace.point = .processing caller)
    (parser : Parser World) (world : World) :
    Exists fun pass =>
      processStash parser trace.session.stashBuffer.getBytesAvailable.toNat world trace.session =
        some pass ∧
        Exists fun after => machine.Runs trace after ∧ trace.Returns caller pass after := by
  have fitting := fitting_of_framed (framed_of_reachable reached)
  rcases processStash_passesOn parser _ world fitting (Nat.le_refl _) with ⟨pass, done, _⟩
  exact ⟨pass, done, processStash_runs parser _ world processes done⟩

/-- The handler of a read that has brought a line and the beginning of another
one. -/
def oneLineHandler : SessionTrace :=
  (machine.executeUnder Machine.anyAction (start NetworkSession.oneMebibyte)
    [.proceed none, .complete [0x61, 0x62, 0x63, 0x0A, 0x64]]).get (by decide)

theorem process_stash_is_a_run_oneLine :
    Exists fun pass =>
      processStash refusingParser oneLineHandler.session.stashBuffer.getBytesAvailable.toNat ()
          oneLineHandler.session = some pass ∧
        Exists fun after => machine.Runs oneLineHandler after ∧
          oneLineHandler.Returns .completion pass after :=
  process_stash_is_a_run (Machine.reachableUnder_of_execute oneMebibyte_initial (by decide))
    (by decide)
    refusingParser ()

end SessionTrace
end Network
end VortexEngine
