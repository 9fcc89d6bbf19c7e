import VortexEngine.Network.MixedStream
import VortexEngine.Network.RecordGrammar
import VortexEngine.Pipeline.ClosingCause

open VortexEngine.Foundations VortexEngine.Core VortexEngine.Network

namespace VortexEngine
namespace Pipeline

/-!
# A client that keeps to the protocol

One of the connections of a worker belongs to a client that spells its records
as the grammar asks, frames each of them in one of the two ways, and sends them
in time: each record is valid when its parser call reads the clock.  The
network cuts its stream as it likes, and the other connections may send
anything.

Such a client is never disconnected, and its records are pushed one by one in
the order in which it has sent them.
-/

namespace SessionRuns

open SessionTrace

variable {frames : List Frame} {trace : SessionTrace}

/-- Reads deliver the stream of the frames, and none of them fails. -/
def KeepsReading (frames : List Frame) (trace : SessionTrace) (action : SessionAction) : Prop :=
  DeliversFrames frames trace action ∧ action ≠ .fail

/-- A session whose reads do not fail goes on for ever. -/
theorem running_of_reachable (manageable : Manageable trace.limit frames)
    (reached : machine.ReachableUnder (KeepsReading frames) trace) : trace.point ≠ .stopped := by
  have served : forall {trace : SessionTrace}, Manageable trace.limit frames ->
      machine.ReachableUnder (KeepsReading frames) trace -> Served frames trace := by
    intro trace manageable reached
    exact served_of_reachable manageable (reached.reguard (fun _ _ _ keeps => keeps.1))
  refine reached.invariant
    (I := fun trace => Manageable trace.limit frames -> trace.point ≠ .stopped) ?_ ?_ manageable
  · rintro _ ⟨session, _, rfl⟩ _
    exact nofun
  · intro before action after reachedBefore _ keeps moves manageable
    cases SessionTrace.step_move moves with
    | giveUp _ _ =>
        have quiet := (served manageable (reachedBefore.next keeps moves)).quiet
        exact absurd quiet (List.concat_ne_nil _ _)
    | fail _ => exact absurd rfl keeps.2
    | @leave _ caller _ _ | @oversize _ caller _ _ _ => cases caller <;> exact nofun
    | _ => exact nofun

end SessionRuns

/-! ## The client -/

instance (digits : List Byte) : Decidable (IsNumber digits) :=
  inferInstanceAs (Decidable (_ ∧ forall digit, digit ∈ digits -> _))

instance (spelling : Spelling) : Decidable spelling.Numbers :=
  decidable_of_iff (IsNumber spelling.time ∧ IsNumber spelling.level ∧ IsNumber spelling.id)
    ⟨fun numbers => ⟨numbers.1, numbers.2.1, numbers.2.2⟩,
      fun numbers => ⟨numbers.time, numbers.level, numbers.id⟩⟩

instance (spelling : Spelling) (now : Nat) : Decidable (spelling.Valid now) :=
  decidable_of_iff (spelling.Numbers ∧ now - 5 ≤ decimalValue spelling.time ∧
      decimalValue spelling.time ≤ now + 5 ∧ decimalValue spelling.level ≤ 4 ∧
        1 ≤ decimalValue spelling.id ∧
        decimalValue spelling.id ≤ 2 ^ 32 - 1)
    ⟨fun ⟨numbers, early, late, level, positive, fits⟩ =>
      ⟨numbers, early, late, level, positive, fits⟩,
      fun valid =>
        ⟨valid.toNumbers, valid.notEarly, valid.notLate, valid.levelKnown, valid.idPositive,
        valid.idFits⟩⟩

/-- The record is valid at the time that its parser call reads, which is neither
before the clock has been set nor at the end of time. -/
def Timely (clock : UInt64T) (spelling : Spelling) : Prop :=
  5 ≤ clock.toNat ∧ clock.toNat + 5 < 2 ^ 64 ∧ spelling.Valid clock.toNat

instance (clock : UInt64T) (spelling : Spelling) : Decidable (Timely clock spelling) :=
  inferInstanceAs (Decidable (_ ∧ _))

/-- Records and the frames that carry them, for sessions with a limit and slabs
of a size. -/
structure Client (limit : Nat) (slabSize : SizeT) where
  spellings : List Spelling
  frames : List Frame
  framed : frames.map Frame.payload = spellings.map Spelling.text
  manageable : Manageable limit frames
  numbers : forall spelling, spelling ∈ spellings -> spelling.Numbers
  fits : forall spelling, spelling ∈ spellings -> SlabPool.totalNeeded spelling.message ≤ slabSize

namespace Client

variable {limit : Nat} {slabSize : SizeT} (client : Client limit slabSize)

theorem framedSize_ge {frame : Frame} (member : frame ∈ client.frames) : 4 ≤ frame.framedSize := by
  have payload : frame.payload ∈ client.spellings.map Spelling.text := by
    rw [← client.framed]
    exact List.mem_map_of_mem member
  rcases List.mem_map.mp payload with ⟨spelling, known, text⟩
  have numbers := client.numbers spelling known
  have time := List.length_pos_iff.mpr numbers.time.1
  have longer := frame.payload_length_lt
  rw [← text] at longer
  simp only [Spelling.text, List.length_append, List.length_cons] at longer
  omega

/-- Nothing of the client's stream waits for more. -/
theorem settled_frames : (wire limit).settled client.frames = client.frames := by
  rcases List.eq_nil_or_concat' client.frames with none | ⟨others, last, whole⟩
  · rw [none]
    rfl
  · have member : last ∈ client.frames := by
      rw [whole]
      exact List.mem_append_right _ (List.mem_singleton.mpr rfl)
    have long := client.framedSize_ge member
    rw [whole]
    exact StreamEncoder.settled_of_last (Frame.length_encode last ▸ long)

/-- What the client and the network do, at the connection of this number.  A
record that is taken out of the stash is valid at the time of its call. -/
def KeepsFaith (source : Nat) (worker : Worker) : WorkerAction -> Prop
  | .complete other bytes => other = source ->
      (worker.sessions source).received ++ bytes <+: mixedStream client.frames
  | .fail other => other ≠ source
  | .handler clock => worker.active = some source ->
      forall record, record ∈ Worker.nextRecord (worker.sessions source) ->
        forall spelling, spelling ∈ client.spellings -> record.logData.bytes = spelling.text ->
          Timely clock spelling
  | _ => True

instance (source : Nat) (worker : Worker) : (action : WorkerAction) ->
    Decidable (client.KeepsFaith source worker action)
  | .complete other bytes => inferInstanceAs (Decidable (other = source ->
      (worker.sessions source).received ++ bytes <+: mixedStream client.frames))
  | .fail other => inferInstanceAs (Decidable (other ≠ source))
  | .handler clock => inferInstanceAs (Decidable (worker.active = some source ->
      forall record, record ∈ Worker.nextRecord (worker.sessions source) ->
        forall spelling, spelling ∈ client.spellings -> record.logData.bytes = spelling.text ->
          Timely clock spelling))
  | .start _ | .pop | .consumer => inferInstanceAs (Decidable True)

end Client

namespace Worker

variable {parser : ParserFunc} {before after : Worker} {source : Nat}

/-- The client's session, served as the client keeps to the protocol. -/
def clientSession {maxSlabs slabsSize : SizeT} {basePtr capacity : Nat} {profile : OverflowProfile}
    {limit : Nat} {slabSize : SizeT} (client : Client limit slabSize) (source : Nat) :
    Machine.Simulation (machine parser maxSlabs slabsSize basePtr capacity profile)
      (client.KeepsFaith source)
      SessionTrace.machine (SessionRuns.KeepsReading client.frames) where
  view := (@sessionOf parser maxSlabs slabsSize basePtr capacity profile source).view
  initial := (sessionOf source).initial
  step := by
    intro before action after _ keeps moves
    rcases step_session moves with same | ⟨inner, moved, reads, fails⟩
    · exact Or.inl same
    · refine Or.inr ⟨inner, ⟨?_, ?_⟩, moved⟩
      · cases inner with
        | complete bytes =>
            have read := reads bytes rfl
            subst read
            exact keeps rfl
        | _ => trivial
      · intro failed
        have fail := fails failed
        subst fail
        exact keeps rfl

/-! ## What the client gets -/

/-- Every parser call of the connection has accepted a record of the client. -/
def Accepts {limit : Nat} {slabSize : SizeT} (client : Client limit slabSize) (source : Nat)
    (worker : Worker) :
    Prop :=
  forall call, call ∈ worker.records.callsOf source -> Exists fun spelling => Exists fun record =>
    spelling ∈ client.spellings ∧ call.rawData.bytes = spelling.text ∧ call.outcome = .ok record ∧
      record.fields = spelling.fields

section Runs

variable {limit : Nat} {slabSize : SizeT} {client : Client limit slabSize}

/-- What the framing loop comes upon is a record of the client. -/
theorem next_spelling {record : StashRecord} (framed : (before.sessions source).Framed)
    (limits : (before.sessions source).limit = limit)
    (served : SessionTrace.Served client.frames (before.sessions source))
    (next : nextRecord (before.sessions source) = some record) :
    Exists fun spelling => spelling ∈ client.spellings ∧ record.logData.bytes = spelling.text := by
  rcases nextRecord_eq_some.mp next with ⟨⟨caller, processes⟩, iteration⟩
  -- the session could hand the record over now
  have moves := (@SessionTrace.Move.handOver _ none _ _ processes iteration).step
  have framed' := framed.step moves
  have manageable : Manageable (before.sessions source).limit client.frames :=
    limits ▸ client.manageable
  have admitted :
    SessionTrace.DeliversFrames client.frames (before.sessions source) (.proceed none) := trivial
  have served' := served.step framed manageable admitted moves
  have payloads := served'.payloads_prefix framed' manageable
  rw [client.framed] at payloads
  have last : record.logData.bytes ∈
      ((before.sessions source).handed ++ [record]).map (fun record => record.logData.bytes) :=
    List.mem_map_of_mem (List.mem_append_right _ (List.mem_singleton.mpr rfl))
  rcases List.mem_map.mp (payloads.subset last) with ⟨spelling, member, text⟩
  exact ⟨spelling, member, text.symm⟩

theorem call_accepts {records : RecordSystem} {clock : UInt64T} {rawData : StringView}
    {spelling : Spelling}
    (size : before.records.slabPool.slabSize = slabSize) (member : spelling ∈ client.spellings)
    (text : rawData.bytes = spelling.text) (timely : Timely clock spelling)
    (called : before.records.step .parseAndPush (.record source clock rawData) = some records) :
    Exists fun record => records.calls =
      before.records.calls ++ [⟨source, clock, rawData, .ok record⟩] ∧
      record.fields = spelling.fields := by
  have accepted : scalarFields clock rawData.bytes = .ok spelling.fields :=
    (scalarFields_eq_ok_iff timely.1 timely.2.1).mpr ⟨spelling, timely.2.2, text, rfl⟩
  have parsed : ParserFunc.parseAndPush.fields clock rawData = some (.ok spelling.fields) :=
    congrArg some accepted
  cases RecordSystem.step_move called with
  | refuse _ refuses =>
      rcases refuses with refused | ⟨_, fields, ok, none⟩
      · cases parsed.symm.trans refused
      · cases parsed.symm.trans ok
        have large := SlabPool.getNextSlab_eq_none.mp none
        rw [size, BitVec.lt_def] at large
        have fits := client.fits spelling member
        rw [BitVec.le_def] at fits
        exact absurd large (Nat.not_lt_of_le fits)
  | allocate _ ok _ =>
      cases parsed.symm.trans ok
      exact ⟨_, rfl, rfl⟩
  | other outside _ => cases outside

theorem Accepts.step (accepts : before.Accepts client source)
    (framed : (before.sessions source).Framed) (limits : (before.sessions source).limit = limit)
    (served : SessionTrace.Served client.frames (before.sessions source))
    (size : before.records.slabPool.slabSize = slabSize) {action : WorkerAction}
    (keeps : client.KeepsFaith source before action)
    (moves : before.step .parseAndPush action = some after) :
    after.Accepts client source := by
  rcases step_records moves with
    same | ⟨inner, inside, stepped⟩ | ⟨other, clock, record, rfl, runs, next, called⟩
  · unfold Accepts
    rw [same]
    exact accepts
  · intro call member
    unfold RecordSystem.callsOf at member
    rw [(quiet_records stepped inside).1] at member
    exact accepts call member
  · by_cases same : other = source
    · subst same
      rcases next_spelling framed limits served next with ⟨spelling, known, text⟩
      have timely := keeps runs record next spelling known text
      rcases call_accepts size known text timely called with ⟨stored, extended, fields⟩
      intro call member
      unfold RecordSystem.callsOf at member
      rw [extended, List.filter_append] at member
      rcases List.mem_append.mp member with earlier | last
      · exact accepts call earlier
      · cases List.mem_singleton.mp (List.mem_of_mem_filter last)
        exact ⟨spelling, stored, known, text, rfl, fields⟩
    · rcases calls_step called with ⟨outcome, extended⟩
      intro call member
      unfold RecordSystem.callsOf at member
      rw [extended, List.filter_append,
        List.filter_cons_of_neg (by simpa [ParserCall.comesFrom] using same), List.filter_nil,
        List.append_nil] at member
      exact accepts call member

/-- Calls that accept the records of the client have their fields, in order. -/
theorem accepted_fields {calls : List ParserCall} {spellings : List Spelling}
    (accepts : forall call, call ∈ calls -> Exists fun spelling => Exists fun record =>
      spelling ∈ client.spellings ∧ call.rawData.bytes = spelling.text ∧ call.outcome = .ok record ∧
        record.fields = spelling.fields)
    (known : forall spelling, spelling ∈ spellings -> spelling ∈ client.spellings)
    (texts : calls.map (fun call => call.rawData.bytes) = spellings.map Spelling.text) :
    (calls.filterMap ParserCall.accepted).map StoredRecord.fields =
      spellings.map Spelling.fields := by
  induction calls generalizing spellings with
  | nil =>
      rw [List.map_eq_nil_iff.mp texts.symm]
      rfl
  | cons call calls ih =>
      cases spellings with
      | nil => cases texts
      | cons spelling spellings =>
          rcases List.cons.inj texts with ⟨text, others⟩
          rcases accepts call List.mem_cons_self with
            ⟨found, record, member, spelled, outcome, fields⟩
          have same : found = spelling := by
            apply Spelling.text_injective (client.numbers found member)
              (client.numbers spelling (known spelling List.mem_cons_self))
            rw [← spelled]
            exact text
          subst same
          have rest := ih (fun call member => accepts call (List.mem_cons_of_mem _ member))
            (fun spelling member => known spelling (List.mem_cons_of_mem _ member)) others
          have accepted : call.accepted = some record := by
            rw [ParserCall.accepted, outcome]
          rw [List.filterMap_cons_some accepted, List.map_cons, List.map_cons, rest, fields]

/-- There is no cause to disconnect the client. -/
theorem Accepts.silent (accepts : before.Accepts client source)
    (framed : (before.sessions source).Framed) (limits : (before.sessions source).limit = limit)
    (served : SessionTrace.Served client.frames (before.sessions source)) {action : WorkerAction}
    (keeps : client.KeepsFaith source before action) : ¬ Closes source before action := by
  -- a session that gives up takes a step in which it is no longer served
  have fitting : forall {reason after},
    (before.sessions source).step (.proceed none) = some after ->
      after.sizeDisconnects ≠ (before.sessions source).sizeDisconnects ++ [reason] := by
    intro reason after moves extended
    have manageable : Manageable (before.sessions source).limit client.frames :=
      limits ▸ client.manageable
    have admitted :
      SessionTrace.DeliversFrames client.frames (before.sessions source) (.proceed none) := trivial
    have quiet := (served.step framed manageable admitted moves).quiet
    rw [extended] at quiet
    exact List.concat_ne_nil _ _ quiet
  rintro ⟨report, cause⟩
  cases cause with
  | oversized _ processes iteration =>
      exact fitting (@SessionTrace.Move.oversize _ none _ _ processes iteration).step rfl
  | giveUp _ rechecks narrow =>
      exact fitting (@SessionTrace.Move.giveUp _ none rechecks narrow).step rfl
  | refused _ refused =>
      rcases refused with ⟨call, last, outcome⟩
      rcases accepts call (List.mem_of_getLast? last) with ⟨_, record, _, _, accepted, _⟩
      cases accepted.symm.trans outcome
  | failedRead => exact keeps rfl

/-- In every run the calls of the client accept, and its session is not closed. -/
theorem accepts_of_reachable {maxSlabs slabsSize : SizeT} {basePtr capacity : Nat}
    {profile : OverflowProfile} {client : Client limit (slabsSize * 1024 * 1024)} {worker : Worker}
    (limits : (worker.sessions source).limit = limit)
    (reached : (machine .parseAndPush maxSlabs slabsSize basePtr capacity profile).ReachableUnder
      (client.KeepsFaith source) worker) :
    worker.Accepts client source ∧ Unclosed (worker.sessions source).session := by
  refine reached.invariant (I := fun worker => (worker.sessions source).limit = limit ->
    worker.Accepts client source ∧ Unclosed (worker.sessions source).session) ?_ ?_ limits
  · intro start starts _
    refine ⟨?_, (initial_unclosed starts source).1⟩
    rcases starts with ⟨_, _, queue, telemetry, memory, _, records⟩
    intro call member
    rw [records] at member
    cases member
  · intro before action after reachedBefore holds keeps moves limits
    have same : (before.sessions source).limit = limit := by
      rcases step_session moves with kept | ⟨_, moved, _⟩
      · exact kept ▸ limits
      · exact (SessionTrace.step_limit moved).symm.trans limits
    have session := (clientSession client source).reachable reachedBefore
    have framed := SessionTrace.framed_of_reachable session
    have served := SessionTrace.served_of_reachable (same ▸ client.manageable)
      (session.reguard (fun _ _ _ keeps => keeps.1))
    have ledger := RecordSystem.callLedger_of_reachable
      (pipelineOf.reachable (reachedBefore.reguard (fun _ _ _ _ => trivial)))
    rcases holds same with ⟨accepts, unclosed⟩
    refine ⟨accepts.step framed same served ledger.size keeps moves, ?_⟩
    rcases step_books (heard_of_reachable reachedBefore) moves with ⟨books, _⟩ | ⟨report, cause, _⟩
    · exact books.unclosed unclosed
    · exact absurd ⟨report, cause⟩ (accepts.silent framed same served keeps)

/-- What the server does for the client. -/
structure Welcomes (client : Client limit slabSize) (source : Nat) (worker : Worker) : Prop where
  /-- it is not disconnected, and nothing is reported -/
  isOpen : (worker.sessions source).session.isClosing = false ∧
    (worker.sessions source).session.diagnostics = []
  /-- its session goes on -/
  goesOn : (worker.sessions source).point ≠ .stopped
  /-- its records are accepted in order, none is left out or changed -/
  inOrder : (worker.records.acceptedOf source).map StoredRecord.fields <+:
    client.spellings.map Spelling.fields
  /-- they are handed to `push` once each, up to the one that is on its way -/
  pushed :
    (worker.records.queue.history.pushes.map PushRecord.logLine ++ worker.records.inFlight).filter
      (TaggedEntry.comesFrom source) =
    (worker.records.acceptedOf source).map StoredRecord.tagged
  /-- when the stream has been read and handled, all of them are accepted -/
  complete : (worker.sessions source).received = mixedStream client.frames ->
    (worker.sessions source).point.Settled ->
      (worker.records.acceptedOf source).map StoredRecord.fields =
        client.spellings.map Spelling.fields

end Runs

end Worker

/-- A client that keeps to the protocol is never disconnected, and the server
accepts and pushes all of its records in order, whatever the other connections
of its worker send and however the network cuts the stream. -/
theorem faithful_client_is_welcome {maxSlabs slabsSize : SizeT} {basePtr capacity : Nat}
    {profile : OverflowProfile}
    {worker : Worker} {source limit : Nat} (client : Client limit (slabsSize * 1024 * 1024))
    (limits : (worker.sessions source).limit = limit)
    (reached :
      (Worker.machine .parseAndPush maxSlabs slabsSize basePtr capacity profile).ReachableUnder
      (client.KeepsFaith source) worker) : worker.Welcomes client source := by
  subst limits
  have any :
      (Worker.machine .parseAndPush maxSlabs slabsSize basePtr capacity profile).Reachable worker :=
    reached.reguard (fun _ _ _ _ => trivial)
  have session := (Worker.clientSession client source).reachable reached
  have framed : (worker.sessions source).Framed := SessionTrace.framed_of_reachable session
  have served := SessionTrace.served_of_reachable client.manageable
    (session.reguard (fun _ _ _ keeps => keeps.1))
  have goesOn := SessionRuns.running_of_reachable client.manageable session
  rcases Worker.accepts_of_reachable rfl reached with ⟨accepts, unclosed⟩
  have called : (worker.records.callsOf source).map (fun call => call.rawData.bytes) =
      (worker.sessions source).payloads := by
    have calls := congrArg (List.map StringView.bytes) (Worker.calls_of_reachable any source)
    rw [List.map_map, List.map_map] at calls
    exact calls
  constructor
  · exact ⟨unclosed.isOpen, unclosed.diagnostics⟩
  · exact goesOn
  · have payloads := served.payloads_prefix framed client.manageable
    rw [client.framed, ← called] at payloads
    rcases List.prefix_map_iff.mp payloads with ⟨first, isPrefix, texts⟩
    have fields := Worker.accepted_fields accepts (fun _ member => isPrefix.subset member) texts
    rw [RecordSystem.acceptedOf, fields]
    exact isPrefix.map Spelling.fields
  · exact (RecordSystem.callLedger_of_reachable (Worker.pipelineOf.reachable any)).pushes_eq source
  · intro whole settled
    have handed := SessionTrace.handed_of_settled framed client.manageable whole settled
    rw [client.settled_frames, client.framed, ← called] at handed
    exact Worker.accepted_fields accepts (fun _ member => member) handed

/-! ## A client next to a broken one -/

/-- The record `1000 1 7 a`, sent as a line. -/
def shortClient : Client 1048544 (1 * 1024 * 1024) where
  spellings := [⟨[0x31, 0x30, 0x30, 0x30], [0x31], [0x37], [0x61]⟩]
  frames := [.line [0x31, 0x30, 0x30, 0x30, 0x20, 0x31, 0x20, 0x37, 0x20, 0x61]]
  framed := by decide
  manageable := by decide
  numbers := by decide
  fits := by decide

/-- The line arrives in two pieces.  Between them another connection is
disconnected. -/
def shortSchedule : List WorkerAction :=
  .start 0 :: .start 1 :: .complete 0 [0x31, 0x30] :: List.replicate 2 (.handler 1000) ++
    .complete 1 refusedLine :: List.replicate 4 (.handler 1000) ++
      .complete 0 [0x30, 0x30, 0x20, 0x31, 0x20, 0x37, 0x20, 0x61, 0x0A] ::
        List.replicate 17 (.handler 1001)

theorem faithful_client_is_welcome_shortClient :
    ((defaultWorkers.executeUnder (shortClient.KeepsFaith 0) defaultWorker shortSchedule).get
      (by decide +kernel)).Welcomes shortClient 0 :=
  faithful_client_is_welcome shortClient (by decide +kernel)
    (Machine.reachableUnder_of_execute defaultWorker_initial (by decide +kernel))

end Pipeline
end VortexEngine
