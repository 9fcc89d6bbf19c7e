import VortexEngine.Core.QueueCalls
import VortexEngine.Core.QueueRefinement
import VortexEngine.Network.RecordParser

open VortexEngine.Foundations VortexEngine.Core

namespace VortexEngine
namespace Network

/-!
# The grammar of the scalar parser

A record is spelled as three numbers and a message, with one space behind each
number.  The numbers are nonempty strings of decimal digits, leading zeros
included; the message is any string, empty or not, with or without spaces.
`parse_and_push` accepts exactly the records whose numbers have admissible
values and whose message fits into a slab.

The header and the entry have 32 bits for a length, so that of a message of four
gigabytes or more is cut.  The bounds of the clock window have 64 bits: it is
the window around the reading as long as neither of them wraps.
-/

/-! ## Spellings -/

structure Spelling where
  time : List Byte
  level : List Byte
  id : List Byte
  message : List Byte
  deriving DecidableEq, Repr

/-- A nonempty string of decimal digits. -/
def IsNumber (digits : List Byte) : Prop :=
  digits ≠ [] ∧ forall digit, digit ∈ digits -> isDigit digit = true

namespace Spelling

/-- Each number is followed by one space. -/
def text (spelling : Spelling) : List Byte :=
  spelling.time ++ space :: (spelling.level ++ space :: (spelling.id ++ space :: spelling.message))

structure Numbers (spelling : Spelling) : Prop where
  time : IsNumber spelling.time
  level : IsNumber spelling.level
  id : IsNumber spelling.id

/-- The numbers have values that the checks let pass at a time. -/
structure Valid (spelling : Spelling) (now : Nat) : Prop extends spelling.Numbers where
  notEarly : now - 5 ≤ decimalValue spelling.time
  notLate : decimalValue spelling.time ≤ now + 5
  levelKnown : decimalValue spelling.level ≤ 4
  idPositive : 1 ≤ decimalValue spelling.id
  idFits : decimalValue spelling.id ≤ 2 ^ 32 - 1

/-- What the parser extracts. -/
def fields (spelling : Spelling) : RecordFields :=
  { time := BitVec.ofNat 64 (decimalValue spelling.time)
    level := BitVec.ofNat 64 (decimalValue spelling.level)
    id := BitVec.ofNat 32 (decimalValue spelling.id)
    message := spelling.message }

end Spelling

/-! ### Spellings are unique -/

theorem number_unique {digits digits' rest rest' : List Byte} (number : IsNumber digits)
    (number' : IsNumber digits') (same : digits ++ space :: rest = digits' ++ space :: rest') :
      digits = digits' ∧ rest = rest' := by
  have scanned : forall {digits rest : List Byte}, IsNumber digits ->
      (digits ++ space :: rest).takeWhile isDigit = digits := by
    intro digits rest number
    rw [List.takeWhile_append_of_pos number.2, List.takeWhile_cons_of_neg (by decide),
      List.append_nil]
  have equal : digits = digits' := by
    rw [← @scanned digits rest number, same, scanned number']
  subst equal
  simpa using same

theorem Spelling.text_injective {left right : Spelling} (leftNumbers : left.Numbers)
    (rightNumbers : right.Numbers) (same : left.text = right.text) : left = right := by
  rcases number_unique leftNumbers.time rightNumbers.time same with ⟨time, behindTime⟩
  rcases number_unique leftNumbers.level rightNumbers.level behindTime with ⟨level, behindLevel⟩
  rcases number_unique leftNumbers.id rightNumbers.id behindLevel with ⟨id, message⟩
  cases left
  cases right
  simp_all

/-! ## What the field stages accept -/

/-- A scan that stops at a space has read a number. -/
theorem delimited_split {width : Nat} {text : List Byte}
    (delimited : (fromChars width text).delimited text = true) :
    Exists fun digits => Exists fun rest => IsNumeral width digits ∧
      text = digits ++ space :: rest := by
  rcases Bool.and_eq_true_iff.mp delimited with ⟨succeeded, stopped⟩
  have ok := of_decide_eq_true succeeded
  have delimiter := of_decide_eq_true stopped
  have allDigits := List.all_eq_true.mp (@List.all_takeWhile _ isDigit text)
  have split : text = text.takeWhile isDigit ++ text.dropWhile isDigit :=
    List.takeWhile_append_dropWhile.symm
  rw [fromChars] at ok delimiter
  generalize text.takeWhile isDigit = digits at ok delimiter allDigits split
  generalize text.dropWhile isDigit = behind at split
  by_cases nonempty : digits = []
  · simp [nonempty] at ok
  · by_cases fits : decimalValue digits < 2 ^ width
    · rw [if_neg nonempty, if_pos fits, split, List.getElem?_append_right (Nat.le_refl _),
        Nat.sub_self] at delimiter
      cases behind with
      | nil => cases delimiter
      | cons char rest =>
          cases delimiter
          exact ⟨digits, rest, ⟨nonempty, allDigits, fits⟩, split⟩
    · rw [if_neg nonempty, if_neg fits] at ok
      cases ok

theorem IsNumeral.isNumber {width : Nat} {digits : List Byte}
    (numeral : IsNumeral width digits) : IsNumber digits :=
  ⟨numeral.nonempty, numeral.allDigits⟩

theorem IsNumeral.toNat {width : Nat} {digits : List Byte} (numeral : IsNumeral width digits) :
    (BitVec.ofNat width (decimalValue digits)).toNat = decimalValue digits := by
  rw [BitVec.toNat_ofNat, Nat.mod_eq_of_lt numeral.fits]

/-- The clock window without wrapping. -/
theorem validateTimestamp_iff {clock timestamp : UInt64T} (started : 5 ≤ clock.toNat)
    (noWrap : clock.toNat + 5 < 2 ^ 64) :
    CheckLogEntry.validateTimestamp clock timestamp = true ↔
      clock.toNat - 5 ≤ timestamp.toNat ∧ timestamp.toNat ≤ clock.toNat + 5 := by
  have least : (clock - 5).toNat = clock.toNat - 5 := by
    rw [BitVec.toNat_sub_of_le (by rw [BitVec.le_def]; exact started)]
    rfl
  have most : (clock + 5).toNat = clock.toNat + 5 := by
    rw [BitVec.toNat_add]
    exact Nat.mod_eq_of_lt noWrap
  simp only [CheckLogEntry.validateTimestamp, BitVec.lt_def, least, most]
  split
  · simp
    omega
  · simp
    omega

theorem validateLevel_iff
    {level : SizeT} : CheckLogEntry.validateLevel level = true ↔ level.toNat ≤ 4 := by
  simp [CheckLogEntry.validateLevel, LogLevel.toByte, BitVec.lt_def]

theorem validateID_iff {id : UInt32T} : CheckLogEntry.validateID id = true ↔ 1 ≤ id.toNat := by
  have bound := id.isLt
  simp [CheckLogEntry.validateID, BitVec.lt_def]
  omega

/-- The field stages accept exactly the spellings of valid records. -/
theorem scalarFields_eq_ok_iff {clock : UInt64T} (started : 5 ≤ clock.toNat)
    (noWrap : clock.toNat + 5 < 2 ^ 64) {text : List Byte} {fields : RecordFields} :
    scalarFields clock text = .ok fields ↔
      Exists fun spelling : Spelling =>
        spelling.Valid clock.toNat ∧ text = spelling.text ∧ fields = spelling.fields := by
  constructor
  · intro accepted
    rw [scalarFields] at accepted
    simp only at accepted
    split at accepted
    · cases accepted
    · rename_i timeStops
      rcases delimited_split (Bool.eq_true_of_not_eq_false timeStops) with
        ⟨time, afterTime, timeNumeral, rfl⟩
      simp only [timeNumeral.fromChars_eq, drop_numeral] at accepted
      split at accepted
      · cases accepted
      · rename_i timeValid
        split at accepted
        · cases accepted
        · rename_i levelStops
          rcases delimited_split (Bool.eq_true_of_not_eq_false levelStops) with
            ⟨level, afterLevel, levelNumeral, rfl⟩
          simp only [levelNumeral.fromChars_eq, drop_numeral] at accepted
          split at accepted
          · cases accepted
          · rename_i levelValid
            split at accepted
            · cases accepted
            · rename_i idStops
              rcases delimited_split (Bool.eq_true_of_not_eq_false idStops) with
                ⟨id, message, idNumeral, rfl⟩
              simp only [idNumeral.fromChars_eq, drop_numeral] at accepted
              split at accepted
              · cases accepted
              · rename_i idValid
                cases accepted
                have window :=
                  (validateTimestamp_iff started noWrap).mp (Bool.eq_true_of_not_eq_false timeValid)
                have known := validateLevel_iff.mp (Bool.eq_true_of_not_eq_false levelValid)
                have positive := validateID_iff.mp (Bool.eq_true_of_not_eq_false idValid)
                rw [timeNumeral.toNat] at window
                rw [levelNumeral.toNat] at known
                rw [idNumeral.toNat] at positive
                refine ⟨⟨time, level, id, message⟩, ?_, rfl, rfl⟩
                exact ⟨⟨timeNumeral.isNumber, levelNumeral.isNumber, idNumeral.isNumber⟩, window.1,
                  window.2, known, positive, Nat.le_sub_one_of_lt idNumeral.fits⟩
  · rintro ⟨spelling, valid, rfl, rfl⟩
    have timeNumeral : IsNumeral 64 spelling.time :=
      ⟨valid.time.1, valid.time.2, Nat.lt_of_le_of_lt valid.notLate noWrap⟩
    have levelNumeral : IsNumeral 64 spelling.level :=
      ⟨valid.level.1, valid.level.2, Nat.lt_of_le_of_lt valid.levelKnown (by decide)⟩
    have idNumeral : IsNumeral 32 spelling.id :=
      ⟨valid.id.1, valid.id.2, Nat.lt_of_le_of_lt valid.idFits (by decide)⟩
    apply scalarFields_numerals spelling.message timeNumeral levelNumeral idNumeral
    · rw [validateTimestamp_iff started noWrap, timeNumeral.toNat]
      exact ⟨valid.notEarly, valid.notLate⟩
    · rw [validateLevel_iff, levelNumeral.toNat]
      exact valid.levelKnown
    · rw [validateID_iff, idNumeral.toNat]
      exact valid.idPositive

/-! ## What a call of the parser leaves -/

/-- The record is spelled so, its numbers are valid, and its message fits into a
slab together with the header. -/
structure Spelling.Admissible (spelling : Spelling) (now : Nat) (slabSize : SizeT)
    (rawData : StringView) : Prop
    extends spelling.Valid now where
  spelled : rawData.bytes = spelling.text
  fits : SharedLogEntryHeader.size + spelling.message.length ≤ slabSize.toNat

/-- The entry that is pushed, the header in front of the message, and the message
tell what the record says, with lengths of 32 bits. -/
structure Spelling.Carried (spelling : Spelling) (outcome : ParseOutcome) (entry : LogEntry)
    (destination : Nat) :
    Prop where
  pushed : outcome.pushed = some entry
  timestamp : entry.timestamp.toNat = decimalValue spelling.time
  logId : entry.logId.toNat = decimalValue spelling.id
  level : entry.level.toByte.toNat = decimalValue spelling.level
  messageLenght : entry.messageLenght.toNat =
    (SharedLogEntryHeader.size + spelling.message.length) % 2 ^ 32
  headerTimestamp :
    (SharedLogEntryHeader.loadAt outcome.state.memory destination).timestamp.toNat =
      decimalValue spelling.time
  headerId : (SharedLogEntryHeader.loadAt outcome.state.memory destination).logId.toNat =
    decimalValue spelling.id
  headerLevel : (SharedLogEntryHeader.loadAt outcome.state.memory destination).level.toNat =
    decimalValue spelling.level
  headerLength : (SharedLogEntryHeader.loadAt outcome.state.memory destination).messageLen.toNat =
    spelling.message.length % 2 ^ 32
  message :
    outcome.state.memory.load (destination + SharedLogEntryHeader.size) spelling.message.length =
    spelling.message

/-- The record has a region, it is written there, and the session goes on. -/
def Spelling.Stored (spelling : Spelling) (state : ParserState) (outcome : ParseOutcome) : Prop :=
  Exists fun slabPool => Exists fun slab => Exists fun entry =>
    state.slabPool.getNextSlab spelling.message = some (slabPool, slab) ∧
      outcome.state.slabPool = slabPool ∧
      outcome.state.session = state.session ∧ spelling.Carried outcome entry slab.destination

/-- Nothing is pushed, no slab is taken, and the session closes. -/
structure ParseOutcome.Refuses (state : ParserState) (outcome : ParseOutcome) : Prop where
  pushed : outcome.pushed = none
  slabPool : outcome.state.slabPool = state.slabPool
  memory : outcome.state.memory = state.memory
  closing : outcome.state.session.isClosing = true

/-- The queue behind the parser, which calls `push` once for the entry that it
has, and not at all without one. -/
def ParseOutcome.LeavesQueue (outcome : ParseOutcome) (capacity : Nat) (profile : OverflowProfile)
    (before after : QueueSystem LogEntry) : Prop :=
  match outcome.pushed with
  | none => after = before
  | some entry => QueueSystem.PushCall capacity profile entry before after

theorem refuse_refuses (state : ParserState) (reason : DisconnectReason) :
    (state.refuse reason).Refuses state :=
  ⟨rfl, rfl, rfl, NetworkSession.disconnect_isClosing _ _⟩

theorem LogLevel.toByte_ofSize {level : SizeT} (known : level.toNat ≤ 4) :
    (LogLevel.ofSize level).toByte.toNat = level.toNat := by
  have cases : level = 0 ∨ level = 1 ∨ level = 2 ∨ level = 3 ∨ level = 4 := by
    simp only [← BitVec.toNat_inj]
    change level.toNat = 0 ∨ level.toNat = 1 ∨ level.toNat = 2 ∨ level.toNat = 3 ∨ level.toNat = 4
    omega
  rcases cases with rfl | rfl | rfl | rfl | rfl <;> rfl

section Calls

variable {now : Nat} {spelling : Spelling} {rawData : StringView} {state : ParserState}

theorem Spelling.message_short (spelled : rawData.bytes = spelling.text)
    (short : rawData.bytes.length < 2 ^ 63) : spelling.message.length < 2 ^ 63 := by
  rw [spelled] at short
  simp [text] at short
  omega

theorem Spelling.Valid.carried (valid : spelling.Valid now) (later : now + 5 < 2 ^ 64)
    (short : spelling.message.length < 2 ^ 63) {slabPool : SlabPool} {slab : Slab}
    {outcome : ParseOutcome}
    (stored : outcome =
      { state :=
          { state with slabPool := slabPool, memory := spelling.fields.write slab state.memory }
        pushed := some (spelling.fields.logEntry slab) }) :
    spelling.Carried outcome (spelling.fields.logEntry slab) slab.destination := by
  have time : (BitVec.ofNat 64 (decimalValue spelling.time)).toNat =
      decimalValue spelling.time := by
    rw [BitVec.toNat_ofNat, Nat.mod_eq_of_lt (Nat.lt_of_le_of_lt valid.notLate later)]
  have level : (BitVec.ofNat 64 (decimalValue spelling.level)).toNat =
      decimalValue spelling.level := by
    rw [BitVec.toNat_ofNat, Nat.mod_eq_of_lt (Nat.lt_of_le_of_lt valid.levelKnown (by decide))]
  have id : (BitVec.ofNat 32 (decimalValue spelling.id)).toNat = decimalValue spelling.id := by
    rw [BitVec.toNat_ofNat, Nat.mod_eq_of_lt (Nat.lt_of_le_of_lt valid.idFits (by decide))]
  have known := valid.levelKnown
  subst stored
  constructor
  · rfl
  · exact time
  · exact id
  · change (LogLevel.ofSize (BitVec.ofNat 64 (decimalValue spelling.level))).toByte.toNat = _
    rw [LogLevel.toByte_ofSize (level.symm ▸ known), level]
  · change ((SlabPool.totalNeeded spelling.message).setWidth 32).toNat = _
    rw [BitVec.toNat_setWidth, SlabPool.totalNeeded_toNat short]
  · rw [RecordFields.loadAt_write]
    exact time
  · rw [RecordFields.loadAt_write]
    exact id
  · rw [RecordFields.loadAt_write]
    change ((BitVec.ofNat 64 (decimalValue spelling.level)).setWidth 8).toNat = _
    rw [BitVec.toNat_setWidth, level]
    omega
  · rw [RecordFields.loadAt_write]
    exact BitVec.toNat_ofNat _ _
  · exact RecordFields.load_message_write spelling.fields slab state.memory

theorem Spelling.Admissible.stored {clock : UInt64T} (started : 5 ≤ clock.toNat)
    (later : clock.toNat + 5 < 2 ^ 64) (short : rawData.bytes.length < 2 ^ 63)
    (admissible : spelling.Admissible clock.toNat state.slabPool.slabSize rawData) :
    spelling.Stored state (parseAndPush clock rawData state) := by
  have brief := Spelling.message_short admissible.spelled short
  have parsed : scalarFields clock rawData.bytes = .ok spelling.fields :=
    (scalarFields_eq_ok_iff started later).mpr
      ⟨spelling, admissible.toValid, admissible.spelled, rfl⟩
  have fits : ¬ state.slabPool.slabSize < SlabPool.totalNeeded spelling.fields.message := by
    rw [BitVec.lt_def]
    change ¬ _ < (SlabPool.totalNeeded spelling.message).toNat
    rw [SlabPool.totalNeeded_toNat brief]
    exact Nat.not_lt.mpr admissible.fits
  have taken := SlabPool.getNextSlab_of_fits rfl fits rfl
  have outcome : parseAndPush clock rawData state = spelling.fields.store state := by
    rw [parseAndPush, parsed]
    rfl
  rw [RecordFields.store, taken] at outcome
  refine ⟨_, _, _, taken, ?_, ?_, admissible.toValid.carried later brief outcome⟩
  · rw [outcome]
  · rw [outcome]

theorem parseAndPush_refuses {clock : UInt64T} (started : 5 ≤ clock.toNat)
    (later : clock.toNat + 5 < 2 ^ 64) (short : rawData.bytes.length < 2 ^ 63)
    (other : ¬ Exists fun spelling : Spelling =>
      spelling.Admissible clock.toNat state.slabPool.slabSize rawData) :
    (parseAndPush clock rawData state).Refuses state := by
  rw [parseAndPush]
  cases parsed : scalarFields clock rawData.bytes with
  | error reason => exact refuse_refuses state reason
  | ok fields =>
      rcases (scalarFields_eq_ok_iff started later).mp parsed with ⟨spelling, valid, spelled, rfl⟩
      have brief := Spelling.message_short spelled short
      have large : state.slabPool.getNextSlab spelling.fields.message = none := by
        rw [SlabPool.getNextSlab_eq_none, BitVec.lt_def]
        change _ < (SlabPool.totalNeeded spelling.message).toNat
        rw [SlabPool.totalNeeded_toNat brief]
        by_contra fits
        exact other ⟨spelling, valid, spelled, Nat.not_lt.mp fits⟩
      rw [finish, RecordFields.store, large]
      exact refuse_refuses state .messageTooBig

end Calls

/-- What the scalar parser does with a record, at a time and on a queue with the
given entries. -/
structure AcceptsGrammar (clock : UInt64T) (rawData : StringView) (state : ParserState)
    (capacity : Nat) (profile : OverflowProfile) (exponent : Nat) (entries : List LogEntry)
    (consumer : PopPoint LogEntry) (before : QueueSystem LogEntry) : Prop where
  accepts : (parseAndPush clock rawData state).pushed.isSome = true ↔
    Exists fun spelling : Spelling =>
      spelling.Admissible clock.toNat state.slabPool.slabSize rawData
  unique : forall left right : Spelling,
    left.Admissible clock.toNat state.slabPool.slabSize rawData ->
    right.Admissible clock.toNat state.slabPool.slabSize rawData -> left = right
  stores : forall spelling : Spelling,
    spelling.Admissible clock.toNat state.slabPool.slabSize rawData ->
    spelling.Stored state (parseAndPush clock rawData state)
  refuses :
    ¬ (Exists fun spelling : Spelling =>
      spelling.Admissible clock.toNat state.slabPool.slabSize rawData) ->
    (parseAndPush clock rawData state).Refuses state
  /-- the queue has one entry more, or none -/
  pushes : Exists fun after =>
    (parseAndPush clock rawData state).LeavesQueue capacity profile before after ∧
    after.Holds exponent (entries ++ (parseAndPush clock rawData state).pushed.toList) consumer
  /-- there is no other way for the call to end -/
  ends : forall left right,
    (parseAndPush clock rawData state).LeavesQueue capacity profile before left ->
    (parseAndPush clock rawData state).LeavesQueue capacity profile before right -> left = right

/-- The scalar parser accepts exactly its grammar, at every reading of the clock
whose window does not wrap, for every record that a string view can be. -/
theorem parseAndPush_accepts_grammar {clock : UInt64T} (early : 5 ≤ clock.toNat)
    (later : clock.toNat + 5 < 2 ^ 64)
    {rawData : StringView} (short : rawData.bytes.length < 2 ^ 63) (state : ParserState)
    (capacity : Nat) (profile : OverflowProfile) {exponent : Nat} {entries : List LogEntry}
    {consumer : PopPoint LogEntry}
    {before : QueueSystem LogEntry} (holds : before.Holds exponent entries consumer)
    (room : entries.length ≠ 2 ^ exponent - 1) :
    AcceptsGrammar clock rawData state capacity profile exponent entries consumer before := by
  have stores : forall spelling : Spelling,
    spelling.Admissible clock.toNat state.slabPool.slabSize rawData ->
      spelling.Stored state (parseAndPush clock rawData state) :=
    fun spelling admissible => admissible.stored early later short
  have refuses := @parseAndPush_refuses rawData state clock early later short
  constructor
  · constructor
    · intro pushed
      by_contra other
      rw [(refuses other).pushed] at pushed
      cases pushed
    · rintro ⟨spelling, admissible⟩
      rcases stores spelling admissible with ⟨_, _, entry, _, _, _, carried⟩
      rw [carried.pushed]
      rfl
  · intro left right leftAdmissible rightAdmissible
    exact Spelling.text_injective leftAdmissible.toNumbers rightAdmissible.toNumbers
      (leftAdmissible.spelled.symm.trans rightAdmissible.spelled)
  · exact stores
  · exact refuses
  · unfold ParseOutcome.LeavesQueue
    cases (parseAndPush clock rawData state).pushed with
    | none =>
        refine ⟨before, rfl, ?_⟩
        simpa using holds
    | some entry => exact holds.push_call room entry
  · intro left right leftLeaves rightLeaves
    rw [ParseOutcome.LeavesQueue] at leftLeaves rightLeaves
    split at leftLeaves
    · rename_i nothing
      simp only [nothing] at rightLeaves
      exact leftLeaves.trans rightLeaves.symm
    · rename_i entry pushed
      simp only [pushed] at rightLeaves
      exact leftLeaves.unique rightLeaves

/-! ## A short record on the smallest queue -/

theorem twoSlotsStart_holds (profile : OverflowProfile) :
    (twoSlotsStart profile).Holds 1 [] (.returned none) where
  ring := (twoSlots_fresh profile).isRing
  running := rfl
  contents := (twoSlots_fresh profile).isRing.empty_iff.mp rfl
  producer := rfl
  consumer := rfl

/-- `1000 1 7 hi`. -/
def shortRecord : StringView :=
  { data := 0, bytes := [0x31, 0x30, 0x30, 0x30, 0x20, 0x31, 0x20, 0x37, 0x20, 0x68, 0x69] }

/-- A session with an empty ring, and a pool of one slab of eight gigabytes. -/
def wideState : ParserState :=
  { session := NetworkSession.oneMebibyte
    slabPool := (SlabPool.create 1 8192).initializeSharedMemory 0x100000
    memory := fun _ => 0 }

theorem parseAndPush_accepts_grammar_shortRecord :
    AcceptsGrammar 1002 shortRecord
      { session := NetworkSession.oneMebibyte
        slabPool := (SlabPool.create 10 1).initializeSharedMemory 0x100000
        memory := fun _ => 0 }
      2 .dropAll 1 [] (.returned none) (twoSlotsStart .dropAll) :=
  parseAndPush_accepts_grammar (by decide) (by decide) (by decide) _ 2 .dropAll
    (twoSlotsStart_holds .dropAll) (by decide)

/-! ## Where lengths and readings are too large -/

/-- `1000 1 7 ` and a message of the letter `x`. -/
def longSpelling (size : Nat) : Spelling :=
  { time := [0x31, 0x30, 0x30, 0x30], level := [0x31], id := [0x37],
    message := List.replicate size 0x78 }

def longRecord (size : Nat) : StringView :=
  { data := 0, bytes := (longSpelling size).text }

/-- The numbers do not depend on the message. -/
theorem longSpelling_valid (size : Nat) : (longSpelling size).Valid (1000 : UInt64T).toNat := by
  have none : (longSpelling 0).Valid (1000 : UInt64T).toNat :=
    ⟨⟨⟨by decide, by decide⟩, ⟨by decide, by decide⟩, by decide, by decide⟩, by decide,
      by decide, by decide, by decide, by decide⟩
  exact ⟨⟨none.time, none.level, none.id⟩, none.notEarly, none.notLate, none.levelKnown,
    none.idPositive, none.idFits⟩

theorem longSpelling_admissible {size : Nat} (fits : SharedLogEntryHeader.size + size ≤ 2 ^ 33) :
    (longSpelling size).Admissible (1000 : UInt64T).toNat wideState.slabPool.slabSize
    (longRecord size) := by
  refine ⟨longSpelling_valid size, rfl, ?_⟩
  change _ + (List.replicate size _).length ≤ _
  rw [List.length_replicate]
  exact fits

/-- The record is stored with the length of its message in 32 bits. -/
theorem longSpelling_stored {size : Nat} (fits : SharedLogEntryHeader.size + size ≤ 2 ^ 33)
    (cut : size % 2 ^ 32 = 0) :
    Exists fun slabPool => Exists fun slab =>
      wideState.slabPool.getNextSlab (longSpelling size).message = some (slabPool, slab) ∧
        (longSpelling size).message.length = size ∧
          (SharedLogEntryHeader.loadAt (parseAndPush 1000 (longRecord size) wideState).state.memory
            slab.destination).messageLen.toNat = 0 := by
  have length : (longSpelling size).message.length = size := List.length_replicate
  have short : (longRecord size).bytes.length < 2 ^ 63 := by
    rw [SharedLogEntryHeader.size] at fits
    simp [longRecord, Spelling.text, longSpelling]
    omega
  rcases (longSpelling_admissible fits).stored (by decide) (by decide) short with
    ⟨slabPool, slab, entry, taken, _, _, carried⟩
  refine ⟨slabPool, slab, taken, length, ?_⟩
  rw [carried.headerLength, length, cut]

/-- The time is the largest reading of the clock. -/
def latestSpelling : Spelling :=
  { time :=
      [0x31, 0x38, 0x34, 0x34, 0x36, 0x37, 0x34, 0x34, 0x30, 0x37,
       0x33, 0x37, 0x30, 0x39, 0x35, 0x35, 0x31, 0x36, 0x31, 0x35]
    level := [0x31]
    id := [0x37]
    message := [] }

def latestRecord : StringView :=
  { data := 0, bytes := latestSpelling.text }

/-- A message of four gigabytes is stored with the length zero, and at the end of
the clock a record of the present second is refused. -/
theorem hugeMessage_and_latestTime :
    ((longSpelling (2 ^ 32)).Admissible (1000 : UInt64T).toNat wideState.slabPool.slabSize
        (longRecord (2 ^ 32)) ∧
      Exists fun slabPool => Exists fun slab =>
        wideState.slabPool.getNextSlab (longSpelling (2 ^ 32)).message = some (slabPool, slab) ∧
          (longSpelling (2 ^ 32)).message.length = 2 ^ 32 ∧
            (SharedLogEntryHeader.loadAt
              (parseAndPush 1000 (longRecord (2 ^ 32)) wideState).state.memory
              slab.destination).messageLen.toNat = 0) ∧
      latestSpelling.Admissible (BitVec.allOnes 64).toNat wideState.slabPool.slabSize latestRecord ∧
        (parseAndPush (BitVec.allOnes 64) latestRecord wideState).pushed = none := by
  refine ⟨⟨longSpelling_admissible (by decide), longSpelling_stored (by decide) (by decide)⟩, ?_,
    by decide +kernel⟩
  · constructor
    · constructor
      · exact ⟨⟨by decide, by decide⟩, ⟨by decide, by decide⟩, by decide, by decide⟩
      · decide +kernel
      · decide +kernel
      · decide
      · decide
      · decide
    · rfl
    · decide

end Network
end VortexEngine
