import VortexEngine.Foundations.BitScan
import VortexEngine.Network.NetworkSession
import VortexEngine.Network.SlabPool

open VortexEngine.Foundations

namespace VortexEngine
namespace Network

/-!
# The two record parsers

A record is a time, a level and an identifier in decimal, each followed by one
space, and a message.  `parse_and_push` walks the string.  `parse_and_push_simd`
looks for the spaces among the first 32 bytes with bit tricks and cuts the
fields there.  Both end in the same code: they take a slab, write the header and
the message, and push an entry.

`std::from_chars` is given ranges.  A range whose end lies before its beginning
is outside of its contract, and a parser that passes one has no result here.
-/

def space : Byte := 0x20

/-! ## `std::from_chars` -/

inductive Errc
  | ok
  | invalidArgument
  | resultOutOfRange
  deriving DecidableEq, Repr

/-- Where the scan stopped, whether it failed, and the value, which is left at
its initial zero by a failure. -/
structure FromCharsResult (width : Nat) where
  ptr : Nat
  ec : Errc
  value : BitVec width
  deriving DecidableEq, Repr

def isDigit (char : Byte) : Bool :=
  0x30 ≤ char.toNat && char.toNat ≤ 0x39

/-- The value of a string of digits, most significant first. -/
def decimalValue (digits : List Byte) : Nat :=
  digits.foldl (fun value digit => 10 * value + (digit.toNat - 0x30)) 0

/-- `std::from_chars` for an unsigned type: the maximal prefix of digits. -/
def fromChars (width : Nat) (text : List Byte) : FromCharsResult width :=
  let digits := text.takeWhile isDigit
  if digits = [] then { ptr := 0, ec := .invalidArgument, value := 0 }
  else if decimalValue digits < 2 ^ width then
    { ptr := digits.length, ec := .ok, value := BitVec.ofNat width (decimalValue digits) }
  else { ptr := digits.length, ec := .resultOutOfRange, value := 0 }

/-- `std::from_chars` on the range from `first` to `last`. -/
def fromCharsRange (width : Nat) (text : List Byte)
    (first last : Nat) : Option (FromCharsResult width) :=
  if last < first then none else some (fromChars width ((text.drop first).take (last - first)))

/-! ## `CheckLogEntry` -/

namespace CheckLogEntry

/-- The clock window.  Both of its bounds wrap. -/
def validateTimestamp (currentTime timestamp : UInt64T) : Bool :=
  let minAllowedTime := currentTime - 5
  let maxAllowedTime : UInt64T := 5
  if timestamp < minAllowedTime ∨ currentTime + maxAllowedTime < timestamp then false else true

def validateID (id : UInt32T) : Bool :=
  if id < 1 ∨ 4294967295 < id then false else true

def validateLevel (level : SizeT) : Bool :=
  if Core.LogLevel.critical.toByte.setWidth 64 < level ∨
      level < Core.LogLevel.debug.toByte.setWidth 64 then
    false
  else true

end CheckLogEntry

/-! ## From fields to a pushed entry -/

/-- What both parsers extract from a record. -/
structure RecordFields where
  time : UInt64T
  level : SizeT
  id : UInt32T
  message : List Byte
  deriving DecidableEq, Repr

/-- The state that a parser works on: its session, the slab pool of the
session's queue, and the memory. -/
structure ParserState where
  session : NetworkSession
  slabPool : SlabPool
  memory : Memory

/-- The state after the parser, and the entry that it pushes. -/
structure ParseOutcome where
  state : ParserState
  pushed : Option Core.LogEntry

namespace ParserState

/-- `return session->disconnect(reason);` -/
def refuse (state : ParserState) (reason : DisconnectReason) : ParseOutcome :=
  { state := { state with session := state.session.disconnect reason }, pushed := none }

end ParserState

namespace RecordFields

/-- The sum `relative_offset + sizeof(SharedLogEntryHeader)`, in 64 bits. -/
def payloadOffset (slab : Slab) : UInt64T :=
  slab.outOffset.setWidth 64 + BitVec.ofNat 64 SharedLogEntryHeader.size

def header (fields : RecordFields) (slab : Slab) : SharedLogEntryHeader :=
  { timestamp := fields.time
    logId := fields.id
    messageLen := BitVec.ofNat 32 fields.message.length
    messageOffset := (payloadOffset slab).setWidth 32
    relativeOffset := payloadOffset slab
    level := fields.level.setWidth 8 }

def logEntry (fields : RecordFields) (slab : Slab) : Core.LogEntry :=
  { timestamp := fields.time
    logId := fields.id
    messageLenght := (SlabPool.totalNeeded fields.message).setWidth 32
    messageOffset := (payloadOffset slab).setWidth 32
    relativeOffset := slab.outOffset.setWidth 64
    level := .ofSize fields.level }

/-- The header is written at the destination and the message behind it. -/
def write (fields : RecordFields) (slab : Slab) (memory : Memory) : Memory :=
  (memory.store slab.destination (fields.header slab).encode).store
    (slab.destination + SharedLogEntryHeader.size) fields.message

theorem loadAt_write (fields : RecordFields) (slab : Slab) (memory : Memory) :
    SharedLogEntryHeader.loadAt (fields.write slab memory) slab.destination =
      fields.header slab := by
  have kept : (fields.write slab memory).load slab.destination SharedLogEntryHeader.size =
      (memory.store slab.destination (fields.header slab).encode).load slab.destination
        SharedLogEntryHeader.size :=
    Memory.load_store_apart (Or.inl (Nat.le_refl _))
  have stored := Memory.load_store memory slab.destination (fields.header slab).encode
  rw [SharedLogEntryHeader.length_encode] at stored
  rw [SharedLogEntryHeader.loadAt, kept, stored, SharedLogEntryHeader.decode_encode]

/-- A reader finds the message behind the header. -/
theorem load_message_write (fields : RecordFields) (slab : Slab) (memory : Memory) :
    (fields.write slab memory).load
    (slab.destination + SharedLogEntryHeader.size) fields.message.length =
      fields.message :=
  Memory.load_store _ _ _

/-- The common end of the two parsers. -/
def store (fields : RecordFields) (state : ParserState) : ParseOutcome :=
  match state.slabPool.getNextSlab fields.message with
  | none => state.refuse .messageTooBig
  | some (slabPool, slab) =>
      { state := { state with slabPool := slabPool, memory := fields.write slab state.memory }
        pushed := some (fields.logEntry slab) }

end RecordFields

/-- Refuse a malformed record, store a well-formed one. -/
def finish (parsed : Except DisconnectReason RecordFields) (state : ParserState) : ParseOutcome :=
  match parsed with
  | .error reason => state.refuse reason
  | .ok fields => fields.store state

/-! ## The scalar parser -/

/-- `ec == std::errc{}`, and the scan stopped at a space. -/
def FromCharsResult.delimited {width : Nat} (result : FromCharsResult width)
    (text : List Byte) : Bool :=
  decide (result.ec = .ok) && decide (text[result.ptr]? = some space)

/-- The field stages of `parse_and_push`, in their order. -/
def scalarFields (clock : UInt64T) (rawData : List Byte) : Except DisconnectReason RecordFields :=
  let time := fromChars 64 rawData
  if time.delimited rawData = false then .error .malformedTime
  else if CheckLogEntry.validateTimestamp clock time.value = false then .error .invalidTime
  else
    let afterTime := rawData.drop (time.ptr + 1)
    let level := fromChars 64 afterTime
    if level.delimited afterTime = false then .error .malformedLevel
    else if CheckLogEntry.validateLevel level.value = false then .error .invalidLevel
    else
      let afterLevel := afterTime.drop (level.ptr + 1)
      let id := fromChars 32 afterLevel
      if id.delimited afterLevel = false then .error .malformedId
      else if CheckLogEntry.validateID id.value = false then .error .invalidId
      else
        .ok
          { time := time.value, level := level.value, id := id.value,
            message := afterLevel.drop (id.ptr + 1) }

def parseAndPush (clock : UInt64T) (rawData : StringView) (state : ParserState) : ParseOutcome :=
  finish (scalarFields clock rawData.bytes) state

theorem scalarFields_message_le {clock : UInt64T} {rawData : List Byte} {fields : RecordFields}
    (accepted : scalarFields clock rawData = .ok fields) :
      fields.message.length ≤ rawData.length := by
  rw [scalarFields] at accepted
  simp only at accepted
  repeat' split at accepted
  all_goals cases accepted
  simp only [List.length_drop]
  omega

/-- A call refuses its record, or stores it in the region that it takes. -/
theorem finish_cases (parsed : Except DisconnectReason RecordFields) (state : ParserState) :
    (Exists fun reason => finish parsed state = state.refuse reason) ∨
      Exists fun fields => Exists fun slabPool => Exists fun slab => parsed = .ok fields ∧
        state.slabPool.getNextSlab fields.message = some (slabPool, slab) ∧
          finish parsed state =
            { state := { state with slabPool := slabPool, memory := fields.write slab state.memory }
              pushed := some (fields.logEntry slab) } := by
  cases parsed with
  | error reason => exact Or.inl ⟨reason, rfl⟩
  | ok fields =>
      cases taken : state.slabPool.getNextSlab fields.message with
      | none => exact Or.inl ⟨.messageTooBig, by rw [finish, RecordFields.store, taken]⟩
      | some region =>
          exact Or.inr
            ⟨fields, region.1, region.2, rfl, taken, by rw [finish, RecordFields.store, taken]⟩

/-- A nonempty string of digits whose value fits a width. -/
structure IsNumeral (width : Nat) (digits : List Byte) : Prop where
  nonempty : digits ≠ []
  allDigits : forall digit, digit ∈ digits -> isDigit digit = true
  fits : decimalValue digits < 2 ^ width

theorem IsNumeral.fromChars_eq {width : Nat} {digits : List Byte} (numeral : IsNumeral width digits)
    (rest : List Byte) :
    fromChars width (digits ++ space :: rest) =
      { ptr := digits.length, ec := .ok, value := BitVec.ofNat width (decimalValue digits) } := by
  have scanned : (digits ++ space :: rest).takeWhile isDigit = digits := by
    rw [List.takeWhile_append_of_pos numeral.allDigits, List.takeWhile_cons_of_neg (by decide),
      List.append_nil]
  rw [fromChars, scanned, if_neg numeral.nonempty, if_pos numeral.fits]

theorem delimited_numeral {width : Nat} (digits rest : List Byte) (value : BitVec width) :
    FromCharsResult.delimited { ptr := digits.length, ec := .ok, value := value }
      (digits ++ space :: rest) =
      true := by
  simp [FromCharsResult.delimited]

theorem drop_numeral (digits rest : List Byte) :
    (digits ++ space :: rest).drop (digits.length + 1) = rest := by
  rw [List.drop_append, List.drop_eq_nil_of_le (Nat.le_succ _), Nat.add_sub_cancel_left]
  rfl

/-- Three numerals with values in range, each followed by one space, and any
message are accepted. -/
theorem scalarFields_numerals {clock : UInt64T} {time level id : List Byte} (message : List Byte)
    (timeNumeral : IsNumeral 64 time) (levelNumeral : IsNumeral 64 level)
    (idNumeral : IsNumeral 32 id)
    (timeValid : CheckLogEntry.validateTimestamp clock (BitVec.ofNat 64 (decimalValue time)) = true)
    (levelValid : CheckLogEntry.validateLevel (BitVec.ofNat 64 (decimalValue level)) = true)
    (idValid : CheckLogEntry.validateID (BitVec.ofNat 32 (decimalValue id)) = true) :
    scalarFields clock (time ++ space :: (level ++ space :: (id ++ space :: message))) =
      .ok
        { time := BitVec.ofNat 64 (decimalValue time)
          level := BitVec.ofNat 64 (decimalValue level)
          id := BitVec.ofNat 32 (decimalValue id)
          message := message } := by
  rw [scalarFields]
  simp only [timeNumeral.fromChars_eq, delimited_numeral, drop_numeral, timeValid,
    levelNumeral.fromChars_eq,
    levelValid, idNumeral.fromChars_eq, idValid, Bool.true_eq_false, if_false]

/-! ## The AVX2 parser -/

/-- Compare the first 32 bytes with a space and collect the results. -/
def spaceMask (rawData : List Byte) : UInt32T :=
  (BitVec.ofBoolListLE ((rawData.take 32).map (· == space))).setWidth 32

/-- The two tests that hand a record to the scalar parser: it is short or too
close to the end of its page, or there are less than three spaces. -/
def takesScalarPath (rawData : StringView) : Bool :=
  decide (rawData.bytes.length < 64 ∨ 4096 < (rawData.data &&& 0xFFF) + 64) ||
    decide ((spaceMask rawData.bytes).cpop < 3)

/-- The field stages of `parse_and_push_simd`. -/
def simdFields (clock : UInt64T)
    (rawData : List Byte) : Option (Except DisconnectReason RecordFields) :=
  let mask := spaceMask rawData
  let p1 := mask.ctz.toNat
  let p2 := (mask &&& (mask - 1)).ctz.toNat
  let p3 := (mask &&& (mask - 1) &&& (mask - 2)).ctz.toNat
  (fromCharsRange 64 rawData 0 p1).bind fun time =>
    if time.ec ≠ .ok then some (.error .timeFormat)
    else if CheckLogEntry.validateTimestamp clock time.value = false then some (.error .invalidTime)
    else
      (fromCharsRange 64 rawData (p1 + 1) p2).bind fun level =>
        if level.ec ≠ .ok then some (.error .levelFormat)
        else if CheckLogEntry.validateLevel level.value = false then some (.error .invalidLevel)
        else
          (fromCharsRange 32 rawData (p2 + 1) p3).bind fun id =>
            if id.ec ≠ .ok then some (.error .idFormat)
            else if CheckLogEntry.validateID id.value = false then some (.error .invalidId)
            else
              some (.ok
                { time := time.value, level := level.value, id := id.value,
                  message := rawData.drop (p3 + 1) })

/-- No result when a range outside of the contract of `from_chars` is scanned. -/
def parseAndPushSimd (clock : UInt64T) (rawData : StringView)
    (state : ParserState) : Option ParseOutcome :=
  if takesScalarPath rawData then some (parseAndPush clock rawData state)
  else (simdFields clock rawData.bytes).map (finish · state)

end Network
end VortexEngine
