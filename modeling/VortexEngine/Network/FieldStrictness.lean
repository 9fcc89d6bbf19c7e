import VortexEngine.Network.ParserAgreement

open VortexEngine.Foundations

namespace VortexEngine
namespace Network

/-!
# How strictly the two parsers read the time and the level

`std::from_chars` succeeds on any nonempty prefix of digits.  The scalar parser
also looks where the scan stopped and insists on a space there.  The AVX2
parser cuts the field at the space instead and looks at the error code only,
so on its fast path a field with digits in front and anything behind them gets
through.  The paths differ on exactly those records.
-/

/-! ## Fields and stages -/

/-- The bytes in front of the first space. -/
def timeField (rawData : List Byte) : List Byte :=
  rawData.takeWhile (· != space)

/-- The record behind its first space. -/
def afterTime (rawData : List Byte) : List Byte :=
  rawData.drop (rawData.idxOf space + 1)

/-- The bytes between the first space and the second. -/
def levelField (rawData : List Byte) : List Byte :=
  (afterTime rawData).takeWhile (· != space)

def AllDigits (field : List Byte) : Prop :=
  forall char, char ∈ field -> isDigit char = true

/-- What the field stages of `parse_and_push_simd` make of a record, the way
through the scalar parser included. -/
def simdRecord (clock : UInt64T)
    (rawData : StringView) : Option (Except DisconnectReason RecordFields) :=
  if takesScalarPath rawData then some (scalarFields clock rawData.bytes) else
    simdFields clock rawData.bytes

/-- Behind the field stages the AVX2 parser ends like the scalar one. -/
theorem parseAndPushSimd_eq (clock : UInt64T) (rawData : StringView) (state : ParserState) :
    parseAndPushSimd clock rawData state = (simdRecord clock rawData).map (finish · state) := by
  unfold parseAndPushSimd simdRecord
  split <;> rfl

/-- The parser has not returned in its timestamp stage.  A parser without a
result has come as far as the identifier. -/
def PastTime (result : Option (Except DisconnectReason RecordFields)) : Prop :=
  result ≠ some (.error .malformedTime) ∧ result ≠ some (.error .timeFormat) ∧
    result ≠ some (.error .invalidTime)

/-- The parser has not returned in its level stage or earlier. -/
def PastLevel (result : Option (Except DisconnectReason RecordFields)) : Prop :=
  PastTime result ∧ result ≠ some (.error .malformedLevel) ∧ result ≠ some (.error .levelFormat) ∧
    result ≠ some (.error .invalidLevel)

/-- The AVX2 parser passes fields of digits only, and passes the stages when
the scalar parser does. -/
structure SimdAsStrict (clock : UInt64T) (rawData : StringView) : Prop where
  time : PastTime (simdRecord clock rawData) -> AllDigits (timeField rawData.bytes)
  level : PastLevel (simdRecord clock rawData) -> AllDigits (levelField rawData.bytes)
  sameTime : PastTime (simdRecord clock rawData) ↔
    PastTime (some (scalarFields clock rawData.bytes))
  sameLevel : PastLevel (simdRecord clock rawData) ↔
    PastLevel (some (scalarFields clock rawData.bytes))

/-- The digits at the front of a text are a number that passes a test. -/
def NumberInFront {width : Nat} (test : BitVec width -> Bool) (text : List Byte) : Prop :=
  IsNumeral width (text.takeWhile isDigit) ∧
    test (BitVec.ofNat width (decimalValue (text.takeWhile isDigit))) = true

/-- A record begins with a time that the clock window admits. -/
def TimeInFront (clock : UInt64T) (rawData : List Byte) : Prop :=
  NumberInFront (CheckLogEntry.validateTimestamp clock) rawData

/-- A level follows the first space. -/
def LevelInFront (rawData : List Byte) : Prop :=
  NumberInFront CheckLogEntry.validateLevel (afterTime rawData)

/-! ## Scans -/

variable {width : Nat} {text : List Byte}

theorem numberInFront_iff {test : BitVec width -> Bool} :
    NumberInFront test text ↔
      (fromChars width text).ec = .ok ∧ test (fromChars width text).value = true := by
  have allDigits := List.all_eq_true.mp (@List.all_takeWhile _ isDigit text)
  unfold NumberInFront fromChars
  by_cases empty : text.takeWhile isDigit = []
  · rw [if_pos empty]
    constructor
    · rintro ⟨numeral, _⟩
      exact absurd empty numeral.nonempty
    · rintro ⟨ok, _⟩
      cases ok
  · rw [if_neg empty]
    by_cases fits : decimalValue (text.takeWhile isDigit) < 2 ^ width
    · rw [if_pos fits]
      exact and_congr_left fun _ => ⟨fun _ => rfl, fun _ => ⟨empty, allDigits, fits⟩⟩
    · rw [if_neg fits]
      constructor
      · rintro ⟨numeral, _⟩
        exact absurd numeral.fits fits
      · rintro ⟨ok, _⟩
        cases ok

/-- The digits of a text end at its first space exactly when everything in
front of that space is a digit. -/
theorem digits_end_at_space (present : space ∈ text) :
    text[(text.takeWhile isDigit).length]? = some space ↔
      AllDigits (text.takeWhile (· != space)) := by
  induction text with
  | nil => cases present
  | cons char rest ih =>
      by_cases same : char = space
      · subst same
        constructor
        · intro _ digit member
          cases member
        · intro _
          rfl
      · have behind : space ∈ rest := List.mem_of_ne_of_mem (Ne.symm same) present
        have field : (char :: rest).takeWhile (· != space) = char :: rest.takeWhile (· != space) :=
          List.takeWhile_cons_of_pos (bne_iff_ne.mpr same)
        by_cases digit : isDigit char = true
        · rw [field, List.takeWhile_cons_of_pos digit, List.length_cons,
            List.getElem?_cons_succ, ih behind]
          unfold AllDigits
          rw [List.forall_mem_cons]
          exact ⟨fun others => ⟨digit, others⟩, fun all => all.2⟩
        · rw [field, List.takeWhile_cons_of_neg digit]
          constructor
          · intro first
            exact absurd (Option.some.inj first) same
          · intro all
            exact absurd (all char List.mem_cons_self) digit

/-- A scan stops at a space when the whole field is a number. -/
theorem delimited_iff {test : BitVec width -> Bool} :
    ((fromChars width text).delimited text = true ∧ test (fromChars width text).value = true) ↔
      NumberInFront test text ∧ space ∈ text ∧ AllDigits (text.takeWhile (· != space)) := by
  rw [numberInFront_iff, FromCharsResult.delimited, Bool.and_eq_true_iff, decide_eq_true_iff,
    decide_eq_true_iff]
  constructor
  · rintro ⟨⟨ok, delimiter⟩, passes⟩
    rw [ptr_of_ok ok] at delimiter
    have present := List.mem_of_getElem? delimiter
    exact ⟨⟨ok, passes⟩, present, (digits_end_at_space present).mp delimiter⟩
  · rintro ⟨⟨ok, passes⟩, present, all⟩
    refine ⟨⟨ok, ?_⟩, passes⟩
    rw [ptr_of_ok ok]
    exact (digits_end_at_space present).mpr all

/-! ## The stages of the scalar parser -/

section Scalar

variable {clock : UInt64T} {rawData : List Byte}

theorem scalar_pastTime_iff : PastTime (some (scalarFields clock rawData)) ↔
    TimeInFront clock rawData ∧ space ∈ rawData ∧ AllDigits (timeField rawData) := by
  unfold TimeInFront timeField
  rw [← delimited_iff]
  unfold scalarFields
  simp only
  cases stops : (fromChars 64 rawData).delimited rawData with
  | false => simp [PastTime]
  | true =>
      cases valid : CheckLogEntry.validateTimestamp clock (fromChars 64 rawData).value with
      | false => simp [PastTime]
      | true =>
          simp only [Bool.true_eq_false, if_false, and_self, iff_true]
          repeat' split
          all_goals simp [PastTime]

theorem scalar_pastLevel_iff : PastLevel (some (scalarFields clock rawData)) ↔
    PastTime (some (scalarFields clock rawData)) ∧
      LevelInFront rawData ∧ space ∈ afterTime rawData ∧ AllDigits (levelField rawData) := by
  unfold PastLevel
  apply and_congr_right
  intro past
  rw [scalar_pastTime_iff] at past
  unfold TimeInFront timeField at past
  rw [← delimited_iff] at past
  rcases past with ⟨stops, valid⟩
  have behind : rawData.drop ((fromChars 64 rawData).ptr + 1) = afterTime rawData := by
    rw [(ptr_of_delimited stops).2]
    rfl
  unfold LevelInFront levelField
  rw [← delimited_iff]
  unfold scalarFields
  simp only [stops, valid, behind, Bool.true_eq_false, if_false]
  cases levelStops : (fromChars 64 (afterTime rawData)).delimited (afterTime rawData) with
  | false => simp
  | true =>
      cases levelValid : CheckLogEntry.validateLevel (fromChars 64 (afterTime rawData)).value with
      | false => simp
      | true =>
          simp only [Bool.true_eq_false, if_false, and_self, iff_true]
          repeat' split
          all_goals simp

end Scalar

/-! ## The stages of the fast path -/

section FastPath

variable {clock : UInt64T} {rawData : StringView}

theorem spaces_of_fastPath (fast : takesScalarPath rawData = false) :
    space ∈ rawData.bytes ∧ space ∈ afterTime rawData.bytes := by
  rcases secondPosition fast with ⟨behind, second⟩
  refine ⟨List.mem_of_getElem? second, ?_⟩
  apply List.mem_of_getElem?
    (i := (clearLowest (spaceMask rawData.bytes)).ctz.toNat - (rawData.bytes.idxOf space + 1))
  unfold afterTime
  rw [List.getElem?_drop, Nat.add_sub_cancel' behind]
  exact second

/-- On the fast path a number in front of the field is enough. -/
theorem fastPath_stages (fast : takesScalarPath rawData = false) :
    (PastTime (simdRecord clock rawData) ↔ TimeInFront clock rawData.bytes) ∧
      (PastLevel (simdRecord clock rawData) ↔
        TimeInFront clock rawData.bytes ∧ LevelInFront rawData.bytes) := by
  rcases simd_ranges fast with ⟨time, level⟩
  unfold simdRecord TimeInFront LevelInFront
  rw [numberInFront_iff, numberInFront_iff, fast, if_neg Bool.false_ne_true, simdFields, time,
    Option.bind_some, level, Option.bind_some]
  change (_ ↔ _) ∧
    (_ ↔ _ ∧ (fromChars 64 (rawData.bytes.drop (rawData.bytes.idxOf space + 1))).ec = _ ∧
    CheckLogEntry.validateLevel
      (fromChars 64 (rawData.bytes.drop (rawData.bytes.idxOf space + 1))).value = true)
  generalize fromChars 64 rawData.bytes = scannedTime
  generalize fromChars 64 (rawData.bytes.drop (rawData.bytes.idxOf space + 1)) = scannedLevel
  by_cases timeOk : scannedTime.ec = .ok
  · cases timeValid : CheckLogEntry.validateTimestamp clock scannedTime.value with
    | false => simp [PastTime, PastLevel, timeOk]
    | true =>
        by_cases levelOk : scannedLevel.ec = .ok
        · cases levelValid : CheckLogEntry.validateLevel scannedLevel.value with
          | false => simp [PastTime, PastLevel, timeOk, levelOk]
          | true =>
              -- a reversed range and the identifier's errors are not among those of the two stages
              simp only [timeOk, levelOk, ne_eq, not_true_eq_false, Bool.true_eq_false, if_false,
                and_self, iff_true]
              generalize fromCharsRange 32 _ _ _ = scannedId
              cases scannedId with
              | none => simp [PastTime, PastLevel]
              | some id =>
                  rw [Option.bind_some]
                  repeat' split
                  all_goals simp [PastTime, PastLevel]
        · simp [PastTime, PastLevel, timeOk, levelOk]
  · simp [PastTime, PastLevel, timeOk]

end FastPath

/-! ## Where the fast path is as strict -/

/-- The AVX2 parser is as strict as the scalar one exactly when it leaves the
record to it, or when no byte other than a digit follows an admitted time
within the first field, nor an admitted level within the second. -/
theorem simdAsStrict_iff (clock : UInt64T) (rawData : StringView) :
    SimdAsStrict clock rawData ↔
      takesScalarPath rawData = true ∨
        (TimeInFront clock rawData.bytes -> AllDigits (timeField rawData.bytes)) ∧
          (TimeInFront clock rawData.bytes -> LevelInFront rawData.bytes ->
            AllDigits (levelField rawData.bytes)) := by
  cases fast : takesScalarPath rawData with
  | true =>
      have same : simdRecord clock rawData = some (scalarFields clock rawData.bytes) := by
        unfold simdRecord
        rw [fast, if_pos rfl]
      refine ⟨fun _ => Or.inl rfl, fun _ => ⟨?_, ?_, ?_, ?_⟩⟩
      · rw [same, scalar_pastTime_iff]
        exact fun past => past.2.2
      · rw [same, scalar_pastLevel_iff]
        exact fun past => past.2.2.2
      · rw [same]
      · rw [same]
  | false =>
      rcases @fastPath_stages clock rawData fast with ⟨pastTime, pastLevel⟩
      rcases spaces_of_fastPath fast with ⟨first, second⟩
      constructor
      · intro strict
        refine Or.inr ⟨fun time => strict.time (pastTime.mpr time), ?_⟩
        exact fun time level => strict.level (pastLevel.mpr ⟨time, level⟩)
      · intro condition
        rcases condition.resolve_left Bool.false_ne_true with ⟨timeDigits, levelDigits⟩
        refine ⟨?_, ?_, ?_, ?_⟩
        · exact fun past => timeDigits (pastTime.mp past)
        · exact fun past => levelDigits (pastLevel.mp past).1 (pastLevel.mp past).2
        · rw [pastTime, scalar_pastTime_iff]
          exact ⟨fun time => ⟨time, first, timeDigits time⟩, fun past => past.1⟩
        · rw [pastLevel, scalar_pastLevel_iff, scalar_pastTime_iff]
          constructor
          · rintro ⟨time, level⟩
            exact ⟨⟨time, first, timeDigits time⟩, level, second, levelDigits time level⟩
          · rintro ⟨⟨time, _⟩, level, _⟩
            exact ⟨time, level⟩

/-- A record of time 1000 with three letters behind it, level 1, identifier 7
and a message of 60 bytes. -/
def trailingRecord : StringView :=
  { data := 0x10000
    bytes := [0x31, 0x30, 0x30, 0x30, 0x61, 0x62, 0x63, 0x20, 0x31, 0x20, 0x37, 0x20] ++
      List.replicate 60 0x78 }

/-- The record is in the claimed range, the AVX2 parser gets past its time, and
the scalar parser refuses it there. -/
theorem trailingRecord_passes_simd :
    64 ≤ trailingRecord.bytes.length ∧ 3 ≤ (trailingRecord.bytes.take 32).count space ∧
      PastTime (simdRecord 1000 trailingRecord) ∧
        scalarFields 1000 trailingRecord.bytes = .error .malformedTime ∧
          ¬ SimdAsStrict 1000 trailingRecord := by
  have letters : ¬ AllDigits (timeField trailingRecord.bytes) := by
    intro all
    exact absurd (all 0x61 (by decide +kernel)) (by decide)
  have outside : simdRecord 1000 trailingRecord = none := by decide +kernel
  have past : PastTime (simdRecord 1000 trailingRecord) := by
    rw [outside]
    exact ⟨nofun, nofun, nofun⟩
  refine ⟨by decide, by decide +kernel, past, by decide +kernel, ?_⟩
  exact fun strict => letters (strict.time past)

end Network
end VortexEngine
