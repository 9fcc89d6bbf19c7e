import VortexEngine.Network.RecordParser

open VortexEngine.Foundations

namespace VortexEngine
namespace Network

/-!
# Where the two parsers agree

On its fast path the AVX2 parser takes the position of the third space from
`mask & (mask - 1) & (mask - 2)`.  Subtracting two clears the lowest space
only when it is the first byte of the record, so for every record that begins
with a digit the third position is the second one again.  The range of the
identifier then ends before it begins.

The parsers therefore agree exactly on the records that the fast path never
takes up, and on those that it refuses before the identifier.
-/

/-! ## Digits end at a space -/

theorem takeWhile_isDigit_take {text : List Byte} {stop : Nat}
    (delimiter : text[stop]? = some space) :
    (text.take stop).takeWhile isDigit = text.takeWhile isDigit := by
  induction text generalizing stop with
  | nil => rw [List.take_nil]
  | cons char rest ih =>
      cases stop with
      | zero =>
          cases delimiter
          rfl
      | succ stop =>
          rw [List.getElem?_cons_succ] at delimiter
          rw [List.take_succ_cons, List.takeWhile_cons, List.takeWhile_cons, ih delimiter]

theorem fromChars_take {width : Nat} {text : List Byte} {stop : Nat}
    (delimiter : text[stop]? = some space) :
      fromChars width (text.take stop) = fromChars width text := by
  rw [fromChars, fromChars, takeWhile_isDigit_take delimiter]

/-- A range that ends at a space scans the same as the whole rest. -/
theorem fromCharsRange_eq {width : Nat} {text : List Byte} {first last : Nat}
    (ordered : first ≤ last) (delimiter : text[last]? = some space) :
    fromCharsRange width text first last = some (fromChars width (text.drop first)) := by
  rw [fromCharsRange, if_neg (Nat.not_lt.mpr ordered), fromChars_take]
  rw [List.getElem?_drop, show first + (last - first) = last by omega]
  exact delimiter

theorem length_digits_eq_idxOf {text : List Byte}
    (delimiter : text[(text.takeWhile isDigit).length]? = some space) :
    (text.takeWhile isDigit).length = text.idxOf space := by
  induction text with
  | nil => cases delimiter
  | cons char rest ih =>
      by_cases digit : isDigit char = true
      · have other : char ≠ space := by
          rintro rfl
          cases digit
        rw [List.takeWhile_cons_of_pos digit] at delimiter ⊢
        rw [List.length_cons, List.getElem?_cons_succ] at delimiter
        rw [List.length_cons, ih delimiter, List.idxOf_cons_ne rest other]
      · rw [List.takeWhile_cons_of_neg digit] at delimiter ⊢
        cases delimiter
        exact (List.idxOf_cons_self).symm

theorem ptr_of_ok {width : Nat} {text : List Byte} (ok : (fromChars width text).ec = .ok) :
    (fromChars width text).ptr = (text.takeWhile isDigit).length := by
  rw [fromChars] at ok ⊢
  split at ok
  · cases ok
  · rename_i digits
    rw [if_neg digits]
    split at ok
    · rename_i fits
      rw [if_pos fits]
    · cases ok

theorem ptr_of_delimited {width : Nat} {text : List Byte}
    (delimited : (fromChars width text).delimited text = true) :
    (fromChars width text).ec = .ok ∧ (fromChars width text).ptr = text.idxOf space := by
  rcases Bool.and_eq_true_iff.mp delimited with ⟨succeeded, stopped⟩
  have ok := of_decide_eq_true succeeded
  have delimiter := of_decide_eq_true stopped
  rw [ptr_of_ok ok] at delimiter ⊢
  exact ⟨ok, length_digits_eq_idxOf delimiter⟩

theorem head_of_ok {width : Nat} {text : List Byte} (ok : (fromChars width text).ec = .ok) :
    text[0]? ≠ some space := by
  intro first
  cases text with
  | nil => cases first
  | cons char rest =>
      cases first
      cases ok

/-- The first space of a text is a space, and no space comes earlier. -/
theorem idxOf_space {text : List Byte} {position : Nat} (delimiter : text[position]? = some space) :
    text.idxOf space ≤ position ∧ text[text.idxOf space]? = some space := by
  induction text generalizing position with
  | nil => cases delimiter
  | cons char rest ih =>
      by_cases same : char = space
      · rw [same, List.idxOf_cons_self]
        exact ⟨Nat.zero_le _, rfl⟩
      · rw [List.idxOf_cons_ne rest same]
        cases position with
        | zero => exact False.elim (same (Option.some.inj delimiter))
        | succ position =>
            rw [List.getElem?_cons_succ] at delimiter
            rcases ih delimiter with ⟨earliest, found⟩
            exact ⟨Nat.succ_le_succ earliest, found⟩

/-! ## The space mask -/

theorem getLsbD_spaceMask (rawData : List Byte) (index : Nat) :
    (spaceMask rawData).getLsbD index =
    (decide (index < 32) && decide (rawData[index]? = some space)) := by
  rw [spaceMask, BitVec.getLsbD_setWidth, BitVec.getLsbD_ofBoolListLE, List.getD_eq_getElem?_getD,
    List.getElem?_map]
  by_cases inside : index < 32
  · rw [List.getElem?_take_of_lt inside]
    cases rawData[index]? with
    | none => rfl
    | some char =>
        rw [Option.map_some, Option.getD_some]
        by_cases same : char = space
        · subst same
          rfl
        · simp [same]
  · rw [decide_eq_false inside, Bool.false_and, Bool.false_and]

section FastPath

variable {rawData : StringView}

/-- On the fast path there are three spaces among the first 32 bytes. -/
theorem several_of_fastPath (fast : takesScalarPath rawData = false) :
    2 < (spaceMask rawData.bytes).cpop.toNat := by
  have counted := (Bool.or_eq_false_iff.mp fast).2
  exact Nat.not_lt.mp (of_decide_eq_false counted)

theorem spaceMask_ne_zero
    (fast : takesScalarPath rawData = false) : spaceMask rawData.bytes ≠ 0 := by
  intro zero
  have several := several_of_fastPath fast
  rw [zero] at several
  exact absurd several (by decide)

theorem firstPosition (fast : takesScalarPath rawData = false) :
    (spaceMask rawData.bytes).ctz.toNat = rawData.bytes.idxOf space := by
  have set := BitVec.getLsbD_true_ctz_of_ne_zero (spaceMask_ne_zero fast)
  rw [getLsbD_spaceMask] at set
  rcases Bool.and_eq_true_iff.mp set with ⟨inside, delimiter⟩
  have near := of_decide_eq_true inside
  rcases idxOf_space (of_decide_eq_true delimiter) with ⟨earliest, found⟩
  rcases Nat.lt_or_eq_of_le earliest with earlier | same
  · have clear := BitVec.getLsbD_false_of_lt_ctz earlier
    rw [getLsbD_spaceMask, decide_eq_true found, decide_eq_true (by omega)] at clear
    cases clear
  · exact same.symm

theorem secondPosition (fast : takesScalarPath rawData = false) :
    rawData.bytes.idxOf space < (clearLowest (spaceMask rawData.bytes)).ctz.toNat ∧
      rawData.bytes[(clearLowest (spaceMask rawData.bytes)).ctz.toNat]? = some space := by
  have several : 1 < (spaceMask rawData.bytes).cpop.toNat :=
    Nat.lt_of_succ_lt (several_of_fastPath fast)
  have nonzero := spaceMask_ne_zero fast
  have set := BitVec.getLsbD_true_ctz_of_ne_zero (clearLowest_ne_zero several)
  rw [getLsbD_clearLowest nonzero] at set
  rcases Bool.and_eq_true_iff.mp set with ⟨kept, other⟩
  have behind : (spaceMask rawData.bytes).ctz.toNat ≤
      (clearLowest (spaceMask rawData.bytes)).ctz.toNat := by
    by_contra below
    rw [BitVec.getLsbD_false_of_lt_ctz (Nat.lt_of_not_le below)] at kept
    cases kept
  have apart := of_decide_eq_true other
  rw [getLsbD_spaceMask] at kept
  rw [← firstPosition fast]
  exact ⟨by omega, of_decide_eq_true (Bool.and_eq_true_iff.mp kept).2⟩

/-- The third position is the second one again, unless the record begins with a
space. -/
theorem thirdPosition (fast : takesScalarPath rawData = false)
    (begins : rawData.bytes[0]? ≠ some space) :
    clearLowest (spaceMask rawData.bytes) &&& (spaceMask rawData.bytes - 2) =
      clearLowest (spaceMask rawData.bytes) := by
  apply clearLowest_and_sub_two (spaceMask_ne_zero fast)
  rw [getLsbD_spaceMask, decide_eq_false begins, Bool.and_false]

end FastPath

/-! ## The two stages in front of the identifier -/

/-- The record begins with a number in the clock window, and what follows its first
space begins with a level.  Other bytes may stand behind either number. -/
def PassesTimeAndLevel (clock : UInt64T) (rawData : List Byte) : Prop :=
  let time := fromChars 64 rawData
  let level := fromChars 64 (rawData.drop (rawData.idxOf space + 1))
  time.ec = .ok ∧ CheckLogEntry.validateTimestamp clock time.value = true ∧
    level.ec = .ok ∧ CheckLogEntry.validateLevel level.value = true

theorem scalarFields_of_not_passes {clock : UInt64T} {rawData : List Byte}
    (refused : ¬ PassesTimeAndLevel clock rawData) :
    Exists fun reason => scalarFields clock rawData = .error reason := by
  rw [scalarFields]
  simp only
  split
  · exact ⟨_, rfl⟩
  · split
    · exact ⟨_, rfl⟩
    · rename_i timeStops timeValid
      rcases ptr_of_delimited (Bool.eq_true_of_not_eq_false timeStops) with ⟨timeOk, first⟩
      rw [first]
      split
      · exact ⟨_, rfl⟩
      · split
        · exact ⟨_, rfl⟩
        · rename_i levelStops levelValid
          have levelOk := (ptr_of_delimited (Bool.eq_true_of_not_eq_false levelStops)).1
          exact False.elim (refused ⟨timeOk, Bool.eq_true_of_not_eq_false timeValid, levelOk,
            Bool.eq_true_of_not_eq_false levelValid⟩)

section FastPath

variable {clock : UInt64T} {rawData : StringView}

/-- The time and level ranges of the fast path scan what the scalar parser
scans. -/
theorem simd_ranges (fast : takesScalarPath rawData = false) :
    fromCharsRange 64 rawData.bytes 0 (spaceMask rawData.bytes).ctz.toNat =
        some (fromChars 64 rawData.bytes) ∧
      fromCharsRange 64 rawData.bytes ((spaceMask rawData.bytes).ctz.toNat + 1)
          (spaceMask rawData.bytes &&& (spaceMask rawData.bytes - 1)).ctz.toNat =
        some (fromChars 64 (rawData.bytes.drop (rawData.bytes.idxOf space + 1))) := by
  rcases secondPosition fast with ⟨behind, second⟩
  rw [firstPosition fast]
  exact ⟨fromCharsRange_eq (Nat.zero_le _) (idxOf_space second).2, fromCharsRange_eq behind second⟩

/-- The identifier's range ends before it begins when the record starts with a
digit. -/
theorem simd_idRange (fast : takesScalarPath rawData = false)
    (begins : rawData.bytes[0]? ≠ some space) :
    fromCharsRange 32 rawData.bytes
      ((spaceMask rawData.bytes &&& (spaceMask rawData.bytes - 1)).ctz.toNat + 1)
        (spaceMask rawData.bytes &&& (spaceMask rawData.bytes - 1) &&&
          (spaceMask rawData.bytes - 2)).ctz.toNat =
      none := by
  have same : spaceMask rawData.bytes &&& (spaceMask rawData.bytes - 1) &&&
    (spaceMask rawData.bytes - 2) =
      spaceMask rawData.bytes &&& (spaceMask rawData.bytes - 1) := thirdPosition fast begins
  rw [same, fromCharsRange, if_pos (Nat.lt_succ_self _)]

/-- The fast path refuses what does not pass, and has no result for what does. -/
theorem simdFields_of_fastPath (clock : UInt64T) (fast : takesScalarPath rawData = false) :
    (PassesTimeAndLevel clock rawData.bytes -> simdFields clock rawData.bytes = none) ∧
      (¬ PassesTimeAndLevel clock rawData.bytes ->
        Exists fun reason => simdFields clock rawData.bytes = some (.error reason)) := by
  rcases simd_ranges fast with ⟨time, level⟩
  rw [simdFields, time, Option.bind_some, level, Option.bind_some]
  constructor
  · rintro ⟨timeOk, timeValid, levelOk, levelValid⟩
    rw [if_neg (fun failed => failed timeOk), if_neg (by rw [timeValid]; decide),
      if_neg (fun failed => failed levelOk), if_neg (by rw [levelValid]; decide),
      simd_idRange fast (head_of_ok timeOk)]
    rfl
  · intro refused
    split
    · exact ⟨_, rfl⟩
    · split
      · exact ⟨_, rfl⟩
      · split
        · exact ⟨_, rfl⟩
        · split
          · exact ⟨_, rfl⟩
          · rename_i timeOk timeValid levelOk levelValid
            exact False.elim
              (refused ⟨Decidable.of_not_not timeOk, Bool.eq_true_of_not_eq_false timeValid,
              Decidable.of_not_not levelOk, Bool.eq_true_of_not_eq_false levelValid⟩)

end FastPath

/-! ## Agreement -/

/-- The same closing flag, slab pool, memory and pushed entry. -/
structure ParseOutcome.SameEffect (left right : ParseOutcome) : Prop where
  isClosing : left.state.session.isClosing = right.state.session.isClosing
  slabPool : left.state.slabPool = right.state.slabPool
  memory : left.state.memory = right.state.memory
  pushed : left.pushed = right.pushed

/-- Refusing has the same effect for every reason; only the report differs. -/
theorem refuse_sameEffect (state : ParserState) (left right : DisconnectReason) :
    (state.refuse left).SameEffect (state.refuse right) where
  isClosing := by
    simp only [ParserState.refuse]
    rw [NetworkSession.disconnect_isClosing, NetworkSession.disconnect_isClosing]
  slabPool := rfl
  memory := rfl
  pushed := rfl

/-- The AVX2 parser has a result, with the effect of the scalar one. -/
def ParsersAgree (clock : UInt64T) (rawData : StringView) (state : ParserState) : Prop :=
  Exists fun outcome => parseAndPushSimd clock rawData state = some outcome ∧
    outcome.SameEffect (parseAndPush clock rawData state)

/-- The parsers agree exactly when the record is left to the scalar parser, or when
the AVX2 parser refuses it for its time or its level: one of the two fields does
not begin with a number that passes. -/
theorem parsersAgree_iff (clock : UInt64T) (rawData : StringView) (state : ParserState) :
    ParsersAgree clock rawData state ↔
      takesScalarPath rawData = true ∨ ¬ PassesTimeAndLevel clock rawData.bytes := by
  rw [ParsersAgree, parseAndPushSimd]
  cases fast : takesScalarPath rawData with
  | true =>
      rw [if_pos rfl]
      exact ⟨fun _ => Or.inl rfl, fun _ => ⟨_, rfl, rfl, rfl, rfl, rfl⟩⟩
  | false =>
      rw [if_neg (by decide)]
      rcases simdFields_of_fastPath clock fast with ⟨passes, refuses⟩
      constructor
      · rintro ⟨outcome, result, _⟩
        refine Or.inr fun passed => ?_
        rw [passes passed] at result
        cases result
      · intro condition
        have refused := condition.resolve_left (by decide)
        rcases refuses refused with ⟨reason, simd⟩
        rcases scalarFields_of_not_passes refused with ⟨reason', scalar⟩
        refine ⟨state.refuse reason, by rw [simd]; rfl, ?_⟩
        rw [parseAndPush, scalar]
        exact refuse_sameEffect state reason reason'

/-- A record of time 1000, level 1, identifier 7 and a message of 60 bytes. -/
def plainRecord : StringView :=
  { data := 0x10000
    bytes := [0x31, 0x30, 0x30, 0x30, 0x20, 0x31, 0x20, 0x37, 0x20] ++ List.replicate 60 0x78 }

/-- A new session whose queue has a pool of ten slabs. -/
def newParserState : ParserState :=
  { session := NetworkSession.oneMebibyte
    slabPool := { SlabPool.create 10 1 with sharedMemoryBasePtr := 0x100000 }
    memory := fun _ => 0 }

/-- The scalar parser pushes the record, and the AVX2 parser scans a range that
ends before it begins. -/
theorem parsers_disagree_on_plainRecord :
    (parseAndPush 1000 plainRecord newParserState).pushed ≠ none ∧
      ¬ ParsersAgree 1000 plainRecord newParserState := by
  refine ⟨by decide +kernel, ?_⟩
  rintro ⟨outcome, result, _⟩
  have fast : takesScalarPath plainRecord = false := by decide +kernel
  have outside : simdFields 1000 plainRecord.bytes = none := by decide +kernel
  rw [parseAndPushSimd, fast, outside] at result
  cases result

end Network
end VortexEngine
