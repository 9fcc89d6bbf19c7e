import VortexEngine.Core.LogEntry
import VortexEngine.Foundations.ByteOrder
import VortexEngine.Foundations.StreamDecoder

open VortexEngine.Foundations

namespace VortexEngine
namespace Network

/-!
# The two framings of the stream

A client sends binary frames, which announce their length after a magic word,
and text lines, which end with a newline, in any order on one connection.  The
reference decoder below states what a stream of such frames means, on lists
and without any buffer: it is the abstract side of the session's framing loop.
It stops for good at a frame whose announced length is zero or above the limit.
-/

/-- A frame of the stream, without its magic, length or delimiter. -/
inductive Frame
  | binary (payload : List Byte)
  | line (payload : List Byte)
  deriving DecidableEq, Repr

namespace Frame

def magic : List Byte := [0xDE, 0xAD, 0xBE, 0xEF]

def newline : Byte := 0x0A

def payload : Frame -> List Byte
  | binary payload => payload
  | line payload => payload

/-- The bytes that a frame occupies in the stream. -/
def framedSize : Frame -> Nat
  | binary payload => 8 + payload.length
  | line payload => payload.length + 1

theorem payload_length_lt (frame : Frame) : frame.payload.length < frame.framedSize := by
  cases frame <;> simp only [payload, framedSize] <;> omega

/-- The wire format of a binary frame: magic, big-endian length, payload. -/
def encodeBinary (payload : List Byte) : List Byte :=
  magic ++ (toLittleEndian 4 payload.length).reverse ++ payload

end Frame

open VortexEngine.Network.Frame

/-- The length that a binary header announces. -/
def announcedLength (stream : List Byte) : Nat :=
  bigEndian ((stream.drop 4).take 4)

/-- The first frame of a stream. -/
def nextFrame (limit : Nat) (stream : List Byte) : Option Frame :=
  if stream.length < 4 then none
  else if stream.take 4 = magic then
    if stream.length < 8 then none
    else
      let length := announcedLength stream
      if length = 0 ∨ limit < length then none
      else if stream.length < 8 + length then none
      else some (.binary ((stream.drop 8).take length))
  else if newline ∈ stream then some (.line (stream.takeWhile (· != newline)))
  else none

/-- A stream whose first frame can never be completed within the limit. -/
def Oversized (limit : Nat) (stream : List Byte) : Prop :=
  4 ≤ stream.length ∧
    if stream.take 4 = magic then
      8 ≤ stream.length ∧ (announcedLength stream = 0 ∨ limit < announcedLength stream)
    else newline ∉ stream ∧ limit < stream.length

/-! ## The decoder laws -/

section Laws

variable {limit : Nat} {stream : List Byte} {frame : Frame}

theorem nextFrame_binary (complete : 8 + announcedLength stream ≤ stream.length)
    (startsBinary : stream.take 4 = magic) (positive : announcedLength stream ≠ 0)
    (within : announcedLength stream ≤ limit) :
    nextFrame limit stream = some (.binary ((stream.drop 8).take (announcedLength stream))) := by
  rw [nextFrame, if_neg (by omega), if_pos startsBinary, if_neg (by omega)]
  simp only
  rw [if_neg (by omega), if_neg (by omega)]

theorem nextFrame_line (probed : 4 ≤ stream.length) (startsText : stream.take 4 ≠ magic)
    (delimited : newline ∈ stream) :
    nextFrame limit stream = some (.line (stream.takeWhile (· != newline))) := by
  rw [nextFrame, if_neg (by omega), if_neg startsText, if_pos delimited]

/-- A found frame is one of the two kinds, complete and within the limits. -/
theorem nextFrame_cases (found : nextFrame limit stream = some frame) :
    (stream.take 4 = magic ∧ announcedLength stream ≠ 0 ∧ announcedLength stream ≤ limit ∧
      8 + announcedLength stream ≤ stream.length ∧
      frame = .binary ((stream.drop 8).take (announcedLength stream))) ∨
    (4 ≤ stream.length ∧ stream.take 4 ≠ magic ∧ newline ∈ stream ∧
      frame = .line (stream.takeWhile (· != newline))) := by
  rw [nextFrame] at found
  split at found
  · cases found
  · split at found
    · rename_i startsBinary
      split at found
      · cases found
      · simp only at found
        split at found
        · cases found
        · split at found
          · cases found
          · cases found
            exact Or.inl ⟨startsBinary, by omega, by omega, by omega, rfl⟩
    · split at found
      · cases found
        exact Or.inr ⟨by omega, by assumption, by assumption, rfl⟩
      · cases found

theorem takeWhile_newline_lt (delimited : newline ∈ stream) :
    (stream.takeWhile (· != newline)).length < stream.length := by
  have short := (List.takeWhile_prefix (· != newline) (l := stream)).length_le
  refine Nat.lt_of_le_of_ne short ?_
  intro same
  have whole := (List.takeWhile_prefix (· != newline) (l := stream)).eq_of_length same
  have passes := List.all_takeWhile (l := stream) (p := (· != newline))
  rw [whole, List.all_eq_true] at passes
  have differs := passes newline delimited
  simp at differs

theorem framedSize_pos (_found : nextFrame limit stream = some frame) : 0 < frame.framedSize :=
  Nat.lt_of_le_of_lt (Nat.zero_le _) frame.payload_length_lt

theorem framedSize_le (found : nextFrame limit stream = some frame) :
    frame.framedSize ≤ stream.length := by
  rcases nextFrame_cases found with ⟨_, _, _, complete, rfl⟩ | ⟨_, _, delimited, rfl⟩
  · rw [framedSize, List.length_take, List.length_drop]
    omega
  · exact takeWhile_newline_lt delimited

/-- Bytes that arrive later do not change a frame that was found. -/
theorem nextFrame_stable (later : List Byte) (found : nextFrame limit stream = some frame) :
    nextFrame limit (stream ++ later) = some frame := by
  rcases nextFrame_cases found with ⟨startsBinary, positive, within, complete, rfl⟩ |
    ⟨probed, startsText, delimited, rfl⟩
  · have head : (stream ++ later).take 4 = stream.take 4 := List.take_append_of_le_length (by omega)
    have announced : announcedLength (stream ++ later) = announcedLength stream := by
      rw [announcedLength, announcedLength, List.drop_append_of_le_length (by omega),
        List.take_append_of_le_length (by rw [List.length_drop]; omega)]
    rw [nextFrame_binary (by rw [announced, List.length_append]; omega) (head ▸ startsBinary)
      (announced ▸ positive) (announced ▸ within), announced,
        List.drop_append_of_le_length (by omega),
      List.take_append_of_le_length (by rw [List.length_drop]; omega)]
  · have head : (stream ++ later).take 4 = stream.take 4 := List.take_append_of_le_length probed
    rw [nextFrame_line (by rw [List.length_append]; omega) (head ▸ startsText)
      (List.mem_append_left _ delimited), List.takeWhile_append,
      if_neg (Nat.ne_of_lt (takeWhile_newline_lt delimited))]

end Laws

/-- The reference decoder of a stream with a limit on binary lengths. -/
def reference (limit : Nat) : StreamDecoder Byte Frame where
  next := nextFrame limit
  size := framedSize
  size_pos := framedSize_pos
  size_le := framedSize_le
  stable := nextFrame_stable

/-- The payloads of a stream, in order. -/
def referencePayloads (limit : Nat) (stream : List Byte) : List (List Byte) :=
  ((reference limit).frames stream).map payload

end Network
end VortexEngine
