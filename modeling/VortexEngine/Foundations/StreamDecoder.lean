import Mathlib.Algebra.GroupWithZero.Nat
import Mathlib.Data.List.Basic

namespace VortexEngine
namespace Foundations

/-!
# Incremental decoding of a stream

A decoder looks at the front of a stream and either finds one frame there or
asks for more.  Two laws make it independent of how the stream arrives: a
found frame is not empty and lies inside the stream, and it is found again
when the stream is longer.  The frames of a stream are then what repeated
decoding finds, and decoding piece by piece finds a prefix of them, whatever
the pieces are.
-/

universe u v

structure StreamDecoder (Symbol : Type u) (Frame : Type v) where
  /-- the first frame of a stream, unless more of the stream is needed -/
  next : List Symbol -> Option Frame
  /-- the symbols that a frame occupies -/
  size : Frame -> Nat
  size_pos : forall {stream frame}, next stream = some frame -> 0 < size frame
  size_le : forall {stream frame}, next stream = some frame -> size frame ≤ stream.length
  stable : forall {stream frame} later, next stream = some frame ->
    next (stream ++ later) = some frame

namespace StreamDecoder

variable {Symbol : Type u} {Frame : Type v} (decoder : StreamDecoder Symbol Frame)

/-- The frames of a stream, at most as many as the fuel allows. -/
def framesWithin : Nat -> List Symbol -> List Frame
  | 0, _ => []
  | fuel + 1, stream =>
      match decoder.next stream with
      | none => []
      | some frame => frame :: framesWithin fuel (stream.drop (decoder.size frame))

/-- All frames of a stream.  No frame is empty, so the length is enough fuel. -/
def frames (stream : List Symbol) : List Frame :=
  decoder.framesWithin stream.length stream

/-- The symbols that a list of frames occupies. -/
def totalSize (frames : List Frame) : Nat :=
  (frames.map decoder.size).sum

/-- The symbols after the last complete frame of a stream. -/
def unfinished (stream : List Symbol) : Nat :=
  stream.length - decoder.totalSize (decoder.frames stream)

variable {decoder}

theorem framesWithin_enough {fuel : Nat} {stream : List Symbol} (enough : stream.length ≤ fuel) :
    decoder.framesWithin fuel stream = decoder.frames stream := by
  suffices both : forall least fuel' (stream : List Symbol), stream.length ≤ least ->
    least ≤ fuel' ->
      decoder.framesWithin fuel' stream = decoder.framesWithin least stream from
    both stream.length fuel stream (Nat.le_refl _) enough
  intro least
  induction least with
  | zero =>
      intro fuel' stream short _
      have empty : stream = [] := List.length_eq_zero_iff.mp (Nat.le_zero.mp short)
      cases fuel' with
      | zero => rfl
      | succ fuel' =>
          cases found : decoder.next stream with
          | none => simp only [framesWithin, found]
          | some frame =>
              have positive := decoder.size_pos found
              have inside := decoder.size_le found
              omega
  | succ least ih =>
      intro fuel' stream short more
      cases fuel' with
      | zero => omega
      | succ fuel' =>
          cases found : decoder.next stream with
          | none => simp only [framesWithin, found]
          | some frame =>
              have positive := decoder.size_pos found
              simp only [framesWithin, found]
              rw [ih fuel' (stream.drop (decoder.size frame))
                (by rw [List.length_drop]; omega) (by omega)]

theorem frames_of_none {stream : List Symbol} (more : decoder.next stream = none) :
    decoder.frames stream = [] := by
  rw [← framesWithin_enough (Nat.le_succ stream.length)]
  simp only [framesWithin, more]

theorem frames_of_some {stream : List Symbol} {frame : Frame}
    (found : decoder.next stream = some frame) :
    decoder.frames stream = frame :: decoder.frames (stream.drop (decoder.size frame)) := by
  rw [← framesWithin_enough (Nat.le_succ stream.length)]
  simp only [framesWithin, found]
  rw [framesWithin_enough (by rw [List.length_drop]; exact Nat.sub_le _ _)]

theorem frames_prefix_append (stream later : List Symbol) :
    decoder.frames stream <+: decoder.frames (stream ++ later) := by
  suffices bounded : forall bound stream, stream.length ≤ bound ->
      decoder.frames stream <+:
        decoder.frames (stream ++ later) from bounded _ stream (Nat.le_refl _)
  intro bound
  induction bound with
  | zero =>
      intro stream empty
      have nothing : decoder.next stream = none := by
        cases found : decoder.next stream with
        | none => rfl
        | some frame =>
            have positive := decoder.size_pos found
            have inside := decoder.size_le found
            omega
      rw [frames_of_none nothing]
      exact List.nil_prefix
  | succ bound ih =>
      intro stream short
      cases found : decoder.next stream with
      | none =>
          rw [frames_of_none found]
          exact List.nil_prefix
      | some frame =>
          have positive := decoder.size_pos found
          have inside := decoder.size_le found
          rw [frames_of_some found, frames_of_some (decoder.stable later found),
            List.drop_append_of_le_length inside]
          exact (List.prefix_cons_inj frame).mpr (ih _ (by rw [List.length_drop]; omega))

/-- Every frame of a stream is the first frame of one of its ends. -/
theorem exists_next_of_mem_frames {stream : List Symbol} {frame : Frame}
    (member : frame ∈ decoder.frames stream) :
    Exists fun remaining => decoder.next remaining = some frame := by
  suffices within : forall fuel stream, frame ∈ decoder.framesWithin fuel stream ->
      Exists fun remaining => decoder.next remaining = some frame from within _ _ member
  intro fuel
  induction fuel with
  | zero => exact fun _ absent => nomatch absent
  | succ fuel ih =>
      intro stream member
      cases found : decoder.next stream with
      | none =>
          simp only [framesWithin, found] at member
          cases member
      | some first =>
          simp only [framesWithin, found] at member
          rcases List.mem_cons.mp member with rfl | later
          · exact ⟨stream, found⟩
          · exact ih _ later

theorem totalSize_append_singleton (frames : List Frame) (frame : Frame) :
    decoder.totalSize (frames ++ [frame]) = decoder.totalSize frames + decoder.size frame := by
  simp [totalSize]

/-- Decoding in progress: what has been received so far consists of the
emitted frames, in order, followed by the pending symbols. -/
inductive Decoded (decoder : StreamDecoder Symbol Frame) : List Symbol -> List Frame ->
    List Symbol -> Prop
  | nothing : Decoded decoder [] [] []
  | receive {received emitted pending} (earlier : Decoded decoder received emitted pending)
      (piece : List Symbol) :
      Decoded decoder (received ++ piece) emitted (pending ++ piece)
  | emit {received emitted pending frame} (earlier : Decoded decoder received emitted pending)
      (found : decoder.next pending = some frame) :
      Decoded decoder received (emitted ++ [frame]) (pending.drop (decoder.size frame))

namespace Decoded

variable {received : List Symbol} {emitted : List Frame} {pending : List Symbol}

/-- The pending symbols are what follows the emitted frames. -/
theorem pending_eq (decoded : Decoded decoder received emitted pending) :
    pending = received.drop (decoder.totalSize emitted) ∧
      decoder.totalSize emitted ≤ received.length := by
  induction decoded with
  | nothing => exact ⟨rfl, Nat.le_refl 0⟩
  | receive earlier piece ih =>
      rcases ih with ⟨rfl, inside⟩
      rw [List.drop_append_of_le_length inside, List.length_append]
      exact ⟨rfl, Nat.le_trans inside (Nat.le_add_right _ _)⟩
  | emit earlier found ih =>
      rcases ih with ⟨rfl, inside⟩
      have fits := decoder.size_le found
      rw [List.length_drop] at fits
      rw [totalSize_append_singleton, List.drop_drop]
      exact ⟨rfl, by omega⟩

/-- The frames emitted so far continue, in every longer stream, with the
frames of what is pending there. -/
theorem frames_append (decoded : Decoded decoder received emitted pending) (later : List Symbol) :
    decoder.frames (received ++ later) = emitted ++ decoder.frames (pending ++ later) := by
  induction decoded generalizing later with
  | nothing => rfl
  | receive earlier piece ih => rw [List.append_assoc, ih (piece ++ later), List.append_assoc]
  | emit earlier found ih =>
      rw [ih later, frames_of_some (decoder.stable later found),
        List.drop_append_of_le_length (decoder.size_le found), List.append_assoc]
      rfl

theorem frames_eq (decoded : Decoded decoder received emitted pending) :
    decoder.frames received = emitted ++ decoder.frames pending := by
  have whole := decoded.frames_append []
  rw [List.append_nil, List.append_nil] at whole
  exact whole

/-- Whatever the pieces were, the emitted frames are a prefix of the frames of
the received stream. -/
theorem isPrefix (decoded : Decoded decoder received emitted pending) :
    emitted <+: decoder.frames received :=
  ⟨decoder.frames pending, decoded.frames_eq.symm⟩

/-- When no frame is found in the pending symbols, all frames are emitted. -/
theorem complete (decoded : Decoded decoder received emitted pending)
    (more : decoder.next pending = none) :
    emitted = decoder.frames received := by
  rw [decoded.frames_eq, frames_of_none more, List.append_nil]

theorem length_pending (decoded : Decoded decoder received emitted pending)
    (more : decoder.next pending = none) : pending.length = decoder.unfinished received := by
  rw [unfinished, ← decoded.complete more, decoded.pending_eq.1, List.length_drop]

end Decoded

end StreamDecoder

end Foundations
end VortexEngine
