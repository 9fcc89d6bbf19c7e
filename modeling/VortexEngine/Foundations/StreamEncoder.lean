import VortexEngine.Foundations.StreamDecoder

namespace VortexEngine
namespace Foundations

/-!
# Encodings that a stream decoder reads back

An encoder writes frames one behind the other.  Its decoder may have to look at
a number of symbols before it decides anything, so it finds an encoded frame
once that many symbols are there, whoever has sent them.  A stream of encoded
frames is then read back except for the last few frames, those that together
do not reach the lookahead.

Nothing is assumed about how the stream arrives: each decoding in progress of a
part of it has emitted the first frames and holds a part of the others.
-/

universe u v

structure StreamEncoder {Symbol : Type u} {Frame : Type v}
    (decoder : StreamDecoder Symbol Frame) where
  encode : Frame -> List Symbol
  /-- the frames that can be sent -/
  Admits : Frame -> Prop
  /-- the decoder looks at this many symbols -/
  lookahead : Nat
  length_encode : forall {frame}, Admits frame -> (encode frame).length = decoder.size frame
  next_encode : forall {frame} rest, Admits frame -> lookahead ≤ (encode frame ++ rest).length ->
    decoder.next (encode frame ++ rest) = some frame
  next_short : forall {stream}, stream.length < lookahead -> decoder.next stream = none

namespace StreamEncoder

variable {Symbol : Type u} {Frame : Type v} {decoder : StreamDecoder Symbol Frame}
variable (encoder : StreamEncoder decoder)

/-- One frame behind the other. -/
def stream (frames : List Frame) : List Symbol :=
  frames.flatMap encoder.encode

/-- The frames that are found without any symbol behind the last one. -/
def settled : List Frame -> List Frame
  | [] => []
  | frame :: others =>
      if (encoder.stream (frame :: others)).length < encoder.lookahead then [] else
        frame :: settled others

variable {encoder}

theorem stream_cons (frame : Frame) (others : List Frame) :
    encoder.stream (frame :: others) = encoder.encode frame ++ encoder.stream others :=
  List.flatMap_cons

theorem stream_append (frames others : List Frame) :
    encoder.stream (frames ++ others) = encoder.stream frames ++ encoder.stream others :=
  List.flatMap_append

theorem settled_prefix (frames : List Frame) : encoder.settled frames <+: frames := by
  induction frames with
  | nil => exact List.prefix_refl []
  | cons frame others ih =>
      unfold settled
      split
      · exact List.nil_prefix
      · exact (List.prefix_cons_inj frame).mpr ih

/-- With enough symbols in the last frame nothing is held back. -/
theorem settled_of_last {frames : List Frame} {last : Frame}
    (long : encoder.lookahead ≤ (encoder.encode last).length) :
    encoder.settled (frames ++ [last]) = frames ++ [last] := by
  induction frames with
  | nil =>
      have enough : ¬ (encoder.stream [last]).length < encoder.lookahead := by
        rw [stream_cons, List.length_append]
        exact Nat.not_lt_of_le (Nat.le_trans long (Nat.le_add_right _ _))
      rw [List.nil_append, settled, if_neg enough, settled]
  | cons frame others ih =>
      have enough : ¬ (encoder.stream (frame :: (others ++ [last]))).length <
          encoder.lookahead := by
        rw [stream_cons, stream_append, stream_cons, List.length_append, List.length_append,
          List.length_append]
        omega
      rw [List.cons_append, settled, if_neg enough, ih]

section Laws

variable {frames : List Frame}

theorem totalSize_eq (admitted : forall frame, frame ∈ frames -> encoder.Admits frame) :
    decoder.totalSize frames = (encoder.stream frames).length := by
  induction frames with
  | nil => rfl
  | cons frame others ih =>
      have rest := ih (fun other member => admitted other (List.mem_cons_of_mem _ member))
      unfold StreamDecoder.totalSize at rest ⊢
      rw [stream_cons, List.length_append, List.map_cons, List.sum_cons, rest,
        encoder.length_encode (admitted frame List.mem_cons_self)]

theorem frames_stream (admitted : forall frame, frame ∈ frames -> encoder.Admits frame) :
    decoder.frames (encoder.stream frames) = encoder.settled frames := by
  induction frames with
  | nil =>
      have nothing : decoder.next (encoder.stream []) = none := by
        cases found : decoder.next (encoder.stream []) with
        | none => rfl
        | some frame =>
            exact absurd (decoder.size_le found) (Nat.not_le_of_lt (decoder.size_pos found))
      exact StreamDecoder.frames_of_none nothing
  | cons frame others ih =>
      unfold settled
      split
      · rename_i short
        exact StreamDecoder.frames_of_none (encoder.next_short short)
      · rename_i enough
        have first :=
          encoder.next_encode (encoder.stream others) (admitted frame List.mem_cons_self)
          (Nat.le_of_not_lt (stream_cons frame others ▸ enough))
        rw [← stream_cons] at first
        rw [StreamDecoder.frames_of_some first, stream_cons,
          List.drop_left' (encoder.length_encode (admitted frame List.mem_cons_self)),
          ih (fun other member => admitted other (List.mem_cons_of_mem _ member))]

/-- A decoding in progress has emitted the first frames and holds a part of the
others. -/
theorem decoded_stream (admitted : forall frame, frame ∈ frames -> encoder.Admits frame)
    {received : List Symbol} {emitted : List Frame} {pending : List Symbol}
    (decoded : decoder.Decoded received emitted pending)
    (isPrefix : received <+: encoder.stream frames) :
    Exists fun others => frames = emitted ++ others ∧ pending <+: encoder.stream others := by
  rcases isPrefix with ⟨later, whole⟩
  have continued := decoded.frames_append later
  rw [whole, frames_stream admitted] at continued
  have emits : emitted <+: frames :=
    (List.prefix_append emitted _).trans (continued ▸ settled_prefix frames)
  rcases emits with ⟨others, rfl⟩
  refine ⟨others, rfl, later, ?_⟩
  have sizes : decoder.totalSize emitted = (encoder.stream emitted).length :=
    totalSize_eq (fun frame member => admitted frame (List.mem_append_left _ member))
  have inside := decoded.pending_eq.2
  rw [decoded.pending_eq.1, ← List.drop_append_of_le_length inside, whole, stream_append, sizes,
    List.drop_left]

/-- Unless a frame is found, less than one frame or less than the lookahead is
pending. -/
theorem pending_short {frame : Frame} {others : List Frame} {pending : List Symbol}
    (admits : encoder.Admits frame)
    (isPrefix : pending <+: encoder.stream (frame :: others)) (more : decoder.next pending = none) :
    pending.length < max encoder.lookahead (decoder.size frame) := by
  by_contra long
  have enough : encoder.lookahead ≤ pending.length ∧ decoder.size frame ≤ pending.length := by omega
  have covers : encoder.encode frame <+: pending := by
    have first : encoder.encode frame <+: encoder.stream (frame :: others) := by
      rw [stream_cons]
      exact List.prefix_append _ _
    refine List.prefix_of_prefix_length_le first isPrefix ?_
    rw [encoder.length_encode admits]
    exact enough.2
  rcases covers with ⟨rest, rfl⟩
  cases (encoder.next_encode rest admits enough.1).symm.trans more

end Laws

end StreamEncoder

end Foundations
end VortexEngine
