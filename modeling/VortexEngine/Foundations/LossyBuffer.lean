import Mathlib.Data.List.ReduceOption

namespace VortexEngine
namespace Foundations

/-!
# Bounded buffers that may overwrite

A buffer of bounded length takes values at one end and gives them back at the
other.  A value that comes while the buffer is full is refused, or it is taken
and then costs everything that the buffer holds, itself included.  Which of the
two happens may depend on the value.  A closed buffer takes nothing and gives
nothing back.

The laws say what such a buffer keeps whatever the calls are: how long it gets,
in which order the values come out, and how the lost values are accounted for.
A buffer that refuses every late value is a first-in-first-out channel.
-/

universe u

structure LossyBuffer (Value : Type u) where
  pending : List Value
  accepted : List Value
  /-- what the reads have returned -/
  answers : List (Option Value)
  lost : Nat
  closed : Bool

inductive LossyCall (Value : Type u)
  | write (value : Value)
  | read
  | close

namespace LossyBuffer

variable {Value : Type u}

def empty : LossyBuffer Value :=
  { pending := [], accepted := [], answers := [], lost := 0, closed := false }

/-- The values that the reads have returned. -/
def delivered (buffer : LossyBuffer Value) : List Value :=
  buffer.answers.reduceOption

def write (bound : Nat) (overwrites : Value -> Prop) [DecidablePred overwrites]
    (buffer : LossyBuffer Value) (value : Value) : LossyBuffer Value :=
  if buffer.closed = true then buffer
  else if buffer.pending.length < bound then
    { buffer with pending := buffer.pending ++ [value], accepted := buffer.accepted ++ [value] }
  else if overwrites value then
    { buffer with
      pending := []
      accepted := buffer.accepted ++ [value]
      lost := buffer.lost + (buffer.pending.length + 1) }
  else buffer

def read (buffer : LossyBuffer Value) : LossyBuffer Value :=
  if buffer.closed = true then { buffer with answers := buffer.answers ++ [none] }
  else
    match buffer.pending with
    | [] => { buffer with answers := buffer.answers ++ [none] }
    | value :: rest => { buffer with pending := rest, answers := buffer.answers ++ [some value] }

def call (bound : Nat) (overwrites : Value -> Prop) [DecidablePred overwrites]
    (buffer : LossyBuffer Value) :
    LossyCall Value -> LossyBuffer Value
  | .write value => buffer.write bound overwrites value
  | .read => buffer.read
  | .close => { buffer with closed := true }

/-- What a sequence of calls makes of a buffer. -/
def callAll (bound : Nat) (overwrites : Value -> Prop) [DecidablePred overwrites]
    (buffer : LossyBuffer Value) (calls : List (LossyCall Value)) : LossyBuffer Value :=
  calls.foldl (call bound overwrites) buffer

/-! ## One call -/

section Calls

variable {bound : Nat} {overwrites : Value -> Prop} [DecidablePred overwrites]
    {buffer : LossyBuffer Value}

theorem write_closed (closed : buffer.closed = true) (value : Value) :
    buffer.write bound overwrites value = buffer :=
  if_pos closed

theorem write_room (opened : buffer.closed = false) (room : buffer.pending.length < bound)
    (value : Value) :
    buffer.write bound overwrites value =
      { buffer with
        pending := buffer.pending ++ [value], accepted := buffer.accepted ++ [value] } := by
  unfold write
  rw [if_neg (Bool.eq_false_iff.mp opened), if_pos room]

theorem write_over (opened : buffer.closed = false) (full : ¬ buffer.pending.length < bound)
    {value : Value} (stores : overwrites value) :
    buffer.write bound overwrites value =
      { buffer with
        pending := []
        accepted := buffer.accepted ++ [value]
        lost := buffer.lost + (buffer.pending.length + 1) } := by
  unfold write
  rw [if_neg (Bool.eq_false_iff.mp opened), if_neg full, if_pos stores]

theorem write_refused (full : ¬ buffer.pending.length < bound) {value : Value}
    (drops : ¬ overwrites value) :
    buffer.write bound overwrites value = buffer := by
  unfold write
  rw [if_neg full, if_neg drops, ite_self]

theorem read_closed (closed : buffer.closed = true) :
    buffer.read = { buffer with answers := buffer.answers ++ [none] } :=
  if_pos closed

theorem read_empty (empty : buffer.pending = []) :
    buffer.read = { buffer with answers := buffer.answers ++ [none] } := by
  unfold read
  rw [empty, ite_self]

theorem read_first (opened : buffer.closed = false) {value : Value} {rest : List Value}
    (first : buffer.pending = value :: rest) :
    buffer.read = { buffer with pending := rest, answers := buffer.answers ++ [some value] } := by
  unfold read
  rw [if_neg (Bool.eq_false_iff.mp opened), first]

end Calls

/-! ## Laws -/

/-- The buffer keeps its bound, values come out in the order in which they were
taken, and a taken value has come out, is pending or is lost.  Values are lost
by whole buffers. -/
structure Sound (bound : Nat) (buffer : LossyBuffer Value) : Prop where
  bounded : buffer.pending.length ≤ bound
  ordered : (buffer.delivered ++ buffer.pending).Sublist buffer.accepted
  accounted : buffer.accepted.length = buffer.delivered.length + buffer.pending.length + buffer.lost
  whole : bound + 1 ∣ buffer.lost

section Laws

variable {bound : Nat} {overwrites : Value -> Prop} [DecidablePred overwrites]
    {buffer : LossyBuffer Value}

theorem empty_sound (bound : Nat) : Sound bound (empty : LossyBuffer Value) :=
  ⟨Nat.zero_le _, List.Sublist.refl _, rfl, Nat.dvd_zero _⟩

theorem delivered_none (buffer : LossyBuffer Value) :
    (buffer.answers ++ [none]).reduceOption = buffer.delivered := by
  rw [List.reduceOption_append]
  exact List.append_nil _

theorem delivered_some (buffer : LossyBuffer Value) (value : Value) :
    (buffer.answers ++ [some value]).reduceOption = buffer.delivered ++ [value] := by
  rw [List.reduceOption_append]
  rfl

/-- An overwriting write loses the buffer and its own value, a whole bound and
one. -/
theorem Sound.write (sound : buffer.Sound bound) (value : Value) :
    (buffer.write bound overwrites value).Sound bound := by
  rcases sound with ⟨bounded, ordered, accounted, whole⟩
  cases closed : buffer.closed with
  | true =>
      rw [write_closed closed]
      exact ⟨bounded, ordered, accounted, whole⟩
  | false =>
      by_cases room : buffer.pending.length < bound
      · rw [write_room closed room]
        refine ⟨?_, ?_, ?_, whole⟩
        · rw [List.length_append]
          exact room
        · change (buffer.delivered ++ (buffer.pending ++ [value])).Sublist _
          rw [← List.append_assoc]
          exact ordered.append (List.Sublist.refl _)
        · change (buffer.accepted ++ [value]).length =
            buffer.delivered.length + (buffer.pending ++ [value]).length + buffer.lost
          rw [List.length_append, List.length_append, accounted, List.length_singleton]
          omega
      · by_cases stores : overwrites value
        · have full : buffer.pending.length = bound :=
            Nat.le_antisymm bounded (Nat.le_of_not_lt room)
          rw [write_over closed room stores]
          refine ⟨Nat.zero_le _, ?_, ?_, ?_⟩
          · have kept := (List.sublist_append_left buffer.delivered buffer.pending).trans ordered
            change (buffer.delivered ++ []).Sublist (buffer.accepted ++ [value])
            rw [List.append_nil]
            exact kept.trans (List.sublist_append_left _ _)
          · change (buffer.accepted ++ [value]).length =
              buffer.delivered.length + 0 + (buffer.lost + (buffer.pending.length + 1))
            rw [List.length_append, accounted, List.length_singleton]
            omega
          · change bound + 1 ∣ buffer.lost + (buffer.pending.length + 1)
            rw [full]
            exact Nat.dvd_add whole (Nat.dvd_refl _)
        · rw [write_refused room stores]
          exact ⟨bounded, ordered, accounted, whole⟩

theorem Sound.read (sound : buffer.Sound bound) : buffer.read.Sound bound := by
  have unread :
      ({ buffer with answers := buffer.answers ++ [none] } : LossyBuffer Value).Sound bound := by
    rcases sound with ⟨bounded, ordered, accounted, whole⟩
    rw [← delivered_none buffer] at ordered accounted
    exact ⟨bounded, ordered, accounted, whole⟩
  cases closed : buffer.closed with
  | true => exact (read_closed closed).symm ▸ unread
  | false =>
      cases first : buffer.pending with
      | nil => exact (read_empty first).symm ▸ unread
      | cons value rest =>
          rcases sound with ⟨bounded, ordered, accounted, whole⟩
          rw [read_first closed first]
          rw [first] at bounded ordered accounted
          refine ⟨Nat.le_of_succ_le bounded, ?_, ?_, whole⟩
          · unfold delivered
            rw [delivered_some, List.append_assoc]
            exact ordered
          · unfold delivered
            rw [delivered_some, accounted, List.length_append, List.length_singleton,
              List.length_cons]
            change _ = buffer.delivered.length + 1 + rest.length + buffer.lost
            omega

theorem Sound.call (sound : buffer.Sound bound) (called : LossyCall Value) :
    (buffer.call bound overwrites called).Sound bound := by
  cases called with
  | write value => exact sound.write value
  | read => exact sound.read
  | close => exact ⟨sound.bounded, sound.ordered, sound.accounted, sound.whole⟩

theorem Sound.callAll (sound : buffer.Sound bound) (calls : List (LossyCall Value)) :
    (buffer.callAll bound overwrites calls).Sound bound := by
  induction calls generalizing buffer with
  | nil => exact sound
  | cons called calls ih => exact ih (sound.call called)

/-- Without lost values nothing is missing from the middle. -/
theorem Sound.conserved (sound : buffer.Sound bound) (lossless : buffer.lost = 0) :
    buffer.accepted = buffer.delivered ++ buffer.pending := by
  apply (sound.ordered.eq_of_length _).symm
  rw [List.length_append, sound.accounted, lossless]
  rfl

theorem lossless_call (drops : forall value, ¬ overwrites value) (called : LossyCall Value) :
    (buffer.call bound overwrites called).lost = buffer.lost := by
  cases called with
  | write value =>
      change (buffer.write bound overwrites value).lost = _
      unfold write
      split
      · rfl
      · split
        · rfl
        · rw [if_neg (drops value)]
  | read =>
      change buffer.read.lost = _
      unfold read
      split
      · rfl
      · split <;> rfl
  | close => rfl

theorem lossless_callAll (drops : forall value, ¬ overwrites value)
    (calls : List (LossyCall Value)) :
    (buffer.callAll bound overwrites calls).lost = buffer.lost := by
  induction calls generalizing buffer with
  | nil => rfl
  | cons called calls ih => exact ih.trans (lossless_call drops called)

end Laws

/-! ## What is taken -/

/-- The values that are written before the buffer is closed. -/
def offered : List (LossyCall Value) -> List Value
  | [] => []
  | .write value :: calls => value :: offered calls
  | .read :: calls => offered calls
  | .close :: _ => []

section Offers

variable {bound : Nat} {overwrites : Value -> Prop} [DecidablePred overwrites]
    {buffer : LossyBuffer Value}

theorem closed_callAll (closed : buffer.closed = true) (calls : List (LossyCall Value)) :
    (buffer.callAll bound overwrites calls).accepted = buffer.accepted := by
  induction calls generalizing buffer with
  | nil => rfl
  | cons called calls ih =>
      cases called with
      | write value =>
          have kept : buffer.call bound overwrites (.write value) = buffer :=
            write_closed closed value
          change ((buffer.call bound overwrites (.write value)).callAll bound overwrites
            calls).accepted = _
          rw [kept]
          exact ih closed
      | read =>
          have kept : buffer.call bound overwrites .read =
              { buffer with answers := buffer.answers ++ [none] } :=
            read_closed closed
          change ((buffer.call bound overwrites .read).callAll bound overwrites calls).accepted = _
          rw [kept]
          exact ih closed
      | close => exact ih rfl

theorem read_keeps (buffer : LossyBuffer Value) :
    buffer.read.accepted = buffer.accepted ∧ buffer.read.closed = buffer.closed := by
  unfold read
  split
  · exact ⟨rfl, rfl⟩
  · split <;> exact ⟨rfl, rfl⟩

/-- A write on an open buffer takes the value, or the value is not one that
overwrites. -/
theorem write_keeps (buffer : LossyBuffer Value) (value : Value) :
    (buffer.write bound overwrites value).closed = buffer.closed ∧
      ((buffer.closed = false -> ¬ overwrites value) ∧
          (buffer.write bound overwrites value).accepted = buffer.accepted ∨
        (buffer.write bound overwrites value).accepted = buffer.accepted ++ [value]) := by
  unfold write
  split
  · rename_i closed
    refine ⟨rfl, Or.inl ⟨?_, rfl⟩⟩
    intro opened
    exact absurd closed (Bool.eq_false_iff.mp opened)
  · split
    · exact ⟨rfl, Or.inr rfl⟩
    · split
      · exact ⟨rfl, Or.inr rfl⟩
      · rename_i drops
        exact ⟨rfl, Or.inl ⟨fun _ => drops, rfl⟩⟩

/-- Only offered values are taken, in their order, and among them are all those
that overwrite. -/
theorem accepted_callAll (opened : buffer.closed = false) (calls : List (LossyCall Value)) :
    Exists fun taken => (buffer.callAll bound overwrites calls).accepted =
      buffer.accepted ++ taken ∧
      taken.Sublist (offered calls) ∧
        ((offered calls).filter fun value => decide (overwrites value)).Sublist taken := by
  induction calls generalizing buffer with
  | nil => exact ⟨[], (List.append_nil _).symm, List.Sublist.refl _, List.Sublist.refl _⟩
  | cons called calls ih =>
      cases called with
      | write value =>
          rcases @write_keeps _ bound overwrites _ buffer value with ⟨closed, refuses | takes⟩
          · rcases refuses with ⟨drops, same⟩
            rcases ih (closed.trans opened) with ⟨taken, accepted, within, beyond⟩
            refine ⟨taken, accepted.trans (congrArg (· ++ taken) same),
              within.trans (List.sublist_cons_self _ _), ?_⟩
            unfold offered
            rw [List.filter_cons, if_neg (fun stores => drops opened (of_decide_eq_true stores))]
            exact beyond
          · rcases ih (closed.trans opened) with ⟨taken, accepted, within, beyond⟩
            refine ⟨value :: taken, ?_, within.cons_cons value, ?_⟩
            · rw [List.append_cons]
              exact accepted.trans (congrArg (· ++ taken) takes)
            · unfold offered
              rw [List.filter_cons]
              split
              · exact beyond.cons_cons value
              · exact beyond.cons value
      | read =>
          rcases read_keeps buffer with ⟨same, closed⟩
          rcases ih (closed.trans opened) with ⟨taken, accepted, within, beyond⟩
          exact ⟨taken, accepted.trans (congrArg (· ++ taken) same), within, beyond⟩
      | close =>
          have kept : (buffer.callAll bound overwrites (.close :: calls)).accepted =
              buffer.accepted :=
            @closed_callAll _ bound overwrites _ { buffer with closed := true } rfl calls
          exact ⟨[], kept.trans (List.append_nil _).symm, List.Sublist.refl _, List.Sublist.refl _⟩

end Offers

end LossyBuffer

end Foundations
end VortexEngine
