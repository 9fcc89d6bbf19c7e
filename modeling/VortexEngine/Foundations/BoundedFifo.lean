import VortexEngine.Foundations.Machine
import Mathlib.Data.List.Basic

namespace VortexEngine
namespace Foundations

/-!
# Bounded first-in-first-out channels

The abstract channel holds a list of pending values, of bounded length, and
remembers every value it has accepted and delivered.  It accepts at one end
while there is room and delivers at the other.  A concrete queue that is
simulated by this machine loses nothing, repeats nothing and keeps the order.
-/

universe u

structure Channel (Value : Type u) where
  pending : List Value
  accepted : List Value
  delivered : List Value

inductive ChannelAction (Value : Type u)
  | accept (value : Value)
  | deliver

namespace Channel

variable {Value : Type u}

def empty : Channel Value := ⟨[], [], []⟩

/-- Accept below the bound, deliver from a nonempty channel. -/
def step (bound : Nat) (channel : Channel Value) : ChannelAction Value -> Option (Channel Value)
  | .accept value =>
      if channel.pending.length < bound then
        some ⟨channel.pending ++ [value], channel.accepted ++ [value], channel.delivered⟩
      else none
  | .deliver =>
      match channel.pending with
      | [] => none
      | value :: rest => some ⟨rest, channel.accepted, channel.delivered ++ [value]⟩

/-- The channel that holds at most `bound` values. -/
def machine (Value : Type u) (bound : Nat) : Machine (Channel Value) (ChannelAction Value) where
  initial := fun channel => channel = empty
  step := step bound

theorem step_accept {bound : Nat} {channel : Channel Value} (value : Value)
    (room : channel.pending.length < bound) :
    step bound channel (.accept value) =
      some ⟨channel.pending ++ [value], channel.accepted ++ [value], channel.delivered⟩ := by
  rw [step, if_pos room]

theorem step_deliver (bound : Nat) {channel : Channel Value} {value : Value} {rest : List Value}
    (first : channel.pending = value :: rest) :
    step bound channel .deliver = some ⟨rest, channel.accepted, channel.delivered ++ [value]⟩ := by
  simp only [step, first]

/-- What was accepted is what was delivered followed by what is pending, and
the bound is kept. -/
structure Sound (bound : Nat) (channel : Channel Value) : Prop where
  conserved : channel.accepted = channel.delivered ++ channel.pending
  bounded : channel.pending.length ≤ bound

theorem step_sound {bound : Nat} {before after : Channel Value} {action : ChannelAction Value}
    (sound : Sound bound before) (moves : step bound before action = some after) :
    Sound bound after := by
  cases action with
  | accept value =>
      by_cases room : before.pending.length < bound
      · rw [step_accept value room] at moves
        cases moves
        constructor
        · rw [sound.conserved, List.append_assoc]
        · rw [List.length_append]
          exact room
      · rw [step, if_neg room] at moves
        cases moves
  | deliver =>
      cases first : before.pending with
      | nil => simp only [step, first] at moves; cases moves
      | cons value rest =>
          rw [step_deliver bound first] at moves
          cases moves
          constructor
          · rw [sound.conserved, first, List.append_assoc]
            rfl
          · have bounded := sound.bounded
            rw [first] at bounded
            exact Nat.le_of_succ_le bounded

theorem reachable_sound {bound : Nat} {guard : Channel Value -> ChannelAction Value -> Prop}
    {channel : Channel Value} (reached : (machine Value bound).ReachableUnder guard channel) :
    Sound bound channel :=
  reached.invariant (fun _ starts => starts ▸ ⟨rfl, Nat.zero_le _⟩)
    (fun _ _ _ _ sound _ moves => step_sound sound moves)

end Channel

end Foundations
end VortexEngine
