import VortexEngine.Foundations.Machine
import Mathlib.Algebra.GroupWithZero.Nat
import Mathlib.Data.List.Basic

namespace VortexEngine
namespace Foundations

/-!
# Budgets for the steps of a run

A bound on the number of steps that one party takes is a safety property of
runs that remember their actions.  A potential on the states pays for the
counted steps: each step may cost as much as it takes off the potential and as
the action itself brings in.  Along a run the costs then stay within the first
potential and the credits, whatever the other parties do in between.

Often the steps are bounded only until something has been achieved.  A budget
therefore names a goal, which stays achieved, and binds the steps that are
taken before it.
-/

namespace Machine

universe u v

variable {State : Type u} {Action : Type v}
variable {machine : Machine State Action} {guard : State -> Action -> Prop}

/-- What a list of actions weighs. -/
def weigh (weight : Action -> Nat) (actions : List Action) : Nat :=
  (actions.map weight).sum

@[simp] theorem weigh_nil (weight : Action -> Nat) : weigh weight [] = 0 :=
  rfl

@[simp] theorem weigh_cons (weight : Action -> Nat) (action : Action) (rest : List Action) :
    weigh weight (action :: rest) = weight action + weigh weight rest :=
  List.sum_cons

@[simp] theorem weigh_zero (actions : List Action) : weigh (fun _ => 0) actions = 0 := by
  induction actions with
  | nil => rfl
  | cons action rest ih => rw [weigh_cons, ih]

theorem weigh_mul (factor : Nat) (weight : Action -> Nat) (actions : List Action) :
    weigh (fun action => factor * weight action) actions = factor * weigh weight actions := by
  induction actions with
  | nil => rfl
  | cons action rest ih => rw [weigh_cons, weigh_cons, ih, Nat.mul_add]

/-- In the states of an invariant the potential pays for the steps that are
taken before the goal. -/
structure Budget (machine : Machine State Action) (guard : State -> Action -> Prop)
    (holds goal : State -> Prop)
    (potential : State -> Nat) (cost credit : Action -> Nat) : Prop where
  keeps : forall before action after, holds before -> guard before action ->
    machine.step before action = some after -> holds after
  stays : forall before action after, goal before -> guard before action ->
    machine.step before action = some after -> goal after
  pays : forall before action after, holds before -> guard before action ->
    machine.step before action = some after -> ¬ goal after ->
      potential after + cost action ≤ potential before + credit action

namespace Budget

variable {holds goal : State -> Prop} {potential : State -> Nat} {cost credit : Action -> Nat}
variable {before after : State} {actions : List Action}

theorem stays_run (budget : Budget machine guard holds goal potential cost credit)
    (run : machine.Executes guard before actions after) (achieved : goal before) : goal after := by
  induction run with
  | done => exact achieved
  | step admitted moves _ ih => exact ih (budget.stays _ _ _ achieved admitted moves)

/-- A run that has not achieved the goal has stayed within its budget. -/
theorem total (budget : Budget machine guard holds goal potential cost credit)
    (starts : holds before)
    (run : machine.Executes guard before actions after) (missed : ¬ goal after) :
    potential after + weigh cost actions ≤ potential before + weigh credit actions := by
  induction run with
  | done => exact Nat.le_refl _
  | @step before action middle rest after admitted moves remaining ih =>
      have later := ih (budget.keeps _ _ _ starts admitted moves) missed
      have now : potential middle + cost action ≤ potential before + credit action :=
        budget.pays before action middle starts admitted moves
          (fun achieved => missed (budget.stays_run remaining achieved))
      rw [weigh_cons, weigh_cons]
      omega

/-- A run that costs more than its budget has achieved the goal. -/
theorem achieves (budget : Budget machine guard holds goal potential cost credit)
    (starts : holds before) (run : machine.Executes guard before actions after)
    (exceeds : potential before + weigh credit actions < weigh cost actions) : goal after := by
  by_contra missed
  have within := budget.total starts run missed
  omega

end Budget

end Machine

end Foundations
end VortexEngine
