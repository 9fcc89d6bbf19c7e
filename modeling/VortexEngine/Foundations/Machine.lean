import Mathlib.Data.List.Basic
import Mathlib.Logic.Relation

namespace VortexEngine
namespace Foundations

/-!
# Machines, guarded runs and simulations

A machine performs one named action at a time.  The action fixes which party
moves, so a run is an arbitrary interleaving of the parties' atomic steps.
A guard restricts the steps of a run without changing the machine: claims
about every run use the trivial guard, and claims about the runs that avoid a
particular step name that step in their guard.

A run can also be taken together with its actions.  Then it can be asked what
the actions have brought in, and at which step something occurred first.

An invariant is proved once, from its initial states and its steps.  A
simulation carries reachability from a machine to a more abstract one, or to
one of its components, and may let the abstract machine stand still.
-/

universe u v

/-- A state space, its initial states, and a partial step for every action.
An action that is not enabled has no successor. -/
structure Machine (State : Type u) (Action : Type v) where
  initial : State -> Prop
  step : State -> Action -> Option State

namespace Machine

variable {State : Type u} {Action : Type v}
variable {machine : Machine State Action} {guard : State -> Action -> Prop}

/-- One step by an action that the guard admits in the present state. -/
def StepUnder (machine : Machine State Action) (guard : State -> Action -> Prop)
    (before after : State) : Prop :=
  Exists fun action => guard before action ∧ machine.step before action = some after

/-- Finitely many guarded steps. -/
def RunsUnder (machine : Machine State Action) (guard : State -> Action -> Prop) :
    State -> State -> Prop :=
  Relation.ReflTransGen (machine.StepUnder guard)

/-- The end of a guarded run from an initial state. -/
def ReachableUnder (machine : Machine State Action) (guard : State -> Action -> Prop)
    (state : State) : Prop :=
  Exists fun start => machine.initial start ∧ machine.RunsUnder guard start state

/-- The guard that admits every action. -/
def anyAction (_state : State) (_action : Action) : Prop := True

/-- The end of an arbitrary run. -/
abbrev Reachable (machine : Machine State Action) (state : State) : Prop :=
  machine.ReachableUnder anyAction state

/-- Unrestricted finite runs. -/
abbrev Runs (machine : Machine State Action) : State -> State -> Prop :=
  machine.RunsUnder anyAction

theorem ReachableUnder.start {state : State} (starts : machine.initial state) :
    machine.ReachableUnder guard state :=
  ⟨state, starts, Relation.ReflTransGen.refl⟩

theorem ReachableUnder.next {before after : State} {action : Action}
    (reached : machine.ReachableUnder guard before) (admitted : guard before action)
    (moves : machine.step before action = some after) :
    machine.ReachableUnder guard after := by
  rcases reached with ⟨start, starts, run⟩
  exact ⟨start, starts, run.tail ⟨action, admitted, moves⟩⟩

theorem ReachableUnder.continue {before after : State}
    (reached : machine.ReachableUnder guard before)
    (run : machine.RunsUnder guard before after) :
    machine.ReachableUnder guard after := by
  rcases reached with ⟨start, starts, earlier⟩
  exact ⟨start, starts, earlier.trans run⟩

theorem RunsUnder.weaken {guard' : State -> Action -> Prop} {before after : State}
    (run : machine.RunsUnder guard before after)
    (implies : forall state action, guard state action -> guard' state action) :
    machine.RunsUnder guard' before after :=
  Relation.ReflTransGen.mono
    (fun _ _ ⟨action, admitted, moves⟩ => ⟨action, implies _ _ admitted, moves⟩) _ _ run

/-- Whatever holds where a run begins and survives every guarded step holds
where the run ends. -/
theorem RunsUnder.preserves {I : State -> Prop} {before after : State}
    (run : machine.RunsUnder guard before after)
    (preserved : forall state action state', I state -> guard state action ->
      machine.step state action = some state' -> I state')
    (holds : I before) : I after := by
  induction run with
  | refl => exact holds
  | tail _ last ih =>
      rcases last with ⟨action, admitted, moves⟩
      exact preserved _ action _ ih admitted moves

/-- Where the guard leaves one action at a time there is one way to go, so two
runs that cannot go on end alike. -/
theorem RunsUnder.ends_alike {before left right : State}
    (single : forall state action action', guard state action -> guard state action' ->
      action = action')
    (toLeft : machine.RunsUnder guard before left) (toRight : machine.RunsUnder guard before right)
    (leftEnds : forall next, ¬ machine.StepUnder guard left next)
    (rightEnds : forall next, ¬ machine.StepUnder guard right next) : left = right := by
  have deterministic : Relator.RightUnique (machine.StepUnder guard) := by
    rintro state next next' ⟨action, admitted, moves⟩ ⟨action', admitted', moves'⟩
    rw [single state action action' admitted admitted'] at moves
    exact Option.some.inj (moves.symm.trans moves')
  rcases Relation.ReflTransGen.total_of_right_unique deterministic toLeft toRight with
    further | further
  · rcases Relation.ReflTransGen.cases_head further with same | ⟨next, first, _⟩
    · exact same
    · exact absurd first (leftEnds next)
  · rcases Relation.ReflTransGen.cases_head further with same | ⟨next, first, _⟩
    · exact same.symm
    · exact absurd first (rightEnds next)

/-- The invariant rule.  The step obligation may use that the state before
the step is itself reachable, so established invariants are available. -/
theorem ReachableUnder.invariant {I : State -> Prop} {state : State}
    (reached : machine.ReachableUnder guard state)
    (starts : forall start, machine.initial start -> I start)
    (preserved : forall before action after, machine.ReachableUnder guard before ->
      I before -> guard before action ->
      machine.step before action = some after -> I after) :
    I state := by
  rcases reached with ⟨start, initial, run⟩
  have both : machine.ReachableUnder guard state ∧ I state := by
    refine run.preserves (I := fun state => machine.ReachableUnder guard state ∧ I state) ?_
      ⟨ReachableUnder.start initial, starts start initial⟩
    intro before action after holds admitted moves
    exact ⟨holds.1.next admitted moves,
      preserved before action after holds.1 holds.2 admitted moves⟩
  exact both.2

/-- Replace a guard by one that every step taken from a reachable state also
satisfies. -/
theorem ReachableUnder.reguard {guard' : State -> Action -> Prop} {state : State}
    (reached : machine.ReachableUnder guard state)
    (implies : forall before action, machine.ReachableUnder guard before ->
      guard before action -> guard' before action) :
    machine.ReachableUnder guard' state :=
  reached.invariant (fun _ starts => ReachableUnder.start starts)
    (fun _ _ _ reachedBefore reached' admitted moves =>
      reached'.next (implies _ _ reachedBefore admitted) moves)

/-- Perform a list of actions in order, each one only if the guard admits it. -/
def executeUnder (machine : Machine State Action) (guard : State -> Action -> Prop)
    [forall state action, Decidable (guard state action)] (state : State) :
    List Action -> Option State
  | [] => some state
  | action :: rest =>
      if guard state action then
        (machine.step state action).bind (machine.executeUnder guard · rest)
      else none

theorem runsUnder_of_execute [forall state action, Decidable (guard state action)]
    {actions : List Action} {before after : State}
    (executed : machine.executeUnder guard before actions = some after) :
    machine.RunsUnder guard before after := by
  induction actions generalizing before with
  | nil => exact Option.some.inj executed ▸ Relation.ReflTransGen.refl
  | cons action rest ih =>
      rw [executeUnder] at executed
      split at executed
      · rename_i admitted
        rcases Option.bind_eq_some_iff.mp executed with ⟨middle, moves, remaining⟩
        exact (ih remaining).head ⟨action, admitted, moves⟩
      · cases executed

instance (state : State) (action : Action) : Decidable (anyAction state action) :=
  inferInstanceAs (Decidable True)

/-- A state computed by executing actions from an initial state is reachable. -/
theorem reachableUnder_of_execute [forall state action, Decidable (guard state action)]
    {actions : List Action} {start : State} (starts : machine.initial start)
    (executes : (machine.executeUnder guard start actions).isSome = true) :
    machine.ReachableUnder guard ((machine.executeUnder guard start actions).get executes) :=
  ⟨start, starts, runsUnder_of_execute (Option.some_get executes).symm⟩

/-! ## Runs with their actions -/

/-- A guarded run with its actions. -/
inductive Executes (machine : Machine State Action) (guard : State -> Action -> Prop) :
    State -> List Action -> State -> Prop
  | done {state} : Executes machine guard state [] state
  | step {before action middle rest after} (admitted : guard before action)
      (moves : machine.step before action = some middle)
        (remaining : Executes machine guard middle rest after) :
      Executes machine guard before (action :: rest) after

theorem Executes.runs {before after : State} {actions : List Action}
    (run : machine.Executes guard before actions after) : machine.RunsUnder guard before after := by
  induction run with
  | done => exact Relation.ReflTransGen.refl
  | step admitted moves _ ih => exact ih.head ⟨_, admitted, moves⟩

theorem executes_of_execute [forall state action, Decidable (guard state action)]
    {actions : List Action} {before after : State}
    (executed : machine.executeUnder guard before actions = some after) :
    machine.Executes guard before actions after := by
  induction actions generalizing before with
  | nil => exact Option.some.inj executed ▸ .done
  | cons action rest ih =>
      rw [executeUnder] at executed
      split at executed
      · rename_i admitted
        rcases Option.bind_eq_some_iff.mp executed with ⟨middle, moves, remaining⟩
        exact .step admitted moves (ih remaining)
      · cases executed

/-- A run is followed by another machine, action for action, when the other
machine can follow every step whose outcome is good, and only good outcomes have
good continuations. -/
theorem Executes.follow {State' : Type u} (machine' : Machine State' Action)
    (related : State -> State' -> Prop) (good : State -> Prop)
    (mimics : forall before before' action after, related before before' ->
      machine.step before action = some after ->
      good after -> Exists fun after' => machine'.step before' action = some after' ∧
        related after after')
    (lasting : forall before action after, machine.step before action = some after -> good after ->
      good before)
    {before after : State} {actions : List Action}
    (run : machine.Executes anyAction before actions after)
    (ends : good after) {before' : State'} (begins : related before before') :
    Exists fun after' => machine'.Executes anyAction before' actions after' ∧
      related after after' := by
  have earlier : forall {before : State} {actions : List Action} {after : State},
      machine.Executes anyAction before actions after -> good after -> good before := by
    intro before actions after run
    induction run with
    | done => exact fun ends => ends
    | step _ moves _ ih => exact fun ends => lasting _ _ _ moves (ih ends)
  induction run generalizing before' with
  | done => exact ⟨before', .done, begins⟩
  | step _ moves remaining ih =>
      rcases mimics _ before' _ _ begins moves (earlier remaining ends) with
        ⟨middle', moves', still⟩
      rcases ih ends still with ⟨after', run', finally'⟩
      exact ⟨after', .step trivial moves' run', finally'⟩

/-- What the actions bring in is what the state has taken in. -/
theorem Executes.gathers {Item : Type u} (ledger : State -> List Item)
    (brings : Action -> List Item)
    (gains : forall before action after, machine.step before action = some after ->
      ledger after = ledger before ++ brings action)
    {before after : State} {actions : List Action}
    (run : machine.Executes guard before actions after) :
    ledger after = ledger before ++ actions.flatMap brings := by
  induction run with
  | done => exact (List.append_nil _).symm
  | step _ moves _ ih =>
      rw [ih, gains _ _ _ moves, List.append_assoc]
      rfl

/-- The event occurs at no step of the actions. -/
def Avoids (machine : Machine State Action) (guard event : State -> Action -> Prop) (start : State)
    (actions : List Action) : Prop :=
  forall earlier before action later, actions = earlier ++ action :: later ->
    machine.Executes guard start earlier before -> ¬ event before action

/-- The step at which the event occurs first, inside of a run. -/
structure First (machine : Machine State Action) (guard event : State -> Action -> Prop)
    (start : State) (actions : List Action) (state before : State) (action : Action) : Prop where
  occurs : event before action
  within : Exists fun earlier => Exists fun middle => Exists fun later =>
    actions = earlier ++ action :: later ∧ machine.Executes guard start earlier before ∧
      machine.step before action = some middle ∧ machine.Executes guard middle later state ∧
        machine.Avoids guard event start earlier

theorem Avoids.cons {event : State -> Action -> Prop} {before middle : State} {action : Action}
    {rest : List Action} (moves : machine.step before action = some middle)
    (silent : ¬ event before action) (avoids : machine.Avoids guard event middle rest) :
      machine.Avoids guard event before (action :: rest) := by
  intro earlier state next later split run
  cases run with
  | done =>
      cases split
      exact silent
  | step _ moved remaining =>
      cases split
      cases moves.symm.trans moved
      exact avoids _ _ _ _ rfl remaining

/-- Along a run an event has a first step, or it does not occur. -/
theorem Executes.avoids_or_first (event : State -> Action -> Prop) {start state : State}
    {actions : List Action} (run : machine.Executes guard start actions state) :
    machine.Avoids guard event start actions ∨
      Exists fun before => Exists fun action =>
        machine.First guard event start actions state before action := by
  have nothing : forall start, machine.Avoids guard event start [] := by
    intro start earlier before action later split
    cases earlier <;> cases split
  induction run with
  | done => exact Or.inl (nothing _)
  | @step before action middle rest state admitted moves remaining ih =>
      by_cases occurs : event before action
      · exact Or.inr
          ⟨before, action, occurs, [], middle, rest, rfl, .done, moves, remaining, nothing _⟩
      · rcases ih with avoids | ⟨first, cause, found⟩
        · exact Or.inl (avoids.cons moves occurs)
        · rcases found.within with ⟨earlier, next, later, split, run, moved, onward, avoids⟩
          refine Or.inr ⟨first, cause, found.occurs, action :: earlier, next, later, ?_,
            .step admitted moves run,
            moved, onward, avoids.cons moves occurs⟩
          rw [split]
          rfl

/-- Whatever survives every step without the event holds at the end of a run
that avoids it. -/
theorem Executes.preserves_avoiding {event : State -> Action -> Prop} {I : State -> Prop}
    {start state : State} {actions : List Action} (run : machine.Executes guard start actions state)
    (avoids : machine.Avoids guard event start actions)
    (preserved : forall before action after, I before -> ¬ event before action ->
      machine.step before action = some after -> I after)
    (holds : I start) : I state := by
  induction run with
  | done => exact holds
  | @step before action middle rest state admitted moves _ ih =>
      have silent : ¬ event before action := avoids [] before action rest rfl .done
      refine ih ?_ (preserved before action middle holds silent moves)
      intro earlier next later onward split run
      exact avoids (action :: earlier) next later onward (congrArg (action :: ·) split)
        (.step admitted moves run)

/-- A functional simulation.  Every guarded step of the concrete machine is
either invisible or one guarded step of the abstract machine. -/
structure Simulation {State' : Type u} {Action' : Type v}
    (concrete : Machine State Action) (guard : State -> Action -> Prop)
    (abstract : Machine State' Action') (guard' : State' -> Action' -> Prop) where
  view : State -> State'
  initial : forall start, concrete.initial start -> abstract.initial (view start)
  step : forall before action after, concrete.ReachableUnder guard before ->
    guard before action -> concrete.step before action = some after ->
    view after = view before ∨ abstract.StepUnder guard' (view before) (view after)

theorem Simulation.reachable {State' : Type u} {Action' : Type v}
    {concrete : Machine State Action} {abstract : Machine State' Action'}
    {guard' : State' -> Action' -> Prop} (simulation : Simulation concrete guard abstract guard')
    {state : State} (reached : concrete.ReachableUnder guard state) :
    abstract.ReachableUnder guard' (simulation.view state) := by
  refine reached.invariant
    (I := fun state => abstract.ReachableUnder guard' (simulation.view state))
    (fun start starts => ReachableUnder.start (simulation.initial start starts)) ?_
  intro before action after reached seen admitted moves
  rcases simulation.step before action after reached admitted moves with
    same | ⟨_, admitted', moves'⟩
  · exact same ▸ seen
  · exact seen.next admitted' moves'

end Machine

end Foundations
end VortexEngine
