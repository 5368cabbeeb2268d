import Mathlib.Logic.Basic

/-!
# Runs of a transition system

A system is a function from a state and an action to the next state, if the action can be
taken. Runs may be restricted to steps that meet a condition on the state before them; a
property that the initial state has and that such steps keep holds in every state they reach.
-/

namespace Transition

set_option autoImplicit false

universe u v

variable {State : Type u} {Action : Type v} {step : State → Action → Option State}
  {allowed : State → Action → Prop}

/-- The states that runs of allowed steps reach. -/
inductive Reaches (step : State → Action → Option State) (allowed : State → Action → Prop)
    (start : State) : State → Prop where
  | start : Reaches step allowed start start
  | next {state after : State} (action : Action) (before : Reaches step allowed start state)
      (permitted : allowed state action) (taken : step state action = some after) :
      Reaches step allowed start after

theorem invariant_of_reaches {inv : State → Prop} {start state : State} (initially : inv start)
    (preserved : ∀ state action after, inv state → allowed state action →
      step state action = some after → inv after)
    (reaches : Reaches step allowed start state) : inv state := by
  induction reaches with
  | start => exact initially
  | next action before permitted taken induction =>
      exact preserved _ action _ induction permitted taken

/-- A run given by its actions, all of them allowed. -/
def Runs (step : State → Action → Option State) (allowed : State → Action → Prop) :
    State → List Action → State → Prop
  | state, [], last => state = last
  | state, action :: rest, last =>
      allowed state action ∧ ∃ after, step state action = some after ∧
        Runs step allowed after rest last

theorem reaches_of_runs {start : State} (actions : List Action) :
    ∀ {state last : State}, Reaches step allowed start state →
      Runs step allowed state actions last → Reaches step allowed start last := by
  induction actions with
  | nil =>
      intro state last before same
      rw [← same]
      exact before
  | cons action rest induction =>
      intro state last before ran
      obtain ⟨permitted, after, taken, restRan⟩ := ran
      exact induction (.next action before permitted taken) restRan

theorem exists_runs (total : ∀ state action, ∃ after, step state action = some after)
    (actions : List Action) : ∀ state, ∃ last, Runs step (fun _ _ => True) state actions last := by
  induction actions with
  | nil =>
      intro state
      exact ⟨state, rfl⟩
  | cons action rest induction =>
      intro state
      rcases total state action with ⟨after, taken⟩
      rcases induction after with ⟨last, ran⟩
      exact ⟨last, trivial, after, taken, ran⟩

/-- Two conditions on steps that agree under an invariant allow the same runs, if steps under one
of them keep the invariant. -/
theorem runs_congr {inv : State → Prop} {other : State → Action → Prop}
    (agree : ∀ state action, inv state → (allowed state action ↔ other state action))
    (preserved : ∀ state action after, inv state → allowed state action →
      step state action = some after → inv after) (actions : List Action) :
    ∀ {state last : State}, inv state →
      (Runs step allowed state actions last ↔ Runs step other state actions last) := by
  induction actions with
  | nil =>
      intro state last _
      rfl
  | cons action rest induction =>
      intro state last holds
      constructor
      · rintro ⟨permitted, after, taken, ran⟩
        have kept := preserved state action after holds permitted taken
        exact ⟨(agree state action holds).mp permitted, after, taken, (induction kept).mp ran⟩
      · rintro ⟨also, after, taken, ran⟩
        have permitted := (agree state action holds).mpr also
        have kept := preserved state action after holds permitted taken
        exact ⟨permitted, after, taken, (induction kept).mpr ran⟩

/-- The state behind these actions, if all of them are allowed and can be taken. -/
def run (step : State → Action → Option State) (allowed : State → Action → Prop)
    [∀ state action, Decidable (allowed state action)] (state : State) :
    List Action → Option State
  | [] => some state
  | action :: rest =>
      if allowed state action then
        match step state action with
        | none => none
        | some after => run step allowed after rest
      else none

theorem reaches_of_run [∀ state action, Decidable (allowed state action)] {start : State}
    (actions : List Action) : ∀ {state last : State}, Reaches step allowed start state →
      run step allowed state actions = some last → Reaches step allowed start last := by
  induction actions with
  | nil =>
      intro state last before same
      rw [← Option.some.inj same]
      exact before
  | cons action rest induction =>
      intro state last before ran
      rw [run] at ran
      by_cases permitted : allowed state action
      · rw [if_pos permitted] at ran
        cases taken : step state action with
        | none =>
            rw [taken] at ran
            cases ran
        | some after =>
            rw [taken] at ran
            exact induction (.next action before permitted taken) ran
      · rw [if_neg permitted] at ran
        cases ran

theorem exists_of_run [∀ state action, Decidable (allowed state action)] {start : State}
    {holds : State → Prop} [DecidablePred holds] (actions : List Action)
    (tested : (run step allowed start actions).any (fun state => holds state) = true) :
    ∃ last, Reaches step allowed start last ∧ holds last := by
  cases ran : run step allowed start actions with
  | none =>
      rw [ran] at tested
      cases tested
  | some last =>
      rw [ran] at tested
      exact ⟨last, reaches_of_run actions .start ran, of_decide_eq_true tested⟩

theorem Reaches.trans {start middle last : State} (first : Reaches step allowed start middle)
    (second : Reaches step allowed middle last) : Reaches step allowed start last := by
  induction second with
  | start => exact first
  | next action before permitted taken induction => exact .next action induction permitted taken

/-- A run and one that goes on from there, with a property that can be tested of both. -/
theorem exists_of_run_run [∀ state action, Decidable (allowed state action)] {start : State}
    {holds : State → State → Prop} [∀ middle last, Decidable (holds middle last)]
    (first second : List Action)
    (tested : (run step allowed start first).any (fun middle =>
      (run step allowed middle second).any (fun last => holds middle last)) = true) :
    ∃ middle last, Reaches step allowed start middle ∧ Reaches step allowed middle last ∧
      holds middle last := by
  cases ran : run step allowed start first with
  | none =>
      rw [ran] at tested
      cases tested
  | some middle =>
      rw [ran] at tested
      rcases exists_of_run second tested with ⟨last, onward, held⟩
      exact ⟨middle, last, reaches_of_run first .start ran, onward, held⟩

end Transition
