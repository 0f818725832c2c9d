import Mathlib.Data.List.Induction
import Mathlib.Order.Basic

/-!
# Runs of a deterministic machine

A machine steps from state to state under a list of actions.  A condition on
single steps, imposed on every step of a run, is the hypothesis of the
induction rules: an invariant that such steps preserve holds after the run.  What
the steps contribute one by one adds up to the change of a measure over the run.
-/

namespace Foundation
namespace Runs

variable {State Action : Type*} (step : State → Action → State)

/-- The state after a list of actions. -/
def run (state : State) (actions : List Action) : State :=
  actions.foldl step state

@[simp] theorem run_nil (state : State) : run step state [] = state := rfl

@[simp] theorem run_cons
    (state : State)
    (action : Action)
    (rest : List Action) :
    run step state (action :: rest) = run step (step state action) rest := rfl

@[simp] theorem run_append
    (state : State)
    (before after : List Action) :
    run step state (before ++ after) = run step (run step state before) after :=
  List.foldl_append

/-- An action that does not change the state can be repeated. -/
theorem run_replicate_of_fixed
    {state : State}
    {action : Action}
    (fixed : step state action = state)
    (count : Nat) :
    run step state (List.replicate count action) = state := by
  induction count with
  | zero => rfl
  | succ count inductionHypothesis =>
      rw [List.replicate_succ, run_cons, fixed, inductionHypothesis]

/-- Every step of the run meets a condition on its action and the state before
it. -/
def Each (admits : State → Action → Prop) : State → List Action → Prop
  | _, [] => True
  | state, action :: rest =>
      admits state action ∧ Each admits (step state action) rest

variable {step} {admits : State → Action → Prop}

theorem each_append
    {state : State}
    {before after : List Action} :
    Each step admits state (before ++ after) ↔
      Each step admits state before ∧
        Each step admits (run step state before) after := by
  induction before generalizing state with
  | nil => simp [Each]
  | cons action before inductionHypothesis =>
      simp only [List.cons_append, Each, run_cons, inductionHypothesis, and_assoc]

/-- A condition on actions alone is met along a run of such actions. -/
theorem each_of_forall_mem
    {state : State}
    {actions : List Action}
    (always : ∀ action ∈ actions, ∀ state, admits state action) :
    Each step admits state actions := by
  induction actions generalizing state with
  | nil => trivial
  | cons action rest inductionHypothesis =>
      obtain ⟨first, others⟩ := List.forall_mem_cons.mp always
      exact ⟨first state, inductionHypothesis others⟩

theorem each_of_forall
    {state : State}
    {actions : List Action}
    (always : ∀ state action, admits state action) :
    Each step admits state actions :=
  each_of_forall_mem fun action _ state => always state action

theorem Each.and
    {other : State → Action → Prop}
    {state : State}
    {actions : List Action}
    (each : Each step admits state actions)
    (eachOther : Each step other state actions) :
    Each step (fun state action => admits state action ∧ other state action)
      state actions := by
  induction actions generalizing state with
  | nil => trivial
  | cons action rest inductionHypothesis =>
      exact ⟨⟨each.1, eachOther.1⟩, inductionHypothesis each.2 eachOther.2⟩

/-- An invariant that admitted steps preserve holds after an admitted run. -/
theorem invariant_run
    (invariant : State → Prop)
    (preserved : ∀ state action, invariant state → admits state action →
      invariant (step state action))
    {state : State}
    {actions : List Action}
    (start : invariant state)
    (each : Each step admits state actions) :
    invariant (run step state actions) := by
  induction actions generalizing state with
  | nil => exact start
  | cons action rest inductionHypothesis =>
      exact inductionHypothesis (preserved state action start each.1) each.2

/-- An invariant that every step preserves holds after every run. -/
theorem invariant_run_of_forall
    (invariant : State → Prop)
    (preserved : ∀ state action, invariant state → invariant (step state action))
    {state : State}
    {actions : List Action}
    (start : invariant state) :
    invariant (run step state actions) :=
  invariant_run invariant
    (fun state action before _ => preserved state action before) start
    (each_of_forall fun _ _ => trivial)

/-- Along an admitted run, each step starts from the invariant. -/
theorem Each.with_invariant
    (invariant : State → Prop)
    (preserved : ∀ state action, invariant state → admits state action →
      invariant (step state action))
    {state : State}
    {actions : List Action}
    (start : invariant state)
    (each : Each step admits state actions) :
    Each step (fun state action => admits state action ∧ invariant state)
      state actions := by
  induction actions generalizing state with
  | nil => trivial
  | cons action rest inductionHypothesis =>
      exact ⟨⟨each.1, start⟩,
        inductionHypothesis (preserved state action start each.1) each.2⟩

/-- An invariant that may speak of the actions so far. -/
theorem invariant_run_past
    {state : State}
    (invariant : List Action → State → Prop)
    (preserved : ∀ past action, invariant past (run step state past) →
      admits (run step state past) action →
      invariant (past ++ [action]) (step (run step state past) action))
    (start : invariant [] state)
    {actions : List Action}
    (each : Each step admits state actions) :
    invariant actions (run step state actions) := by
  induction actions using List.reverseRecOn with
  | nil => exact start
  | append_singleton past action inductionHypothesis =>
      obtain ⟨earlier, last⟩ := each_append.mp each
      rw [run_append]
      exact preserved past action (inductionHypothesis earlier) last.1

/-- What holds before a run and not after it is lost at one of its steps. -/
theorem exists_step_of_lost
    (kept : State → Prop)
    {state : State}
    {actions : List Action}
    (start : kept state)
    (lost : ¬kept (run step state actions)) :
    ∃ before action after, actions = before ++ action :: after ∧
      kept (run step state before) ∧
      ¬kept (step (run step state before) action) := by
  induction actions generalizing state with
  | nil => exact absurd start lost
  | cons action rest inductionHypothesis =>
      by_cases next : kept (step state action)
      · obtain ⟨before, later, after, rfl, holds, fails⟩ :=
          inductionHypothesis next lost
        exact ⟨action :: before, later, after, rfl, holds, fails⟩
      · exact ⟨[], action, rest, rfl, start, next⟩

/-! ## Adding up the steps of a run -/

variable (step) in
/-- What the steps of a run contribute, added up. -/
def total (gain : State → Action → Nat) : State → List Action → Nat
  | _, [] => 0
  | state, action :: rest =>
      gain state action + total gain (step state action) rest

/-- A measure that every step raises by its gain is raised by their total. -/
theorem measure_run
    {gain : State → Action → Nat}
    (measure : State → Nat)
    (invariant : State → Prop)
    (preserved : ∀ state action, invariant state → invariant (step state action))
    (raised : ∀ state action, invariant state →
      measure (step state action) = measure state + gain state action)
    {state : State}
    {actions : List Action}
    (start : invariant state) :
    measure (run step state actions) =
      measure state + total step gain state actions := by
  induction actions generalizing state with
  | nil => rfl
  | cons action rest inductionHypothesis =>
      rw [run_cons, inductionHypothesis (preserved state action start),
        raised state action start, total, Nat.add_assoc]

/-- A measure that an admitted step raises by its gain at most is raised by no
more than their total. -/
theorem measure_le_run
    {gain : State → Action → Nat}
    (measure : State → Nat)
    (invariant : State → Prop)
    (preserved : ∀ state action, invariant state → invariant (step state action))
    (raised : ∀ state action, invariant state → admits state action →
      measure (step state action) ≤ measure state + gain state action)
    {state : State}
    {actions : List Action}
    (start : invariant state)
    (each : Each step admits state actions) :
    measure (run step state actions) ≤
      measure state + total step gain state actions := by
  induction actions generalizing state with
  | nil => exact Nat.le_refl _
  | cons action rest inductionHypothesis =>
      have later := inductionHypothesis (preserved state action start) each.2
      have first := raised state action start each.1
      rw [run_cons, total]
      omega

/-- Where certain actions gain a fixed amount each, the total counts them. -/
theorem total_ite
    (counts : Action → Bool)
    (amount : Nat)
    (state : State)
    (actions : List Action) :
    total step (fun _ action => if counts action then amount else 0) state
        actions =
      amount * actions.countP counts := by
  induction actions generalizing state with
  | nil => rfl
  | cons action rest inductionHypothesis =>
      rw [total, inductionHypothesis, List.countP_cons, Nat.mul_add]
      split <;> omega

/-! ## A machine inside a machine -/

section Inner

variable {Part Inner : Type*}

variable (step) in
/-- The actions of an inner machine behind a run. -/
def behind (emits : State → Action → List Inner) : State → List Action → List Inner
  | _, [] => []
  | state, action :: rest =>
      emits state action ++ behind emits (step state action) rest

theorem behind_append
    (emits : State → Action → List Inner)
    (state : State)
    (before after : List Action) :
    behind step emits state (before ++ after) =
      behind step emits state before ++
        behind step emits (run step state before) after := by
  induction before generalizing state with
  | nil => rfl
  | cons action before inductionHypothesis =>
      rw [List.cons_append, behind, behind, inductionHypothesis, run_cons,
        List.append_assoc]

variable {inner : Part → Inner → Part} {part : State → Part}
  {emits : State → Action → List Inner}
  (moves : ∀ state action, admits state action →
    part (step state action) = run inner (part state) (emits state action))
include moves

/-- A part of the state that every step moves as an inner machine, the run moves
as the inner machine under the actions behind it. -/
theorem part_run
    {state : State}
    {actions : List Action}
    (each : Each step admits state actions) :
    part (run step state actions) =
      run inner (part state) (behind step emits state actions) := by
  induction actions generalizing state with
  | nil => rfl
  | cons action rest inductionHypothesis =>
      rw [run_cons, inductionHypothesis each.2, moves state action each.1, behind,
        run_append]

/-- What every step admits, the actions behind it do. -/
theorem each_behind
    {admitsInner : Part → Inner → Prop}
    (admitted : ∀ state action, admits state action →
      Each inner admitsInner (part state) (emits state action))
    {state : State}
    {actions : List Action}
    (each : Each step admits state actions) :
    Each inner admitsInner (part state) (behind step emits state actions) := by
  induction actions generalizing state with
  | nil => trivial
  | cons action rest inductionHypothesis =>
      rw [behind, each_append, ← moves state action each.1]
      exact ⟨admitted state action each.1, inductionHypothesis each.2⟩

end Inner

/-! ## Machines that answer -/

section Answers

variable {Answer Other : Type*}

/-- The state after a list of actions. -/
def after
    (react : State → Action → Answer × State)
    (state : State)
    (actions : List Action) : State :=
  run (fun state action => (react state action).2) state actions

/-- The answers to a list of actions. -/
def answers
    (react : State → Action → Answer × State) : State → List Action → List Answer
  | _, [] => []
  | state, action :: rest =>
      (react state action).1 :: answers react (react state action).2 rest

variable (react : State → Action → Answer × State)

@[simp] theorem after_nil (state : State) : after react state [] = state := rfl

@[simp] theorem after_cons
    (state : State)
    (action : Action)
    (rest : List Action) :
    after react state (action :: rest) =
      after react (react state action).2 rest := rfl

theorem after_append
    (state : State)
    (first second : List Action) :
    after react state (first ++ second) =
      after react (after react state first) second :=
  run_append _ _ _ _

@[simp] theorem length_answers
    (state : State)
    (actions : List Action) :
    (answers react state actions).length = actions.length := by
  induction actions generalizing state with
  | nil => rfl
  | cons action rest inductionHypothesis =>
      rw [answers, List.length_cons, inductionHypothesis, List.length_cons]

theorem answers_append
    (state : State)
    (first second : List Action) :
    answers react state (first ++ second) =
      answers react state first ++
        answers react (after react state first) second := by
  induction first generalizing state with
  | nil => rfl
  | cons action rest inductionHypothesis =>
      rw [List.cons_append, answers, inductionHypothesis, answers, after_cons,
        List.cons_append]

/-- Two machines answer alike along a list of actions when a relation between
their states, which may speak of the actions still to come, gives the same
answer to the next one and is kept by it. -/
theorem answers_eq_of_related
    {react : State → Action → Answer × State}
    {reactOther : Other → Action → Answer × Other}
    (related : List Action → State → Other → Prop)
    (kept : ∀ action rest state other, related (action :: rest) state other →
      (react state action).1 = (reactOther other action).1 ∧
        related rest (react state action).2 (reactOther other action).2)
    {actions : List Action}
    {state : State}
    {other : Other}
    (start : related actions state other) :
    answers react state actions = answers reactOther other actions := by
  induction actions generalizing state other with
  | nil => rfl
  | cons action rest inductionHypothesis =>
      obtain ⟨same, next⟩ := kept action rest state other start
      rw [answers, answers, same, inductionHypothesis next]

end Answers

end Runs
end Foundation
