import Mathlib.Tactic

/-!
# Histories

The states of a machine that takes every action, and what is noted of each
action in the state it is taken in.  A cut through the notes is a cut through
the actions.
-/

namespace LightWaf.Theory.History

universe u v w

variable {σ : Type u} {α : Type v} {ε : Type w}

/-- The state after some actions. -/
def run (step : σ → α → σ) (state : σ) (actions : List α) : σ :=
  actions.foldl step state

/-- What is noted of some actions. -/
def history (step : σ → α → σ) (event : σ → α → ε) : σ → List α → List ε
  | _, [] => []
  | state, action :: rest =>
      event state action :: history step event (step state action) rest

variable {step : σ → α → σ} {event : σ → α → ε} {state : σ}

theorem run_append (state : σ) (first second : List α) :
    run step state (first ++ second) = run step (run step state first) second :=
  List.foldl_append

theorem history_append (state : σ) (first second : List α) :
    history step event state (first ++ second) =
      history step event state first ++
        history step event (run step state first) second := by
  induction first generalizing state with
  | nil => rfl
  | cons action rest induction =>
      rw [List.cons_append, history, history, induction, List.cons_append]
      rfl

theorem length_history (state : σ) (actions : List α) :
    (history step event state actions).length = actions.length := by
  induction actions generalizing state with
  | nil => rfl
  | cons action rest induction =>
      rw [history, List.length_cons, List.length_cons, induction]

/-- A cut through the history is one through the actions. -/
theorem exists_of_history_eq_append
    {actions : List α} {before after : List ε}
    (cut : history step event state actions = before ++ after) :
    ∃ first second, actions = first ++ second ∧
      history step event state first = before ∧
      history step event (run step state first) second = after := by
  refine ⟨actions.take before.length, actions.drop before.length,
    (List.take_append_drop _ _).symm, ?_⟩
  have whole := @history_append _ _ _ step event state
    (actions.take before.length) (actions.drop before.length)
  rw [List.take_append_drop, cut] at whole
  have fits : before.length =
      (history step event state (actions.take before.length)).length := by
    have total := congrArg List.length cut
    rw [length_history, List.length_append] at total
    rw [length_history, List.length_take]
    omega
  obtain ⟨first, second⟩ := List.append_inj whole fits
  exact ⟨first.symm, second.symm⟩

/-- The state at a note of the history. -/
theorem exists_of_history_eq_cons
    {actions : List α} {before after : List ε} {note : ε}
    (cut : history step event state actions = before ++ note :: after) :
    ∃ first action second, history step event state first = before ∧
      note = event (run step state first) action ∧
      history step event (step (run step state first) action) second =
        after := by
  obtain ⟨first, second, -, rfl, rest⟩ := exists_of_history_eq_append cut
  cases second with
  | nil => cases rest
  | cons action second =>
      rw [history] at rest
      cases rest
      exact ⟨first, action, second, rfl, rfl, rfl⟩

/-! ## Two machines in step -/

section Simulation

universe u' v' w'

variable {σ' : Type u'} {α' : Type v'} {ε' : Type w'}
variable {step' : σ' → α' → σ'} {event' : σ' → α' → ε'}
variable {invariant : σ → Prop} {abstract : σ → σ'} {map : α → α'}

/--
A machine that does in every state of an invariant what another one does, seen
through a function of its states, goes through the states of the other one.
-/
theorem run_map
    (kept : ∀ state action, invariant state → invariant (step state action))
    (simulates : ∀ state action, invariant state →
      abstract (step state action) = step' (abstract state) (map action))
    (started : invariant state) (actions : List α) :
    abstract (run step state actions) =
      run step' (abstract state) (actions.map map) := by
  induction actions generalizing state with
  | nil => rfl
  | cons action rest induction =>
      refine (induction (kept state action started)).trans ?_
      rw [simulates state action started]
      rfl

theorem history_map
    {note : ε → ε'}
    (kept : ∀ state action, invariant state → invariant (step state action))
    (simulates : ∀ state action, invariant state →
      abstract (step state action) = step' (abstract state) (map action) ∧
        note (event state action) = event' (abstract state) (map action))
    (started : invariant state) (actions : List α) :
    (history step event state actions).map note =
      history step' event' (abstract state) (actions.map map) := by
  induction actions generalizing state with
  | nil => rfl
  | cons action rest induction =>
      obtain ⟨moved, noted⟩ := simulates state action started
      rw [history, List.map_cons, List.map_cons, history, noted,
        induction (kept state action started), moved]

theorem invariant_run
    (kept : ∀ state action, invariant state → invariant (step state action))
    (started : invariant state) (actions : List α) :
    invariant (run step state actions) := by
  induction actions generalizing state with
  | nil => exact started
  | cons action rest induction => exact induction (kept state action started)

end Simulation

/-! ## Machines that may refuse -/

/--
What is said of the actions so far and the state behind them, and is kept by
the next action, holds at the end of a run.
-/
theorem holds_of_run
    {step : σ → α → Option σ} {holds : List α → σ → Prop} {start : σ}
    (started : holds [] start)
    (kept : ∀ before state action next,
      before.foldlM step start = some state → holds before state →
        step state action = some next → holds (before ++ [action]) next)
    {actions : List α} {final : σ}
    (ran : actions.foldlM step start = some final) :
    holds actions final := by
  induction actions using List.reverseRecOn generalizing final with
  | nil =>
      cases ran
      exact started
  | append_singleton before action induction =>
      rw [List.foldlM_append, Option.bind_eq_bind,
        Option.bind_eq_some_iff] at ran
      obtain ⟨state, reached, taken⟩ := ran
      rw [List.foldlM_cons, Option.bind_eq_bind,
        Option.bind_eq_some_iff] at taken
      obtain ⟨_, taken, ended⟩ := taken
      cases ended
      exact kept before state action final reached (induction reached) taken

end LightWaf.Theory.History
