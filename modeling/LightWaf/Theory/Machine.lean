import Mathlib.Tactic

/-!
# Runs of a machine

A machine takes actions one after the other and may refuse one.  What is said
of every action of a run, in the state it is taken in, is derived from an
invariant that every action keeps.
-/

namespace LightWaf.Theory.Machine

universe u v

variable {σ : Type u} {α : Type v} (step : σ → α → Option σ)

/-- A property of every action of a run, in the state it is taken in. -/
def Throughout (holds : σ → α → Prop) : σ → List α → Prop
  | _, [] => True
  | state, action :: rest =>
      holds state action ∧
        ∀ next, step state action = some next → Throughout holds next rest

variable {step}

/-- A run goes on from the one state that an action leads to. -/
theorem Throughout.cons
    {holds : σ → α → Prop} {state next : σ} {action : α} {rest : List α}
    (first : holds state action) (taken : step state action = some next)
    (throughout : Throughout step holds next rest) :
    Throughout step holds state (action :: rest) := by
  refine ⟨first, fun other same => ?_⟩
  rw [taken] at same
  cases same
  exact throughout

/-- Where a property can be decided, it can be along a run. -/
instance Throughout.decidable
    {holds : σ → α → Prop} [∀ state action, Decidable (holds state action)] :
    ∀ (state : σ) (actions : List α),
      Decidable (Throughout step holds state actions)
  | _, [] => isTrue trivial
  | state, action :: rest =>
      match taken : step state action with
      | none => decidable_of_iff (holds state action) (by
          rw [Throughout, taken]
          exact ⟨fun first => ⟨first, nofun⟩, And.left⟩)
      | some next =>
          have : Decidable (Throughout step holds next rest) :=
            Throughout.decidable next rest
          decidable_of_iff
            (holds state action ∧ Throughout step holds next rest) (by
              rw [Throughout, taken]
              exact and_congr_right fun _ =>
                ⟨fun later _ same => Option.some.inj same ▸ later,
                  fun later => later next rfl⟩)

/--
One property follows from another along a run if it does so in every state of
an invariant, which the actions that have the other one keep.
-/
theorem Throughout.imp_of_invariant
    {holds follows : σ → α → Prop} {invariant : σ → Prop}
    (implied : ∀ state action, invariant state → holds state action →
      follows state action)
    (kept : ∀ state action next, invariant state → holds state action →
      step state action = some next → invariant next)
    {state : σ} {actions : List α} (started : invariant state)
    (throughout : Throughout step holds state actions) :
    Throughout step follows state actions := by
  induction actions generalizing state with
  | nil => trivial
  | cons action rest induction =>
      refine ⟨implied state action started throughout.1,
        fun next taken => ?_⟩
      exact induction (kept state action next started throughout.1 taken)
        (throughout.2 next taken)

/-- One property follows from another wherever the machine is. -/
theorem Throughout.imp
    {holds follows : σ → α → Prop}
    (implied : ∀ state action, holds state action → follows state action)
    {state : σ} {actions : List α}
    (throughout : Throughout step holds state actions) :
    Throughout step follows state actions := by
  induction actions generalizing state with
  | nil => trivial
  | cons action rest induction =>
      exact ⟨implied state action throughout.1,
        fun next taken => induction (throughout.2 next taken)⟩

/-- What every action keeps holds at the end of a run. -/
theorem invariant_of_run
    {invariant : σ → Prop}
    (kept : ∀ state action next, invariant state →
      step state action = some next → invariant next)
    {state final : σ} {actions : List α} (started : invariant state)
    (ran : actions.foldlM step state = some final) :
    invariant final := by
  induction actions generalizing state with
  | nil =>
      cases ran
      exact started
  | cons action rest induction =>
      rw [List.foldlM_cons, Option.bind_eq_bind,
        Option.bind_eq_some_iff] at ran
      obtain ⟨next, taken, ran⟩ := ran
      exact induction (kept state action next started taken) ran

/-- What the actions of a run keep, under a property of theirs, holds at its end. -/
theorem Throughout.invariant_of_run
    {holds : σ → α → Prop} {invariant : σ → Prop} {state final : σ}
    {actions : List α} (throughout : Throughout step holds state actions)
    (kept : ∀ state action next, invariant state → holds state action →
      step state action = some next → invariant next)
    (started : invariant state)
    (ran : actions.foldlM step state = some final) :
    invariant final := by
  induction actions generalizing state with
  | nil =>
      cases ran
      exact started
  | cons action rest induction =>
      rw [List.foldlM_cons, Option.bind_eq_bind,
        Option.bind_eq_some_iff] at ran
      obtain ⟨next, taken, ran⟩ := ran
      exact induction (throughout.2 next taken)
        (kept state action next started throughout.1 taken) ran

/-- What holds of every action of a list holds of it wherever it is taken. -/
theorem Throughout.of_forall_mem
    {holds : α → Prop} {state : σ} {actions : List α}
    (each : ∀ action ∈ actions, holds action) :
    Throughout step (fun _ action => holds action) state actions := by
  induction actions generalizing state with
  | nil => trivial
  | cons action rest induction =>
      exact ⟨each action List.mem_cons_self, fun _ _ =>
        induction fun later member =>
          each later (List.mem_cons_of_mem _ member)⟩

/-- What follows from an invariant holds of every action of a run. -/
theorem Throughout.of_invariant
    {follows : σ → α → Prop} {invariant : σ → Prop}
    (implied : ∀ state action, invariant state → follows state action)
    (kept : ∀ state action next, invariant state →
      step state action = some next → invariant next)
    {state : σ} (started : invariant state) {actions : List α} :
    Throughout step follows state actions := by
  induction actions generalizing state with
  | nil => trivial
  | cons action rest induction =>
      exact ⟨implied state action started,
        fun next taken => induction (kept state action next started taken)⟩

/-- A property of every action holds of the one behind a given run. -/
theorem Throughout.holds_after
    {holds : σ → α → Prop} {state reached : σ} {before after : List α}
    {action : α}
    (throughout : Throughout step holds state (before ++ action :: after))
    (ran : before.foldlM step state = some reached) :
    holds reached action := by
  induction before generalizing state with
  | nil =>
      cases ran
      exact throughout.1
  | cons head tail induction =>
      rw [List.foldlM_cons, Option.bind_eq_bind,
        Option.bind_eq_some_iff] at ran
      obtain ⟨next, taken, ran⟩ := ran
      exact induction (throughout.2 next taken) ran

end LightWaf.Theory.Machine
