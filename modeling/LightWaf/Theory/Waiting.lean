import Mathlib.Algebra.BigOperators.Group.List.Basic
import Mathlib.Tactic

/-!
# Waiting for others

Primitives with which one program waits for others, by the number of times
that something was announced, and two facts about machines of many programs:
how a sum over the programs moves when one of them does, and that a machine
whose steps decrease a measure comes to rest.
-/

namespace LightWaf.Theory.Waiting

universe u v

/-! ## Notifications -/

/-- How often those who wait were notified. -/
structure Notify where
  calls : Nat := 0
deriving DecidableEq

/-- A wait that has been armed, with the number of calls before it. -/
structure Notified where
  seen : Nat
deriving DecidableEq

namespace Notify

/-- Arms a wait. -/
def notified (notify : Notify) : Notified :=
  ⟨notify.calls⟩

/-- Notifies every wait that has been armed. -/
def notifyWaiters (notify : Notify) : Notify :=
  ⟨notify.calls + 1⟩

end Notify

namespace Notified

/-- A wait is over once there was a call since it was armed. -/
def Ready (armed : Notified) (notify : Notify) : Prop :=
  armed.seen ≠ notify.calls

instance (armed : Notified) (notify : Notify) :
    Decidable (armed.Ready notify) :=
  inferInstanceAs (Decidable (_ ≠ _))

/-- A wait was armed by the calls up to now. -/
def ArmedBy (armed : Notified) (notify : Notify) : Prop :=
  armed.seen ≤ notify.calls

theorem armedBy_notified (notify : Notify) :
    notify.notified.ArmedBy notify :=
  Nat.le_refl _

theorem ArmedBy.notifyWaiters {armed : Notified} {notify : Notify}
    (armedBy : armed.ArmedBy notify) :
    armed.ArmedBy notify.notifyWaiters :=
  Nat.le_succ_of_le armedBy

/-- A call wakes whoever armed a wait before it. -/
theorem ArmedBy.ready_notifyWaiters {armed : Notified} {notify : Notify}
    (armedBy : armed.ArmedBy notify) :
    armed.Ready notify.notifyWaiters :=
  (Nat.lt_succ_of_le armedBy).ne

theorem not_ready_notified (notify : Notify) :
    ¬ notify.notified.Ready notify :=
  fun ready => ready rfl

end Notified

/-! ## A value that is watched -/

/-- A value with the number of times it was sent. -/
structure Watch (α : Type u) where
  value : α
  version : Nat := 0
  closed : Bool := false

/-- A receiver, with the version that it saw last. -/
structure Receiver where
  seen : Nat := 0
deriving DecidableEq

namespace Watch

variable {α : Type u}

/-- Sends a new value. -/
def send (watch : Watch α) (value : α) : Watch α :=
  { watch with
    value := value
    version := watch.version + 1 }

/-- The sender is gone. -/
def close (watch : Watch α) : Watch α :=
  { watch with
    closed := true }

end Watch

/--
Waits for a version that was not seen; `none` while there is none.  Without
one the end of the sender is an error.
-/
def Receiver.changed {α : Type u} (receiver : Receiver) (watch : Watch α) :
    Option (Except Unit Receiver) :=
  if receiver.seen ≠ watch.version then some (.ok ⟨watch.version⟩)
  else if watch.closed then some (.error ())
  else none

/-! ## Sums over programs -/

/-- A sum over the programs moves by what the one that moved adds to it. -/
theorem sum_map_set
    {α : Type u} (weight : α → Nat) {programs : List α} {index : Nat}
    {before : α} (found : programs[index]? = some before) (after : α) :
    ((programs.set index after).map weight).sum + weight before =
      (programs.map weight).sum + weight after := by
  induction programs generalizing index with
  | nil => simp at found
  | cons head rest induction =>
      cases index with
      | zero =>
          cases found
          simp only [List.set_cons_zero, List.map_cons, List.sum_cons]
          omega
      | succ index =>
          have moved := induction found
          simp only [List.set_cons_succ, List.map_cons, List.sum_cons]
          omega

theorem weight_le_sum_map
    {α : Type u} (weight : α → Nat) {programs : List α} {program : α}
    (member : program ∈ programs) :
    weight program ≤ (programs.map weight).sum :=
  List.le_sum_of_mem (List.mem_map_of_mem member)

/-! ## Coming to rest -/

/-- A machine whose steps decrease a measure takes no more steps than that. -/
theorem length_le_of_decreasing
    {σ : Type u} {α : Type v} {step : σ → α → Option σ}
    {invariant : σ → Prop} {measure : σ → Nat}
    (decreases : ∀ state action next, invariant state →
      step state action = some next →
        invariant next ∧ measure next < measure state)
    {state final : σ} {actions : List α} (started : invariant state)
    (ran : actions.foldlM step state = some final) :
    actions.length ≤ measure state := by
  induction actions generalizing state with
  | nil => exact Nat.zero_le _
  | cons action rest induction =>
      rw [List.foldlM_cons, Option.bind_eq_bind,
        Option.bind_eq_some_iff] at ran
      obtain ⟨next, taken, ran⟩ := ran
      obtain ⟨kept, smaller⟩ := decreases state action next started taken
      have bounded := induction kept ran
      exact Nat.succ_le_of_lt (Nat.lt_of_le_of_lt bounded smaller)

end LightWaf.Theory.Waiting
