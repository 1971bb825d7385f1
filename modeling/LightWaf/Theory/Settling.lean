import Mathlib.Data.Nat.Find
import Mathlib.Tactic

/-!
# Passes repeated until nothing changes

A value is passed over again and again.  A pass may depend on how many went
before it.  Once a pass keeps the value all later ones do, and from the second
on a pass that changes the value makes it smaller: then the passes settle, and
a loop with a budget stops at the settled value or where its budget ends.
-/

namespace LightWaf.Theory.Settling

universe u

variable {α : Type u}

/-- The value after a number of passes. -/
def after (pass : Nat → α → α) (start : α) : Nat → α
  | 0 => start
  | count + 1 => pass count (after pass start count)

/-- The first `count` passes change the value, and none after them does. -/
structure SettlesAt (pass : Nat → α → α) (start : α) (count : Nat) :
    Prop where
  changes : ∀ earlier, earlier < count →
    after pass start (earlier + 1) ≠ after pass start earlier
  rests : ∀ later, count ≤ later →
    after pass start later = after pass start count

/-- Passes that keep a value from some time on, and shrink it until then. -/
structure Contracting (pass : Nat → α → α) (size : α → Nat) : Prop where
  keeps : ∀ count value, pass count value = value →
    pass (count + 1) value = value
  shrinks : ∀ count value, pass (count + 1) value ≠ value →
    size (pass (count + 1) value) < size value

section Existence

variable {pass : Nat → α → α} {size : α → Nat}

theorem Contracting.rests
    (contracting : Contracting pass size) {start : α} {count : Nat}
    (kept : after pass start (count + 1) = after pass start count)
    (later : Nat) (reached : count ≤ later) :
    after pass start later = after pass start count ∧
      after pass start (later + 1) = after pass start later := by
  induction later, reached using Nat.le_induction with
  | base => exact ⟨rfl, kept⟩
  | succ later _ induction =>
      obtain ⟨same, still⟩ := induction
      constructor
      · exact still.trans same
      · show pass (later + 1) (after pass start (later + 1)) = _
        rw [still]
        exact contracting.keeps later _ still

/-- Sooner or later a pass keeps the value. -/
theorem Contracting.exists_kept
    (contracting : Contracting pass size) (start : α) :
    ∃ count, after pass start (count + 1) = after pass start count := by
  suffices general : ∀ bound count,
      size (after pass start (count + 1)) ≤ bound →
        ∃ count, after pass start (count + 1) = after pass start count from
    general _ 0 le_rfl
  intro bound
  induction bound with
  | zero =>
      intro count small
      refine ⟨count + 1, ?_⟩
      by_contra changed
      have smaller := contracting.shrinks count _ changed
      exact absurd small (Nat.not_le.mpr (Nat.zero_lt_of_lt smaller))
  | succ bound induction =>
      intro count small
      by_cases kept : pass (count + 1) (after pass start (count + 1)) =
          after pass start (count + 1)
      · exact ⟨count + 1, kept⟩
      · have smaller := contracting.shrinks count _ kept
        exact induction (count + 1) (Nat.le_of_lt_succ (smaller.trans_le small))

/-- The passes settle after a number of changes. -/
theorem Contracting.exists_settlesAt
    (contracting : Contracting pass size) (start : α) :
    ∃ count, SettlesAt pass start count := by
  classical
  have kept := contracting.exists_kept start
  refine ⟨Nat.find kept, ?_, ?_⟩
  · intro earlier before
    exact Nat.find_min kept before
  · intro later reached
    exact (contracting.rests (Nat.find_spec kept) later reached).1

end Existence

theorem SettlesAt.kept
    {pass : Nat → α → α} {start : α} {count : Nat}
    (settles : SettlesAt pass start count) :
    pass count (after pass start count) = after pass start count :=
  settles.rests (count + 1) (Nat.le_succ count)

section Loops

variable [DecidableEq α] (pass : Nat → α → α)

/-- The loop with a budget: the value it stops at, and its passes. -/
def bounded : (budget passes : Nat) → α → α × Nat
  | 0, passes, value => (value, passes)
  | budget + 1, passes, value =>
      if pass passes value = value then (value, passes)
      else bounded budget (passes + 1) (pass passes value)

variable {pass} {start : α} {count : Nat}

/-- The loop makes the changing passes, as far as its budget goes. -/
theorem SettlesAt.bounded_eq
    (settles : SettlesAt pass start count) (budget : Nat)
    {passes : Nat} (early : passes ≤ count) :
    bounded pass budget passes (after pass start passes) =
      (after pass start (min count (passes + budget)),
        min count (passes + budget)) := by
  induction budget generalizing passes with
  | zero => rw [bounded, Nat.add_zero, Nat.min_eq_right early]
  | succ budget induction =>
      rw [bounded]
      rcases early.eq_or_lt with rfl | before
      · rw [if_pos settles.kept, Nat.min_eq_left (Nat.le_add_right _ _)]
      · have changed : pass passes (after pass start passes) ≠
            after pass start passes := settles.changes passes before
        rw [if_neg changed]
        have later := induction (Nat.succ_le_of_lt before)
        rw [Nat.succ_add_eq_add_succ] at later
        exact later

end Loops

/-! ## The loop without a budget -/

section Unbounded

variable [DecidableEq α]

/-- Repeat one and the same pass until it keeps the value. -/
def settle (pass : α → α) (size : α → Nat)
    (shrinks : ∀ value, pass value ≠ value → size (pass value) < size value)
    (value : α) : α :=
  if kept : pass value = value then value
  else
    have := shrinks value kept
    settle pass size shrinks (pass value)
termination_by size value

/-- The loop ends at the value that the passes settle at. -/
theorem settle_iterate
    {pass : α → α} {size : α → Nat}
    (shrinks : ∀ value, pass value ≠ value → size (pass value) < size value)
    {count : Nat} {value : α}
    (kept : pass (pass^[count] value) = pass^[count] value) :
    settle pass size shrinks value = pass^[count] value := by
  induction count generalizing value with
  | zero =>
      have fixed : pass value = value := kept
      rw [settle, dif_pos fixed]
      rfl
  | succ count induction =>
      rw [settle]
      split_ifs with fixed
      · exact (Function.iterate_fixed fixed _).symm
      · exact induction kept

end Unbounded

end LightWaf.Theory.Settling
