import Mathlib.Tactic

/-!
# Left-to-right scanners

Hand-written scanners read a list element by element and now and then jump
over several elements at once.  `scan` and `rewrite` are such loops: a step
sees the current element and all that follow, and says how many of those it
has consumed.  Both recurse on the list, so they evaluate.
-/

namespace LightWaf.Theory.Scan

universe u v

variable {α : Type u} {β : Type v}

/-- Run a stateful step over a list, first passing over `skip` elements. -/
def scan (step : β → α → List α → β × Nat) : Nat → β → List α → β
  | _, state, [] => state
  | skip + 1, state, _ :: rest => scan step skip state rest
  | 0, state, head :: rest =>
      scan step (step state head rest).2 (step state head rest).1 rest

/-- Elements to be passed over may as well be dropped. -/
theorem scan_skip
    (step : β → α → List α → β × Nat) (skip : Nat) (state : β)
    (items : List α) :
    scan step skip state items = scan step 0 state (items.drop skip) := by
  induction items generalizing skip with
  | nil => simp [scan]
  | cons head tail induction =>
      cases skip with
      | zero => rfl
      | succ skip => simp [scan, induction skip]

/-- One turn of the loop, with what it consumes dropped. -/
theorem scan_cons
    (step : β → α → List α → β × Nat) (state : β)
    (head : α) (tail : List α) :
    scan step 0 state (head :: tail) =
      scan step 0 (step state head tail).1
        (tail.drop (step state head tail).2) := by
  rw [scan, scan_skip]

/-- What every turn of the loop keeps holds at its end. -/
theorem scan_invariant
    {step : β → α → List α → β × Nat} {Holds : β → List α → Prop}
    (keeps : ∀ state head tail, Holds state (head :: tail) →
      Holds (step state head tail).1 (tail.drop (step state head tail).2))
    {state : β} {items : List α} (holds : Holds state items) :
    Holds (scan step 0 state items) [] := by
  induction size : items.length using Nat.strong_induction_on
    generalizing state items with
  | _ bound induction =>
      cases items with
      | nil => exact holds
      | cons head tail =>
          rw [scan_cons]
          apply induction _ ?_ (keeps state head tail holds) rfl
          rw [← size, List.length_drop, List.length_cons]
          omega

/-- Replace parts of a list, first passing over `skip` elements. -/
def rewrite (step : α → List α → List β × Nat) : Nat → List α → List β
  | _, [] => []
  | skip + 1, _ :: rest => rewrite step skip rest
  | 0, head :: rest =>
      (step head rest).1 ++ rewrite step (step head rest).2 rest

/-- A step that keeps every element of a list keeps the list. -/
theorem rewrite_eq_self
    {step : α → List α → List α × Nat} {items : List α}
    (kept : ∀ item ∈ items, ∀ rest, step item rest = ([item], 0)) :
    rewrite step 0 items = items := by
  induction items with
  | nil => rfl
  | cons head tail induction =>
      rw [rewrite, kept head List.mem_cons_self, induction fun item member =>
        kept item (List.mem_cons_of_mem head member)]
      rfl

/-- Elements to be passed over may as well be dropped. -/
theorem rewrite_skip
    (step : α → List α → List β × Nat) (skip : Nat) (items : List α) :
    rewrite step skip items = rewrite step 0 (items.drop skip) := by
  induction items generalizing skip with
  | nil => simp [rewrite]
  | cons head tail induction =>
      cases skip with
      | zero => rfl
      | succ skip => simp [rewrite, induction skip]

/--
A step that neither looks nor reaches past the end of the left part rewrites
the two parts on their own.
-/
theorem rewrite_append
    {step : α → List α → List β × Nat} {left right : List α}
    (blind : ∀ head ∈ left, ∀ rest,
      step head (rest ++ right) = step head rest)
    (within : ∀ head ∈ left, ∀ rest, (step head rest).2 ≤ rest.length)
    {skip : Nat} (short : skip ≤ left.length) :
    rewrite step skip (left ++ right) =
      rewrite step skip left ++ rewrite step 0 right := by
  induction left generalizing skip with
  | nil =>
      obtain rfl : skip = 0 := Nat.le_zero.mp short
      rfl
  | cons head tail induction =>
      have later {skip : Nat} := @induction
        (fun item member => blind item (List.mem_cons_of_mem head member))
        (fun item member => within item (List.mem_cons_of_mem head member))
        skip
      cases skip with
      | zero =>
          rw [List.cons_append, rewrite, rewrite,
            blind head List.mem_cons_self,
            later (within head List.mem_cons_self tail), List.append_assoc]
      | succ skip => exact later (Nat.le_of_succ_le_succ short)

/-- Kept elements are put in front of what the rest is rewritten to. -/
theorem rewrite_append_kept
    {step : α → List α → List α × Nat} {items : List α} (right : List α)
    (kept : ∀ item ∈ items, ∀ rest, step item rest = ([item], 0)) :
    rewrite step 0 (items ++ right) = items ++ rewrite step 0 right := by
  rw [rewrite_append (fun item member rest => by
      rw [kept item member, kept item member])
    (fun item member rest => by simp [kept item member]) (Nat.zero_le _),
    rewrite_eq_self kept]

/-! ## Rewriting that shrinks -/

/-- A step puts one element in place of those it consumes. -/
structure Contracts (step : α → List α → List β × Nat) : Prop where
  single : ∀ head rest, (step head rest).1.length = 1
  within : ∀ head rest, (step head rest).2 ≤ rest.length

section Contracts

variable {step : α → List α → List β × Nat} (contracts : Contracts step)
include contracts

theorem Contracts.length_le (items : List α) (skip : Nat) :
    (rewrite step skip items).length ≤ items.length := by
  induction items generalizing skip with
  | nil => exact Nat.zero_le _
  | cons head tail induction =>
      cases skip with
      | zero =>
          rw [rewrite, List.length_append, contracts.single, Nat.add_comm]
          exact Nat.succ_le_succ (induction _)
      | succ skip => exact (induction skip).trans (Nat.le_succ _)

/-- A step that reaches further leaves less than what follows it. -/
theorem Contracts.length_lt
    {head : α} {rest : List α} (reaches : (step head rest).2 ≠ 0) :
    (rewrite step (step head rest).2 rest).length < rest.length := by
  rw [rewrite_skip]
  apply (contracts.length_le _ 0).trans_lt
  have within := contracts.within head rest
  rw [List.length_drop]
  omega

end Contracts

/-- What is rewritten to itself is kept element by element. -/
theorem Contracts.rewrite_eq_self_iff
    {step : α → List α → List α × Nat} (contracts : Contracts step)
    (items : List α) :
    rewrite step 0 items = items ↔
      ∀ head rest, head :: rest <:+ items → step head rest = ([head], 0) := by
  constructor
  · induction items with
    | nil =>
        intro _ head rest ends
        cases List.suffix_nil.mp ends
    | cons first tail induction =>
        intro same
        obtain ⟨out, only⟩ :=
          List.length_eq_one_iff.mp (contracts.single first tail)
        rw [rewrite, only, List.singleton_append, List.cons.injEq] at same
        obtain ⟨rfl, same⟩ := same
        have reach : (step out tail).2 = 0 := by
          by_contra further
          have shorter := contracts.length_lt further
          rw [same] at shorter
          exact lt_irrefl _ shorter
        rw [reach] at same
        intro head rest ends
        rcases List.suffix_cons_iff.mp ends with here | later
        · cases here
          exact Prod.ext only reach
        · exact induction same head rest later
  · intro kept
    induction items with
    | nil => rfl
    | cons head tail induction =>
        rw [rewrite, kept head tail List.suffix_rfl]
        exact congrArg (head :: ·) (induction fun item rest ends =>
          kept item rest (ends.trans (List.suffix_cons head tail)))

/-- Steps that keep what they do not shorten keep a list or shorten it. -/
theorem Contracts.length_lt_of_ne
    {step : α → List α → List α × Nat} (contracts : Contracts step)
    (keeps : ∀ head rest, (step head rest).2 = 0 →
      step head rest = ([head], 0))
    {items : List α} (changed : rewrite step 0 items ≠ items) :
    (rewrite step 0 items).length < items.length := by
  induction items with
  | nil => exact absurd rfl changed
  | cons head tail induction =>
      rw [rewrite] at changed ⊢
      by_cases reach : (step head tail).2 = 0
      · rw [keeps head tail reach] at changed ⊢
        apply Nat.succ_lt_succ
        apply induction
        intro same
        exact changed (congrArg (head :: ·) same)
      · rw [List.length_append, contracts.single, Nat.add_comm]
        exact Nat.succ_lt_succ (contracts.length_lt reach)

end LightWaf.Theory.Scan
