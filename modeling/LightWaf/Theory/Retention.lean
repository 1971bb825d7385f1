import Mathlib.Data.List.Induction
import Mathlib.Tactic

/-!
# Items that take others back

A sequence holds items to keep, items to leave out, and items that take back
the nearest item kept before them, or nothing when none is left.  `Retains`
says what is kept; `retain` computes it with a stack.
-/

namespace LightWaf.Theory.Retention

universe u

/-- What an item does to those kept before it. -/
inductive Effect
  | keep
  | drop
  | cancel
deriving DecidableEq

variable {α : Type u} (effect : α → Effect)

/-- The items kept of a sequence, read from its end. -/
inductive Retains : List α → List α → Prop
  | nil : Retains [] []
  | keep {items kept : List α} {item : α} :
      Retains items kept → effect item = .keep →
        Retains (items ++ [item]) (kept ++ [item])
  | drop {items kept : List α} {item : α} :
      Retains items kept → effect item = .drop →
        Retains (items ++ [item]) kept
  | cancel {items kept : List α} {last item : α} :
      Retains items (kept ++ [last]) → effect item = .cancel →
        Retains (items ++ [item]) kept
  | root {items : List α} {item : α} :
      Retains items [] → effect item = .cancel →
        Retains (items ++ [item]) []

/-- One item and the stack of those kept before it. -/
def retainStep (kept : List α) (item : α) : List α :=
  match effect item with
  | .keep => kept ++ [item]
  | .drop => kept
  | .cancel => kept.dropLast

/-- The items kept of a sequence. -/
def retain (items : List α) : List α :=
  items.foldl (retainStep effect) []

theorem retain_concat (items : List α) (item : α) :
    retain effect (items ++ [item]) =
      retainStep effect (retain effect items) item := by
  rw [retain, List.foldl_append]
  rfl

variable {effect}

/-- The stack computes what is kept. -/
theorem retains_retain (items : List α) :
    Retains effect items (retain effect items) := by
  induction items using List.reverseRecOn with
  | nil => exact .nil
  | append_singleton items item induction =>
      rw [retain_concat, retainStep]
      split
      next keeps => exact .keep induction keeps
      next drops => exact .drop induction drops
      next cancels =>
        rcases List.eq_nil_or_concat (retain effect items) with
          empty | ⟨kept, last, full⟩
        · rw [empty] at induction ⊢
          exact .root induction cancels
        · rw [List.concat_eq_append] at full
          rw [full] at induction ⊢
          rw [List.dropLast_concat]
          exact .cancel induction cancels

theorem retains_iff {items kept : List α} :
    Retains effect items kept ↔ retain effect items = kept := by
  constructor
  · intro retains
    induction retains with
    | nil => rfl
    | keep _ keeps induction =>
        rw [retain_concat, retainStep, keeps, induction]
    | drop _ drops induction =>
        rw [retain_concat, retainStep, drops, induction]
    | cancel _ cancels induction =>
        rw [retain_concat, retainStep, cancels, induction]
        exact List.dropLast_concat
    | root _ cancels induction =>
        rw [retain_concat, retainStep, cancels, induction]
        rfl
  · rintro rfl
    exact retains_retain items

/-- What is kept is among the items to keep. -/
theorem mem_of_mem_retain
    {items : List α} {item : α} (member : item ∈ retain effect items) :
    item ∈ items ∧ effect item = .keep := by
  induction items using List.reverseRecOn with
  | nil => cases member
  | append_singleton items last induction =>
      rw [retain_concat, retainStep] at member
      rw [List.mem_append]
      split at member
      next keeps =>
        rcases List.mem_append.mp member with earlier | here
        · exact ⟨Or.inl (induction earlier).1, (induction earlier).2⟩
        · cases List.mem_singleton.mp here
          exact ⟨Or.inr here, keeps⟩
      next => exact ⟨Or.inl (induction member).1, (induction member).2⟩
      next =>
        have earlier := induction (List.mem_of_mem_dropLast member)
        exact ⟨Or.inl earlier.1, earlier.2⟩

theorem retain_cons_drop
    {item : α} (drops : effect item = .drop) (items : List α) :
    retain effect (item :: items) = retain effect items := by
  rw [retain, List.foldl_cons, retainStep, drops]
  rfl

/-- A sequence with nothing but items to keep is kept. -/
theorem retain_eq_self
    {items : List α} (plain : ∀ item ∈ items, effect item = .keep) :
    retain effect items = items := by
  induction items using List.reverseRecOn with
  | nil => rfl
  | append_singleton items last induction =>
      rw [retain_concat, retainStep,
        plain last (List.mem_append_right _ List.mem_cons_self),
        induction fun item member => plain item (List.mem_append_left _ member)]

end LightWaf.Theory.Retention
