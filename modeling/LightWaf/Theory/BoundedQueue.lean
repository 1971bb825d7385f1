import Mathlib.Data.List.Nodup
import Mathlib.Tactic

/-!
# Queues bounded by count, weight and age

A queue of keyed items, oldest first, each with a weight and the moment it was
put in.  Items that are too old are dropped from the front; so are the oldest
ones while the queue is over its budget, as long as another one remains.
`Sound` says what such a queue owes at a moment, and each operation restores
it.
-/

namespace LightWaf.Theory.BoundedQueue

universe u v

variable {Key : Type u} {Item : Type v}
variable (weight stamp : Item → Nat)

/-! ## Operations -/

/-- The weight of all items. -/
def totalWeight (queue : List (Key × Item)) : Nat :=
  (queue.map fun entry => weight entry.2).sum

/-- Drop the items at the front that are older than allowed. -/
def dropExpired (ttl now : Nat) (queue : List (Key × Item)) :
    List (Key × Item) :=
  queue.dropWhile fun entry => decide (ttl < now - stamp entry.2)

/-- The queue has too many items, or too heavy ones and not only one. -/
def overBudget (capacity maxWeight : Nat) (queue : List (Key × Item)) :
    Bool :=
  decide (capacity < queue.length) ||
    (decide (maxWeight < totalWeight weight queue) &&
      decide (1 < queue.length))

/-- Drop the oldest items while the queue is over its budget. -/
def trim (capacity maxWeight : Nat) :
    List (Key × Item) → List (Key × Item)
  | [] => []
  | entry :: rest =>
      if overBudget weight capacity maxWeight (entry :: rest) then
        trim capacity maxWeight rest
      else entry :: rest

section Keys

variable [DecidableEq Key]

/-- The items under other keys. -/
def without (key : Key) (queue : List (Key × Item)) : List (Key × Item) :=
  queue.filter fun entry => decide (entry.1 ≠ key)

end Keys

/-! ## What a queue owes -/

/-- The keys are distinct, the items in order and none too old. -/
structure Timely (ttl now : Nat) (queue : List (Key × Item)) : Prop where
  distinct : (queue.map Prod.fst).Nodup
  ordered : queue.Pairwise fun left right => stamp left.2 ≤ stamp right.2
  past : ∀ entry ∈ queue, stamp entry.2 ≤ now
  young : ∀ entry ∈ queue, now - stamp entry.2 ≤ ttl

/-- Within its budget too. -/
structure Sound (capacity maxWeight ttl now : Nat)
    (queue : List (Key × Item)) : Prop
    extends Timely stamp ttl now queue where
  count : queue.length ≤ capacity
  light : totalWeight weight queue ≤ maxWeight ∨ queue.length = 1

variable {weight stamp}

theorem sound_nil (capacity maxWeight ttl now : Nat) :
    Sound weight stamp capacity maxWeight ttl now
      ([] : List (Key × Item)) where
  distinct := List.nodup_nil
  ordered := List.Pairwise.nil
  past := fun _ member => nomatch member
  young := fun _ member => nomatch member
  count := Nat.zero_le capacity
  light := .inl (Nat.zero_le maxWeight)

theorem totalWeight_le_of_sublist
    {part queue : List (Key × Item)} (sub : part.Sublist queue) :
    totalWeight weight part ≤ totalWeight weight queue :=
  (sub.map _).sum_le_sum fun _ _ => Nat.zero_le _

theorem Timely.sublist
    {ttl now : Nat} {part queue : List (Key × Item)}
    (timely : Timely stamp ttl now queue) (sub : part.Sublist queue) :
    Timely stamp ttl now part where
  distinct := timely.distinct.sublist (sub.map Prod.fst)
  ordered := timely.ordered.sublist sub
  past := fun entry member => timely.past entry (sub.subset member)
  young := fun entry member => timely.young entry (sub.subset member)

/-- Taking items out keeps the budget. -/
theorem light_of_sublist
    {maxWeight : Nat} {part queue : List (Key × Item)}
    (light : totalWeight weight queue ≤ maxWeight ∨ queue.length = 1)
    (sub : part.Sublist queue) :
    totalWeight weight part ≤ maxWeight ∨ part.length = 1 := by
  rcases light with light | single
  · exact .inl ((totalWeight_le_of_sublist sub).trans light)
  · have bound := sub.length_le
    rw [single] at bound
    rcases Nat.le_one_iff_eq_zero_or_eq_one.mp bound with none | single
    · rw [List.length_eq_zero_iff] at none
      rw [none]
      exact .inl (Nat.zero_le maxWeight)
    · exact .inr single

theorem Sound.sublist
    {capacity maxWeight ttl now : Nat} {part queue : List (Key × Item)}
    (sound : Sound weight stamp capacity maxWeight ttl now queue)
    (sub : part.Sublist queue) :
    Sound weight stamp capacity maxWeight ttl now part where
  toTimely := sound.toTimely.sublist sub
  count := sub.length_le.trans sound.count
  light := light_of_sublist sound.light sub

theorem dropExpired_cons
    (ttl now : Nat) (entry : Key × Item) (rest : List (Key × Item)) :
    dropExpired stamp ttl now (entry :: rest) =
      if ttl < now - stamp entry.2 then dropExpired stamp ttl now rest
      else entry :: rest := by
  rw [dropExpired, List.dropWhile_cons]
  simp only [decide_eq_true_eq]
  rfl

theorem dropExpired_suffix
    (stamp : Item → Nat) (ttl now : Nat) (queue : List (Key × Item)) :
    dropExpired stamp ttl now queue <:+ queue :=
  List.dropWhile_suffix _

theorem trim_suffix
    (weight : Item → Nat) (capacity maxWeight : Nat) (queue : List (Key × Item)) :
    trim weight capacity maxWeight queue <:+ queue := by
  induction queue with
  | nil => exact List.suffix_rfl
  | cons entry rest induction =>
      rw [trim]
      split_ifs
      · exact induction.trans (List.suffix_cons entry rest)
      · exact List.suffix_rfl

/-! ## The operations restore it -/

/-- The first item that is young enough has only younger ones behind it. -/
theorem dropExpired_young
    {ttl now : Nat} {queue : List (Key × Item)}
    (ordered : queue.Pairwise fun left right =>
      stamp left.2 ≤ stamp right.2) :
    ∀ entry ∈ dropExpired stamp ttl now queue,
      now - stamp entry.2 ≤ ttl := by
  induction queue with
  | nil =>
      intro entry member
      cases member
  | cons first rest induction =>
      obtain ⟨before, ordered⟩ := List.pairwise_cons.mp ordered
      rw [dropExpired_cons]
      split_ifs with expired
      · exact induction ordered
      · rw [not_lt] at expired
        intro entry member
        rcases List.mem_cons.mp member with rfl | later
        · exact expired
        · exact (Nat.sub_le_sub_left (before entry later) now).trans expired

/-- Time passes, and what has become too old is dropped. -/
theorem Sound.dropExpired
    {capacity maxWeight ttl before now : Nat} {queue : List (Key × Item)}
    (sound : Sound weight stamp capacity maxWeight ttl before queue)
    (later : before ≤ now) :
    Sound weight stamp capacity maxWeight ttl now
      (dropExpired stamp ttl now queue) := by
  have kept := sound.sublist (dropExpired_suffix stamp ttl now queue).sublist
  exact
    { distinct := kept.distinct
      ordered := kept.ordered
      past := fun entry member => (kept.past entry member).trans later
      young := dropExpired_young sound.ordered
      count := kept.count
      light := kept.light }

/-- Trimming stops within the budget. -/
theorem trim_bounded
    (weight : Item → Nat) (capacity maxWeight : Nat)
    (queue : List (Key × Item)) :
    (trim weight capacity maxWeight queue).length ≤ capacity ∧
      (totalWeight weight (trim weight capacity maxWeight queue) ≤ maxWeight ∨
        (trim weight capacity maxWeight queue).length = 1) := by
  induction queue with
  | nil => exact ⟨Nat.zero_le capacity, .inl (Nat.zero_le maxWeight)⟩
  | cons entry rest induction =>
      rw [trim]
      split_ifs with exceeded
      · exact induction
      · simp only [overBudget, Bool.or_eq_true, Bool.and_eq_true,
          decide_eq_true_eq, not_or, not_and, not_lt] at exceeded
        refine ⟨exceeded.1, ?_⟩
        by_cases light : totalWeight weight (entry :: rest) ≤ maxWeight
        · exact .inl light
        · have few := exceeded.2 (not_le.mp light)
          exact .inr (le_antisymm few (Nat.succ_pos _))

/-- The newest item is never trimmed. -/
theorem trim_append
    (weight : Item → Nat) {capacity : Nat} (maxWeight : Nat)
    (room : 1 ≤ capacity) (queue : List (Key × Item)) (newest : Key × Item) :
    ∃ older, older <:+ queue ∧
      trim weight capacity maxWeight (queue ++ [newest]) =
        older ++ [newest] := by
  induction queue with
  | nil =>
      refine ⟨[], List.suffix_rfl, ?_⟩
      have within : overBudget weight capacity maxWeight [newest] = false := by
        simpa [overBudget] using Nat.pos_iff_ne_zero.mp room
      rw [List.nil_append, trim, within]
      rfl
  | cons entry rest induction =>
      rw [List.cons_append, trim]
      split_ifs
      · obtain ⟨older, behind, same⟩ := induction
        exact ⟨older, behind.trans (List.suffix_cons entry rest), same⟩
      · exact ⟨entry :: rest, List.suffix_rfl, rfl⟩

/-- A new item goes behind the others, and the oldest make room for it. -/
theorem Sound.push
    [DecidableEq Key] {capacity maxWeight ttl now : Nat}
    {queue : List (Key × Item)}
    (sound : Sound weight stamp capacity maxWeight ttl now queue)
    (key : Key) {item : Item} (current : stamp item = now) :
    Sound weight stamp capacity maxWeight ttl now
      (trim weight capacity maxWeight (without key queue ++ [(key, item)])) := by
  have kept : Timely stamp ttl now (without key queue) :=
    sound.toTimely.sublist List.filter_sublist
  have fresh : key ∉ (without key queue).map Prod.fst := by
    intro member
    obtain ⟨entry, inside, same⟩ := List.mem_map.mp member
    exact of_decide_eq_true (List.mem_filter.mp inside).2 same
  have pushed : Timely stamp ttl now (without key queue ++ [(key, item)]) := by
    constructor
    · rw [List.map_append, List.map_singleton]
      exact kept.distinct.append (List.nodup_singleton key)
        (List.disjoint_singleton.mpr fresh)
    · apply List.pairwise_append.mpr
      refine ⟨kept.ordered, List.pairwise_singleton _ _, ?_⟩
      intro entry member newest single
      rw [List.mem_singleton.mp single, current]
      exact kept.past entry member
    · intro entry member
      rcases List.mem_append.mp member with earlier | single
      · exact kept.past entry earlier
      · rw [List.mem_singleton.mp single]
        exact current.le
    · intro entry member
      rcases List.mem_append.mp member with earlier | single
      · exact kept.young entry earlier
      · rw [List.mem_singleton.mp single, current, Nat.sub_self]
        exact Nat.zero_le ttl
  obtain ⟨count, light⟩ := trim_bounded weight capacity maxWeight
    (without key queue ++ [(key, item)])
  exact ⟨pushed.sublist (trim_suffix _ _ _ _).sublist, count, light⟩

end LightWaf.Theory.BoundedQueue
