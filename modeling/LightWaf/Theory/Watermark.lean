import Mathlib.Tactic

/-!
# High-water marks

A reader works through a growing collection of items in increasing order and
remembers only the greatest item it has dealt with, its mark.  Items become
visible some time after they were numbered, and not always in order.  A mark
is covered when everything visible up to it is done and everything still
pending lies beyond it; this survives whatever the writers do, and reading a
page moves it forward as long as nothing pending is overtaken.
-/

namespace LightWaf.Theory.Watermark

universe u

variable {α : Type u} [LinearOrder α]

/-- All visible items up to the mark are done; the pending ones lie beyond. -/
structure CaughtUp (visible pending done : List α) (mark : α) : Prop where
  handled : ∀ item ∈ visible, item ≤ mark → item ∈ done
  ahead : ∀ item ∈ pending, mark < item

/-- The first `limit` items after a mark, in increasing order. -/
def page (items : List α) (after : α) (limit : Nat) : List α :=
  ((items.filter (after < ·)).insertionSort (· ≤ ·)).take limit

theorem mem_of_mem_page
    {items : List α} {after : α} {limit : Nat} {item : α}
    (member : item ∈ page items after limit) :
    item ∈ items := by
  have sorted := (List.mem_insertionSort _).mp (List.mem_of_mem_take member)
  exact (List.mem_filter.mp sorted).1

/-- A page leaves out nothing between the mark and its last item. -/
theorem mem_page_of_le
    {items : List α} {after last item : α} {limit : Nat}
    (ends : (page items after limit).getLast? = some last)
    (member : item ∈ items) (beyond : after < item) (within : item ≤ last) :
    item ∈ page items after limit := by
  rw [page] at ends ⊢
  have inside : item ∈ (items.filter (after < ·)).insertionSort (· ≤ ·) := by
    rw [List.mem_insertionSort, List.mem_filter]
    exact ⟨member, decide_eq_true beyond⟩
  have sorted : ((items.filter (after < ·)).insertionSort (· ≤ ·)).Pairwise
      (· ≤ ·) :=
    List.pairwise_insertionSort (· ≤ ·) (items.filter (after < ·))
  generalize (items.filter (after < ·)).insertionSort (· ≤ ·) = all
    at ends inside sorted ⊢
  have taken := List.mem_of_getLast? ends
  rw [← List.take_append_drop limit all] at inside sorted
  rcases List.mem_append.mp inside with early | late
  · exact early
  · have above := (List.pairwise_append.mp sorted).2.2 last taken item late
    exact le_antisymm within above ▸ taken

namespace CaughtUp

variable {visible pending done : List α} {mark item : α}

/-- A pending item becomes visible. -/
theorem publish
    (covered : CaughtUp visible pending done mark)
    (waiting : item ∈ pending) :
    CaughtUp (visible ++ [item]) (pending.erase item) done mark where
  handled other member within := by
    rcases List.mem_append.mp member with old | new
    · exact covered.handled other old within
    · rw [List.mem_singleton.mp new] at within
      exact absurd within (covered.ahead item waiting).not_ge
  ahead other member := covered.ahead other (List.mem_of_mem_erase member)

/-- A pending item is given up. -/
theorem discard (covered : CaughtUp visible pending done mark) (item : α) :
    CaughtUp visible (pending.erase item) done mark where
  handled := covered.handled
  ahead other member := covered.ahead other (List.mem_of_mem_erase member)

/-- An item is numbered beyond the mark. -/
theorem number
    (covered : CaughtUp visible pending done mark) (beyond : mark < item) :
    CaughtUp visible (pending ++ [item]) done mark where
  handled := covered.handled
  ahead other member := by
    rcases List.mem_append.mp member with old | new
    · exact covered.ahead other old
    · rwa [List.mem_singleton.mp new]

/-- More is done. -/
theorem mono
    {more : List α} (covered : CaughtUp visible pending done mark)
    (subset : done ⊆ more) :
    CaughtUp visible pending more mark where
  handled other member within := subset (covered.handled other member within)
  ahead := covered.ahead

/-- The mark moves to the end of a page that overtakes nothing pending. -/
theorem advance
    {limit : Nat} {last : α} (covered : CaughtUp visible pending done mark)
    (ends : (page visible mark limit).getLast? = some last)
    (ahead : ∀ item ∈ pending, last < item) :
    CaughtUp visible pending (done ++ page visible mark limit) last where
  handled other member within := by
    rw [List.mem_append]
    rcases le_or_gt other mark with before | beyond
    · exact .inl (covered.handled other member before)
    · exact .inr (mem_page_of_le ends member beyond within)
  ahead := ahead

end CaughtUp

end LightWaf.Theory.Watermark
