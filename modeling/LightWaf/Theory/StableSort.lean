import Mathlib.Data.List.Sort
import Mathlib.Tactic

/-!
# The first match in a sorted list

A list is sorted by a key, stably, and then searched from the front.  What is
found is the first element of the list as it was that matches with the least
key.  Where the key tells the elements apart, the order of the list does not
matter at all.
-/

namespace LightWaf.Theory.StableSort

universe u v

variable {α : Type u} {κ : Type v} [LinearOrder κ] (key : α → κ)

/-- Sort by a key, keeping the order of elements with the same key. -/
def sortByKey (items : List α) : List α :=
  items.mergeSort fun left right => decide (key left ≤ key right)

theorem sortByKey_perm (items : List α) : (sortByKey key items).Perm items :=
  List.mergeSort_perm _ _

theorem keyLe_trans (first second third : α)
    (lower : decide (key first ≤ key second) = true)
    (upper : decide (key second ≤ key third) = true) :
    decide (key first ≤ key third) = true :=
  decide_eq_true ((of_decide_eq_true lower).trans (of_decide_eq_true upper))

theorem keyLe_total (first second : α) :
    (decide (key first ≤ key second) || decide (key second ≤ key first)) =
      true := by
  rw [Bool.or_eq_true, decide_eq_true_eq, decide_eq_true_eq]
  exact le_total _ _

theorem sortByKey_pairwise (items : List α) :
    (sortByKey key items).Pairwise fun left right => key left ≤ key right := by
  have sorted : (sortByKey key items).Pairwise fun left right =>
      decide (key left ≤ key right) = true :=
    List.pairwise_mergeSort (keyLe_trans key) (keyLe_total key) items
  exact sorted.imp fun smaller => of_decide_eq_true smaller

/-- Elements with the same key stay in their order. -/
theorem filter_sortByKey
    (items : List α) (picks : α → Bool) (value : κ)
    (same : ∀ item, picks item = true → key item = value) :
    (sortByKey key items).filter picks = items.filter picks := by
  have kept : (items.filter picks).Sublist (sortByKey key items) := by
    apply List.sublist_mergeSort (keyLe_trans key) (keyLe_total key)
    · apply List.Pairwise.imp_of_mem ?_ (List.pairwise_of_forall
        (R := fun _ _ => True) fun _ _ => trivial)
      intro left right leftMember rightMember _
      rw [decide_eq_true_eq, same left (List.of_mem_filter leftMember),
        same right (List.of_mem_filter rightMember)]
    · exact List.filter_sublist
  have inside := kept.filter picks
  rw [List.filter_filter] at inside
  simp only [Bool.and_self] at inside
  exact (inside.eq_of_length
    ((sortByKey_perm key items).filter picks).length_eq.symm).symm

/--
What is found matches, has the least key of all matches, and is the first
that does.
-/
theorem find?_sortByKey
    {items : List α} {matches_ : α → Bool} {found : α}
    (first : (sortByKey key items).find? matches_ = some found) :
    found ∈ items ∧ matches_ found = true ∧
      (∀ item ∈ items, matches_ item = true → key found ≤ key item) ∧
      items.find? (fun item => matches_ item &&
        decide (key item = key found)) = some found := by
  obtain ⟨matched, before, after, split, skipped⟩ :=
    List.find?_eq_some_iff_append.mp first
  have member : found ∈ sortByKey key items := List.mem_of_find?_eq_some first
  refine ⟨(sortByKey_perm key items).subset member, matched, ?_, ?_⟩
  · intro item inside itemMatched
    have sorted := sortByKey_pairwise key items
    have moved := (sortByKey_perm key items).symm.subset inside
    rw [split] at sorted moved
    rcases List.mem_append.mp moved with early | late
    · have none := skipped item early
      rw [itemMatched] at none
      cases none
    · rcases List.mem_cons.mp late with rfl | later
      · exact le_rfl
      · exact (List.pairwise_cons.mp (List.pairwise_append.mp sorted).2.1).1
          item later
  · have picked : ((sortByKey key items).filter fun item =>
        matches_ item && decide (key item = key found)).head? =
          some found := by
      rw [List.head?_filter, split, List.find?_append]
      have none : before.find? (fun item => matches_ item &&
          decide (key item = key found)) = none := by
        rw [List.find?_eq_none]
        intro item early
        have other := skipped item early
        rw [Bool.not_eq_true'] at other
        rw [other, Bool.false_and]
        exact Bool.false_ne_true
      rw [none, Option.none_or, List.find?_cons_of_pos]
      rw [matched, decide_eq_true rfl]
      rfl
    rw [filter_sortByKey key items _ (key found) (fun item both => by
      rw [Bool.and_eq_true, decide_eq_true_eq] at both
      exact both.2), List.head?_filter] at picked
    exact picked

/-- A key that tells the elements apart makes the order irrelevant. -/
theorem sortByKey_eq_of_perm
    {items others : List α} (perm : others.Perm items)
    (apart : ∀ left ∈ items, ∀ right ∈ items, key left = key right →
      left = right) :
    sortByKey key others = sortByKey key items := by
  apply List.Perm.eq_of_pairwise ?_ (sortByKey_pairwise key others)
    (sortByKey_pairwise key items)
  · exact (sortByKey_perm key others).trans
      (perm.trans (sortByKey_perm key items).symm)
  · intro left right leftMember rightMember below above
    apply apart left _ right _ (le_antisymm below above)
    · exact perm.subset ((sortByKey_perm key others).subset leftMember)
    · exact (sortByKey_perm key items).subset rightMember

end LightWaf.Theory.StableSort
