import Mathlib.Tactic

/-!
# Hash chains

Every item of a chain repeats the key of the item before it.  When no two items
share a key, a chain cannot be shortened unnoticed except at its end: a part of
it that is still linked from the same start is an initial segment.
-/

namespace LightWaf.Theory.Chain

universe u v

variable {α : Type u} {κ : Type v} (prev key : α → κ)

/-- Each item names the key before it, from a given one on. -/
def Linked : κ → List α → Prop
  | _, [] => True
  | start, item :: rest => prev item = start ∧ Linked (key item) rest

variable {prev key} {start : κ}

theorem Linked.concat
    {items : List α} {item : α} (linked : Linked prev key start items)
    (next : prev item = (items.getLast?.map key).getD start) :
    Linked prev key start (items ++ [item]) := by
  induction items generalizing start with
  | nil => exact ⟨next, trivial⟩
  | cons head tail induction =>
      refine ⟨linked.1, induction linked.2 ?_⟩
      rw [next]
      cases tail with
      | nil => rfl
      | cons second rest =>
          have found := List.getLast?_eq_some_getLast
            (List.cons_ne_nil second rest)
          rw [List.getLast?_cons_cons, found]
          rfl

/-- An initial segment is linked from the same start. -/
theorem Linked.of_append
    {items rest : List α} (linked : Linked prev key start (items ++ rest)) :
    Linked prev key start items := by
  induction items generalizing start with
  | nil => trivial
  | cons head tail induction => exact ⟨linked.1, induction linked.2⟩

/-- A final segment is linked from the key of the item before it. -/
theorem Linked.after
    {before rest : List α} {item : α}
    (linked : Linked prev key start (before ++ item :: rest)) :
    Linked prev key (key item) rest := by
  induction before generalizing start with
  | nil => exact linked.2
  | cons head tail induction => exact induction linked.2

/-- Items that name and have the same keys can stand for each other. -/
theorem Linked.replace
    {before after : List α} (item other : α)
    (samePrev : prev other = prev item) (sameKey : key other = key item)
    (linked : Linked prev key start (before ++ item :: after)) :
    Linked prev key start (before ++ other :: after) := by
  induction before generalizing start with
  | nil => exact ⟨samePrev.trans linked.1, sameKey ▸ linked.2⟩
  | cons head tail induction => exact ⟨linked.1, induction linked.2⟩

theorem Linked.prev_mem
    {items : List α} {item : α} (linked : Linked prev key start items)
    (member : item ∈ items) :
    prev item ∈ start :: items.map key := by
  induction items generalizing start with
  | nil => exact nomatch member
  | cons head tail induction =>
      rcases List.mem_cons.mp member with rfl | later
      · rw [linked.1]
        exact List.mem_cons_self
      · exact List.mem_cons_of_mem _ (induction linked.2 later)

/-! ## Deletion -/

/-- With a start that is no item's key, only initial segments stay linked. -/
theorem Linked.initial_of_fresh
    {items part : List α} (linked : Linked prev key start items)
    (distinct : (start :: items.map key).Nodup)
    (sublist : part.Sublist items) (still : Linked prev key start part) :
    part <+: items := by
  induction items generalizing start part with
  | nil => exact List.sublist_nil.mp sublist ▸ List.prefix_rfl
  | cons head tail induction =>
      have fresh := (List.nodup_cons.mp distinct).1
      cases sublist with
      | cons _ inside =>
          cases part with
          | nil => exact List.nil_prefix
          | cons first rest =>
              -- the item after a gap names a key of the chain, not the start
              have named := linked.2.prev_mem
                (inside.subset List.mem_cons_self)
              rw [still.1] at named
              exact absurd named fresh
      | cons_cons _ inside =>
          apply (List.prefix_cons_inj head).mpr
          exact induction linked.2 (List.nodup_cons.mp distinct).2 inside
            still.2

theorem Linked.segment_of_sublist
    {items part : List α} {other : κ} (linked : Linked prev key start items)
    (distinct : (items.map key).Nodup)
    (sublist : part.Sublist items) (still : Linked prev key other part) :
    part = [] ∨ (start = other ∧ part <+: items) ∨
      ∃ before item after, items = before ++ item :: (part ++ after) ∧
        key item = other := by
  induction items generalizing start part with
  | nil => exact Or.inl (List.sublist_nil.mp sublist)
  | cons head tail induction =>
      cases sublist with
      | cons _ inside =>
          rcases induction linked.2 (List.nodup_cons.mp distinct).2 inside
            still with empty | ⟨same, after, rfl⟩ |
            ⟨before, item, after, rfl, same⟩
          · exact Or.inl empty
          · exact Or.inr (Or.inr ⟨[], head, after, rfl, same⟩)
          · exact Or.inr (Or.inr ⟨head :: before, item, after, rfl, same⟩)
      | cons_cons _ inside =>
          refine Or.inr (Or.inl ⟨linked.1.symm.trans still.1, ?_⟩)
          apply (List.prefix_cons_inj head).mpr
          exact linked.2.initial_of_fresh distinct inside still.2

/--
What can be kept of a chain: an initial segment, or a segment behind an item
whose key is the start itself.
-/
theorem Linked.sublist_iff
    {items part : List α} (linked : Linked prev key start items)
    (distinct : (items.map key).Nodup) (sublist : part.Sublist items) :
    Linked prev key start part ↔
      part <+: items ∨ ∃ before item after,
        items = before ++ item :: (part ++ after) ∧ key item = start := by
  constructor
  · intro still
    rcases linked.segment_of_sublist distinct sublist still with
      rfl | ⟨_, initial⟩ | segment
    · exact Or.inl List.nil_prefix
    · exact Or.inl initial
    · exact Or.inr segment
  · rintro (⟨after, rfl⟩ | ⟨before, item, after, rfl, same⟩)
    · exact linked.of_append
    · rw [← same]
      exact linked.after.of_append

end LightWaf.Theory.Chain
