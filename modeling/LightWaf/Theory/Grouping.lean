import LightWaf.Rust.HashMap
import LightWaf.Theory.StableSort
import Mathlib.Algebra.BigOperators.Group.List.Basic

/-!
# Grouping by a key

Items are folded one after the other into a map, each into the summary under
its own key.  The summary of a key is that of the items with this key alone,
so what is true of one group in any order is true of the whole map.
-/

namespace LightWaf.Theory.Grouping

open LightWaf.Rust
open LightWaf.Theory.StableSort

universe u v w

variable {α : Type u} {κ : Type v} {σ : Type w}

/-- The summary of a list of items; an empty list has none. -/
def summary (fold : Option σ → α → σ) (items : List α) : Option σ :=
  items.foldl (fun folded item => some (fold folded item)) none

theorem summary_append_singleton
    (fold : Option σ → α → σ) (items : List α) (item : α) :
    summary fold (items ++ [item]) =
      some (fold (summary fold items) item) := by
  rw [summary, List.foldl_append]
  rfl

variable [DecidableEq κ]

/-- Fold every item into the summary under its key. -/
def groupBy (key : α → κ) (fold : Option σ → α → σ) (items : List α) :
    HashMap κ σ :=
  items.foldl
    (fun map item => map.insert (key item) (fold (map.get (key item)) item))
    HashMap.empty

theorem groupBy_append_singleton
    (key : α → κ) (fold : Option σ → α → σ) (items : List α) (item : α) :
    groupBy key fold (items ++ [item]) =
      (groupBy key fold items).insert (key item)
        (fold ((groupBy key fold items).get (key item)) item) := by
  rw [groupBy, List.foldl_append]
  rfl

/-- Under a key stands the summary of the items with this key. -/
theorem get_groupBy
    (key : α → κ) (fold : Option σ → α → σ) (items : List α) (value : κ) :
    (groupBy key fold items).get value =
      summary fold (items.filter fun item => key item = value) := by
  induction items using List.reverseRecOn with
  | nil => rfl
  | append_singleton items item induction =>
      rw [groupBy_append_singleton, List.filter_append]
      by_cases same : key item = value
      · have kept : [item].filter (fun item => key item = value) = [item] :=
          by simp [same]
        rw [kept, summary_append_singleton, same, HashMap.get_insert_self,
          induction]
      · have dropped : [item].filter (fun item => key item = value) = [] :=
          by simp [same]
        rw [dropped, List.append_nil,
          HashMap.get_insert_of_ne _ _ (Ne.symm same), induction]

/-- A weight that every item adds to its summary is conserved. -/
theorem sum_groupBy
    {M : Type*} [AddCommMonoid M] (key : α → κ) (fold : Option σ → α → σ)
    (weight : σ → M) (share : α → M)
    (adds : ∀ folded item, weight (fold folded item) =
      (folded.map weight).getD 0 + share item) (items : List α) :
    ((groupBy key fold items).entries.map fun entry =>
        weight entry.2).sum = (items.map share).sum := by
  induction items using List.reverseRecOn with
  | nil => rfl
  | append_singleton items item induction =>
      rw [groupBy_append_singleton, List.map_append, List.sum_append,
        ← induction, HashMap.insert, List.map_cons, List.sum_cons, adds]
      cases stored : (groupBy key fold items).get (key item) with
      | none =>
          rw [HashMap.entries_remove_of_none stored]
          simp [add_comm]
      | some folded =>
          rw [((HashMap.entries_perm_remove stored).map _).sum_eq]
          simp [add_comm, add_left_comm, add_assoc]

/-- Maps with the same values have the same entries. -/
theorem entries_perm_of_get_eq
    {map other : HashMap κ σ} (same : ∀ key, map.get key = other.get key) :
    map.entries.Perm other.entries := by
  apply (List.perm_ext_iff_of_nodup map.nodupKeys.of_map
    other.nodupKeys.of_map).mpr
  rintro ⟨key, value⟩
  rw [← HashMap.get_eq_some_iff, ← HashMap.get_eq_some_iff, same]

variable {κ : Type v} [LinearOrder κ]

/-- The values of a map in the order of their keys. -/
def valuesInOrder (map : HashMap κ σ) : List σ :=
  (sortByKey Prod.fst map.entries).map Prod.snd

theorem valuesInOrder_eq_of_get_eq
    [DecidableEq κ] {map other : HashMap κ σ}
    (same : ∀ key, map.get key = other.get key) :
    valuesInOrder map = valuesInOrder other := by
  rw [valuesInOrder, valuesInOrder, sortByKey_eq_of_perm Prod.fst
    (entries_perm_of_get_eq same)]
  intro left leftMember right rightMember sameKey
  exact List.inj_on_of_nodup_map other.nodupKeys leftMember rightMember
    sameKey

theorem valuesInOrder_perm (map : HashMap κ σ) :
    (valuesInOrder map).Perm (map.entries.map Prod.snd) :=
  (sortByKey_perm Prod.fst map.entries).map Prod.snd

theorem mem_valuesInOrder_iff
    [DecidableEq κ] {map : HashMap κ σ} {value : σ} :
    value ∈ valuesInOrder map ↔ ∃ key, map.get key = some value := by
  rw [(valuesInOrder_perm map).mem_iff, List.mem_map]
  constructor
  · rintro ⟨⟨key, stored⟩, member, rfl⟩
    exact ⟨key, HashMap.get_eq_some_iff.mpr member⟩
  · rintro ⟨key, found⟩
    exact ⟨(key, value), HashMap.get_eq_some_iff.mp found, rfl⟩

end LightWaf.Theory.Grouping
