import Mathlib.Tactic
import Mathlib.Data.List.Nodup

/-!
# Finite maps

`HashMap` is a finite map with one entry for each key.  The order of its
entries is the order of the underlying list and carries no meaning: every
lemma below speaks about `get` and `len`, or about the entries up to order.
-/

namespace LightWaf.Rust

universe u v

/-- A finite map; the entries of distinct positions have distinct keys. -/
structure HashMap (Key : Type u) (Value : Type v) where
  entries : List (Key × Value)
  nodupKeys : (entries.map Prod.fst).Nodup

namespace HashMap

variable {Key : Type u} {Value : Type v}

/-- The map without entries. -/
def empty : HashMap Key Value :=
  ⟨[], List.nodup_nil⟩

/-- The number of entries. -/
def len (map : HashMap Key Value) : Nat :=
  map.entries.length

/-- Keep the entries that satisfy a predicate. -/
def retain (keep : Key → Value → Bool) (map : HashMap Key Value) :
    HashMap Key Value :=
  ⟨map.entries.filter fun entry => keep entry.1 entry.2,
    map.nodupKeys.sublist (List.filter_sublist.map Prod.fst)⟩

/-- With distinct keys a lookup finds every entry. -/
theorem lookup_eq_some_iff_mem
    [BEq Key] [LawfulBEq Key] {entries : List (Key × Value)}
    (nodup : (entries.map Prod.fst).Nodup) {key : Key} {value : Value} :
    entries.lookup key = some value ↔ (key, value) ∈ entries := by
  rw [List.lookup_eq_some_iff]
  constructor
  · rintro ⟨before, after, rfl, -⟩
    exact List.mem_append_right _ List.mem_cons_self
  · intro member
    obtain ⟨before, after, rfl⟩ := List.append_of_mem member
    refine ⟨before, after, rfl, fun entry earlier => ?_⟩
    rw [List.map_append, List.map_cons] at nodup
    have distinct : entry.1 ≠ key :=
      (List.nodup_append.mp nodup).2.2 _ (List.mem_map_of_mem earlier) _
        List.mem_cons_self
    simpa using distinct.symm

theorem lookup_map_value
    {Other : Type*} [BEq Key] (map : Value → Other)
    (entries : List (Key × Value)) (key : Key) :
    (entries.map fun entry => (entry.1, map entry.2)).lookup key =
      (entries.lookup key).map map := by
  induction entries with
  | nil => rfl
  | cons entry rest induction =>
      rw [List.map_cons, List.lookup_cons, List.lookup_cons, induction]
      cases key == entry.1 <;> rfl

variable [DecidableEq Key]

/-- The value stored for a key. -/
def get (map : HashMap Key Value) (key : Key) : Option Value :=
  map.entries.lookup key

/-- Whether a key has an entry. -/
def containsKey (map : HashMap Key Value) (key : Key) : Bool :=
  (map.get key).isSome

/-- Remove a key. -/
def remove (map : HashMap Key Value) (key : Key) : HashMap Key Value :=
  map.retain fun other _ => other ≠ key

/-- Store a value for a key, replacing the one stored before. -/
def insert (map : HashMap Key Value) (key : Key) (value : Value) :
    HashMap Key Value :=
  ⟨(key, value) :: (map.remove key).entries, by
    refine List.nodup_cons.mpr ⟨?_, (map.remove key).nodupKeys⟩
    intro member
    rcases List.mem_map.mp member with ⟨entry, entryMember, equal⟩
    have distinct : entry.1 ≠ key := by
      simpa [remove, retain] using (List.mem_filter.mp entryMember).2
    exact distinct equal⟩

theorem lookup_filter
    (keep : Key → Value → Bool)
    (entries : List (Key × Value))
    (nodup : (entries.map Prod.fst).Nodup)
    (key : Key) :
    (entries.filter fun entry => keep entry.1 entry.2).lookup key =
      (entries.lookup key).filter (keep key) := by
  induction entries with
  | nil => rfl
  | cons head tail induction =>
      rcases head with ⟨headKey, headValue⟩
      rw [List.map_cons, List.nodup_cons] at nodup
      have tailEq := induction nodup.2
      by_cases same : key = headKey
      · subst same
        have absent : tail.lookup key = none := by
          rw [List.lookup_eq_none_iff]
          intro entry member
          have distinct : key ≠ entry.1 := by
            intro equal
            exact nodup.1 (List.mem_map.mpr ⟨entry, member, equal.symm⟩)
          simpa using distinct
        rw [absent] at tailEq
        by_cases kept : keep key headValue = true
        · simp [kept, Option.filter]
        · simp [kept, tailEq, Option.filter]
      · have differs : (key == headKey) = false := by simpa using same
        by_cases kept : keep headKey headValue = true
        · simp [kept, List.lookup_cons, differs, tailEq]
        · simp [kept, List.lookup_cons, differs, tailEq]

/-- Retaining filters what is stored for each key. -/
@[simp]
theorem get_retain
    (keep : Key → Value → Bool) (map : HashMap Key Value) (key : Key) :
    (map.retain keep).get key = (map.get key).filter (keep key) :=
  lookup_filter keep map.entries map.nodupKeys key

@[simp]
theorem get_insert_self
    (map : HashMap Key Value) (key : Key) (value : Value) :
    (map.insert key value).get key = some value := by
  simp [insert, get]

@[simp]
theorem get_remove_self (map : HashMap Key Value) (key : Key) :
    (map.remove key).get key = none := by
  rw [remove, get_retain]
  cases map.get key <;> simp [Option.filter]

theorem get_remove_of_ne
    (map : HashMap Key Value) {key other : Key} (distinct : other ≠ key) :
    (map.remove key).get other = map.get other := by
  rw [remove, get_retain]
  cases map.get other <;> simp [Option.filter, distinct]

theorem get_insert_of_ne
    (map : HashMap Key Value) {key other : Key} (value : Value)
    (distinct : other ≠ key) :
    (map.insert key value).get other = map.get other := by
  have differs : (other == key) = false := by simpa using distinct
  rw [← get_remove_of_ne map distinct]
  simp [insert, get, List.lookup_cons, differs]

/-- What is stored after an insertion, key by key. -/
theorem get_insert
    (map : HashMap Key Value) (key other : Key) (value : Value) :
    (map.insert key value).get other =
      if other = key then some value else map.get other := by
  split_ifs with same
  · rw [same, get_insert_self]
  · exact get_insert_of_ne map value same

/-! ## Entries -/

theorem get_eq_some_iff
    {map : HashMap Key Value} {key : Key} {value : Value} :
    map.get key = some value ↔ (key, value) ∈ map.entries :=
  lookup_eq_some_iff_mem map.nodupKeys

theorem get_eq_none_iff {map : HashMap Key Value} {key : Key} :
    map.get key = none ↔ key ∉ map.entries.map Prod.fst := by
  rw [get, List.lookup_eq_none_iff, List.mem_map]
  constructor
  · rintro absent ⟨entry, member, rfl⟩
    simpa using absent entry member
  · intro absent entry member
    have distinct : key ≠ entry.1 := fun same =>
      absent ⟨entry, member, same.symm⟩
    simpa using distinct

/-- Removing a key that has no entry changes nothing. -/
theorem entries_remove_of_none
    {map : HashMap Key Value} {key : Key} (absent : map.get key = none) :
    (map.remove key).entries = map.entries := by
  apply List.filter_eq_self.mpr
  intro entry member
  rw [decide_eq_true_eq]
  rintro rfl
  exact get_eq_none_iff.mp absent (List.mem_map_of_mem member)

/-- Removing a key takes its entry out. -/
theorem entries_perm_remove
    {map : HashMap Key Value} {key : Key} {value : Value}
    (stored : map.get key = some value) :
    map.entries.Perm ((key, value) :: (map.remove key).entries) := by
  apply (List.perm_ext_iff_of_nodup map.nodupKeys.of_map
    (map.insert key value).nodupKeys.of_map).mpr
  rintro ⟨other, found⟩
  rw [← get_eq_some_iff, ← get_eq_some_iff, get_insert]
  split_ifs with same
  · rw [same, stored]
  · exact Iff.rfl

/-- A new key adds an entry. -/
theorem len_insert (map : HashMap Key Value) (key : Key) (value : Value) :
    (map.insert key value).len =
      if map.containsKey key then map.len else map.len + 1 := by
  rw [len, insert, List.length_cons, containsKey]
  cases stored : map.get key with
  | none =>
      rw [entries_remove_of_none stored]
      rfl
  | some previous =>
      have length := (entries_perm_remove stored).length_eq
      rw [List.length_cons] at length
      exact length.symm

end HashMap

end LightWaf.Rust
