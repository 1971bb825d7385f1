import Mathlib.Tactic

/-!
# Allocated buffers

Computations that may fail and that allocate buffers on the way.  What has
been allocated counts whether or not the computation succeeds in the end.
-/

namespace LightWaf.Rust

/-- The outcome of a computation, and the sizes of the buffers allocated. -/
structure Allocating (Error α : Type) where
  result : Except Error α
  buffers : List Nat

namespace Allocating

variable {Error α β : Type}

/-- What a computation allocates that goes on after another one. -/
def buffersAfter (next : α → Allocating Error β) : Except Error α → List Nat
  | .ok value => (next value).buffers
  | .error _ => []

instance : Monad (Allocating Error) where
  pure value := ⟨.ok value, []⟩
  bind first next :=
    ⟨first.result >>= fun value => (next value).result,
      first.buffers ++ buffersAfter next first.result⟩

/-- The allocation of a buffer. -/
def allocate (size : Nat) : Allocating Error Unit :=
  ⟨.ok (), [size]⟩

/-- A failure. -/
def fail (error : Error) : Allocating Error α :=
  ⟨.error error, []⟩

/-- A computation that allocates nothing. -/
def ofExcept (result : Except Error α) : Allocating Error α :=
  ⟨result, []⟩

@[simp]
theorem result_pure (value : α) :
    (pure value : Allocating Error α).result = .ok value :=
  rfl

@[simp]
theorem buffers_pure (value : α) :
    (pure value : Allocating Error α).buffers = [] :=
  rfl

@[simp]
theorem result_bind
    (first : Allocating Error α) (next : α → Allocating Error β) :
    (first >>= next).result =
      (first.result >>= fun value => (next value).result) :=
  rfl

theorem buffers_bind
    (first : Allocating Error α) (next : α → Allocating Error β) :
    (first >>= next).buffers =
      first.buffers ++ buffersAfter next first.result :=
  rfl

theorem pure_bind (value : α) (next : α → Allocating Error β) :
    (pure value >>= next) = next value :=
  rfl

/-- What was done first, when the whole computation has a result. -/
theorem bind_eq_ok_iff
    {first : Allocating Error α} {next : α → Allocating Error β} {last : β} :
    (first >>= next).result = .ok last ↔
      ∃ value, first.result = .ok value ∧ (next value).result = .ok last := by
  rw [result_bind]
  cases first.result with
  | ok value =>
      constructor
      · exact fun done => ⟨value, rfl, done⟩
      · rintro ⟨_, ⟨⟩, done⟩
        exact done
  | error error =>
      constructor
      · intro done
        cases done
      · rintro ⟨_, ⟨⟩, _⟩

/-- Every buffer of a sequence is one of its parts. -/
theorem mem_buffers_bind_iff
    {first : Allocating Error α} {next : α → Allocating Error β}
    {size : Nat} :
    size ∈ (first >>= next).buffers ↔
      size ∈ first.buffers ∨
        ∃ value, first.result = .ok value ∧
          size ∈ (next value).buffers := by
  rw [buffers_bind, List.mem_append]
  cases first.result with
  | ok value =>
      constructor
      · rintro (early | late)
        · exact .inl early
        · exact .inr ⟨value, rfl, late⟩
      · rintro (early | ⟨_, ⟨⟩, late⟩)
        · exact .inl early
        · exact .inr late
  | error error =>
      constructor
      · rintro (early | late)
        · exact .inl early
        · exact absurd late List.not_mem_nil
      · rintro (early | ⟨_, ⟨⟩, _⟩)
        exact .inl early

/-- No buffer is larger than the bound. -/
def Within (bound : Nat) (computation : Allocating Error α) : Prop :=
  ∀ size ∈ computation.buffers, size ≤ bound

@[simp]
theorem within_pure (bound : Nat) (value : α) :
    Within bound (pure value : Allocating Error α) :=
  fun _ member => absurd member List.not_mem_nil

@[simp]
theorem within_fail (bound : Nat) (error : Error) :
    Within bound (fail error : Allocating Error α) :=
  fun _ member => absurd member List.not_mem_nil

@[simp]
theorem within_ofExcept (bound : Nat) (result : Except Error α) :
    Within bound (ofExcept result) :=
  fun _ member => absurd member List.not_mem_nil

@[simp]
theorem within_allocate_iff {bound size : Nat} :
    Within bound (allocate size : Allocating Error Unit) ↔ size ≤ bound := by
  simp [Within, allocate]

/-- A sequence stays within a bound if its parts do, as far as it gets. -/
theorem within_bind_iff
    {bound : Nat} {first : Allocating Error α}
    {next : α → Allocating Error β} :
    Within bound (first >>= next) ↔
      Within bound first ∧
        ∀ value, first.result = .ok value → Within bound (next value) := by
  constructor
  · intro within
    refine ⟨fun size member => within size ?_, ?_⟩
    · exact mem_buffers_bind_iff.mpr (.inl member)
    · intro value done size member
      exact within size (mem_buffers_bind_iff.mpr (.inr ⟨value, done, member⟩))
  · rintro ⟨early, late⟩ size member
    rcases mem_buffers_bind_iff.mp member with here | ⟨value, done, later⟩
    · exact early size here
    · exact late value done size later

/-- The size of all buffers together. -/
def total (computation : Allocating Error α) : Nat :=
  computation.buffers.sum

@[simp]
theorem total_pure (value : α) :
    (pure value : Allocating Error α).total = 0 :=
  rfl

theorem total_bind_of_ok
    {first : Allocating Error α} (next : α → Allocating Error β) {value : α}
    (done : first.result = .ok value) :
    (first >>= next).total = first.total + (next value).total := by
  rw [total, buffers_bind, done, List.sum_append]
  rfl

theorem total_bind_of_error
    {first : Allocating Error α} (next : α → Allocating Error β)
    {error : Error} (failed : first.result = .error error) :
    (first >>= next).total = first.total := by
  rw [total, buffers_bind, failed, List.sum_append]
  rfl

end Allocating

end LightWaf.Rust
