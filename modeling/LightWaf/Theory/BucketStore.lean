import LightWaf.Theory.TokenBucket

/-!
# Stores of token buckets that may forget

The ideal store keeps one bucket for each key for ever.  A real store forgets
buckets to bound its memory.  `Represents` relates the two through what can
be observed: from now on every key shows the same level.  It survives every
visit, and it survives forgetting buckets that had a full refill to rest.
-/

namespace LightWaf.Theory.BucketStore

open LightWaf.Theory.TokenBucket

universe u v

/-- The buckets of all keys; `none` where no bucket exists. -/
abbrev Store (Key : Type u) (K : Type v) := Key → Option (Bucket K)

variable {Key : Type u}
variable {K : Type v} [Field K] [LinearOrder K]

/-- `after` is `before` with some long-idle buckets forgotten. -/
def Forgets (params : Params K) (now : K)
    (before after : Store Key K) : Prop :=
  ∀ key, after key = before key ∨
    (after key = none ∧
      ∃ bucket, before key = some bucket ∧
        params.capacity / params.rate ≤ now - bucket.last)

/-- From `now` on, the two stores show the same level for every key. -/
structure Represents (params : Params K) (now : K)
    (ideal real : Store Key K) : Prop where
  level_eq : ∀ key later, now ≤ later →
    levelOf params (real key) later = levelOf params (ideal key) later
  tokens_nonneg : ∀ key bucket, real key = some bucket → 0 ≤ bucket.tokens

theorem Represents.later
    {params : Params K} {now now' : K} {ideal real : Store Key K}
    (related : Represents params now ideal real)
    (ordered : now ≤ now') :
    Represents params now' ideal real where
  level_eq := fun key later after =>
    related.level_eq key later (ordered.trans after)
  tokens_nonneg := related.tokens_nonneg

variable [IsStrictOrderedRing K]

/-- Forgetting a bucket that had a full refill to rest is not observable. -/
theorem Represents.forget
    {params : Params K} {now : K} {ideal real real' : Store Key K}
    (rate : 0 < params.rate)
    (related : Represents params now ideal real)
    (forgets : Forgets params now real real') :
    Represents params now ideal real' where
  level_eq := by
    intro key later after
    rcases forgets key with kept | ⟨gone, bucket, present, idle⟩
    · rw [kept]
      exact related.level_eq key later after
    · have full : levelOf params (real key) later = params.capacity := by
        rw [present]
        exact level_eq_capacity_of_idle params bucket rate
          (related.tokens_nonneg key bucket present) idle after
      rw [gone, ← related.level_eq key later after, full]
      rfl
  tokens_nonneg := by
    intro key bucket stored
    rcases forgets key with kept | ⟨gone, -⟩
    · exact related.tokens_nonneg key bucket (kept ▸ stored)
    · rw [gone] at stored
      cases stored

variable [DecidableEq Key]

/-- A visit of one key: whether it is granted, and the buckets after it. -/
def visit (params : Params K) (store : Store Key K)
    (key : Key) (now cost : K) : Bool × Store Key K :=
  let outcome := settle (levelOf params (store key) now) now cost
  (outcome.1, Function.update store key (some outcome.2))

/-- A visit is answered alike and leaves related stores. -/
theorem Represents.visit
    {params : Params K} {now : K} {ideal real : Store Key K}
    (capacity : 0 ≤ params.capacity) (rate : 0 ≤ params.rate)
    (related : Represents params now ideal real)
    (key : Key) (cost : K) :
    levelOf params (real key) now = levelOf params (ideal key) now ∧
      Represents params now
        (BucketStore.visit params ideal key now cost).2
        (BucketStore.visit params real key now cost).2 := by
  have found := related.level_eq key now (le_refl now)
  have nonneg : 0 ≤ levelOf params (real key) now := by
    cases stored : real key with
    | none => exact capacity
    | some bucket =>
        exact level_nonneg params bucket now capacity rate
          (related.tokens_nonneg key bucket stored)
  refine ⟨found, ?_, ?_⟩
  · intro other later after
    by_cases same : other = key
    · subst same
      simp [BucketStore.visit, found]
    · simpa [BucketStore.visit, same] using
        related.level_eq other later after
  · intro other bucket stored
    by_cases same : other = key
    · subst same
      simp only [BucketStore.visit, Function.update_self,
        Option.some.injEq] at stored
      rw [← stored]
      exact settle_tokens_nonneg nonneg
    · simp only [BucketStore.visit, ne_eq, same, not_false_eq_true,
        Function.update_of_ne] at stored
      exact related.tokens_nonneg other bucket stored

end LightWaf.Theory.BucketStore
