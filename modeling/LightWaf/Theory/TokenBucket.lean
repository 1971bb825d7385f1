import Mathlib.Algebra.Order.Field.Basic
import Mathlib.Algebra.Order.BigOperators.Group.List
import Mathlib.Tactic

/-!
# Token buckets

A token bucket holds a level and the time of its last visit.  Between visits
the level grows at a fixed rate up to a capacity; a visit takes a cost when
the level covers it.

Two general facts carry the development.  A bucket left alone for a full
refill is at capacity at every later time, so forgetting it cannot be
observed.  And the costs granted by a bucket that is visited in time order
are bounded on every interval by the capacity plus what flows in during it.

The numbers are an arbitrary ordered field.
-/

namespace LightWaf.Theory.TokenBucket

universe u

section Definitions

variable {K : Type u} [Field K] [LinearOrder K]

/-- Capacity and refill rate of a bucket. -/
structure Params (K : Type u) where
  capacity : K
  rate : K

/-- The level after the last visit and the time of that visit. -/
structure Bucket (K : Type u) where
  tokens : K
  last : K
deriving DecidableEq

/-- The level at `now`: refilled for the elapsed time, up to the capacity. -/
def level (params : Params K) (bucket : Bucket K) (now : K) : K :=
  min (bucket.tokens + max 0 (now - bucket.last) * params.rate)
    params.capacity

/-- The level of a bucket that may not exist yet; a new one is full. -/
def levelOf (params : Params K) (bucket : Option (Bucket K)) (now : K) : K :=
  match bucket with
  | none => params.capacity
  | some bucket => level params bucket now

/-- What a visit leaves behind, given the level it found. -/
def settle (found now cost : K) : Bool × Bucket K :=
  if cost ≤ found then (true, ⟨found - cost, now⟩)
  else (false, ⟨found, now⟩)

@[simp]
theorem settle_last (found now cost : K) :
    (settle found now cost).2.last = now := by
  unfold settle
  split_ifs <;> rfl

/-- What a visit takes plus what it leaves is what it found. -/
theorem settle_conserves (found now cost : K) :
    (if (settle found now cost).1 then cost else 0) +
        (settle found now cost).2.tokens =
      found := by
  unfold settle
  split_ifs <;> simp_all

theorem level_le_capacity
    (params : Params K) (bucket : Bucket K) (now : K) :
    level params bucket now ≤ params.capacity :=
  min_le_right _ _

/-! ## Visits and what they spent -/

/-- One visit of a bucket: its time, its cost and whether it was granted. -/
structure Visit (K : Type u) where
  time : K
  cost : K
  granted : Bool

/-- The cost a visit took. -/
def Visit.spent (visit : Visit K) : K :=
  if visit.granted then visit.cost else 0

/-- The cost granted to the visits whose time lies in an interval. -/
def spentWithin (visits : List (Visit K)) (first last : K) : K :=
  ((visits.filter fun visit =>
    decide (first ≤ visit.time ∧ visit.time ≤ last)).map Visit.spent).sum

@[simp]
theorem spentWithin_nil (first last : K) :
    spentWithin ([] : List (Visit K)) first last = 0 :=
  rfl

theorem spentWithin_append_one
    (visits : List (Visit K)) (visit : Visit K) (first last : K) :
    spentWithin (visits ++ [visit]) first last =
      spentWithin visits first last +
        if first ≤ visit.time ∧ visit.time ≤ last then visit.spent else 0 := by
  unfold spentWithin
  rw [List.filter_append, List.map_append, List.sum_append]
  by_cases inside : first ≤ visit.time ∧ visit.time ≤ last
  · simp [inside]
  · simp [inside]

/-- Beyond the latest visit the end of an interval is immaterial. -/
theorem spentWithin_congr_last
    (visits : List (Visit K)) (first : K) {latest last last' : K}
    (past : ∀ visit ∈ visits, visit.time ≤ latest)
    (after : latest ≤ last) (after' : latest ≤ last') :
    spentWithin visits first last = spentWithin visits first last' := by
  unfold spentWithin
  congr 2
  apply List.filter_congr
  intro visit member
  have bounded := past visit member
  simp [bounded.trans after, bounded.trans after']

/-- No visit lies in an interval that starts after the latest one. -/
theorem spentWithin_eq_zero
    (visits : List (Visit K)) {latest first : K} (last : K)
    (past : ∀ visit ∈ visits, visit.time ≤ latest)
    (after : latest < first) :
    spentWithin visits first last = 0 := by
  unfold spentWithin
  rw [List.filter_eq_nil_iff.mpr]
  · rfl
  · intro visit member
    have bounded := past visit member
    simp [not_le.mpr (lt_of_le_of_lt bounded after)]

end Definitions

variable {K : Type u} [Field K] [LinearOrder K] [IsStrictOrderedRing K]

/-! ## Inflow and idle buckets -/

theorem settle_tokens_nonneg
    {found now cost : K} (nonneg : 0 ≤ found) :
    0 ≤ (settle found now cost).2.tokens := by
  unfold settle
  split_ifs with covered
  · exact sub_nonneg.mpr covered
  · exact nonneg

/-- Visits in time order see at most what was left plus what flowed in. -/
theorem level_le_inflow
    (params : Params K) (bucket : Bucket K) {now : K}
    (ordered : bucket.last ≤ now) :
    level params bucket now ≤
      bucket.tokens + params.rate * (now - bucket.last) := by
  have elapsed : max 0 (now - bucket.last) = now - bucket.last :=
    max_eq_right (sub_nonneg.mpr ordered)
  rw [level, elapsed, mul_comm]
  exact min_le_left _ _

theorem level_nonneg
    (params : Params K) (bucket : Bucket K) (now : K)
    (capacity : 0 ≤ params.capacity) (rate : 0 ≤ params.rate)
    (tokens : 0 ≤ bucket.tokens) :
    0 ≤ level params bucket now := by
  refine le_min ?_ capacity
  exact add_nonneg tokens (mul_nonneg (le_max_left _ _) rate)

/-- A bucket left alone for a full refill is at capacity ever after. -/
theorem level_eq_capacity_of_idle
    (params : Params K) (bucket : Bucket K) {idle now : K}
    (rate : 0 < params.rate)
    (tokens : 0 ≤ bucket.tokens)
    (refilled : params.capacity / params.rate ≤ idle - bucket.last)
    (later : idle ≤ now) :
    level params bucket now = params.capacity := by
  have elapsed : params.capacity / params.rate ≤ max 0 (now - bucket.last) :=
    le_max_of_le_right (by linarith)
  have inflow : params.capacity ≤ max 0 (now - bucket.last) * params.rate :=
    (div_le_iff₀ rate).mp elapsed
  exact min_eq_right (by linarith)

/-! ## The account of a bucket -/

/--
The account of one bucket after a sequence of visits in time order.

`balance` is the working invariant: since any moment `first`, the granted
costs and the level left are covered by the capacity and the inflow.
-/
structure Account (params : Params K) (visits : List (Visit K))
    (bucket : Bucket K) : Prop where
  tokens_nonneg : 0 ≤ bucket.tokens
  past : ∀ visit ∈ visits, visit.time ≤ bucket.last
  balance : ∀ first, first ≤ bucket.last →
    spentWithin visits first bucket.last + bucket.tokens ≤
      params.capacity + params.rate * (bucket.last - first)
  bound : ∀ first last, first ≤ last →
    spentWithin visits first last ≤
      params.capacity + params.rate * (last - first)

/--
One visit keeps the account, given that it is not earlier than the last one
and that what it found was covered by the capacity and the inflow.
-/
theorem Account.visit
    {params : Params K} {visits : List (Visit K)}
    (rate : 0 ≤ params.rate)
    {found now cost : K}
    (nonneg : 0 ≤ found)
    (past : ∀ visit ∈ visits, visit.time ≤ now)
    (bound : ∀ first last, first ≤ last →
      spentWithin visits first last ≤
        params.capacity + params.rate * (last - first))
    (inflow : ∀ first, first ≤ now →
      spentWithin visits first now + found ≤
        params.capacity + params.rate * (now - first)) :
    Account params
      (visits ++ [⟨now, cost, (settle found now cost).1⟩])
      (settle found now cost).2 := by
  set outcome := settle found now cost with outcomeEq
  have lastEq : outcome.2.last = now := settle_last found now cost
  have conserve :
      (Visit.mk now cost outcome.1).spent + outcome.2.tokens = found :=
    settle_conserves found now cost
  have tokens : 0 ≤ outcome.2.tokens := settle_tokens_nonneg nonneg
  have balance : ∀ first, first ≤ now →
      spentWithin (visits ++ [⟨now, cost, outcome.1⟩]) first now +
          outcome.2.tokens ≤
        params.capacity + params.rate * (now - first) := by
    intro first ordered
    rw [spentWithin_append_one, if_pos ⟨ordered, le_refl now⟩]
    have := inflow first ordered
    linarith
  have pastAll :
      ∀ visit ∈ visits ++ [⟨now, cost, outcome.1⟩], visit.time ≤ now := by
    intro visit member
    rcases List.mem_append.mp member with old | new
    · exact past visit old
    · rw [List.mem_singleton.mp new]
  refine ⟨tokens, ?_, ?_, ?_⟩
  · rw [lastEq]
    exact pastAll
  · rw [lastEq]
    exact balance
  · intro first last ordered
    by_cases early : first ≤ now
    · by_cases inside : now ≤ last
      · -- The interval contains the new visit: no visit lies beyond `now`.
        rw [spentWithin_congr_last _ first pastAll inside (le_refl now)]
        have now_balance := balance first early
        have flow : params.rate * (now - first) ≤
            params.rate * (last - first) :=
          mul_le_mul_of_nonneg_left (by linarith) rate
        linarith
      · rw [spentWithin_append_one, if_neg (by simp [inside]), add_zero]
        exact bound first last ordered
    · rw [spentWithin_append_one, if_neg (by simp [early]), add_zero]
      exact bound first last ordered

/-- The first visit of a bucket opens its account. -/
theorem Account.open
    {params : Params K} (now cost : K)
    (capacity : 0 ≤ params.capacity) (rate : 0 ≤ params.rate) :
    Account params
      [⟨now, cost, (settle params.capacity now cost).1⟩]
      (settle params.capacity now cost).2 := by
  have flow : ∀ first last : K, first ≤ last →
      0 ≤ params.rate * (last - first) :=
    fun first last ordered => mul_nonneg rate (by linarith)
  show Account params ([] ++ [_]) _
  refine Account.visit rate capacity (by simp) ?_ ?_
  · intro first last ordered
    have := flow first last ordered
    rw [spentWithin_nil]
    linarith
  · intro first ordered
    have := flow first now ordered
    rw [spentWithin_nil]
    linarith

/-- A visit in time order keeps the account of an existing bucket. -/
theorem Account.step
    {params : Params K} {visits : List (Visit K)} {bucket : Bucket K}
    (account : Account params visits bucket)
    (capacity : 0 ≤ params.capacity) (rate : 0 ≤ params.rate)
    {now : K} (cost : K) (ordered : bucket.last ≤ now) :
    Account params
      (visits ++ [⟨now, cost, (settle (level params bucket now) now cost).1⟩])
      (settle (level params bucket now) now cost).2 := by
  have past : ∀ visit ∈ visits, visit.time ≤ now :=
    fun visit member => (account.past visit member).trans ordered
  refine Account.visit rate
    (level_nonneg params bucket now capacity rate account.tokens_nonneg)
    past account.bound ?_
  intro first firstLe
  by_cases early : first ≤ bucket.last
  · have sameSpent :
        spentWithin visits first now =
          spentWithin visits first bucket.last :=
      spentWithin_congr_last visits first account.past ordered (le_refl _)
    have balance := account.balance first early
    have inflow := level_le_inflow params bucket ordered
    have split : params.rate * (now - first) =
        params.rate * (now - bucket.last) +
          params.rate * (bucket.last - first) := by ring
    rw [sameSpent, split]
    linarith
  · -- Nothing was spent since `first`, so the capacity alone suffices.
    rw [spentWithin_eq_zero visits now account.past (not_le.mp early)]
    have full := level_le_capacity params bucket now
    have flow : 0 ≤ params.rate * (now - first) :=
      mul_nonneg rate (by linarith)
    linarith

end LightWaf.Theory.TokenBucket
