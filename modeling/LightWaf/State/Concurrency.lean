import LightWaf.State.Store

/-!
# Concurrent callers of the in-memory store

`try_acquire` reads the clock, then takes the lock, then refills and consumes.
A call is therefore two steps, and between them other calls may run.  The
state below keeps the calls that have read the clock and wait for the lock.

The budget of a key over an interval holds in every run in which no call
enters with a reading older than the last one its bucket has seen.  Without
that condition it fails: a late reading winds the bucket's clock back, and
the same span of time is refilled twice.
-/

namespace LightWaf.State

open LightWaf.Rust
open LightWaf.Theory

variable {Key : Type} [DecidableEq Key]

/-- A call that has read the clock and has not entered yet. -/
structure Waiting (Key : Type) where
  key : Key
  cost : ℚ≥0
  reading : ℚ

/-- A finished call: what was asked, when, and what was answered. -/
structure Finished (Key : Type) extends Waiting Key where
  allowed : Bool

/-- The cost a finished call was granted. -/
def Finished.granted (call : Finished Key) : ℚ :=
  if call.allowed then call.cost else 0

/-- The shared store, the clock, and the calls under way and done. -/
structure World (Key : Type) where
  clock : ℚ
  waiting : List (Waiting Key)
  store : InMemoryStateStore Key
  finished : List (Finished Key)

/-- The steps the scheduler chooses from. -/
inductive Action (Key : Type)
  /-- Time passes. -/
  | tick (elapsed : ℚ≥0)
  /-- A new call reads the clock. -/
  | read (key : Key) (cost : ℚ≥0)
  /-- The call at this position of the waiting list runs under the lock. -/
  | enter (position : Nat)

/-- No call has been made. -/
def World.initial (maxTrackedKeys : Nat) : World Key where
  clock := 0
  waiting := []
  store := InMemoryStateStore.withCap maxTrackedKeys
  finished := []

/-- The critical section of one waiting call. -/
def World.enter
    (params : BucketParams) (world : World Key) (position : Nat)
    (call : Waiting Key) : World Key :=
  let outcome :=
    world.store.tryAcquire call.reading call.key call.cost params
  { world with
    waiting := world.waiting.eraseIdx position
    store := outcome.2
    finished := world.finished ++ [⟨call, outcome.1.allowed⟩] }

/-- One step of the interleaving. -/
def step (params : BucketParams) (world : World Key) :
    Action Key → Option (World Key)
  | .tick elapsed => some { world with clock := world.clock + elapsed }
  | .read key cost =>
      some { world with
        waiting := world.waiting ++ [⟨key, cost, world.clock⟩] }
  | .enter position =>
      (world.waiting[position]?).map (world.enter params position)

/-- The sweep before the call's insertion drops nothing. -/
def KeepsBuckets
    (params : BucketParams) (world : World Key) : Action Key → Prop
  | .enter position => ∀ call, world.waiting[position]? = some call →
      world.store.makeRoom call.reading call.key params =
        world.store.buckets
  | _ => True

/-- The call enters with a reading not older than its bucket's last one. -/
def inTurn (world : World Key) : Action Key → Bool
  | .enter position =>
      (world.waiting[position]?).all fun call =>
        (world.store.view call.key).all fun bucket =>
          bucket.last ≤ call.reading
  | _ => true

/-- The condition that admits every interleaving. -/
def anyOrder (_world : World Key) (_action : Action Key) : Bool :=
  true

/-- The worlds reached by steps that satisfy a condition and never evict. -/
inductive Reached
    (params : BucketParams) (maxTrackedKeys : Nat)
    (condition : World Key → Action Key → Bool) : World Key → Prop
  | initial : Reached params maxTrackedKeys condition
      (World.initial maxTrackedKeys)
  | step {world next : World Key} (action : Action Key)
      (reached : Reached params maxTrackedKeys condition world)
      (keeps : KeepsBuckets params world action)
      (admitted : condition world action = true)
      (moved : step params world action = some next) :
      Reached params maxTrackedKeys condition next

/--
The calls of one key that read the clock within an interval are granted no
more than the capacity and the inflow of that interval.
-/
def WithinBudget (params : BucketParams) (world : World Key) : Prop :=
  ∀ (key : Key) (first last : ℚ), first ≤ last →
    ∀ calls : List (Finished Key), calls.Sublist world.finished →
      (∀ call ∈ calls, call.key = key ∧
        first ≤ call.reading ∧ call.reading ≤ last) →
      (calls.map Finished.granted).sum ≤
        params.capacity + params.refillPerSec * (last - first)

/-! ## The accounts of all keys -/

/-- A finished call as a visit of its key's bucket. -/
def Finished.visit (call : Finished Key) : TokenBucket.Visit ℚ :=
  ⟨call.reading, call.cost, call.allowed⟩

/-- The visits of one key, in the order of the critical sections. -/
def visitsOf (key : Key) (calls : List (Finished Key)) :
    List (TokenBucket.Visit ℚ) :=
  (calls.filter fun call => call.key = key).map Finished.visit

theorem visitsOf_append_one
    (key : Key) (calls : List (Finished Key)) (call : Finished Key) :
    visitsOf key (calls ++ [call]) =
      visitsOf key calls ++
        if call.key = key then [call.visit] else [] := by
  unfold visitsOf
  rw [List.filter_append, List.map_append]
  by_cases same : call.key = key
  · simp [same]
  · simp [same]

/-- Every bucket has an account of its visits; untracked keys have none. -/
def Accounts (params : BucketParams) (world : World Key) : Prop :=
  ∀ key, match world.store.view key with
    | none => visitsOf key world.finished = []
    | some bucket =>
        TokenBucket.Account params.theory
          (visitsOf key world.finished) bucket

theorem accounts_initial
    (params : BucketParams) (maxTrackedKeys : Nat) :
    Accounts params (World.initial maxTrackedKeys : World Key) := by
  intro key
  rfl

/-- The critical section of a call in turn keeps the accounts. -/
theorem accounts_enter
    (params : BucketParams)
    (capacity : 0 ≤ params.capacity) (refill : 0 ≤ params.refillPerSec)
    (world : World Key) (position : Nat) (call : Waiting Key)
    (keeps : world.store.makeRoom call.reading call.key params =
      world.store.buckets)
    (turn : ∀ bucket, world.store.view call.key = some bucket →
      bucket.last ≤ call.reading)
    (accounts : Accounts params world) :
    Accounts params (world.enter params position call) := by
  obtain ⟨answer, view, -⟩ :=
    world.store.tryAcquire_spec call.reading call.key call.cost params
  simp only [keeps] at answer view
  intro key
  simp only [World.enter, visitsOf_append_one, view, answer]
  have account := accounts key
  by_cases same : call.key = key
  · subst same
    simp only [if_true, BucketStore.visit, Function.update_self,
      Finished.visit, Acquired.ofVisit]
    cases stored : world.store.buckets.get call.key with
    | none =>
        simp only [InMemoryStateStore.view, stored] at account
        rw [account]
        exact TokenBucket.Account.open call.reading (call.cost : ℚ)
          capacity refill
    | some bucket =>
        simp only [InMemoryStateStore.view, stored] at account
        exact account.step capacity refill (call.cost : ℚ)
          (turn bucket stored)
  · have other : Function.update world.store.buckets.get call.key
        (some (TokenBucket.settle
          (TokenBucket.levelOf params.theory
            (world.store.buckets.get call.key) call.reading)
          call.reading call.cost).2) key =
        world.store.view key :=
      Function.update_of_ne (Ne.symm same) _ _
    simp only [BucketStore.visit, other, if_neg same, List.append_nil]
    exact account

/-- One step of the interleaving keeps the accounts. -/
theorem accounts_step
    (params : BucketParams)
    (capacity : 0 ≤ params.capacity) (refill : 0 ≤ params.refillPerSec)
    {world next : World Key} (action : Action Key)
    (keeps : KeepsBuckets params world action)
    (turn : inTurn world action = true)
    (moved : step params world action = some next)
    (accounts : Accounts params world) :
    Accounts params next := by
  cases action with
  | tick elapsed =>
      obtain rfl := Option.some.inj moved
      exact accounts
  | read key cost =>
      obtain rfl := Option.some.inj moved
      exact accounts
  | enter position =>
      obtain ⟨call, found, rfl⟩ := Option.map_eq_some_iff.mp moved
      refine accounts_enter params capacity refill world position call
        (keeps call found) ?_ accounts
      intro bucket stored
      simpa [inTurn, found, stored] using turn

/-- Every world reached by calls in turn has its accounts. -/
theorem accounts_of_reached
    (params : BucketParams)
    (capacity : 0 ≤ params.capacity) (refill : 0 ≤ params.refillPerSec)
    (maxTrackedKeys : Nat) (world : World Key)
    (reached : Reached params maxTrackedKeys inTurn world) :
    Accounts params world := by
  induction reached with
  | initial => exact accounts_initial params maxTrackedKeys
  | step action reached keeps turn moved induction =>
      exact accounts_step params capacity refill action keeps turn moved
        induction

/-- A choice of calls is granted at most what all calls of the key are. -/
theorem granted_le_spentWithin
    (key : Key) (first last : ℚ)
    (calls finished : List (Finished Key))
    (chosen : calls.Sublist finished)
    (inside : ∀ call ∈ calls, call.key = key ∧
      first ≤ call.reading ∧ call.reading ≤ last) :
    (calls.map Finished.granted).sum ≤
      TokenBucket.spentWithin (visitsOf key finished) first last := by
  have kept :
      calls.filter (fun call => decide (call.key = key) &&
        decide (first ≤ call.reading ∧ call.reading ≤ last)) = calls := by
    rw [List.filter_eq_self]
    intro call member
    have := inside call member
    simp [this]
  have sublist :
      (calls.map Finished.granted).Sublist
        ((finished.filter fun call => decide (call.key = key) &&
          decide (first ≤ call.reading ∧ call.reading ≤ last)).map
            Finished.granted) := by
    rw [← kept]
    exact (chosen.filter _).map _
  have spent :
      TokenBucket.spentWithin (visitsOf key finished) first last =
        ((finished.filter fun call => decide (call.key = key) &&
          decide (first ≤ call.reading ∧ call.reading ≤ last)).map
            Finished.granted).sum := by
    unfold TokenBucket.spentWithin visitsOf
    rw [List.filter_map, List.filter_filter, List.map_map]
    congr 2
    refine List.filter_congr fun call _ => ?_
    rw [Bool.and_comm]
    rfl
  rw [spent]
  refine sublist.sum_le_sum ?_
  intro amount member
  obtain ⟨call, -, rfl⟩ := List.mem_map.mp member
  unfold Finished.granted
  split_ifs
  · exact call.cost.2
  · exact le_refl _

/--
Rate-limit conformance under concurrency.  In every interleaving whose calls
enter in turn, every choice of calls on a key stays within its budget.
-/
theorem withinBudget_of_inTurn
    (params : BucketParams)
    (capacity : 0 ≤ params.capacity) (refill : 0 ≤ params.refillPerSec)
    (maxTrackedKeys : Nat) (world : World Key)
    (reached : Reached params maxTrackedKeys inTurn world) :
    WithinBudget params world := by
  intro key first last interval calls chosen inside
  have account :=
    accounts_of_reached params capacity refill maxTrackedKeys world reached
      key
  refine (granted_le_spentWithin key first last calls world.finished chosen
    inside).trans ?_
  cases stored : world.store.view key with
  | none =>
      simp only [stored] at account
      rw [account, TokenBucket.spentWithin_nil]
      exact add_nonneg capacity (mul_nonneg refill (by linarith))
  | some bucket =>
      simp only [stored] at account
      exact account.bound first last interval

/-! ## Schedules -/

/--
Run a list of actions that satisfy a condition, while the store has room for
one more key.
-/
def schedule
    (params : BucketParams) (condition : World Key → Action Key → Bool) :
    World Key → List (Action Key) → Option (World Key)
  | world, [] => some world
  | world, action :: rest =>
      if world.store.buckets.len < world.store.maxTrackedKeys ∧
          condition world action then
        (step params world action).bind fun next =>
          schedule params condition next rest
      else none

/-- A store with room sweeps nothing. -/
theorem keepsBuckets_of_room
    (params : BucketParams) (world : World Key) (action : Action Key)
    (room : world.store.buckets.len < world.store.maxTrackedKeys) :
    KeepsBuckets params world action := by
  cases action with
  | tick elapsed => trivial
  | read key cost => trivial
  | enter position =>
      intro call found
      unfold InMemoryStateStore.makeRoom
      rw [if_neg (by simp [room])]

/-- What a schedule reaches is reached. -/
theorem reached_of_schedule
    (params : BucketParams) (maxTrackedKeys : Nat)
    (condition : World Key → Action Key → Bool)
    (actions : List (Action Key)) {world last : World Key}
    (reached : Reached params maxTrackedKeys condition world)
    (ran : schedule params condition world actions = some last) :
    Reached params maxTrackedKeys condition last := by
  induction actions generalizing world with
  | nil => exact Option.some.inj ran ▸ reached
  | cons action rest induction =>
      rw [schedule] at ran
      split_ifs at ran with admitted
      obtain ⟨next, moved, ran⟩ := Option.bind_eq_some_iff.mp ran
      exact induction
        (.step action reached
          (keepsBuckets_of_room params world action admitted.1)
          admitted.2 moved)
        ran

/-- Two calls at one moment, in turn. -/
def twoCalls : List (Action Nat) :=
  [.read 0 1, .read 0 1, .enter 0, .enter 0]

theorem twoCalls_run :
    (schedule ⟨1, 1⟩ inTurn (World.initial 10) twoCalls).isSome = true := by
  decide +kernel

/-- Of two calls in turn the second finds no token. -/
theorem withinBudget_of_twoCalls :
    ∃ world : World Nat,
      world.finished.map Finished.allowed = [true, false] ∧
        WithinBudget ⟨1, 1⟩ world := by
  refine ⟨_, ?_, withinBudget_of_inTurn ⟨1, 1⟩ (by decide) (by decide) 10 _
    (reached_of_schedule ⟨1, 1⟩ 10 inTurn twoCalls .initial
      (Option.some_get twoCalls_run).symm)⟩
  decide +kernel

/-- Two calls read at 0 and three at 1; late and early ones alternate. -/
def lateReaders : List (Action Nat) :=
  [.read 0 1, .read 0 1, .tick 1, .read 0 1, .read 0 1, .read 0 1,
    .enter 2, .enter 0, .enter 1, .enter 0, .enter 0]

theorem lateReaders_run :
    (schedule ⟨1, 1⟩ anyOrder (World.initial 10) lateReaders).isSome =
      true := by
  decide +kernel

/--
The budget is exceeded when late readers enter in between: the bucket of one
token a second grants three tokens to calls that read the clock within one
second.
-/
theorem budget_exceeded_by_lateReaders :
    ¬ ∀ params : BucketParams, 0 ≤ params.capacity →
      0 ≤ params.refillPerSec →
      ∀ (maxTrackedKeys : Nat) (world : World Nat),
        Reached params maxTrackedKeys anyOrder world →
        WithinBudget params world := by
  intro budget
  have reached :=
    reached_of_schedule ⟨1, 1⟩ 10 anyOrder lateReaders .initial
      (Option.some_get lateReaders_run).symm
  have within :=
    budget ⟨1, 1⟩ (by decide) (by decide) 10 _ reached 0 0 1 (by decide) _
      (List.Sublist.refl _) (by decide +kernel)
  exact absurd within (by decide +kernel)

end LightWaf.State
