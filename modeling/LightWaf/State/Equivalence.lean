import LightWaf.State.Store

/-!
# The stores cannot be told apart

The ideal store keeps every bucket for ever.  The in-memory store sweeps idle
buckets when it is full, and the Redis server drops keys after their deadline.
For fixed parameters all three answer every sequence of calls alike.

`Represents` is the relation carried along the runs.  For Redis it is joined
by a bound on deadlines: a key is never dropped before a full refill.
-/

namespace LightWaf.State

open LightWaf.Rust
open LightWaf.Theory

/-- One `try_acquire` call and the clock reading it runs at. -/
structure Call (Key : Type) where
  key : Key
  cost : ℚ
  time : ℚ

/-- What happens at the Redis server: a call, or keys being dropped. -/
inductive ServerEvent (Key : Type)
  | acquire (call : Call Key)
  | expire (chosen : Key → Bool) (moment : ℚ)

/-- When a server event happens. -/
def ServerEvent.time {Key : Type} : ServerEvent Key → ℚ
  | acquire call => call.time
  | expire _ moment => moment

/-- The calls among the server events. -/
def ServerEvent.call? {Key : Type} : ServerEvent Key → Option (Call Key)
  | acquire call => some call
  | expire _ _ => none

section Runs

variable {Key : Type} [DecidableEq Key]

/-- The answers of the store that never forgets a key. -/
def runIdeal (params : BucketParams) :
    BucketStore.Store Key ℚ → List (Call Key) → List Acquired
  | _, [] => []
  | store, call :: rest =>
      Acquired.ofVisit (TokenBucket.settle
          (TokenBucket.levelOf params.theory (store call.key) call.time)
          call.time call.cost) ::
        runIdeal params
          (BucketStore.visit params.theory store call.key call.time
            call.cost).2
          rest

/-- The answers of the in-memory store. -/
def runInMemory (params : BucketParams) :
    InMemoryStateStore Key → List (Call Key) → List Acquired
  | _, [] => []
  | store, call :: rest =>
      let outcome := store.tryAcquire call.time call.key call.cost params
      outcome.1 :: runInMemory params outcome.2 rest

/-- The answers of the Redis store, whose server drops keys in between. -/
def runRedis (params : BucketParams) :
    RedisStore Key → List (ServerEvent Key) → List Acquired
  | _, [] => []
  | store, .acquire call :: rest =>
      let outcome := store.acquire call.time call.key call.cost params
      outcome.1 :: runRedis params outcome.2 rest
  | store, .expire chosen moment :: rest =>
      runRedis params (store.dropExpired chosen moment) rest

end Runs

/-! ## What the stores forget -/

section Forgetting

variable {Key : Type} [DecidableEq Key]

/-- The sweep forgets only buckets that had a full refill to rest. -/
theorem makeRoom_forgets
    (store : InMemoryStateStore Key) (now : ℚ) (key : Key)
    (params : BucketParams)
    (capacity : 0 < params.capacity) (refill : 0 < params.refillPerSec) :
    BucketStore.Forgets params.theory now store.view
      (store.makeRoom now key params).get := by
  intro other
  unfold InMemoryStateStore.makeRoom sweepFullBuckets
  split_ifs with full stopped
  · exact Or.inl rfl
  · rw [HashMap.get_retain]
    cases stored : store.buckets.get other with
    | none => exact Or.inl (by simp [InMemoryStateStore.view, stored])
    | some bucket =>
        by_cases young :
            durationSince now bucket.last <
              params.capacity / params.refillPerSec
        · exact Or.inl (by
            simp [InMemoryStateStore.view, stored, young, Option.filter])
        · refine Or.inr ⟨by simp [young, Option.filter], bucket, stored, ?_⟩
          -- A full refill takes time, so the age is not the saturated zero.
          have positive : 0 < params.capacity / params.refillPerSec :=
            div_pos capacity refill
          rcases le_max_iff.mp (not_lt.mp young) with none | aged
          · exact absurd positive (not_lt.mpr none)
          · exact aged
  · exact Or.inl rfl

/-- A TTL that sets a deadline covers a full refill. -/
theorem fullRefill_le_ttlSecs
    (params : BucketParams)
    (refill : 0 < params.refillPerSec) (sets : 0 < ttlSecs params) :
    params.capacity / params.refillPerSec ≤ ttlSecs params := by
  unfold ttlSecs at sets ⊢
  rw [if_pos refill] at sets ⊢
  set secs := ⌈params.capacity / params.refillPerSec⌉₊
  have below : secs < 2 ^ 64 - 1 := by
    by_contra large
    rw [min_eq_right (not_lt.mp large)] at sets
    norm_num at sets
  have exactTtl : (min secs (2 ^ 64 - 1) + 1) % 2 ^ 64 = secs + 1 := by
    rw [min_eq_left below.le]
    exact Nat.mod_eq_of_lt (by omega)
  rw [exactTtl]
  have ceiling : params.capacity / params.refillPerSec ≤ secs :=
    Nat.le_ceil _
  push_cast
  linarith

/-- Every deadline lies at least a full refill after the last visit. -/
def DeadlinesRest (params : BucketParams) (store : RedisStore Key) : Prop :=
  ∀ key bucket deadline, store.buckets.get key = some bucket →
    bucket.expireAt = some deadline →
      0 < ttlSecs params ∧
        bucket.ts + params.capacity / params.refillPerSec ≤ deadline

theorem DeadlinesRest.dropExpired
    {params : BucketParams} {store : RedisStore Key}
    (rest : DeadlinesRest params store)
    (chosen : Key → Bool) (moment : ℚ) :
    DeadlinesRest params (store.dropExpired chosen moment) := by
  intro key bucket deadline stored
  rw [RedisStore.dropExpired, HashMap.get_retain,
    Option.filter_eq_some_iff] at stored
  exact rest key bucket deadline stored.1

theorem DeadlinesRest.acquire
    {params : BucketParams} {store : RedisStore Key}
    (refill : 0 < params.refillPerSec)
    (rest : DeadlinesRest params store)
    (now : ℚ) (key : Key) (cost : ℚ) :
    DeadlinesRest params (store.acquire now key cost params).2 := by
  intro other bucket deadline stored due
  simp only [RedisStore.acquire, RedisStore.bucketLua,
    HashMap.get_insert] at stored
  by_cases same : other = key
  · rw [if_pos same, Option.some.injEq] at stored
    have visited : bucket.ts = now := by rw [← stored]
    have written :
        bucket.expireAt =
          if 0 < ttlSecs params then some (now + ttlSecs params)
          else (store.buckets.get key).bind RedisBucket.expireAt := by
      rw [← stored]
    rw [due] at written
    rw [visited]
    split_ifs at written with sets
    · refine ⟨sets, ?_⟩
      rw [Option.some.inj written]
      exact add_le_add_right (fullRefill_le_ttlSecs params refill sets) now
    · -- Without a TTL no earlier call has set a deadline either.
      obtain ⟨earlier, found, earlierDue⟩ :=
        Option.bind_eq_some_iff.mp written.symm
      exact absurd (rest key earlier deadline found earlierDue).1 sets
  · rw [if_neg same] at stored
    exact rest other bucket deadline stored due

/-- The server forgets only buckets that had a full refill to rest. -/
theorem dropExpired_forgets
    {params : BucketParams} {store : RedisStore Key}
    (rest : DeadlinesRest params store)
    (chosen : Key → Bool) (moment : ℚ) :
    BucketStore.Forgets params.theory moment store.view
      (store.dropExpired chosen moment).view := by
  intro key
  simp only [RedisStore.view, RedisStore.dropExpired, HashMap.get_retain]
  cases stored : store.buckets.get key with
  | none => exact Or.inl rfl
  | some bucket =>
      by_cases dropped :
          (chosen key && bucket.expireAt.any fun deadline =>
            deadline ≤ moment) = true
      · refine Or.inr ⟨by simp [Option.filter, dropped], _, rfl, ?_⟩
        obtain ⟨-, overdue⟩ := Bool.and_eq_true_iff.mp dropped
        cases due : bucket.expireAt with
        | none => simp [due] at overdue
        | some deadline =>
            have passed : deadline ≤ moment := by
              simpa [due] using overdue
            have rested := (rest key bucket deadline stored due).2
            show params.capacity / params.refillPerSec ≤ moment - bucket.ts
            linarith
      · exact Or.inl (by simp [Option.filter, dropped])

end Forgetting

/-! ## Order and empty stores -/

section Ordering

variable {Key : Type}

/-- Times that do not decrease and do not lie before `now`. -/
def InOrder (now : ℚ) (times : List ℚ) : Prop :=
  (now :: times).Pairwise (· ≤ ·)

/-- The store that has seen no call tracks no key. -/
def idealEmpty : BucketStore.Store Key ℚ :=
  fun _ => none

theorem represents_empty
    (params : BucketParams) (now : ℚ)
    {real : BucketStore.Store Key ℚ} (empty : ∀ key, real key = none) :
    BucketStore.Represents params.theory now idealEmpty real where
  level_eq := fun key later _ => by rw [empty key]; rfl
  tokens_nonneg := fun key bucket stored => by
    rw [empty key] at stored
    cases stored

theorem inOrder_head
    (times : List ℚ) (ordered : times.Pairwise (· ≤ ·)) :
    InOrder (times.head?.getD 0) times := by
  cases times with
  | nil => exact List.pairwise_singleton _ _
  | cons first rest =>
      refine List.pairwise_cons.mpr ⟨?_, ordered⟩
      intro time member
      rcases List.mem_cons.mp member with rfl | later
      · exact le_refl _
      · exact (List.pairwise_cons.mp ordered).1 time later

/-- The calls of an ordered list of events are themselves in order. -/
theorem calls_ordered
    (events : List (ServerEvent Key))
    (ordered : (events.map ServerEvent.time).Pairwise (· ≤ ·)) :
    ((events.filterMap ServerEvent.call?).map Call.time).Pairwise
      (· ≤ ·) := by
  rw [List.pairwise_map] at ordered ⊢
  rw [List.pairwise_filterMap]
  refine ordered.imp ?_
  intro event event' before call found call' found'
  cases event with
  | expire chosen moment => cases found
  | acquire first =>
      cases event' with
      | expire chosen moment => cases found'
      | acquire second =>
          obtain rfl := Option.some.inj found
          obtain rfl := Option.some.inj found'
          exact before

end Ordering

/-! ## Whole runs -/

section Agreement

variable {Key : Type} [DecidableEq Key]

theorem runInMemory_eq_runIdeal
    (params : BucketParams)
    (capacity : 0 < params.capacity) (refill : 0 < params.refillPerSec)
    (calls : List (Call Key)) (now : ℚ)
    (ordered : InOrder now (calls.map Call.time))
    (ideal : BucketStore.Store Key ℚ) (store : InMemoryStateStore Key)
    (related :
      BucketStore.Represents params.theory now ideal store.view) :
    runInMemory params store calls = runIdeal params ideal calls := by
  induction calls generalizing now ideal store with
  | nil => rfl
  | cons call rest induction =>
      have later : now ≤ call.time :=
        (List.pairwise_cons.mp ordered).1 call.time (by simp)
      have room :=
        (related.later later).forget refill
          (makeRoom_forgets store call.time call.key params capacity refill)
      obtain ⟨found, next⟩ :=
        room.visit capacity.le refill.le call.key call.cost
      obtain ⟨answer, view, -⟩ :=
        store.tryAcquire_spec call.time call.key call.cost params
      rw [runInMemory, runIdeal, answer, found]
      congr 1
      refine induction call.time (List.pairwise_cons.mp ordered).2 _ _ ?_
      rw [view]
      exact next

theorem runRedis_eq_runIdeal
    (params : BucketParams)
    (capacity : 0 < params.capacity) (refill : 0 < params.refillPerSec)
    (events : List (ServerEvent Key)) (now : ℚ)
    (ordered : InOrder now (events.map ServerEvent.time))
    (ideal : BucketStore.Store Key ℚ) (store : RedisStore Key)
    (related : BucketStore.Represents params.theory now ideal store.view)
    (deadlines : DeadlinesRest params store) :
    runRedis params store events =
      runIdeal params ideal (events.filterMap ServerEvent.call?) := by
  induction events generalizing now ideal store with
  | nil => rfl
  | cons event rest induction =>
      have later : now ≤ event.time :=
        (List.pairwise_cons.mp ordered).1 event.time (by simp)
      have restOrdered := (List.pairwise_cons.mp ordered).2
      cases event with
      | acquire call =>
          obtain ⟨found, next⟩ :=
            (related.later later).visit capacity.le refill.le call.key
              call.cost
          obtain ⟨answer, view⟩ :=
            store.bucketLua_spec call.time call.key call.cost params
          show runRedis params store (.acquire call :: rest) =
            runIdeal params ideal
              (call :: rest.filterMap ServerEvent.call?)
          rw [runRedis, runIdeal, answer]
          simp only [ServerEvent.time] at found
          rw [found]
          congr 1
          refine induction call.time restOrdered _ _ ?_
            (deadlines.acquire refill call.time call.key call.cost)
          rw [view]
          exact next
      | expire chosen moment =>
          rw [runRedis, List.filterMap_cons_none rfl]
          exact induction moment restOrdered _ _
            ((related.later later).forget refill
              (dropExpired_forgets deadlines chosen moment))
            (deadlines.dropExpired chosen moment)

/--
Store equivalence.  For calls on any keys at any costs in time order, the
in-memory store with any key cap and the Redis store with keys dropped at any
moment after their deadline answer as the store that never forgets does.
-/
theorem stores_agree
    (params : BucketParams)
    (capacity : 0 < params.capacity) (refill : 0 < params.refillPerSec)
    (maxTrackedKeys : Nat)
    (events : List (ServerEvent Key))
    (ordered : (events.map ServerEvent.time).Pairwise (· ≤ ·)) :
    let calls := events.filterMap ServerEvent.call?
    runInMemory params (InMemoryStateStore.withCap maxTrackedKeys) calls =
        runIdeal params idealEmpty calls ∧
      runRedis params RedisStore.empty events =
        runIdeal params idealEmpty calls := by
  intro calls
  constructor
  · exact runInMemory_eq_runIdeal params capacity refill calls _
      (inOrder_head _ (calls_ordered events ordered)) idealEmpty _
      (represents_empty params _ fun _ => rfl)
  · refine runRedis_eq_runIdeal params capacity refill events _
      (inOrder_head _ ordered) idealEmpty _
      (represents_empty params _ fun _ => rfl) ?_
    intro key bucket deadline stored
    cases stored

/-- A key that is spent, dropped at its deadline and called again. -/
theorem stores_agree_after_drop :
    let events : List (ServerEvent Nat) :=
      [.acquire ⟨7, 1, 0⟩, .acquire ⟨7, 1, 0⟩,
        .expire (fun _ => true) 2, .acquire ⟨7, 1, 2⟩]
    let params : BucketParams := ⟨1, 1⟩
    runInMemory params (InMemoryStateStore.withCap 0)
          (events.filterMap ServerEvent.call?) =
        [⟨true, 0⟩, ⟨false, 0⟩, ⟨true, 0⟩] ∧
      runRedis params RedisStore.empty events =
        [⟨true, 0⟩, ⟨false, 0⟩, ⟨true, 0⟩] := by
  intro events params
  have agree :=
    stores_agree params (by decide) (by decide) 0 events (by decide)
  have answers :
      runIdeal params idealEmpty (events.filterMap ServerEvent.call?) =
        [⟨true, 0⟩, ⟨false, 0⟩, ⟨true, 0⟩] := by
    decide +kernel
  exact ⟨agree.1.trans answers, agree.2.trans answers⟩

end Agreement

end LightWaf.State
