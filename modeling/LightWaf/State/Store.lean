import LightWaf.Rust.HashMap
import LightWaf.Theory.BucketStore
import Mathlib.Data.Rat.Floor

/-!
# The rate-limit state stores

`InMemoryStateStore` is the single-process token-bucket store of
`waf-core/src/state.rs`, `RedisStore` the distributed one of
`waf-state-redis/src/lib.rs` with its server-side script.

Floating-point quantities and instants are exact rationals; an instant is its
distance in seconds from an arbitrary origin.  The key type is arbitrary.
-/

namespace LightWaf.State

open LightWaf.Rust
open LightWaf.Theory

/-- Parameters of one token bucket, passed with every call. -/
structure BucketParams where
  capacity : ℚ
  refillPerSec : ℚ

/-- Outcome of one attempt: the level is the one after the attempt. -/
structure Acquired where
  allowed : Bool
  tokensRemaining : ℚ
deriving DecidableEq

/-- A stored bucket: its level and the instant of its last update. -/
abbrev Bucket := TokenBucket.Bucket ℚ

/-- The parameters in the terms of the bucket theory. -/
def BucketParams.theory (params : BucketParams) : TokenBucket.Params ℚ where
  capacity := params.capacity
  rate := params.refillPerSec

/-- `Instant::duration_since`, which saturates at zero. -/
def durationSince (later earlier : ℚ) : ℚ :=
  max 0 (later - earlier)

/-! ## The in-memory store -/

/-- The in-memory store: a bound on tracked keys and the live buckets. -/
structure InMemoryStateStore (Key : Type) where
  maxTrackedKeys : Nat
  buckets : HashMap Key Bucket

/-- Drop the buckets whose elapsed time reaches a full refill. -/
def sweepFullBuckets {Key : Type}
    (buckets : HashMap Key Bucket) (now : ℚ) (params : BucketParams) :
    HashMap Key Bucket :=
  if params.refillPerSec ≤ 0 then buckets
  else
    let fullRefill := params.capacity / params.refillPerSec
    buckets.retain fun _ bucket =>
      durationSince now bucket.last < fullRefill

namespace InMemoryStateStore

variable {Key : Type} [DecidableEq Key]

/-- A fresh store; the cap is at least one. -/
def withCap (maxTrackedKeys : Nat) : InMemoryStateStore Key where
  maxTrackedKeys := max maxTrackedKeys 1
  buckets := HashMap.empty

/-- The buckets after making room for `key`. -/
def makeRoom
    (store : InMemoryStateStore Key) (now : ℚ) (key : Key)
    (params : BucketParams) : HashMap Key Bucket :=
  if !store.buckets.containsKey key &&
      decide (store.maxTrackedKeys ≤ store.buckets.len) then
    sweepFullBuckets store.buckets now params
  else store.buckets

/--
The critical section of `try_acquire`, entered with the clock reading `now`.

The source reads the clock before it takes the lock, so `now` is an argument
here and not read inside.
-/
def tryAcquire
    (store : InMemoryStateStore Key) (now : ℚ) (key : Key) (cost : ℚ)
    (params : BucketParams) : Acquired × InMemoryStateStore Key :=
  let buckets := store.makeRoom now key params
  let bucket := (buckets.get key).getD ⟨params.capacity, now⟩
  let elapsed := durationSince now bucket.last
  let tokens :=
    min (bucket.tokens + elapsed * params.refillPerSec) params.capacity
  if cost ≤ tokens then
    (⟨true, tokens - cost⟩,
      { store with buckets := buckets.insert key ⟨tokens - cost, now⟩ })
  else
    (⟨false, tokens⟩,
      { store with buckets := buckets.insert key ⟨tokens, now⟩ })

/-- What the store tracks, key by key. -/
def view (store : InMemoryStateStore Key) : BucketStore.Store Key ℚ :=
  store.buckets.get

end InMemoryStateStore

/-! ## The Redis store -/

/-- A bucket hash on the server with the deadline `EXPIRE` gave it. -/
structure RedisBucket where
  tokens : ℚ
  ts : ℚ
  expireAt : Option ℚ

/-- The server-side key space of the buckets. -/
structure RedisStore (Key : Type) where
  buckets : HashMap Key RedisBucket

/--
The TTL of a bucket: `ceil() as u64 + 1`.

The cast saturates at `u64::MAX`, where the addition wraps to zero.
-/
def ttlSecs (params : BucketParams) : Nat :=
  if 0 < params.refillPerSec then
    (min ⌈params.capacity / params.refillPerSec⌉₊ (2 ^ 64 - 1) + 1) % 2 ^ 64
  else 3600

namespace RedisStore

variable {Key : Type} [DecidableEq Key]

/-- The empty key space. -/
def empty : RedisStore Key :=
  ⟨HashMap.empty⟩

/-- The server drops those of the chosen keys whose deadline has passed. -/
def dropExpired
    (store : RedisStore Key) (chosen : Key → Bool) (now : ℚ) :
    RedisStore Key where
  buckets := store.buckets.retain fun key bucket =>
    !(chosen key && bucket.expireAt.any fun deadline => deadline ≤ now)

/--
The script `BUCKET_LUA` at server time `now`.

A TTL of zero sets no deadline, and writing the hash keeps an earlier one.
-/
def bucketLua
    (store : RedisStore Key) (key : Key)
    (capacity refill cost : ℚ) (ttl : Nat) (now : ℚ) :
    Acquired × RedisStore Key :=
  let data := store.buckets.get key
  let tokens := (data.map RedisBucket.tokens).getD capacity
  let ts := (data.map RedisBucket.ts).getD now
  let elapsed := if now - ts < 0 then 0 else now - ts
  let tokens := min capacity (tokens + elapsed * refill)
  let allowed := decide (cost ≤ tokens)
  let tokens := if allowed then tokens - cost else tokens
  let expireAt :=
    if 0 < ttl then some (now + ttl) else data.bind RedisBucket.expireAt
  (⟨allowed, tokens⟩, ⟨store.buckets.insert key ⟨tokens, now, expireAt⟩⟩)

/-- `acquire` when the round trip to the server succeeds. -/
def acquire
    (store : RedisStore Key) (now : ℚ) (key : Key) (cost : ℚ)
    (params : BucketParams) : Acquired × RedisStore Key :=
  store.bucketLua key params.capacity params.refillPerSec cost
    (ttlSecs params) now

/-- The buckets of the key space without their deadlines. -/
def view (store : RedisStore Key) : BucketStore.Store Key ℚ :=
  fun key => (store.buckets.get key).map fun bucket =>
    ⟨bucket.tokens, bucket.ts⟩

end RedisStore

/-! ## One call, in the terms of the bucket theory -/

/-- The answer a settled visit gives. -/
def Acquired.ofVisit (outcome : Bool × Bucket) : Acquired :=
  ⟨outcome.1, outcome.2.tokens⟩

namespace InMemoryStateStore

variable {Key : Type} [DecidableEq Key]

/-- The in-memory call settles a visit after making room. -/
theorem tryAcquire_spec
    (store : InMemoryStateStore Key) (now : ℚ) (key : Key) (cost : ℚ)
    (params : BucketParams) :
    let room := (store.makeRoom now key params).get
    (store.tryAcquire now key cost params).1 =
        Acquired.ofVisit (TokenBucket.settle
          (TokenBucket.levelOf params.theory (room key) now) now cost) ∧
      (store.tryAcquire now key cost params).2.view =
        (BucketStore.visit params.theory room key now cost).2 ∧
      (store.tryAcquire now key cost params).2.maxTrackedKeys =
        store.maxTrackedKeys := by
  intro room
  have found :
      min
          (((room key).getD ⟨params.capacity, now⟩).tokens +
            durationSince now ((room key).getD ⟨params.capacity, now⟩).last *
              params.refillPerSec)
          params.capacity =
        TokenBucket.levelOf params.theory (room key) now := by
    cases room key with
    | none =>
        simp [durationSince, TokenBucket.levelOf, BucketParams.theory]
    | some bucket => rfl
  have answer :
      store.tryAcquire now key cost params =
        (Acquired.ofVisit (TokenBucket.settle
          (TokenBucket.levelOf params.theory (room key) now) now cost),
        { store with
          buckets := (store.makeRoom now key params).insert key
            (TokenBucket.settle
              (TokenBucket.levelOf params.theory (room key) now)
              now cost).2 }) := by
    unfold tryAcquire
    simp only
    rw [found]
    unfold TokenBucket.settle
    split_ifs <;> rfl
  rw [answer]
  refine ⟨rfl, ?_, rfl⟩
  funext other
  simp only [view, HashMap.get_insert, BucketStore.visit, room]
  by_cases same : other = key
  · simp [same]
  · simp [same]

end InMemoryStateStore

namespace RedisStore

variable {Key : Type} [DecidableEq Key]

/-- The script settles a visit of the stored bucket. -/
theorem bucketLua_spec
    (store : RedisStore Key) (now : ℚ) (key : Key) (cost : ℚ)
    (params : BucketParams) :
    (store.acquire now key cost params).1 =
        Acquired.ofVisit (TokenBucket.settle
          (TokenBucket.levelOf params.theory (store.view key) now)
          now cost) ∧
      (store.acquire now key cost params).2.view =
        (BucketStore.visit params.theory store.view key now cost).2 := by
  set found :=
    TokenBucket.levelOf params.theory (store.view key) now with foundEq
  have level :
      min params.capacity
          (((store.buckets.get key).map RedisBucket.tokens).getD
              params.capacity +
            (if now - ((store.buckets.get key).map RedisBucket.ts).getD now < 0
              then 0
              else now -
                ((store.buckets.get key).map RedisBucket.ts).getD now) *
              params.refillPerSec) =
        found := by
    rw [foundEq, view]
    cases store.buckets.get key with
    | none => simp [TokenBucket.levelOf, BucketParams.theory]
    | some bucket =>
        have elapsed :
            (if now - bucket.ts < 0 then 0 else now - bucket.ts) =
              max 0 (now - bucket.ts) := by
          split_ifs with early
          · exact (max_eq_left early.le).symm
          · exact (max_eq_right (not_lt.mp early)).symm
        simp only [Option.map_some, Option.getD_some, elapsed]
        exact min_comm _ _
  have answer :
      (store.acquire now key cost params).1 =
        Acquired.ofVisit (TokenBucket.settle found now cost) := by
    unfold acquire bucketLua
    simp only
    rw [level]
    unfold TokenBucket.settle
    by_cases covered : cost ≤ found
    · simp [Acquired.ofVisit, covered]
    · simp [Acquired.ofVisit, covered]
  refine ⟨answer, ?_⟩
  have remaining := congrArg Acquired.tokensRemaining answer
  funext other
  by_cases same : other = key
  · subst same
    have stored :
        (store.acquire now other cost params).2.view other =
          some ⟨(store.acquire now other cost params).1.tokensRemaining,
            now⟩ := by
      simp [acquire, bucketLua, view]
    rw [stored, remaining]
    simp only [BucketStore.visit, Function.update_self, ← foundEq]
    rw [Option.some.injEq, TokenBucket.Bucket.mk.injEq]
    exact ⟨rfl, (TokenBucket.settle_last _ _ _).symm⟩
  · simp [acquire, bucketLua, view, BucketStore.visit, same,
      HashMap.get_insert_of_ne]

end RedisStore

end LightWaf.State
