import LightWaf.State.Equivalence

/-!
# How many keys the in-memory store tracks

The store forgets idle buckets only when a key that it does not track arrives
at the cap.  After such a call the tracked keys are bounded by the cap or by
the keys used since the last full refill.  A call for a tracked key makes no
room, so buckets that have become idle in the meantime stay.
-/

namespace LightWaf.State

open LightWaf.Rust

variable {Key : Type} [DecidableEq Key]

/-! ## Runs -/

/-- The store after a sequence of calls. -/
def storeAfter (params : BucketParams) (maxTrackedKeys : Nat)
    (calls : List (Call Key)) : InMemoryStateStore Key :=
  calls.foldl
    (fun store call =>
      (store.tryAcquire call.time call.key call.cost params).2)
    (InMemoryStateStore.withCap maxTrackedKeys)

theorem storeAfter_append
    (params : BucketParams) (maxTrackedKeys : Nat)
    (past : List (Call Key)) (call : Call Key) :
    storeAfter params maxTrackedKeys (past ++ [call]) =
      ((storeAfter params maxTrackedKeys past).tryAcquire call.time call.key
        call.cost params).2 := by
  rw [storeAfter, List.foldl_append]
  rfl

/-- `InMemoryStateStore::tracked_keys`. -/
def InMemoryStateStore.trackedKeys (store : InMemoryStateStore Key) : Nat :=
  store.buckets.len

/--
The distinct keys used within the last full refill, with that of the current
call.
-/
def activeKeys (params : BucketParams) (past : List (Call Key))
    (call : Call Key) : List Key :=
  (call.key :: (past.filter fun earlier => decide
    (call.time - earlier.time < params.capacity / params.refillPerSec)).map
      Call.key).dedup

/-! ## What a call does to the buckets -/

/-- A call makes room and stamps the bucket of its key. -/
theorem tryAcquire_buckets
    (store : InMemoryStateStore Key) (now : ℚ) (key : Key) (cost : ℚ)
    (params : BucketParams) :
    ∃ tokens, (store.tryAcquire now key cost params).2 =
      { store with
        buckets := (store.makeRoom now key params).insert key
          ⟨tokens, now⟩ } := by
  rw [InMemoryStateStore.tryAcquire]
  split_ifs
  · exact ⟨_, rfl⟩
  · exact ⟨_, rfl⟩

/-- Making room keeps buckets as they are. -/
theorem get_makeRoom
    {store : InMemoryStateStore Key} {now : ℚ} {key other : Key}
    {params : BucketParams} {bucket : Bucket}
    (kept : (store.makeRoom now key params).get other = some bucket) :
    store.buckets.get other = some bucket := by
  rw [InMemoryStateStore.makeRoom, sweepFullBuckets] at kept
  split_ifs at kept
  · exact kept
  · rw [HashMap.get_retain, Option.filter_eq_some_iff] at kept
    exact kept.1
  · exact kept

/-- No room is made for a tracked key. -/
theorem makeRoom_of_tracked
    {store : InMemoryStateStore Key} {now : ℚ} {key : Key}
    {params : BucketParams} (tracked : store.buckets.containsKey key = true) :
    store.makeRoom now key params = store.buckets := by
  rw [InMemoryStateStore.makeRoom, tracked]
  rfl

/-- The run keeps the cap. -/
theorem storeAfter_cap
    (params : BucketParams) (maxTrackedKeys : Nat)
    (calls : List (Call Key)) :
    (storeAfter params maxTrackedKeys calls).maxTrackedKeys =
      max maxTrackedKeys 1 := by
  induction calls using List.reverseRecOn with
  | nil => rfl
  | append_singleton past call induction =>
      obtain ⟨tokens, after⟩ := tryAcquire_buckets
        (storeAfter params maxTrackedKeys past) call.time call.key call.cost
        params
      rw [storeAfter_append, after]
      exact induction

/-- Every bucket is stamped with a call for its key. -/
theorem exists_call_of_tracked
    {params : BucketParams} {maxTrackedKeys : Nat}
    {calls : List (Call Key)} {key : Key} {bucket : Bucket}
    (tracked : (storeAfter params maxTrackedKeys calls).buckets.get key =
      some bucket) :
    ∃ call ∈ calls, call.key = key ∧ call.time = bucket.last := by
  induction calls using List.reverseRecOn generalizing bucket with
  | nil => cases tracked
  | append_singleton past call induction =>
      obtain ⟨tokens, after⟩ := tryAcquire_buckets
        (storeAfter params maxTrackedKeys past) call.time call.key call.cost
        params
      rw [storeAfter_append, after, HashMap.get_insert] at tracked
      split_ifs at tracked with current
      · cases tracked
        exact ⟨call, List.mem_append_right _ List.mem_cons_self,
          current.symm, rfl⟩
      · obtain ⟨earlier, member, same⟩ := induction (get_makeRoom tracked)
        exact ⟨earlier, List.mem_append_left _ member, same⟩

/-- The buckets that survive a sweep are those of active keys. -/
theorem sweep_length_le
    {params : BucketParams} (refill : 0 < params.refillPerSec)
    {maxTrackedKeys : Nat} (past : List (Call Key)) {call : Call Key}
    (untracked : (storeAfter params maxTrackedKeys past).buckets.get
      call.key = none) :
    (sweepFullBuckets (storeAfter params maxTrackedKeys past).buckets
        call.time params).len + 1 ≤
      (activeKeys params past call).length := by
  rw [sweepFullBuckets, if_neg refill.not_ge]
  dsimp only
  have kept : ∀ key bucket,
      ((storeAfter params maxTrackedKeys past).buckets.retain
        fun _ bucket => decide (durationSince call.time bucket.last <
          params.capacity / params.refillPerSec)).get key = some bucket →
      (storeAfter params maxTrackedKeys past).buckets.get key =
          some bucket ∧
        durationSince call.time bucket.last <
          params.capacity / params.refillPerSec := by
    intro key bucket found
    rw [HashMap.get_retain, Option.filter_eq_some_iff,
      decide_eq_true_eq] at found
    exact found
  generalize (storeAfter params maxTrackedKeys past).buckets.retain _ =
    swept at kept
  have distinct : (call.key :: swept.entries.map Prod.fst).Nodup := by
    refine List.nodup_cons.mpr ⟨?_, swept.nodupKeys⟩
    intro member
    obtain ⟨⟨key, bucket⟩, inside, same⟩ := List.mem_map.mp member
    obtain ⟨tracked, -⟩ := kept key bucket (HashMap.get_eq_some_iff.mpr inside)
    rw [show key = call.key from same, untracked] at tracked
    cases tracked
  have active : call.key :: swept.entries.map Prod.fst ⊆
      activeKeys params past call := by
    intro key member
    rw [activeKeys, List.mem_dedup]
    rcases List.mem_cons.mp member with rfl | member
    · exact List.mem_cons_self
    · obtain ⟨⟨key, bucket⟩, inside, rfl⟩ := List.mem_map.mp member
      obtain ⟨tracked, young⟩ :=
        kept key bucket (HashMap.get_eq_some_iff.mpr inside)
      obtain ⟨earlier, listed, rfl, stamped⟩ := exists_call_of_tracked tracked
      apply List.mem_cons_of_mem
      refine List.mem_map_of_mem (List.mem_filter.mpr ⟨listed, ?_⟩)
      rw [decide_eq_true_eq, stamped]
      exact (le_max_right _ _).trans_lt young
  have bound := (List.subperm_of_subset distinct active).length_le
  rwa [List.length_cons, List.length_map] at bound

/--
For calls at any times, a call for a key that is not tracked leaves at most as
many buckets as the cap or, if these are more, the distinct keys used within
the last full refill.  A call for a tracked key leaves their number as it was.
-/
theorem trackedKeys_le
    {params : BucketParams} (refill : 0 < params.refillPerSec)
    {maxTrackedKeys : Nat} (cap : 1 ≤ maxTrackedKeys)
    (past : List (Call Key)) (call : Call Key) :
    ((storeAfter params maxTrackedKeys past).buckets.containsKey call.key =
        false →
      (storeAfter params maxTrackedKeys (past ++ [call])).trackedKeys ≤
        max maxTrackedKeys (activeKeys params past call).length) ∧
    ((storeAfter params maxTrackedKeys past).buckets.containsKey call.key =
        true →
      (storeAfter params maxTrackedKeys (past ++ [call])).trackedKeys =
        (storeAfter params maxTrackedKeys past).trackedKeys) := by
  obtain ⟨tokens, after⟩ := tryAcquire_buckets
    (storeAfter params maxTrackedKeys past) call.time call.key call.cost
    params
  rw [storeAfter_append, after]
  unfold InMemoryStateStore.trackedKeys
  rw [HashMap.len_insert]
  constructor
  · intro untracked
    have absent : (storeAfter params maxTrackedKeys past).buckets.get
        call.key = none := by
      simpa [HashMap.containsKey] using untracked
    have fresh : ((storeAfter params maxTrackedKeys past).makeRoom call.time
        call.key params).containsKey call.key = false := by
      rw [HashMap.containsKey, Option.isSome_eq_false_iff,
        Option.isNone_iff_eq_none, Option.eq_none_iff_forall_ne_some]
      intro bucket kept
      cases absent.symm.trans (get_makeRoom kept)
    rw [fresh, if_neg Bool.false_ne_true, InMemoryStateStore.makeRoom,
      untracked, storeAfter_cap, Nat.max_eq_left cap]
    split_ifs with full
    · exact (sweep_length_le refill past absent).trans (le_max_right _ _)
    · apply le_trans _ (le_max_left _ _)
      simpa using full
  · intro tracked
    rw [makeRoom_of_tracked tracked, tracked, if_pos rfl]

/--
A call for a tracked key, long after the others went idle, leaves more
buckets than the cap of one and the one active key.
-/
theorem trackedKeys_exceeds_active :
    let params : BucketParams := ⟨10, 1⟩
    let past : List (Call Nat) := [⟨1, 1, 0⟩, ⟨2, 1, 0⟩]
    let call : Call Nat := ⟨1, 1, 100⟩
    ((past ++ [call]).map Call.time).Pairwise (· ≤ ·) ∧
      ¬ (storeAfter params 1 (past ++ [call])).trackedKeys ≤
        max 1 (activeKeys params past call).length := by
  decide +kernel

theorem trackedKeys_le_third_key :
    let params : BucketParams := ⟨10, 1⟩
    let past : List (Call Nat) := [⟨1, 1, 0⟩, ⟨2, 1, 0⟩]
    let call : Call Nat := ⟨3, 1, 100⟩
    0 < params.refillPerSec ∧
      (storeAfter params 1 past).trackedKeys = 2 ∧
      (storeAfter params 1 (past ++ [call])).trackedKeys ≤
        max 1 (activeKeys params past call).length := by
  intro params past call
  have refill : 0 < params.refillPerSec := by decide
  exact ⟨refill, by decide +kernel,
    (trackedKeys_le refill le_rfl past call).1 (by decide +kernel)⟩

end LightWaf.State
