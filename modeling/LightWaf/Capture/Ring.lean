import LightWaf.ControlPlane.Captures
import LightWaf.Rust.HashMap
import LightWaf.Theory.BoundedQueue

/-!
# The ring of captures

`waf-capture/src/ring.rs` keeps recent captures in a map, the order of their
keys in a queue and the sum of their sizes in a counter.  The three represent
one queue of entries, oldest first, and every operation on them is one on that
queue; so they stay in step and within the bounds over any run.  The code
holds a lock during an operation, which therefore has one moment.
-/

namespace LightWaf.Capture

open LightWaf.Rust
open LightWaf.Theory
open LightWaf.ControlPlane.Captures (CapturedRequest)

/-! ## The ring -/

/-- The size of named values. -/
def pairsBytes (pairs : List (Text × Text)) : Nat :=
  (pairs.map fun pair => byteLen pair.1 + byteLen pair.2).sum

/-- `CapturedRequest::estimated_bytes`. -/
def estimatedBytes (req : CapturedRequest) : Nat :=
  byteLen req.bodyB64 + pairsBytes req.headers + pairsBytes req.cookies +
    byteLen req.requestId + byteLen req.method + byteLen req.path +
    (req.query.map byteLen).getD 0

/-- `Entry`, made with the estimated size of its capture. -/
structure Entry where
  req : CapturedRequest
  inserted : Nat
  bytes : Nat
  sized : bytes = estimatedBytes req

/-- `RingInner`. -/
structure RingInner where
  map : HashMap Text Entry
  order : List Text
  totalBytes : Nat

/-- `RingInner::default`. -/
def RingInner.empty : RingInner :=
  ⟨HashMap.empty, [], 0⟩

/-- The bounds of a `CaptureRing`; what its lock guards is passed along. -/
structure CaptureRing where
  capacity : Nat
  maxBytes : Nat
  ttl : Nat

/-- `CaptureRing::new`. -/
def CaptureRing.new (capacity maxBytes ttl : Nat) : CaptureRing :=
  ⟨max capacity 1, maxBytes, ttl⟩

/-- A subtraction of sizes, `none` where it underflows. -/
def checkedSub (left right : Nat) : Option Nat :=
  if right ≤ left then some (left - right) else none

namespace CaptureRing

variable (ring : CaptureRing)

/-- The loop of `evict_expired` over the order. -/
def evictExpired (now : Nat) (map : HashMap Text Entry) (totalBytes : Nat) :
    List Text → Option RingInner
  | [] => some ⟨map, [], totalBytes⟩
  | front :: order =>
      match map.get front with
      | some entry =>
          if ring.ttl < now - entry.inserted then do
            let totalBytes ← checkedSub totalBytes entry.bytes
            evictExpired now (map.remove front) totalBytes order
          else some ⟨map, front :: order, totalBytes⟩
      | none => some ⟨map, front :: order, totalBytes⟩

/-- The loop of `insert` that evicts the oldest entries. -/
def evictOldest (map : HashMap Text Entry) (totalBytes : Nat) :
    List Text → Option RingInner
  | [] => some ⟨map, [], totalBytes⟩
  | oldest :: order =>
      if decide (ring.capacity < map.len) ||
          (decide (ring.maxBytes < totalBytes) && decide (1 < map.len)) then
        match map.get oldest with
        | some entry => do
            let totalBytes ← checkedSub totalBytes entry.bytes
            evictOldest (map.remove oldest) totalBytes order
        | none => evictOldest map totalBytes order
      else some ⟨map, oldest :: order, totalBytes⟩

/-- Remove a key from the map, the counter and the order. -/
def removeKey (key : Text) (inner : RingInner) :
    Option (Option Entry × RingInner) :=
  match inner.map.get key with
  | some entry => do
      let totalBytes ← checkedSub inner.totalBytes entry.bytes
      some (some entry, ⟨inner.map.remove key,
        inner.order.filter fun other => decide (other ≠ key), totalBytes⟩)
  | none => some (none, inner)

/-- `CaptureRing::insert`. -/
def insert (now : Nat) (req : CapturedRequest) (inner : RingInner) :
    Option RingInner := do
  let bytes := estimatedBytes req
  let key := req.requestId
  let inner ← ring.evictExpired now inner.map inner.totalBytes inner.order
  let (_, inner) ← removeKey key inner
  ring.evictOldest (inner.map.insert key ⟨req, now, bytes, rfl⟩)
    (inner.totalBytes + bytes) (inner.order ++ [key])

/-- `CaptureRing::take`. -/
def take (now : Nat) (requestId : Text) (inner : RingInner) :
    Option (Option CapturedRequest × RingInner) := do
  let inner ← ring.evictExpired now inner.map inner.totalBytes inner.order
  let (entry, inner) ← removeKey requestId inner
  some (entry.map Entry.req, inner)

end CaptureRing

/-! ## Runs -/

/-- An operation on the ring. -/
inductive Operation
  | insert (req : CapturedRequest)
  | take (requestId : Text)

/-- What an operation does at a moment, and the capture it returns. -/
def CaptureRing.perform (ring : CaptureRing) (now : Nat)
    (operation : Operation) (inner : RingInner) :
    Option (Option CapturedRequest × RingInner) :=
  match operation with
  | .insert req => (ring.insert now req inner).map fun inner => (none, inner)
  | .take requestId => ring.take now requestId inner

/-- The ring and the captures taken after operations at their moments. -/
def CaptureRing.run (ring : CaptureRing)
    (operations : List (Nat × Operation)) :
    Option (List CapturedRequest × RingInner) :=
  operations.foldlM
    (fun state operation => do
      let (returned, inner) ←
        ring.perform operation.1 operation.2 state.2
      some (state.1 ++ returned.toList, inner))
    ([], RingInner.empty)

/-- The captures that operations insert. -/
def insertedBy (operations : List (Nat × Operation)) :
    List CapturedRequest :=
  operations.filterMap fun operation =>
    match operation.2 with
    | .insert req => some req
    | .take _ => none

/-- What the ring owes at a moment. -/
structure RingSound (ring : CaptureRing) (now : Nat) (inner : RingInner) :
    Prop where
  keys : ∀ key, key ∈ inner.order ↔ (inner.map.get key).isSome = true
  nodup : inner.order.Nodup
  ordered : inner.order.Pairwise fun left right => ∀ older younger,
    inner.map.get left = some older → inner.map.get right = some younger →
      older.inserted ≤ younger.inserted
  totalBytes : inner.totalBytes =
    (inner.map.entries.map fun entry => entry.2.bytes).sum
  count : inner.map.len ≤ ring.capacity
  light : inner.totalBytes ≤ ring.maxBytes ∨ inner.map.len = 1
  young : ∀ key entry, inner.map.get key = some entry →
    now - entry.inserted ≤ ring.ttl

/-! ## The queue of entries -/

open BoundedQueue

/-- The map, the order and the counter represent a queue of entries. -/
structure Represents (inner : RingInner) (queue : List (Text × Entry)) :
    Prop where
  entries : inner.map.entries.Perm queue
  order : inner.order = queue.map Prod.fst
  totalBytes : inner.totalBytes = totalWeight Entry.bytes queue

namespace Represents

variable {inner : RingInner} {queue : List (Text × Entry)}

theorem get_iff (represents : Represents inner queue) {key : Text}
    {entry : Entry} :
    inner.map.get key = some entry ↔ (key, entry) ∈ queue := by
  rw [HashMap.get_eq_some_iff]
  exact represents.entries.mem_iff

theorem len_eq (represents : Represents inner queue) :
    inner.map.len = queue.length :=
  represents.entries.length_eq

end Represents

theorem checkedSub_add (left right : Nat) :
    checkedSub (left + right) left = some right := by
  rw [checkedSub, if_pos (Nat.le_add_right left right),
    Nat.add_sub_cancel_left]

/-- The front of the queue, taken out of all three. -/
theorem Represents.pop
    {inner : RingInner} {key : Text} {entry : Entry}
    {rest : List (Text × Entry)}
    (represents : Represents inner ((key, entry) :: rest)) :
    inner.map.get key = some entry ∧
      checkedSub inner.totalBytes entry.bytes =
        some (totalWeight Entry.bytes rest) ∧
      Represents ⟨inner.map.remove key, rest.map Prod.fst,
        totalWeight Entry.bytes rest⟩ rest := by
  have stored : inner.map.get key = some entry :=
    represents.get_iff.mpr List.mem_cons_self
  have total : inner.totalBytes =
      entry.bytes + totalWeight Entry.bytes rest :=
    represents.totalBytes
  refine ⟨stored, ?_, ?_, rfl, rfl⟩
  · rw [total, checkedSub_add]
  · exact ((HashMap.entries_perm_remove stored).symm.trans
      represents.entries).cons_inv

/-- The eviction of old entries drops them from the queue. -/
theorem evictExpired_represents
    (ring : CaptureRing) (now : Nat) {inner : RingInner}
    {queue : List (Text × Entry)} (represents : Represents inner queue) :
    ∃ after, ring.evictExpired now inner.map inner.totalBytes inner.order =
        some after ∧
      Represents after (dropExpired Entry.inserted ring.ttl now queue) := by
  induction queue generalizing inner with
  | nil =>
      rw [represents.order]
      exact ⟨_, rfl, represents.entries, rfl, represents.totalBytes⟩
  | cons front rest induction =>
      obtain ⟨key, entry⟩ := front
      obtain ⟨stored, total, later⟩ := represents.pop
      rw [represents.order, List.map_cons, CaptureRing.evictExpired, stored,
        dropExpired_cons]
      dsimp only
      split_ifs with expired
      · rw [total]
        exact induction later
      · exact ⟨_, rfl, represents.entries, rfl, represents.totalBytes⟩

/-- The eviction of the oldest entries trims the queue. -/
theorem evictOldest_represents
    (ring : CaptureRing) {inner : RingInner} {queue : List (Text × Entry)}
    (represents : Represents inner queue) :
    ∃ after, ring.evictOldest inner.map inner.totalBytes inner.order =
        some after ∧
      Represents after
        (BoundedQueue.trim Entry.bytes ring.capacity ring.maxBytes
          queue) := by
  induction queue generalizing inner with
  | nil =>
      rw [represents.order]
      exact ⟨_, rfl, represents.entries, rfl, represents.totalBytes⟩
  | cons oldest rest induction =>
      obtain ⟨key, entry⟩ := oldest
      obtain ⟨stored, total, later⟩ := represents.pop
      rw [represents.order, List.map_cons, CaptureRing.evictOldest, stored,
        represents.len_eq, BoundedQueue.trim, overBudget,
        ← represents.totalBytes]
      split_ifs with exceeded
      · dsimp only
        rw [total]
        exact induction later
      · exact ⟨_, rfl, represents.entries, rfl, represents.totalBytes⟩

/-- An entry and the entries under other keys are all of the queue. -/
theorem perm_without
    {inner : RingInner} {queue : List (Text × Entry)}
    (represents : Represents inner queue) {key : Text} {entry : Entry}
    (stored : inner.map.get key = some entry) :
    queue.Perm ((key, entry) :: without key queue) := by
  have removed : (inner.map.remove key).entries.Perm (without key queue) :=
    represents.entries.filter _
  exact represents.entries.symm.trans
    ((HashMap.entries_perm_remove stored).trans (removed.cons _))

/-- A key without an entry has nothing to take out of the queue. -/
theorem without_of_none
    {inner : RingInner} {queue : List (Text × Entry)}
    (represents : Represents inner queue) {key : Text}
    (absent : inner.map.get key = none) :
    without key queue = queue := by
  apply List.filter_eq_self.mpr
  rintro ⟨other, entry⟩ member
  rw [decide_eq_true_eq]
  rintro rfl
  cases absent.symm.trans (represents.get_iff.mpr member)

/-- Removing a key takes its entry out of the queue. -/
theorem removeKey_represents
    (key : Text) {inner : RingInner} {queue : List (Text × Entry)}
    (represents : Represents inner queue) :
    ∃ after, CaptureRing.removeKey key inner =
        some (inner.map.get key, after) ∧
      after.map.get key = none ∧
      Represents after (without key queue) := by
  rw [CaptureRing.removeKey]
  cases stored : inner.map.get key with
  | none =>
      refine ⟨inner, rfl, stored, ?_⟩
      rw [without_of_none represents stored]
      exact represents
  | some entry =>
      have total : inner.totalBytes = entry.bytes +
          totalWeight Entry.bytes (without key queue) := by
        rw [represents.totalBytes]
        exact ((perm_without represents stored).map _).sum_eq
      refine ⟨⟨inner.map.remove key, inner.order.filter fun other =>
        decide (other ≠ key), totalWeight Entry.bytes (without key queue)⟩,
        ?_, ?_, ?_, ?_, rfl⟩
      · dsimp only
        rw [total, checkedSub_add]
        rfl
      · dsimp only
        rw [HashMap.remove, HashMap.get_retain, stored]
        simp
      · exact represents.entries.filter _
      · dsimp only
        rw [represents.order, List.filter_map]
        rfl

/-- An insertion pushes the entry behind those that are young enough. -/
theorem insert_represents
    (ring : CaptureRing) (now : Nat) (req : CapturedRequest)
    {inner : RingInner} {queue : List (Text × Entry)}
    (represents : Represents inner queue) :
    ∃ after, ring.insert now req inner = some after ∧
      Represents after
        (BoundedQueue.trim Entry.bytes ring.capacity ring.maxBytes
          (without req.requestId
            (dropExpired Entry.inserted ring.ttl now queue) ++
            [(req.requestId, ⟨req, now, estimatedBytes req, rfl⟩)])) := by
  obtain ⟨young, evicted, youngQueue⟩ :=
    evictExpired_represents ring now represents
  obtain ⟨others, removed, absent, othersQueue⟩ :=
    removeKey_represents req.requestId youngQueue
  let entry : Entry := ⟨req, now, estimatedBytes req, rfl⟩
  have pushed : Represents
      ⟨others.map.insert req.requestId entry, others.order ++ [req.requestId],
        others.totalBytes + estimatedBytes req⟩
      (without req.requestId
        (dropExpired Entry.inserted ring.ttl now queue) ++
        [(req.requestId, entry)]) := by
    constructor
    · have placed : (others.map.insert req.requestId entry).entries =
          (req.requestId, entry) :: others.map.entries :=
        congrArg _ (HashMap.entries_remove_of_none absent)
      rw [placed]
      exact (othersQueue.entries.cons _).trans
        (List.perm_append_singleton _ _).symm
    · rw [List.map_append, ← othersQueue.order]
      rfl
    · rw [totalWeight, List.map_append, List.sum_append, ← totalWeight,
        ← othersQueue.totalBytes]
      rfl
  obtain ⟨after, trimmed, queue⟩ := evictOldest_represents ring pushed
  refine ⟨after, ?_, queue⟩
  rw [CaptureRing.insert, evicted, Option.bind_eq_bind, Option.bind_some,
    removed]
  exact trimmed

/-- A take returns the entry of the key, if it is young enough. -/
theorem take_represents
    (ring : CaptureRing) (now : Nat) (requestId : Text)
    {inner : RingInner} {queue : List (Text × Entry)}
    (represents : Represents inner queue) :
    ∃ (entry : Option Entry) (after : RingInner),
      ring.take now requestId inner = some (entry.map Entry.req, after) ∧
      Represents after (without requestId
        (dropExpired Entry.inserted ring.ttl now queue)) ∧
      (dropExpired Entry.inserted ring.ttl now queue).Perm
        ((entry.map fun entry => (requestId, entry)).toList ++
          without requestId
            (dropExpired Entry.inserted ring.ttl now queue)) := by
  obtain ⟨young, evicted, youngQueue⟩ :=
    evictExpired_represents ring now represents
  obtain ⟨after, removed, absent, afterQueue⟩ :=
    removeKey_represents requestId youngQueue
  refine ⟨young.map.get requestId, after, ?_, afterQueue, ?_⟩
  · rw [CaptureRing.take, evicted, Option.bind_eq_bind, Option.bind_some,
      removed]
    rfl
  · cases stored : young.map.get requestId with
    | some entry => exact perm_without youngQueue stored
    | none =>
        rw [without_of_none youngQueue stored]
        rfl

/-! ## What every operation keeps -/

/-- The captures in a queue. -/
def heldIn (queue : List (Text × Entry)) : List CapturedRequest :=
  queue.map fun entry => entry.2.req

/--
The ring represents a queue that is sound at a moment, and the captures taken
with those it still holds come from insertions, one for each.
-/
def Tracks (ring : CaptureRing) (now : Nat)
    (inserted taken : List CapturedRequest) (inner : RingInner) : Prop :=
  ∃ queue, Represents inner queue ∧
    Sound Entry.bytes Entry.inserted ring.capacity ring.maxBytes ring.ttl
      now queue ∧
    (taken ++ heldIn queue).Subperm inserted

theorem tracks_empty (ring : CaptureRing) (now : Nat) :
    Tracks ring now [] [] RingInner.empty :=
  ⟨[], ⟨List.Perm.nil, rfl, rfl⟩, sound_nil _ _ _ _, List.Subperm.refl _⟩

theorem heldIn_sublist
    {part queue : List (Text × Entry)} (sub : part.Sublist queue) :
    (heldIn part).Sublist (heldIn queue) :=
  sub.map _

/-- An insertion keeps track and leaves its capture in the ring. -/
theorem insert_tracks
    {ring : CaptureRing} (room : 1 ≤ ring.capacity) {before now : Nat}
    (later : before ≤ now) {inserted taken : List CapturedRequest}
    {inner : RingInner} (tracks : Tracks ring before inserted taken inner)
    (req : CapturedRequest) :
    ∃ after, ring.insert now req inner = some after ∧
      Tracks ring now (inserted ++ [req]) taken after ∧
      ∃ entry, after.map.get req.requestId = some entry ∧
        entry.req = req ∧ entry.inserted = now := by
  obtain ⟨queue, represents, sound, accounted⟩ := tracks
  obtain ⟨after, done, afterQueue⟩ :=
    insert_represents ring now req represents
  let entry : Entry := ⟨req, now, estimatedBytes req, rfl⟩
  obtain ⟨older, behind, split⟩ := trim_append Entry.bytes ring.maxBytes room
    (without req.requestId (dropExpired Entry.inserted ring.ttl now queue))
    (req.requestId, entry)
  refine ⟨after, done, ⟨_, afterQueue,
    (sound.dropExpired later).push req.requestId rfl, ?_⟩, entry, ?_, rfl,
    rfl⟩
  · rw [split, heldIn, List.map_append, ← heldIn, ← List.append_assoc]
    have kept : (heldIn older).Sublist (heldIn queue) :=
      heldIn_sublist (behind.sublist.trans (List.filter_sublist.trans
        (dropExpired_suffix _ _ _ queue).sublist))
    have before : (taken ++ heldIn older).Subperm inserted :=
      ((List.Sublist.refl taken).append kept).subperm.trans accounted
    exact (List.subperm_append_right [req]).mpr before
  · rw [afterQueue.get_iff, split]
    exact List.mem_append_right _ List.mem_cons_self

/-- A take keeps track; what it returns is held no longer. -/
theorem take_tracks
    {ring : CaptureRing} {before now : Nat} (later : before ≤ now)
    {inserted taken : List CapturedRequest} {inner : RingInner}
    (tracks : Tracks ring before inserted taken inner) (requestId : Text) :
    ∃ returned after, ring.take now requestId inner =
        some (returned, after) ∧
      Tracks ring now inserted (taken ++ returned.toList) after := by
  obtain ⟨queue, represents, sound, accounted⟩ := tracks
  obtain ⟨entry, after, done, afterQueue, perm⟩ :=
    take_represents ring now requestId represents
  refine ⟨_, after, done, _, afterQueue,
    (sound.dropExpired later).sublist List.filter_sublist, ?_⟩
  have moved : ((entry.map Entry.req).toList ++ heldIn (without requestId
      (dropExpired Entry.inserted ring.ttl now queue))).Perm
        (heldIn (dropExpired Entry.inserted ring.ttl now queue)) := by
    have held := (perm.map fun entry => entry.2.req).symm
    rw [List.map_append] at held
    cases entry with
    | none => exact held
    | some entry => exact held
  have kept : (heldIn (dropExpired Entry.inserted ring.ttl now queue)).Sublist
      (heldIn queue) :=
    heldIn_sublist (dropExpired_suffix _ _ _ queue).sublist
  rw [List.append_assoc]
  exact (((moved.append_left taken).subperm.trans
    ((List.Sublist.refl taken).append kept).subperm)).trans accounted

/-- What a sound queue means for the ring that represents it. -/
theorem ringSound_of_represents
    {ring : CaptureRing} {now : Nat} {inner : RingInner}
    {queue : List (Text × Entry)} (represents : Represents inner queue)
    (sound : Sound Entry.bytes Entry.inserted ring.capacity ring.maxBytes
      ring.ttl now queue) :
    RingSound ring now inner where
  keys := by
    intro key
    rw [represents.order, Option.isSome_iff_exists]
    simp only [represents.get_iff, List.mem_map, Prod.exists,
      exists_and_right, exists_eq_right]
  nodup := by
    rw [represents.order]
    exact sound.distinct
  ordered := by
    rw [represents.order, List.pairwise_map]
    apply sound.ordered.imp_of_mem
    rintro ⟨left, older⟩ ⟨right, younger⟩ leftMember rightMember stamps
    intro leftEntry rightEntry leftStored rightStored
    cases leftStored.symm.trans (represents.get_iff.mpr leftMember)
    cases rightStored.symm.trans (represents.get_iff.mpr rightMember)
    exact stamps
  totalBytes := by
    rw [represents.totalBytes]
    exact (represents.entries.symm.map _).sum_eq
  count := represents.len_eq.trans_le sound.count
  light := by
    rw [represents.totalBytes, represents.len_eq]
    exact sound.light
  young := by
    intro key entry stored
    exact sound.young _ (represents.get_iff.mp stored)

/-! ## What every run keeps -/

/-- The moment of the last operation. -/
def lastMoment (operations : List (Nat × Operation)) : Nat :=
  (operations.getLast?.map Prod.fst).getD 0

theorem lastMoment_append
    (past : List (Nat × Operation)) (now : Nat) (operation : Operation) :
    lastMoment (past ++ [(now, operation)]) = now := by
  rw [lastMoment, List.getLast?_concat]
  rfl

theorem lastMoment_le
    {past : List (Nat × Operation)} {now : Nat} {operation : Operation}
    (ordered : ((past ++ [(now, operation)]).map Prod.fst).Pairwise
      (· ≤ ·)) :
    lastMoment past ≤ now := by
  rw [lastMoment]
  cases last : past.getLast? with
  | none => exact Nat.zero_le now
  | some final =>
      rw [List.map_append, List.pairwise_append] at ordered
      exact ordered.2.2 _
        (List.mem_map_of_mem (List.mem_of_getLast? last)) _
        List.mem_cons_self

/-- One operation keeps track, and an insertion leaves its capture. -/
theorem perform_tracks
    {ring : CaptureRing} (room : 1 ≤ ring.capacity) {before now : Nat}
    (later : before ≤ now) {inserted taken : List CapturedRequest}
    {inner : RingInner} (tracks : Tracks ring before inserted taken inner)
    (operation : Operation) :
    ∃ returned after, ring.perform now operation inner =
        some (returned, after) ∧
      Tracks ring now (inserted ++ insertedBy [(now, operation)])
        (taken ++ returned.toList) after ∧
      ∀ req, operation = .insert req →
        ∃ entry, after.map.get req.requestId = some entry ∧
          entry.req = req ∧ entry.inserted = now := by
  cases operation with
  | insert req =>
      obtain ⟨after, done, tracked, present⟩ :=
        insert_tracks room later tracks req
      refine ⟨none, after, ?_, ?_, ?_⟩
      · rw [CaptureRing.perform, done]
        rfl
      · rw [Option.toList_none, List.append_nil]
        exact tracked
      · rintro _ ⟨rfl⟩
        exact present
  | take requestId =>
      obtain ⟨returned, after, done, tracked⟩ :=
        take_tracks later tracks requestId
      refine ⟨returned, after, done, ?_, ?_⟩
      · rw [show insertedBy [(now, Operation.take requestId)] = [] from rfl,
          List.append_nil]
        exact tracked
      · intro req same
        cases same

theorem run_append
    {ring : CaptureRing} {past : List (Nat × Operation)} {now : Nat}
    {operation : Operation} {taken : List CapturedRequest}
    {inner after : RingInner} {returned : Option CapturedRequest}
    (ran : ring.run past = some (taken, inner))
    (done : ring.perform now operation inner = some (returned, after)) :
    ring.run (past ++ [(now, operation)]) =
      some (taken ++ returned.toList, after) := by
  rw [CaptureRing.run] at ran ⊢
  rw [List.foldlM_append, ran]
  simp [done]

/-- A run in time order returns, and keeps track. -/
theorem run_tracks
    {ring : CaptureRing} (room : 1 ≤ ring.capacity)
    (operations : List (Nat × Operation))
    (ordered : (operations.map Prod.fst).Pairwise (· ≤ ·)) :
    ∃ taken inner, ring.run operations = some (taken, inner) ∧
      Tracks ring (lastMoment operations) (insertedBy operations) taken
        inner := by
  induction operations using List.reverseRecOn with
  | nil => exact ⟨[], RingInner.empty, rfl, tracks_empty ring 0⟩
  | append_singleton past step induction =>
      obtain ⟨now, operation⟩ := step
      have earlier : (past.map Prod.fst).Pairwise (· ≤ ·) :=
        ordered.sublist ((List.sublist_append_left past _).map Prod.fst)
      obtain ⟨taken, inner, ran, tracks⟩ := induction earlier
      obtain ⟨returned, after, done, tracked, -⟩ :=
        perform_tracks room (lastMoment_le ordered) tracks operation
      refine ⟨_, after, run_append ran done, ?_⟩
      rw [lastMoment_append, insertedBy, List.filterMap_append]
      exact tracked

/--
For all bounds and all operations in time order: after each operation the ring
is sound, no subtraction having underflowed; the capture of an insertion is
present right after it; and the captures taken so far, with those the ring
still holds, are among the inserted ones, each at most as often as it was
inserted.
-/
theorem captureRing_sound
    (capacity maxBytes ttl : Nat) (past : List (Nat × Operation))
    (now : Nat) (operation : Operation)
    (ordered : ((past ++ [(now, operation)]).map Prod.fst).Pairwise
      (· ≤ ·)) :
    ∃ taken inner,
      (CaptureRing.new capacity maxBytes ttl).run
        (past ++ [(now, operation)]) = some (taken, inner) ∧
      RingSound (CaptureRing.new capacity maxBytes ttl) now inner ∧
      (∀ req, operation = .insert req →
        ∃ entry, inner.map.get req.requestId = some entry ∧
          entry.req = req ∧ entry.inserted = now) ∧
      (taken ++ inner.map.entries.map fun entry => entry.2.req).Subperm
        (insertedBy (past ++ [(now, operation)])) := by
  have room : 1 ≤ (CaptureRing.new capacity maxBytes ttl).capacity :=
    le_max_right capacity 1
  have earlier : (past.map Prod.fst).Pairwise (· ≤ ·) :=
    ordered.sublist ((List.sublist_append_left past _).map Prod.fst)
  obtain ⟨taken, inner, ran, tracks⟩ := run_tracks room past earlier
  obtain ⟨returned, after, done, ⟨queue, represents, sound, accounted⟩,
    present⟩ := perform_tracks room (lastMoment_le ordered) tracks operation
  refine ⟨_, after, run_append ran done,
    ringSound_of_represents represents sound, present, ?_⟩
  rw [insertedBy, List.filterMap_append]
  exact ((represents.entries.map _).append_left _).subperm.trans accounted

/-- A capture of an empty request under an id. -/
def emptyCapture (requestId : String) : CapturedRequest where
  requestId := requestId.toList
  method := "GET".toList
  path := "/".toList
  query := none
  httpVersion := "HTTP/1.1".toList
  headers := []
  cookies := []
  bodyB64 := []
  bodySize := 0
  bodyTruncated := false
  redacted := []

/-- A ring for one capture: the second insertion evicts the first. -/
def evictingRun : List (Nat × Operation) :=
  [(0, .insert (emptyCapture "r1")), (1, .insert (emptyCapture "r2"))]

theorem captureRing_sound_evicting :
    ((evictingRun ++ [(2, Operation.take "r1".toList)]).map Prod.fst).Pairwise
        (· ≤ ·) ∧
      ∃ taken inner,
        (CaptureRing.new 1 64 5).run
          (evictingRun ++ [(2, Operation.take "r1".toList)]) = some (taken, inner) ∧
        RingSound (CaptureRing.new 1 64 5) 2 inner := by
  have ordered : ((evictingRun ++ [(2, Operation.take "r1".toList)]).map
      Prod.fst).Pairwise (· ≤ ·) := by
    decide
  obtain ⟨taken, inner, ran, sound, -⟩ :=
    captureRing_sound 1 64 5 evictingRun 2 (.take "r1".toList) ordered
  exact ⟨ordered, taken, inner, ran, sound⟩

end LightWaf.Capture
