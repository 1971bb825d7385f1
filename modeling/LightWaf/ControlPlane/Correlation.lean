import LightWaf.ControlPlane.Attribution

/-!
# How long a context is buffered

`Correlator::take` removes a context from the map and leaves its id in the
queue.  The buffer stays within its capacity and never returns a context that
is not the latest one of its id, but a context can be evicted in the place of
one that was taken: it is kept for `cap` further insertions exactly when the
queue held no entry of its id as it was inserted.
-/

namespace LightWaf.ControlPlane.Correlator

open LightWaf.Rust

/-! ## Runs -/

/-- A call of the correlator. -/
inductive Call
  | insert (requestId : Text) (ctx : ReqCtx)
  | take (requestId : Text)
deriving DecidableEq

/-- The correlator after a call. -/
def call (correlator : Correlator) : Call → Correlator
  | .insert requestId ctx => correlator.insert requestId ctx
  | .take requestId => (correlator.take requestId).2

/-- The correlator after a sequence of calls. -/
def after (correlator : Correlator) (calls : List Call) : Correlator :=
  calls.foldl call correlator

/-- A new correlator after a sequence of calls. -/
def run (cap : Nat) (calls : List Call) : Correlator :=
  (new cap).after calls

/-- Whether a call inserts an id that is not pending. -/
def Call.isFresh (correlator : Correlator) : Call → Bool
  | .insert requestId _ => (correlator.map.get requestId).isNone
  | .take _ => false

/-- The insertions of ids that are not pending at that point. -/
def freshInserts : Correlator → List Call → Nat
  | _, [] => 0
  | correlator, call :: rest =>
      (call.isFresh correlator).toNat +
        freshInserts (correlator.call call) rest

/-- The context that a call inserts for an id. -/
def Call.inserted (requestId : Text) : Call → Option ReqCtx
  | .insert other ctx => if other = requestId then some ctx else none
  | .take _ => none

/-- The context most recently inserted for an id. -/
def latestInsert (requestId : Text) (calls : List Call) : Option ReqCtx :=
  (calls.filterMap (Call.inserted requestId)).getLast?

/--
Until it is taken, or `cap` further insertions of ids that are not pending
have happened, the context of an id can be taken.
-/
def Retained (cap : Nat) (calls : List Call) (requestId : Text)
    (ctx : ReqCtx) : Prop :=
  ∀ later, .take requestId ∉ later →
    freshInserts ((run cap calls).insert requestId ctx) later < cap →
    ∃ found,
      ((run cap (calls ++ .insert requestId ctx :: later)).take
        requestId).1 = some found ∧
      latestInsert requestId (calls ++ .insert requestId ctx :: later) =
        some found

/-- What the buffer owes to its users after a sequence of calls. -/
structure Correlates (cap : Nat) (calls : List Call) (requestId : Text)
    (ctx : ReqCtx) : Prop where
  buffered : (run cap calls).map.len ≤ cap
  queued : (run cap calls).order.length ≤ cap
  latest : ∀ other found, ((run cap calls).take other).1 = some found →
    latestInsert other calls = some found
  retained : (run cap calls).map.get requestId = none →
    Retained cap calls requestId ctx

/-! ## One call -/

section Call

variable {correlator : Correlator} {requestId : Text}

@[simp]
theorem insert_cap (ctx : ReqCtx) :
    (correlator.insert requestId ctx).cap = correlator.cap := by
  rw [insert]
  dsimp only
  split_ifs <;> rfl

@[simp]
theorem call_cap (call : Call) :
    (correlator.call call).cap = correlator.cap := by
  cases call with
  | insert requestId ctx => exact insert_cap ctx
  | take requestId => rfl

theorem evict_of_le
    {cap : Nat} {order : List Text} (map : HashMap Text ReqCtx)
    (fits : order.length ≤ cap) :
    evict cap order map = (map, order) := by
  cases order with
  | nil => rfl
  | cons old order => rw [evict, if_neg (Nat.not_lt.mpr fits)]

/-- The context of a pending id is replaced. -/
theorem insert_of_pending
    {found : ReqCtx} (pending : correlator.map.get requestId = some found)
    (ctx : ReqCtx) :
    correlator.insert requestId ctx =
      { correlator with map := correlator.map.insert requestId ctx } := by
  rw [insert, pending]
  rfl

/-- Below the capacity nothing is evicted. -/
theorem insert_of_room
    (fresh : correlator.map.get requestId = none)
    (room : correlator.order.length < correlator.cap) (ctx : ReqCtx) :
    correlator.insert requestId ctx =
      { correlator with
        map := correlator.map.insert requestId ctx
        order := correlator.order ++ [requestId] } := by
  have fits : (correlator.order ++ [requestId]).length ≤ correlator.cap := by
    rw [List.length_append]
    exact room
  rw [insert, fresh]
  dsimp only
  rw [evict_of_le _ fits]
  rfl

/-- At the capacity the front of the queue is evicted. -/
theorem insert_of_full
    (fresh : correlator.map.get requestId = none)
    (full : correlator.order.length = correlator.cap) (ctx : ReqCtx)
    {old : Text} {rest : List Text}
    (queue : correlator.order ++ [requestId] = old :: rest) :
    correlator.insert requestId ctx =
      { correlator with
        map := (correlator.map.insert requestId ctx).remove old
        order := rest } := by
  have length := congrArg List.length queue
  rw [List.length_append, full] at length
  have fits : rest.length ≤ correlator.cap :=
    Nat.le_of_succ_le_succ length.ge
  have exceeds : correlator.cap < (old :: rest).length := by
    rw [← length]
    exact Nat.lt_succ_self _
  rw [insert, fresh]
  dsimp only
  rw [queue, evict, if_pos exceeds, evict_of_le _ fits]
  rfl

end Call

/-! ## The invariant -/

/-- The queue is within the capacity and holds every pending id. -/
structure Sound (correlator : Correlator) : Prop where
  fits : correlator.order.length ≤ correlator.cap
  listed : ∀ requestId ctx, correlator.map.get requestId = some ctx →
    requestId ∈ correlator.order

theorem Sound.len_le {correlator : Correlator} (sound : correlator.Sound) :
    correlator.map.len ≤ correlator.cap := by
  have listed : correlator.map.entries.map Prod.fst ⊆ correlator.order := by
    intro requestId member
    obtain ⟨entry, inside, rfl⟩ := List.mem_map.mp member
    exact sound.listed entry.1 entry.2 (HashMap.get_eq_some_iff.mpr inside)
  calc correlator.map.len
      = (correlator.map.entries.map Prod.fst).length :=
        (List.length_map _).symm
    _ ≤ correlator.order.length :=
        (List.subperm_of_subset correlator.map.nodupKeys listed).length_le
    _ ≤ correlator.cap := sound.fits

theorem sound_new (cap : Nat) : (new cap).Sound :=
  ⟨Nat.zero_le cap, fun _ _ pending => nomatch pending⟩

theorem Sound.insert
    {correlator : Correlator} (sound : correlator.Sound) (requestId : Text)
    (ctx : ReqCtx) : (correlator.insert requestId ctx).Sound := by
  have listed : ∀ other found,
      (correlator.map.insert requestId ctx).get other = some found →
        other ∈ correlator.order ++ [requestId] := by
    intro other found stored
    rw [HashMap.get_insert] at stored
    split_ifs at stored with same
    · exact List.mem_append_right _ (List.mem_singleton.mpr same)
    · exact List.mem_append_left _ (sound.listed other found stored)
  cases pending : correlator.map.get requestId with
  | some found =>
      rw [insert_of_pending pending]
      refine ⟨sound.fits, fun other found stored => ?_⟩
      rcases List.mem_append.mp (listed other found stored) with
        member | member
      · exact member
      · rw [List.mem_singleton.mp member]
        exact sound.listed requestId _ pending
  | none =>
      rcases Nat.lt_or_eq_of_le sound.fits with room | full
      · rw [insert_of_room pending room]
        refine ⟨?_, listed⟩
        rw [List.length_append]
        exact room
      · obtain ⟨old, rest, queue⟩ :=
          List.exists_cons_of_ne_nil
            (List.append_ne_nil_of_right_ne_nil correlator.order
              (List.cons_ne_nil requestId []))
        have length := congrArg List.length queue
        rw [List.length_append, full] at length
        rw [insert_of_full pending full ctx queue]
        refine ⟨Nat.le_of_succ_le_succ length.ge, ?_⟩
        intro other found stored
        obtain ⟨kept, stored⟩ := get_remove_eq_some stored
        have member := listed other found stored
        rw [queue] at member
        exact (List.mem_cons.mp member).resolve_left kept

theorem Sound.call
    {correlator : Correlator} (sound : correlator.Sound) (call : Call) :
    (correlator.call call).Sound := by
  cases call with
  | insert requestId ctx => exact sound.insert requestId ctx
  | take requestId =>
      exact ⟨sound.fits, fun other ctx stored =>
        sound.listed other ctx (get_remove_eq_some stored).2⟩

theorem Sound.after
    {correlator : Correlator} (sound : correlator.Sound)
    (calls : List Call) : (correlator.after calls).Sound := by
  induction calls generalizing correlator with
  | nil => exact sound
  | cons call calls induction => exact induction (sound.call call)

theorem sound_run (cap : Nat) (calls : List Call) :
    (run cap calls).Sound :=
  (sound_new cap).after calls

@[simp]
theorem after_cap (correlator : Correlator) (calls : List Call) :
    (correlator.after calls).cap = correlator.cap := by
  induction calls generalizing correlator with
  | nil => rfl
  | cons call calls induction =>
      exact (induction (correlator.call call)).trans (call_cap call)

@[simp]
theorem run_cap (cap : Nat) (calls : List Call) : (run cap calls).cap = cap :=
  after_cap (new cap) calls

theorem run_append (cap : Nat) (calls later : List Call) :
    run cap (calls ++ later) = (run cap calls).after later :=
  List.foldl_append

theorem latestInsert_concat
    (requestId : Text) (calls : List Call) (call : Call) :
    latestInsert requestId (calls ++ [call]) =
      (call.inserted requestId).or (latestInsert requestId calls) := by
  rw [latestInsert, List.filterMap_append, List.getLast?_append]
  cases inserted : call.inserted requestId with
  | none => simp [inserted, latestInsert]
  | some ctx => simp [inserted]

/-- What is pending is the latest insertion. -/
theorem latestInsert_of_pending
    {cap : Nat} {calls : List Call} {requestId : Text} {ctx : ReqCtx}
    (pending : (run cap calls).map.get requestId = some ctx) :
    latestInsert requestId calls = some ctx := by
  induction calls using List.reverseRecOn generalizing ctx with
  | nil => cases pending
  | append_singleton calls call induction =>
      rw [run_append] at pending
      rw [latestInsert_concat]
      cases call with
      | insert other inserted =>
          rw [Call.inserted]
          rcases get_insert_eq_some pending with
            ⟨rfl, rfl⟩ | ⟨differs, pending⟩
          · rw [if_pos rfl]
            rfl
          · rw [if_neg differs.symm]
            exact induction pending
      | take other => exact induction (get_remove_eq_some pending).2

/-! ## Retention -/

/--
A pending id with one entry in the queue so far, and a number of entries
behind it.
-/
structure Stands (correlator : Correlator) (requestId : Text)
    (front behind : List Text) : Prop where
  queue : correlator.order = front ++ requestId :: behind
  apart : requestId ∉ front
  pending : (correlator.map.get requestId).isSome

/--
What has less than `cap` entries behind it is kept by any call but the one
that takes it; only an insertion of an id that is not pending adds an entry.
-/
theorem Stands.call
    {correlator : Correlator} {requestId : Text} {front behind : List Text}
    (stands : correlator.Stands requestId front behind)
    (sound : correlator.Sound) {call : Call}
    (untaken : call ≠ .take requestId)
    (few : behind.length + (call.isFresh correlator).toNat <
      correlator.cap) :
    ∃ front others, (correlator.call call).Stands requestId front others ∧
      others.length = behind.length + (call.isFresh correlator).toNat := by
  obtain ⟨queue, apart, pending⟩ := stands
  cases call with
  | take other =>
      have differs : requestId ≠ other := fun same =>
        untaken (congrArg Call.take same.symm)
      refine ⟨front, behind, ⟨queue, apart, ?_⟩, rfl⟩
      exact (HashMap.get_remove_of_ne _ differs).symm ▸ pending
  | insert other inserted =>
      have kept : ((correlator.map.insert other inserted).get
          requestId).isSome := by
        rw [HashMap.get_insert]
        split_ifs
        · rfl
        · exact pending
      rw [Call.isFresh] at few ⊢
      rw [Correlator.call]
      cases before : correlator.map.get other with
      | some previous =>
          rw [insert_of_pending before]
          exact ⟨front, behind, ⟨queue, apart, kept⟩, rfl⟩
      | none =>
          rw [before] at few
          rcases Nat.lt_or_eq_of_le sound.fits with room | full
          · rw [insert_of_room before room, queue]
            refine ⟨front, behind ++ [other], ⟨?_, apart, kept⟩, ?_⟩
            · simp
            · simp
          · cases front with
            | nil =>
                -- The queue would hold `cap` entries behind the id.
                have length := congrArg List.length queue
                rw [full] at length
                simp at length few
                omega
            | cons old front =>
                have evicted : correlator.order ++ [other] =
                    old :: (front ++ requestId :: (behind ++ [other])) := by
                  simp [queue]
                have differs : requestId ≠ old :=
                  List.ne_of_not_mem_cons apart
                rw [insert_of_full before full inserted evicted]
                refine ⟨front, behind ++ [other],
                  ⟨rfl, List.not_mem_of_not_mem_cons apart, ?_⟩, by simp⟩
                exact (HashMap.get_remove_of_ne _ differs).symm ▸ kept

theorem Stands.after
    {correlator : Correlator} {requestId : Text} {front behind : List Text}
    (stands : correlator.Stands requestId front behind)
    (sound : correlator.Sound) {later : List Call}
    (untaken : .take requestId ∉ later)
    (few : behind.length + freshInserts correlator later <
      correlator.cap) :
    ((correlator.after later).map.get requestId).isSome := by
  induction later generalizing correlator front behind with
  | nil => exact stands.pending
  | cons call later induction =>
      rw [List.mem_cons, not_or] at untaken
      rw [freshInserts] at few
      obtain ⟨ahead, others, next, length⟩ :=
        stands.call sound (Ne.symm untaken.1) (by omega)
      apply induction next (sound.call call) untaken.2
      rw [call_cap]
      omega

/-- An id that the queue did not hold stands at its end. -/
theorem stands_insert
    {correlator : Correlator} (sound : correlator.Sound)
    (positive : 0 < correlator.cap) {requestId : Text}
    (fresh : correlator.map.get requestId = none)
    (absent : requestId ∉ correlator.order) (ctx : ReqCtx) :
    ∃ front, (correlator.insert requestId ctx).Stands requestId front [] := by
  have stored : ((correlator.map.insert requestId ctx).get
      requestId).isSome := by
    rw [HashMap.get_insert_self]
    rfl
  rcases Nat.lt_or_eq_of_le sound.fits with room | full
  · rw [insert_of_room fresh room]
    exact ⟨correlator.order, rfl, absent, stored⟩
  · cases queue : correlator.order with
    | nil =>
        rw [queue] at full
        exact absurd full positive.ne
    | cons old front =>
        rw [queue] at absent
        have differs : requestId ≠ old := List.ne_of_not_mem_cons absent
        rw [insert_of_full fresh full ctx
          (congrArg (· ++ [requestId]) queue)]
        refine ⟨front, rfl, List.not_mem_of_not_mem_cons absent, ?_⟩
        exact (HashMap.get_remove_of_ne _ differs).symm ▸ stored

/-! ## Stale entries -/

/-- There is always an id that is neither pending nor a given one. -/
theorem exists_fresh (correlator : Correlator) (requestId : Text) :
    ∃ other, other ≠ requestId ∧ correlator.map.get other = none := by
  obtain ⟨other, outside⟩ := Infinite.exists_notMem_finset
    (requestId :: correlator.map.entries.map Prod.fst).toFinset
  rw [List.mem_toFinset, List.mem_cons, not_or] at outside
  exact ⟨other, outside.1, HashMap.get_eq_none_iff.mpr outside.2⟩

/-- One more id fills the queue, or moves an entry towards its front. -/
theorem queue_of_insert
    {correlator : Correlator} (sound : correlator.Sound)
    {requestId other : Text} (fresh : correlator.map.get other = none)
    (ctx : ReqCtx) {front behind : List Text} {count : Nat}
    (queue : correlator.order = front ++ requestId :: behind)
    (room : correlator.cap - correlator.order.length + front.length =
      count + 1) :
    ∃ ahead, (correlator.insert other ctx).order =
        ahead ++ requestId :: (behind ++ [other]) ∧
      correlator.cap - (correlator.insert other ctx).order.length +
        ahead.length = count := by
  rcases Nat.lt_or_eq_of_le sound.fits with free | full
  · rw [insert_of_room fresh free]
    refine ⟨front, by simp [queue], ?_⟩
    rw [List.length_append, List.length_singleton]
    omega
  · cases front with
    | nil =>
        rw [full, Nat.sub_self] at room
        cases room
    | cons old front =>
        have evicted : correlator.order ++ [other] =
            old :: (front ++ requestId :: (behind ++ [other])) := by
          simp [queue]
        have length := congrArg List.length evicted
        rw [List.length_append, List.length_singleton, List.length_cons,
          Nat.succ_inj] at length
        rw [insert_of_full fresh full ctx evicted]
        refine ⟨front, rfl, ?_⟩
        rw [← length]
        exact Nat.succ_inj.mp room

/-- An entry in front of a full queue is evicted. -/
theorem get_insert_of_front
    {correlator : Correlator} (sound : correlator.Sound)
    {requestId other : Text} (fresh : correlator.map.get other = none)
    (ctx : ReqCtx) {front behind : List Text}
    (queue : correlator.order = front ++ requestId :: behind)
    (room : correlator.cap - correlator.order.length + front.length = 0) :
    (correlator.insert other ctx).map.get requestId = none := by
  have fits := sound.fits
  have full : correlator.order.length = correlator.cap := by omega
  have first : front = [] := List.eq_nil_of_length_eq_zero (by omega)
  have evicted : correlator.order ++ [other] =
      requestId :: (behind ++ [other]) := by
    rw [queue, first]
    rfl
  rw [insert_of_full fresh full ctx evicted]
  exact HashMap.get_remove_self _ _

/--
An entry of the queue is evicted by enough insertions of new ids, and the
context of its id with it.
-/
theorem exists_evicting
    {correlator : Correlator} (sound : correlator.Sound) {requestId : Text}
    {front behind : List Text}
    (queue : correlator.order = front ++ requestId :: behind) :
    ∃ later, .take requestId ∉ later ∧
      freshInserts correlator later + behind.length ≤ correlator.cap ∧
      (correlator.after later).map.get requestId = none := by
  have length := congrArg List.length queue
  rw [List.length_append, List.length_cons] at length
  have fits := sound.fits
  obtain ⟨other, differs, fresh⟩ := exists_fresh correlator requestId
  have counted : (Call.insert other {}).isFresh correlator = true := by
    rw [Call.isFresh, fresh]
    rfl
  induction room : correlator.cap - correlator.order.length + front.length
      generalizing correlator front behind other with
  | zero =>
      refine ⟨[.insert other {}], by simp, ?_,
        get_insert_of_front sound fresh {} queue room⟩
      rw [freshInserts, counted, freshInserts]
      simp only [Bool.toNat_true]
      omega
  | succ count induction =>
      obtain ⟨ahead, moved, left⟩ :=
        queue_of_insert sound fresh {} queue room
      obtain ⟨next, apart, unseen⟩ :=
        exists_fresh (correlator.insert other {}) requestId
      have total := congrArg List.length moved
      rw [List.length_append, List.length_cons] at total
      have again := sound.insert other {}
      obtain ⟨later, untaken, few, gone⟩ := induction again moved total
        again.fits next apart unseen (by rw [Call.isFresh, unseen]; rfl)
        (by rw [insert_cap]; exact left)
      refine ⟨.insert other {} :: later, ?_, ?_, gone⟩
      · simpa using untaken
      · rw [insert_cap, List.length_append, List.length_singleton] at few
        rw [freshInserts, counted, call]
        simp only [Bool.toNat_true]
        omega

/-- A context inserted beside a stale entry of its id is not retained. -/
theorem not_retained_of_stale
    {cap : Nat} {calls : List Call} {requestId : Text}
    (fresh : (run cap calls).map.get requestId = none)
    (stale : requestId ∈ (run cap calls).order) (ctx : ReqCtx) :
    ¬ Retained cap calls requestId ctx := by
  intro retained
  have sound := sound_run cap calls
  have caps := run_cap cap calls
  have lost : ∀ later, .take requestId ∉ later →
      freshInserts ((run cap calls).insert requestId ctx) later < cap →
      (((run cap calls).insert requestId ctx).after later).map.get
        requestId ≠ none := by
    intro later untaken few gone
    obtain ⟨found, taken, -⟩ := retained later untaken few
    rw [run_append] at taken
    exact Option.some_ne_none found (taken.symm.trans gone)
  obtain ⟨front, behind, queue⟩ := List.append_of_mem stale
  cases room : (run cap calls).cap - (run cap calls).order.length +
      front.length with
  | zero =>
      refine lost [] (by simp) ?_
        (get_insert_of_front sound fresh ctx queue room)
      have length := congrArg List.length queue
      rw [List.length_append, List.length_cons] at length
      have fits := sound.fits
      rw [caps] at fits
      rw [freshInserts]
      omega
  | succ count =>
      obtain ⟨ahead, moved, -⟩ := queue_of_insert sound fresh ctx queue room
      obtain ⟨later, untaken, few, gone⟩ :=
        exists_evicting (sound.insert requestId ctx) moved
      refine lost later untaken ?_ gone
      rw [insert_cap, caps, List.length_append, List.length_singleton] at few
      omega

/--
The buffer stays within its capacity and returns the latest context of an id;
a new context is retained exactly when the queue holds no entry of its id.
-/
theorem correlates_iff
    (cap : Nat) (calls : List Call) (requestId : Text) (ctx : ReqCtx) :
    Correlates cap calls requestId ctx ↔
      ((run cap calls).map.get requestId = none →
        requestId ∉ (run cap calls).order) := by
  have sound := sound_run cap calls
  have caps := run_cap cap calls
  constructor
  · intro correlates fresh stale
    exact not_retained_of_stale fresh stale ctx (correlates.retained fresh)
  · intro unqueued
    have buffered := sound.len_le
    have queued := sound.fits
    rw [caps] at buffered queued
    refine ⟨buffered, queued,
      fun other found taken => latestInsert_of_pending taken, ?_⟩
    intro fresh later untaken few
    have positive : 0 < (run cap calls).cap := by omega
    obtain ⟨front, stands⟩ :=
      stands_insert sound positive fresh (unqueued fresh) ctx
    have kept := stands.after (sound.insert requestId ctx) untaken
      (by rw [insert_cap, caps, List.length_nil, Nat.zero_add]; exact few)
    obtain ⟨found, kept⟩ := Option.isSome_iff_exists.mp kept
    have pending : (run cap (calls ++ .insert requestId ctx :: later)).map.get
        requestId = some found := by
      rw [run_append]
      exact kept
    exact ⟨found, pending, latestInsert_of_pending pending⟩

/--
A request id that is taken and inserted again leaves the buffer of two after
one insertion of another.
-/
theorem not_correlates_stale :
    ¬ Correlates 2 [.insert "a".toList {}, .take "a".toList] "a".toList
      {} := by
  intro correlates
  obtain ⟨found, taken, -⟩ := correlates.retained (by decide)
    [.insert "b".toList {}] (by decide) (by decide)
  exact Option.some_ne_none found (taken.symm.trans (by decide))

end LightWaf.ControlPlane.Correlator
