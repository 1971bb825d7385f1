import LightWaf.Rust.Utf8
import LightWaf.StateRedis.Server

/-!
# Locks and stored certificates over whole runs

What the nodes of a cluster can rely on, however their calls are interleaved
and whichever answers are lost.  A lock that is not given back is not granted
to anyone before it expires.  A certificate is written only by the holder of
the issuance lock, with no other grant since its own, and a load reads what was
written last.
-/

namespace LightWaf.StateRedis

open LightWaf.Rust
open LightWaf.Theory
open LightWaf.Tls.ClusterRenewal

/-! ## Histories -/

/-- A call that the server has carried out. -/
structure Event where
  time : Nat
  call : Call
  reply : Reply

/-- The call that asks for a lock. -/
def Lock.acquireCall (holder : Text) (ttl : Nat) : Lock → Call
  | .issuance key => .tryLock key holder ttl
  | .feed name => .acquire name holder ttl

/-- The call that gives a lock back. -/
def Lock.releaseCall (holder : Text) : Lock → Call
  | .issuance key => .unlock key holder
  | .feed name => .release name holder

namespace Event

/-- A lock is granted. -/
def Grants (event : Event) (lock : Lock) (holder : Text) : Prop :=
  acquired (some event.reply) = true ∧
    ∃ ttl, event.call = lock.acquireCall holder ttl

/-- The issuance lock is extended. -/
def Extends (event : Event) (lock : Lock) (holder : Text) (ttl : Nat) :
    Prop :=
  confirmed (some event.reply) = true ∧
    ∃ key, lock = .issuance key ∧ event.call = .extendLock key holder ttl

/-- A lock is granted or extended for a time. -/
def Secures (event : Event) (lock : Lock) (holder : Text) (ttl : Nat) :
    Prop :=
  (acquired (some event.reply) = true ∧
    event.call = lock.acquireCall holder ttl) ∨
  event.Extends lock holder ttl

/-- A lock is deleted by its holder. -/
def Releases (event : Event) (lock : Lock) (holder : Text) : Prop :=
  event.reply = .integer 1 ∧ event.call = lock.releaseCall holder

/-- A certificate is written. -/
def Stores (event : Event) (key holder blob : Text) : Prop :=
  confirmed (some event.reply) = true ∧
    event.call = .storeCert key holder blob

end Event

namespace Redis

variable (redis : Redis)

/-- The event of a call. -/
def event (state : redis.State) (call : Call) : Event :=
  ⟨(redis.view state).now, call, (redis.execute state call).2⟩

/-- The server after a call. -/
def after (state : redis.State) (call : Call) : redis.State :=
  (redis.execute state call).1

/-- The server after some calls. -/
abbrev run (state : redis.State) (calls : List Call) : redis.State :=
  History.run redis.after state calls

/-- The events of some calls. -/
abbrev history (state : redis.State) (calls : List Call) : List Event :=
  History.history redis.after redis.event state calls

/-- A server without any keys. -/
def Fresh (state : redis.State) : Prop :=
  ∀ key, (redis.view state).keys key = none

end Redis

/-! ## The locks are leases -/

/-- What a change of the deadline does to a lock; one by nothing deletes it. -/
def extension (lock : Lock) (holder : Text) (ttl : Nat) :
    Lease.Op Lock Text :=
  if ttl = 0 then .release lock holder else .extend lock holder ttl

/-- What a call does to the locks. -/
def Call.op : Call → Lease.Op Lock Text
  | .tryLock key holder ttl => .acquire (.issuance key) holder (ttlMillis ttl)
  | .extendLock key holder ttl =>
      extension (.issuance key) holder (ttlMillis ttl)
  | .unlock key holder => .release (.issuance key) holder
  | .storeCert _ _ _ => .skip
  | .loadCert _ => .skip
  | .acquire name holder ttl => .acquire (.feed name) holder (ttlMillis ttl)
  | .release name holder => .release (.feed name) holder
  | .other _ _ => .skip
  | .wait duration => .pass duration

/-- Whether an answer says that it was done. -/
def Call.granted : Call → Reply → Bool
  | .tryLock _ _ _, reply => reply = .ok
  | .acquire _ _ _, reply => reply = .ok
  | .extendLock _ _ _, reply => reply = .integer 1
  | .unlock _ _, reply => reply = .integer 1
  | .release _ _, reply => reply = .integer 1
  | _, _ => true

/-- The event of the lease behind a call. -/
def Event.lease (event : Event) : Lease.Event Lock Text :=
  ⟨event.time, event.call.op, event.call.granted event.reply⟩

/-- The holder and the deadline in the entry of a lock key. -/
def holderOf : Option Entry → Option (Text × Nat)
  | some ⟨.string holder, some deadline⟩ => some (holder, deadline)
  | _ => none

/-- The entry of a lock key. -/
def lockEntry (lease : Option (Text × Nat)) : Option Entry :=
  lease.map fun (holder, deadline) => ⟨.string holder, some deadline⟩

theorem holderOf_lockEntry (lease : Option (Text × Nat)) :
    holderOf (lockEntry lease) = lease := by
  cases lease <;> rfl

namespace Server

/-- The locks of the key space. -/
def leases (server : Server) : Lease.Table Lock Text where
  now := server.now
  limit := 2 ^ 63
  lease lock := holderOf (server.keys lock.redisKey)

/-- Lock keys hold strings with deadlines. -/
def Typed (server : Server) : Prop :=
  ∀ lock : Lock, ∀ entry, server.keys lock.redisKey = some entry →
    ∃ holder deadline, entry = ⟨.string holder, some deadline⟩

variable {server : Server}

/-- What the server finds under a lock key. -/
theorem keys_lock
    (typed : server.Typed) (lock : Lock) :
    (server.leases.owner lock = none ∧ server.keys lock.redisKey = none) ∨
      ∃ holder deadline, server.leases.owner lock = some holder ∧
        server.keys lock.redisKey = some ⟨.string holder, some deadline⟩ := by
  unfold Lease.Table.owner
  have lease : server.leases.lease lock =
      holderOf (server.keys lock.redisKey) := rfl
  rw [lease]
  cases found : server.keys lock.redisKey with
  | none => exact .inl ⟨rfl, rfl⟩
  | some entry =>
      obtain ⟨holder, deadline, rfl⟩ := typed lock entry found
      exact .inr ⟨holder, deadline, rfl, rfl⟩

/-- The scripts go on for the owner of a lock. -/
theorem get_lock_iff
    (typed : server.Typed) (lock : Lock) (holder : Text) :
    server.get lock.redisKey = .bulk holder ↔
      server.leases.owner lock = some holder := by
  unfold get
  rcases keys_lock typed lock with
    ⟨free, found⟩ | ⟨owner, deadline, owned, found⟩
  · rw [found, free]
    exact ⟨nofun, nofun⟩
  · rw [found, owned]
    simp

/-- A lock key is written. -/
theorem leases_put_lock (lock : Lock) (lease : Option (Text × Nat)) :
    (server.put lock.redisKey (lockEntry lease)).leases =
      server.leases.set lock lease := by
  unfold leases put Lease.Table.set
  congr 1
  funext other
  by_cases same : other = lock
  · subst same
    rw [Function.update_self]
    dsimp only
    rw [Function.update_self, holderOf_lockEntry]
  · rw [Function.update_of_ne same]
    dsimp only
    rw [Function.update_of_ne fun keys => same (redisKey_injective keys)]

theorem typed_put_lock
    (typed : server.Typed) (lock : Lock) (lease : Option (Text × Nat)) :
    (server.put lock.redisKey (lockEntry lease)).Typed := by
  intro other entry found
  unfold put at found
  dsimp only at found
  by_cases same : other = lock
  · subst same
    rw [Function.update_self, lockEntry, Option.map_eq_some_iff] at found
    obtain ⟨⟨holder, deadline⟩, -, rfl⟩ := found
    exact ⟨holder, deadline, rfl⟩
  · rw [Function.update_of_ne fun keys =>
      same (redisKey_injective keys)] at found
    exact typed other entry found

/-- Writing elsewhere leaves the locks alone. -/
theorem put_elsewhere
    (typed : server.Typed) {key : Text}
    (elsewhere : ∀ lock : Lock, lock.redisKey ≠ key) (entry : Option Entry) :
    (server.put key entry).Typed ∧
      (server.put key entry).leases = server.leases := by
  constructor
  · intro lock found same
    unfold put at same
    dsimp only at same
    rw [Function.update_of_ne (elsewhere lock)] at same
    exact typed lock found same
  · unfold leases put
    congr 1
    funext lock
    dsimp only
    rw [Function.update_of_ne (elsewhere lock)]

/-- `SET NX PX` on a lock key. -/
theorem setNxPx_lock
    (typed : server.Typed) (lock : Lock) (holder : Text) (ttl : Nat) :
    (server.setNxPx lock.redisKey holder ttl).1.Typed ∧
      ((server.setNxPx lock.redisKey holder ttl).1.leases,
        decide ((server.setNxPx lock.redisKey holder ttl).2 = .ok)) =
        server.leases.apply (.acquire lock holder ttl) := by
  rw [Lease.Table.apply]
  unfold setNxPx
  by_cases invalid : ttl = 0 ∨ 2 ^ 63 ≤ server.now + ttl
  · have refused : ¬ server.leases.Admits ttl := by
      rintro ⟨positive, early⟩
      rcases invalid with zero | late
      · exact absurd zero positive.ne'
      · exact absurd late (not_le.mpr early)
    rw [if_pos invalid, if_neg fun both => refused both.2]
    exact ⟨typed, rfl⟩
  · have admitted : server.leases.Admits ttl := by
      rw [not_or] at invalid
      exact ⟨Nat.pos_of_ne_zero invalid.1, not_le.mp invalid.2⟩
    rw [if_neg invalid]
    rcases keys_lock typed lock with ⟨free, found⟩ | ⟨owner, _, owned, found⟩
    · rw [found, if_pos ⟨free, admitted⟩]
      refine ⟨typed_put_lock typed lock (some (holder, server.now + ttl)), ?_⟩
      rw [← leases_put_lock]
      rfl
    · rw [found, if_neg (by rw [owned]; simp)]
      exact ⟨typed, rfl⟩

/-- `PEXPIRE` on a lock key, for its owner. -/
theorem pexpire_lock
    (typed : server.Typed) {lock : Lock} {holder : Text}
    (owned : server.leases.owner lock = some holder) (ttl : Nat) :
    (server.pexpire lock.redisKey ttl).1.Typed ∧
      ((server.pexpire lock.redisKey ttl).1.leases,
        decide ((server.pexpire lock.redisKey ttl).2 = .integer 1)) =
        server.leases.apply (extension lock holder ttl) := by
  obtain ⟨deadline, found⟩ : ∃ deadline, server.keys lock.redisKey =
      some ⟨.string holder, some deadline⟩ := by
    rcases keys_lock typed lock with ⟨free, -⟩ | ⟨other, deadline, own, found⟩
    · cases free.symm.trans owned
    · cases own.symm.trans owned
      exact ⟨deadline, found⟩
  unfold pexpire
  by_cases zero : ttl = 0
  · subst zero
    rw [if_neg fun both => absurd both.1 (lt_irrefl 0), found, extension,
      if_pos rfl, Lease.Table.apply, if_pos owned]
    refine ⟨typed_put_lock typed lock none, ?_⟩
    rw [← leases_put_lock]
    rfl
  · rw [extension, if_neg zero, Lease.Table.apply]
    by_cases late : 2 ^ 63 ≤ server.now + ttl
    · rw [if_pos ⟨Nat.pos_of_ne_zero zero, late⟩, if_neg]
      · exact ⟨typed, rfl⟩
      · exact fun both => absurd both.2.2 (not_lt.mpr late)
    · rw [if_neg fun both => late both.2, found,
        if_pos ⟨owned, Nat.pos_of_ne_zero zero, not_le.mp late⟩]
      dsimp only
      rw [if_neg zero]
      refine ⟨typed_put_lock typed lock (some (holder, server.now + ttl)), ?_⟩
      rw [← leases_put_lock]
      rfl

/-- `DEL` on a lock key, for its owner. -/
theorem del_lock
    (typed : server.Typed) {lock : Lock} {holder : Text}
    (owned : server.leases.owner lock = some holder) :
    (server.del lock.redisKey).1.Typed ∧
      ((server.del lock.redisKey).1.leases,
        decide ((server.del lock.redisKey).2 = .integer 1)) =
        server.leases.apply (.release lock holder) := by
  rw [Lease.Table.apply, if_pos owned]
  unfold del
  rcases keys_lock typed lock with ⟨free, -⟩ | ⟨other, deadline, -, found⟩
  · cases free.symm.trans owned
  · rw [found]
    refine ⟨typed_put_lock typed lock none, ?_⟩
    rw [← leases_put_lock]
    rfl

/-- The locks past their deadline are gone. -/
theorem wait_lock (typed : server.Typed) (duration : Nat) :
    (server.wait duration).Typed ∧
      (server.wait duration).leases = server.leases.pass duration := by
  constructor
  · intro lock entry found
    exact typed lock entry (Option.filter_eq_some_iff.mp found).1
  · unfold leases wait Lease.Table.pass
    congr 1
    funext lock
    dsimp only
    cases found : server.keys lock.redisKey with
    | none => rfl
    | some entry =>
        obtain ⟨holder, deadline, rfl⟩ := typed lock entry found
        by_cases alive : server.now + duration ≤ deadline
        · simp [Option.filter, holderOf, alive]
        · simp [Option.filter, holderOf, alive]

end Server

namespace Redis

variable {redis : Redis} (documented : redis.Documented)
variable {state : redis.State}
include documented

/-- A `GET` changes nothing. -/
theorem get_eq (state : redis.State) (key : Text) :
    ∃ next found, redis.get state key = (next, found) ∧
      redis.view next = redis.view state ∧
      found = (redis.view state).get key := by
  have same := documented.get state key
  rw [viewed, Prod.mk.injEq] at same
  exact ⟨_, _, rfl, same.1, same.2⟩

/-- A script goes on when it reads the holder, and changes nothing else. -/
theorem ifHeld_cases
    (state : redis.State) (key holder : Text)
    (act : redis.State → redis.State × Reply) :
    ((redis.view state).get key = .bulk holder ∧
      ∃ next, redis.view next = redis.view state ∧
        redis.ifHeld state key holder act = act next) ∨
      ((redis.view state).get key ≠ .bulk holder ∧
        ∃ next reply, redis.view next = redis.view state ∧
          reply ≠ .integer 1 ∧
          redis.ifHeld state key holder act = (next, reply)) := by
  obtain ⟨next, found, got, same, read⟩ := get_eq documented state key
  rw [ifHeld, got, ← read]
  split
  · rename_i failed
    cases failed
    exact .inr ⟨nofun, next, .error, same, nofun, rfl⟩
  · rename_i _ _ _ again
    cases again
    split
    · rename_i held
      exact .inl ⟨held, next, same, rfl⟩
    · rename_i foreign
      exact .inr ⟨foreign, _, _, same, by decide, rfl⟩

/-- A script on a lock key does for the owner what its command does. -/
theorem ifHeld_lock
    (typed : (redis.view state).Typed) (lock : Lock) (holder : Text)
    {act : redis.State → redis.State × Reply} {op : Lease.Op Lock Text}
    (done : (redis.view state).leases.owner lock = some holder →
      ∀ next, redis.view next = redis.view state →
        (redis.view (act next).1).Typed ∧
          ((redis.view (act next).1).leases,
            decide ((act next).2 = .integer 1)) =
            (redis.view state).leases.apply op)
    (refused : (redis.view state).leases.owner lock ≠ some holder →
      (redis.view state).leases.apply op =
        ((redis.view state).leases, false)) :
    (redis.view (redis.ifHeld state lock.redisKey holder act).1).Typed ∧
      ((redis.view (redis.ifHeld state lock.redisKey holder act).1).leases,
        decide ((redis.ifHeld state lock.redisKey holder act).2 =
          .integer 1)) =
        (redis.view state).leases.apply op := by
  have owner := Server.get_lock_iff typed lock holder
  rcases ifHeld_cases documented state lock.redisKey holder act with
    ⟨held, next, same, ran⟩ | ⟨foreign, next, reply, same, unanswered, ran⟩
  · rw [ran]
    exact done (owner.mp held) next same
  · rw [ran]
    dsimp only
    rw [same, decide_eq_false unanswered,
      refused fun owned => foreign (owner.mpr owned)]
    exact ⟨typed, rfl⟩

/-- `EXTEND_LUA` on a lock key. -/
theorem extendLua_lock
    (typed : (redis.view state).Typed) (lock : Lock) (holder : Text)
    (ttl : Nat) :
    (redis.view (redis.extendLua state lock.redisKey holder ttl).1).Typed ∧
      ((redis.view
          (redis.extendLua state lock.redisKey holder ttl).1).leases,
        decide ((redis.extendLua state lock.redisKey holder ttl).2 =
          .integer 1)) =
        (redis.view state).leases.apply (extension lock holder ttl) := by
  apply ifHeld_lock documented typed
  · intro owned next same
    have expired := documented.pexpire next lock.redisKey ttl
    rw [viewed, Prod.mk.injEq] at expired
    rw [expired.1, expired.2, same]
    exact Server.pexpire_lock typed owned ttl
  · intro foreign
    rw [extension]
    split
    · rw [Lease.Table.apply, if_neg foreign]
    · rw [Lease.Table.apply, if_neg fun both => foreign both.1]

/-- `UNLOCK_LUA` on a lock key. -/
theorem unlockLua_lock
    (typed : (redis.view state).Typed) (lock : Lock) (holder : Text) :
    (redis.view (redis.unlockLua state lock.redisKey holder).1).Typed ∧
      ((redis.view (redis.unlockLua state lock.redisKey holder).1).leases,
        decide ((redis.unlockLua state lock.redisKey holder).2 =
          .integer 1)) =
        (redis.view state).leases.apply (.release lock holder) := by
  apply ifHeld_lock documented typed
  · intro owned next same
    have deleted := documented.del next lock.redisKey
    rw [viewed, Prod.mk.injEq] at deleted
    rw [deleted.1, deleted.2, same]
    exact Server.del_lock typed owned
  · intro foreign
    rw [Lease.Table.apply, if_neg foreign]

/-- `STORE_LUA` writes the certificate for the owner of the lock, or nothing. -/
theorem storeLua_cases (state : redis.State) (lock cert holder blob : Text) :
    ((redis.view state).get lock = .bulk holder ∧
      redis.viewed (redis.storeLua state lock cert holder blob) =
        ((redis.view state).put cert (some ⟨.string blob, none⟩),
          .integer 1)) ∨
      ∃ reply, reply ≠ .integer 1 ∧
        redis.viewed (redis.storeLua state lock cert holder blob) =
          (redis.view state, reply) := by
  rw [storeLua]
  rcases ifHeld_cases documented state lock holder
      (fun state => redis.setCert state cert blob) with
    ⟨held, next, same, ran⟩ | ⟨-, next, reply, same, refused, ran⟩
  · have stored := documented.set next cert blob
    rw [same, Server.set, viewed, Prod.mk.injEq] at stored
    refine .inl ⟨held, ?_⟩
    rw [ran, setCert]
    split
    · rename_i failed
      rw [failed] at stored
      cases stored.2
    · rename_i written
      rw [written] at stored
      exact Prod.ext stored.1 rfl
  · rw [ran]
    exact .inr ⟨reply, refused, Prod.ext same rfl⟩

/-- `STORE_LUA` does not touch a lock. -/
theorem storeLua_lock
    (typed : (redis.view state).Typed) (key holder blob : Text) :
    (redis.view (redis.storeLua state (lockKey key) (certKey key) holder
        blob).1).Typed ∧
      (redis.view (redis.storeLua state (lockKey key) (certKey key) holder
        blob).1).leases = (redis.view state).leases := by
  rcases storeLua_cases documented state (lockKey key) (certKey key) holder
      blob with ⟨-, written⟩ | ⟨reply, -, kept⟩
  · have same := (Prod.ext_iff.mp written).1
    dsimp only [viewed] at same
    rw [same]
    exact Server.put_elsewhere typed
      (fun lock => redisKey_ne_certKey lock key) _
  · have same := (Prod.ext_iff.mp kept).1
    dsimp only [viewed] at same
    rw [same]
    exact ⟨typed, rfl⟩

/-- A call is the operation of a lease. -/
theorem leases_execute (typed : (redis.view state).Typed) (call : Call) :
    (redis.view (redis.execute state call).1).Typed ∧
      ((redis.view (redis.execute state call).1).leases,
        call.granted (redis.execute state call).2) =
        (redis.view state).leases.apply call.op := by
  have set (lock : Lock) (holder : Text) (ttl : Nat) :
      (redis.view (redis.setNxPx state lock.redisKey holder ttl).1).Typed ∧
        ((redis.view
            (redis.setNxPx state lock.redisKey holder ttl).1).leases,
          decide ((redis.setNxPx state lock.redisKey holder ttl).2 = .ok)) =
          (redis.view state).leases.apply (.acquire lock holder ttl) := by
    have taken := documented.setNxPx state lock.redisKey holder ttl
    rw [viewed, Prod.mk.injEq] at taken
    rw [taken.1, taken.2]
    exact Server.setNxPx_lock typed lock holder ttl
  cases call with
  | tryLock key holder ttl => exact set (.issuance key) ..
  | extendLock key holder ttl =>
      exact extendLua_lock documented typed (.issuance key) ..
  | unlock key holder => exact unlockLua_lock documented typed (.issuance key) ..
  | acquire name holder ttl => exact set (.feed name) ..
  | release name holder => exact unlockLua_lock documented typed (.feed name) ..
  | loadCert key =>
      obtain ⟨next, found, got, same, -⟩ :=
        get_eq documented state (certKey key)
      rw [execute, got]
      dsimp only
      rw [same]
      exact ⟨typed, rfl⟩
  | wait duration =>
      obtain ⟨kept, same⟩ := Server.wait_lock typed duration
      rw [execute]
      dsimp only
      rw [documented.wait]
      exact ⟨kept, Prod.ext same rfl⟩
  | storeCert key holder blob =>
      obtain ⟨kept, same⟩ := storeLua_lock documented typed key holder blob
      exact ⟨kept, Prod.ext same rfl⟩
  | other key command =>
      obtain ⟨entry, same⟩ := documented.other state key command
      obtain ⟨kept, leases⟩ := Server.put_elsewhere typed
        (fun lock => (guarded_redisKey lock).ne_other key) entry
      rw [execute]
      dsimp only
      rw [same]
      exact ⟨kept, Prod.ext leases rfl⟩

theorem typed_after (state : redis.State) (call : Call)
    (typed : (redis.view state).Typed) :
    (redis.view (redis.after state call)).Typed :=
  (leases_execute documented typed call).1

theorem leases_after (state : redis.State) (call : Call)
    (typed : (redis.view state).Typed) :
    (redis.view (redis.after state call)).leases =
        (redis.view state).leases.after call.op ∧
      (redis.event state call).lease =
        (redis.view state).leases.event call.op := by
  have same := (leases_execute documented typed call).2
  refine ⟨congrArg Prod.fst same, ?_⟩
  rw [Lease.Table.event, ← same]
  rfl

omit documented in
theorem Fresh.typed (fresh : redis.Fresh state) : (redis.view state).Typed := by
  intro lock entry found
  cases (fresh lock.redisKey).symm.trans found

/-- The locks of the server go through the states of the leases. -/
theorem leases_run (fresh : redis.Fresh state) (calls : List Call) :
    (redis.view (redis.run state calls)).leases =
      (redis.view state).leases.run (calls.map Call.op) :=
  @History.run_map _ _ redis.after state _ _ _
    (fun state => (redis.view state).Typed)
    (fun state => (redis.view state).leases) _ (typed_after documented)
    (fun state call typed => (leases_after documented state call typed).1)
    fresh.typed calls

theorem lease_history (fresh : redis.Fresh state) (calls : List Call) :
    (redis.history state calls).map Event.lease =
      (redis.view state).leases.history (calls.map Call.op) :=
  @History.history_map _ _ _ redis.after redis.event state _ _ _ _ _
    (fun state => (redis.view state).Typed)
    (fun state => (redis.view state).leases) _ _ (typed_after documented)
    (leases_after documented) fresh.typed calls

end Redis

/-! ## Events of the server and of the leases -/

namespace Event

variable {event : Event} {lock : Lock} {holder : Text} {ttl : Nat}

theorem acquired_iff {reply : Reply} :
    acquired (some reply) = true ↔ reply = .ok := by
  cases reply <;> simp [acquired]

theorem confirmed_iff {reply : Reply} :
    confirmed (some reply) = true ↔ reply = .integer 1 := by
  unfold confirmed
  split
  · rename_i same
    cases same
    simp
  · rename_i other
    refine ⟨nofun, fun same => absurd ?_ other⟩
    simp [same]

theorem grants_lease_iff :
    event.lease.Grants lock holder ↔ event.Grants lock holder := by
  obtain ⟨time, call, reply⟩ := event
  rw [Event.Grants, acquired_iff]
  unfold Lease.Event.Grants Event.lease
  cases call with
  | extendLock key taker ttl =>
      rw [Call.op, extension]
      split <;> cases lock <;> simp [Lock.acquireCall]
  | _ => cases lock <;> simp [Call.op, Call.granted, Lock.acquireCall]

/-- What gives a lease back: an unlock, or an extension by nothing. -/
theorem releases_lease_iff :
    event.lease.Releases lock holder ↔
      event.Releases lock holder ∨
        ∃ ttl, event.Extends lock holder ttl ∧ ttlMillis ttl = 0 := by
  obtain ⟨time, call, reply⟩ := event
  unfold Lease.Event.Releases Event.Releases Event.Extends Event.lease
  simp only [confirmed_iff]
  cases call with
  | extendLock key taker ttl =>
      by_cases zero : ttlMillis ttl = 0 <;> cases lock <;>
        simp [Call.op, extension, Call.granted, Lock.releaseCall, zero]
  | _ => cases lock <;> simp [Call.op, Call.granted, Lock.releaseCall]

theorem alters_lease_iff :
    event.lease.Alters lock holder ↔
      event.Releases lock holder ∨ ∃ ttl, event.Extends lock holder ttl := by
  rw [Lease.Event.Alters, releases_lease_iff]
  have extended : (event.lease.granted = true ∧
      ∃ ttl, event.lease.op = .extend lock holder ttl) ↔
      ∃ ttl, event.Extends lock holder ttl ∧ ttlMillis ttl ≠ 0 := by
    obtain ⟨time, call, reply⟩ := event
    unfold Event.Extends Event.lease
    simp only [confirmed_iff]
    cases call with
    | extendLock key taker ttl =>
        by_cases zero : ttlMillis ttl = 0 <;> cases lock <;>
          simp [Call.op, extension, Call.granted, zero]
    | _ => cases lock <;> simp [Call.op, Call.granted]
  rw [extended, or_assoc, ← exists_or]
  refine or_congr_right (exists_congr fun ttl => ?_)
  rw [← and_or_left]
  exact and_iff_left (em _)

theorem Secures.lease
    (secures : event.Secures lock holder ttl) (lasting : ttlMillis ttl ≠ 0) :
    event.lease.Secures lock holder (ttlMillis ttl) := by
  obtain ⟨time, call, reply⟩ := event
  rcases secures with ⟨granted, call⟩ | ⟨granted, key, rfl, call⟩
  · cases call
    rw [acquired_iff] at granted
    cases lock with
    | issuance key => exact ⟨decide_eq_true granted, .inl rfl⟩
    | feed name => exact ⟨decide_eq_true granted, .inl rfl⟩
  · cases call
    exact ⟨decide_eq_true (confirmed_iff.mp granted), .inr (if_neg lasting)⟩

end Event

/-! ## Locks -/

theorem ttlMillis_of_lt {ttl : Nat} (small : ttl < 2 ^ 64) :
    ttlMillis ttl = max ttl 1 :=
  Nat.mod_eq_of_lt (max_lt small (by decide))

/--
A lock that was granted or extended is granted to nobody before its time is
up, unless its holder gives it back or changes its deadline again.  The time is
that of the duration cut to 64 bits; an extension that is cut to nothing
deletes the lock.
-/
theorem lock_exclusive
    {redis : Redis} (documented : redis.Documented) {state : redis.State}
    (fresh : redis.Fresh state)
    {calls : List Call} {before between after : List Event}
    {first second : Event} {lock : Lock} {holder other : Text} {ttl : Nat}
    (cut : redis.history state calls =
      before ++ first :: (between ++ second :: after))
    (secures : first.Secures lock holder ttl)
    (lasting : ttlMillis ttl ≠ 0)
    (unaltered : ∀ event ∈ between, ¬ event.Releases lock holder ∧
      ∀ ttl, ¬ event.Extends lock holder ttl)
    (grants : second.Grants lock other) :
    first.time + ttlMillis ttl < second.time ∧
      (ttl < 2 ^ 64 → first.time + max ttl 1 < second.time) := by
  have leased := Redis.lease_history documented fresh calls
  rw [cut, List.map_append, List.map_cons, List.map_append,
    List.map_cons] at leased
  have apart : first.time + ttlMillis ttl < second.time := by
    refine Lease.Table.lt_time_of_grants leased.symm (secures.lease lasting) ?_
      (Event.grants_lease_iff.mpr grants)
    intro event member alters
    obtain ⟨event, inside, rfl⟩ := List.mem_map.mp member
    rcases Event.alters_lease_iff.mp alters with releases | ⟨ttl, extends_⟩
    · exact (unaltered event inside).1 releases
    · exact (unaltered event inside).2 ttl extends_
  refine ⟨apart, fun small => ?_⟩
  rwa [ttlMillis_of_lt small] at apart

/-- A server that does as documented, on which the others delete their keys. -/
def documentedServer : Redis where
  State := Server
  view := id
  set := Server.set
  setNxPx := Server.setNxPx
  get := fun server key => (server, server.get key)
  pexpire := Server.pexpire
  del := Server.del
  other := fun server key _ => server.put key.redisKey none
  wait := Server.wait

theorem documented_documentedServer : documentedServer.Documented where
  set _ _ _ := rfl
  setNxPx _ _ _ _ := rfl
  get _ _ := rfl
  pexpire _ _ _ := rfl
  del _ _ := rfl
  other _ _ _ := ⟨none, rfl⟩
  wait _ _ := rfl

/-- The server at its start. -/
def emptyServer : documentedServer.State :=
  (⟨0, fun _ => none⟩ : Server)

theorem fresh_emptyServer : documentedServer.Fresh emptyServer :=
  fun _ => rfl

/--
Two nodes ask for the lock, the first one for more than 64 bits of
milliseconds, the second one when what is left of them has passed.
-/
def expiringCalls : List Call :=
  [.tryLock ['k'] ['a'] (2 ^ 64 + 10), .wait 11, .tryLock ['k'] ['b'] 10]

theorem lock_exclusive_expiringCalls :
    ∃ first waited second,
      documentedServer.history emptyServer expiringCalls =
        [first, waited, second] ∧
      second.Grants (.issuance ['k']) ['b'] ∧
      first.time + ttlMillis (2 ^ 64 + 10) < second.time := by
  refine ⟨_, _, _, rfl, ⟨rfl, 10, rfl⟩, ?_⟩
  refine (@lock_exclusive documentedServer documented_documentedServer
    emptyServer fresh_emptyServer expiringCalls [] [_] [] _ _
    (.issuance ['k']) ['a'] ['b'] (2 ^ 64 + 10) rfl (.inl ⟨rfl, rfl⟩)
    (by decide) ?_ ⟨rfl, 10, rfl⟩).1
  intro event member
  obtain rfl := List.mem_singleton.mp member
  exact ⟨nofun, nofun⟩

/-! ## Certificates -/

theorem owner_of_storeCert
    {redis : Redis} (documented : redis.Documented) {state : redis.State}
    (typed : (redis.view state).Typed) {key holder blob : Text}
    (written : (redis.execute state (.storeCert key holder blob)).2 =
      .integer 1) :
    (redis.view state).leases.owner (.issuance key) = some holder := by
  rcases Redis.storeLua_cases documented state (lockKey key) (certKey key)
      holder blob with ⟨own, -⟩ | ⟨reply, refused, kept⟩
  · exact (Server.get_lock_iff typed (.issuance key) holder).mp own
  · have same : (redis.execute state (.storeCert key holder blob)).2 = reply :=
      (Prod.ext_iff.mp kept).2
    exact absurd (same.symm.trans written) refused

/--
A certificate is written only by a node that was granted the issuance lock,
with no grant to anyone and no release since.
-/
theorem storeCert_within_lock
    {redis : Redis} (documented : redis.Documented) {state : redis.State}
    (fresh : redis.Fresh state)
    {calls : List Call} {before after : List Event} {stored : Event}
    {key holder blob : Text}
    (cut : redis.history state calls = before ++ stored :: after)
    (stores : stored.Stores key holder blob) :
    ∃ first grant rest, before = first ++ grant :: rest ∧
      grant.Grants (.issuance key) holder ∧
      ∀ event ∈ rest, ∀ other, ¬ event.Grants (.issuance key) other ∧
        ¬ event.Releases (.issuance key) other := by
  obtain ⟨start, call, _, rfl, rfl, -⟩ := History.exists_of_history_eq_cons cut
  obtain ⟨written, called⟩ := stores
  change call = _ at called
  subst called
  have typed := @History.invariant_run _ _ redis.after state
    (fun state => (redis.view state).Typed) (Redis.typed_after documented)
    fresh.typed start
  have owned := owner_of_storeCert documented typed
    (Event.confirmed_iff.mp written)
  rw [Redis.leases_run documented fresh] at owned
  have free : (redis.view state).leases.owner (.issuance key) = none := by
    rw [Lease.Table.owner, Server.leases]
    dsimp only
    rw [fresh]
    rfl
  obtain ⟨first, grant, rest, leased, grants, kept⟩ :=
    Lease.Table.exists_grant_of_owner free owned
  rw [← Redis.lease_history documented fresh,
    List.map_eq_append_iff] at leased
  obtain ⟨before, behind, split, -, leased⟩ := leased
  obtain ⟨event, tail, rfl, rfl, rfl⟩ := List.map_eq_cons_iff.mp leased
  refine ⟨before, event, tail, split, Event.grants_lease_iff.mp grants, ?_⟩
  intro later member other
  have unchanged := kept later.lease (List.mem_map_of_mem member)
  exact ⟨fun granted => unchanged.1 other (Event.grants_lease_iff.mpr granted),
    fun released => unchanged.2 other
      (Event.releases_lease_iff.mpr (.inl released))⟩

/-- A node takes the lock, writes a certificate and reads it back. -/
def issuingCalls : List Call :=
  [.tryLock ['k'] ['a'] 10, .storeCert ['k'] ['a'] ['b'], .loadCert ['k']]

theorem storeCert_within_lock_issuingCalls :
    ∃ taken stored load,
      documentedServer.history emptyServer issuingCalls =
        [taken, stored, load] ∧
        stored.Stores ['k'] ['a'] ['b'] ∧
        ∃ first grant rest, [taken] = first ++ grant :: rest ∧
          grant.Grants (.issuance ['k']) ['a'] := by
  refine ⟨_, _, _, rfl, ⟨rfl, rfl⟩, ?_⟩
  obtain ⟨first, grant, rest, split, grants, -⟩ :=
    @storeCert_within_lock documentedServer documented_documentedServer
      emptyServer fresh_emptyServer issuingCalls [_] [_] _ ['k'] ['a'] ['b']
      rfl ⟨rfl, rfl⟩
  exact ⟨first, grant, rest, split, grants⟩

/-- The blob that was written last. -/
def lastStored (key : Text) (events : List Event) : Option Text :=
  events.foldl
    (fun last event =>
      match event.call with
      | .storeCert target _ blob =>
          if target = key ∧ confirmed (some event.reply) then some blob
          else last
      | _ => last)
    none

theorem lastStored_concat
    (redis : Redis) (state : redis.State) (key : Text) (calls : List Call)
    (call : Call) :
    lastStored key (redis.history state (calls ++ [call])) =
      match call with
      | .storeCert target _ blob =>
          if target = key ∧ confirmed
              (some (redis.execute (redis.run state calls) call).2) then
            some blob
          else lastStored key (redis.history state calls)
      | _ => lastStored key (redis.history state calls) := by
  rw [Redis.history, History.history_append]
  refine (List.foldl_append ..).trans ?_
  cases call <;> rfl

section Frame

variable {server : Server} {key target : Text} (differ : key ≠ target)
include differ

theorem Server.keys_put_of_ne (entry : Option Entry) :
    (server.put target entry).keys key = server.keys key := by
  unfold Server.put
  exact Function.update_of_ne differ entry server.keys

theorem Server.keys_setNxPx_of_ne (value : Text) (ttl : Nat) :
    (server.setNxPx target value ttl).1.keys key = server.keys key := by
  unfold Server.setNxPx
  split
  · rfl
  · split
    · rfl
    · exact Server.keys_put_of_ne differ _

theorem Server.keys_pexpire_of_ne (ttl : Nat) :
    (server.pexpire target ttl).1.keys key = server.keys key := by
  unfold Server.pexpire
  split
  · rfl
  · split
    · rfl
    · exact Server.keys_put_of_ne differ _

theorem Server.keys_del_of_ne :
    (server.del target).1.keys key = server.keys key := by
  unfold Server.del
  split
  · rfl
  · exact Server.keys_put_of_ne differ _

variable {redis : Redis} (documented : redis.Documented)
variable {state : redis.State}
include documented

theorem Redis.keys_setNxPx_of_ne (value : Text) (ttl : Nat) :
    (redis.view (redis.setNxPx state target value ttl).1).keys key =
      (redis.view state).keys key := by
  have taken := (Prod.ext_iff.mp
    (documented.setNxPx state target value ttl)).1
  dsimp only [Redis.viewed] at taken
  rw [taken]
  exact Server.keys_setNxPx_of_ne differ value ttl

omit differ in
/-- A script keeps a key that its command keeps. -/
theorem Redis.keys_ifHeld
    (holder : Text) {act : redis.State → redis.State × Reply}
    (keeps : ∀ next, redis.view next = redis.view state →
      (redis.view (act next).1).keys key = (redis.view state).keys key) :
    (redis.view (redis.ifHeld state target holder act).1).keys key =
      (redis.view state).keys key := by
  rcases Redis.ifHeld_cases documented state target holder act with
    ⟨-, next, same, ran⟩ | ⟨-, next, reply, same, -, ran⟩
  · rw [ran]
    exact keeps next same
  · rw [ran, ← same]

theorem Redis.keys_extendLua_of_ne (holder : Text) (ttl : Nat) :
    (redis.view (redis.extendLua state target holder ttl).1).keys key =
      (redis.view state).keys key := by
  apply Redis.keys_ifHeld documented
  intro next same
  have expired := (Prod.ext_iff.mp (documented.pexpire next target ttl)).1
  dsimp only [Redis.viewed] at expired
  rw [expired, same]
  exact Server.keys_pexpire_of_ne differ ttl

theorem Redis.keys_unlockLua_of_ne (holder : Text) :
    (redis.view (redis.unlockLua state target holder).1).keys key =
      (redis.view state).keys key := by
  apply Redis.keys_ifHeld documented
  intro next same
  have deleted := (Prod.ext_iff.mp (documented.del next target)).1
  dsimp only [Redis.viewed] at deleted
  rw [deleted, same]
  exact Server.keys_del_of_ne differ

end Frame

section LastStored

variable {redis : Redis} (documented : redis.Documented)
include documented

/-- Only a store changes the key of a certificate; those do not expire. -/
theorem Redis.keys_after_certKey
    {state : redis.State} {key : Text} {stored : Option Text}
    (present : (redis.view state).keys (certKey key) =
      stored.map fun blob => ⟨.string blob, none⟩) (call : Call) :
    (redis.view (redis.after state call)).keys (certKey key) =
      (match call with
        | .storeCert target _ blob =>
            if target = key ∧
                confirmed (some (redis.execute state call).2) then some blob
            else stored
        | _ => stored).map fun blob => ⟨.string blob, none⟩ := by
  have apart (lock : Lock) : certKey key ≠ lock.redisKey :=
    (redisKey_ne_certKey lock key).symm
  unfold Redis.after
  cases call with
  | tryLock target holder ttl =>
      exact (Redis.keys_setNxPx_of_ne (apart (.issuance target)) documented
        ..).trans present
  | acquire name holder ttl =>
      exact (Redis.keys_setNxPx_of_ne (apart (.feed name)) documented
        ..).trans present
  | extendLock target holder ttl =>
      exact (Redis.keys_extendLua_of_ne (apart (.issuance target)) documented
        ..).trans present
  | unlock target holder =>
      exact (Redis.keys_unlockLua_of_ne (apart (.issuance target)) documented
        _).trans present
  | release name holder =>
      exact (Redis.keys_unlockLua_of_ne (apart (.feed name)) documented
        _).trans present
  | loadCert target =>
      obtain ⟨next, found, got, same, -⟩ :=
        Redis.get_eq documented state (certKey target)
      rw [Redis.execute, got]
      dsimp only
      rw [same]
      exact present
  | wait duration =>
      rw [Redis.execute]
      dsimp only
      rw [documented.wait, Server.wait]
      dsimp only
      rw [present]
      cases stored <;> rfl
  | other target command =>
      obtain ⟨entry, same⟩ := documented.other state target command
      rw [Redis.execute]
      dsimp only
      rw [same]
      exact (Server.keys_put_of_ne ((guarded_certKey key).ne_other target)
        entry).trans present
  | storeCert target holder blob =>
      have stores : redis.execute state (.storeCert target holder blob) =
          redis.storeLua state (lockKey target) (certKey target) holder
            blob := rfl
      dsimp only
      rw [stores]
      rcases Redis.storeLua_cases documented state (lockKey target)
          (certKey target) holder blob with
        ⟨-, written⟩ | ⟨reply, refused, kept⟩
      · obtain ⟨same, replied⟩ := Prod.ext_iff.mp written
        dsimp only [Redis.viewed] at same replied
        rw [same, replied]
        by_cases here : target = key
        · subst here
          rw [if_pos ⟨rfl, rfl⟩]
          exact Function.update_self ..
        · rw [if_neg fun both => here both.1, Server.keys_put_of_ne
            fun keys => here (certKey_injective keys).symm]
          exact present
      · obtain ⟨same, replied⟩ := Prod.ext_iff.mp kept
        dsimp only [Redis.viewed] at same replied
        rw [same, replied, if_neg fun both =>
          refused (Event.confirmed_iff.mp both.2)]
        exact present

theorem keys_certKey
    {state : redis.State} (fresh : redis.Fresh state) (calls : List Call)
    (key : Text) :
    (redis.view (redis.run state calls)).keys (certKey key) =
      (lastStored key (redis.history state calls)).map fun blob =>
        ⟨.string blob, none⟩ := by
  induction calls using List.reverseRecOn with
  | nil => exact fresh (certKey key)
  | append_singleton calls call induction =>
      rw [lastStored_concat, Redis.run, History.run_append]
      exact Redis.keys_after_certKey documented induction call

end LastStored

/-! ## Blobs -/

section Blobs

variable {Key : Type} {libraries : Libraries Key}

/-- What the libraries promise. -/
structure Libraries.Lawful (libraries : Libraries Key) : Prop where
  opens : ∀ key nonce plaintext, libraries.openInPlace key nonce
    (libraries.sealInPlace key nonce plaintext) = some plaintext
  tagged : ∀ key nonce plaintext,
    (libraries.sealInPlace key nonce plaintext).length = plaintext.length + 16
  decodes : ∀ bytes, libraries.decode (libraries.encode bytes) = some bytes
  reads : ∀ blob json, libraries.toString blob = some json →
    libraries.fromStr json = some blob

theorem decryptB64_encryptB64
    (lawful : libraries.Lawful) (key : Key) (nonce : Nonce)
    (plaintext : Bytes) :
    decryptB64 libraries key (encryptB64 libraries key nonce plaintext) =
      some plaintext := by
  have long : 12 + 16 ≤
      (nonce.1 ++ libraries.sealInPlace key nonce plaintext).length := by
    rw [List.length_append, nonce.2, lawful.tagged]
    omega
  have front : (nonce.1 ++ libraries.sealInPlace key nonce plaintext).take 12 =
      nonce.1 := List.take_left' nonce.2
  have back : (nonce.1 ++ libraries.sealInPlace key nonce plaintext).drop 12 =
      libraries.sealInPlace key nonce plaintext := List.drop_left' nonce.2
  rw [decryptB64, encryptB64, lawful.decodes]
  simp only [Option.bind_eq_bind, Option.bind_some, dif_pos long, front, back]
  exact lawful.opens key nonce plaintext

/-- A stored certificate is read back by a node with the same secret. -/
theorem readBlob_storedBlob
    (lawful : libraries.Lawful) {key : Key} {nonce : Nonce}
    {cert : SharedCert} {json : Text}
    (stored : storedBlob libraries key nonce cert = some json) :
    readBlob libraries key json = some cert := by
  rw [readBlob, lawful.reads _ _ stored]
  simp only [Option.bind_eq_bind, Option.bind_some,
    decryptB64_encryptB64 lawful, fromUtf8_asBytes]

/-- `load_cert` returns the certificate that a node with its secret stored. -/
theorem loaded_storedBlob
    (lawful : libraries.Lawful) {secret : Text} {nonce : Nonce}
    {cert : SharedCert} {json : Text}
    (stored : storedBlob libraries (libraries.hkdf secret) nonce cert =
      some json) :
    loaded libraries (libraries.hkdf secret) (some (.bulk json)) = some cert :=
  readBlob_storedBlob lawful stored

end Blobs

/--
The server answers a load with the blob that was written last, whatever happens
to the locks and to the keys of the other capabilities; `load_cert` makes of it
the certificate that a node with the same secret stored.
-/
theorem loadCert_lastStored
    {redis : Redis} (documented : redis.Documented) {state : redis.State}
    (fresh : redis.Fresh state)
    {calls : List Call} {before after : List Event} {load : Event} {key : Text}
    (cut : redis.history state calls = before ++ load :: after)
    (loads : load.call = .loadCert key) :
    load.reply = (lastStored key before).elim .nil .bulk ∧
      ∀ {Key : Type} (libraries : Libraries Key), libraries.Lawful →
        ∀ (secret : Text) (nonce : Nonce) (cert : SharedCert) (json : Text),
          storedBlob libraries (libraries.hkdf secret) nonce cert =
              some json →
            lastStored key before = some json →
            loaded libraries (libraries.hkdf secret) (some load.reply) =
              some cert := by
  obtain ⟨start, call, _, rfl, rfl, -⟩ := History.exists_of_history_eq_cons cut
  change call = _ at loads
  subst loads
  have replied : (redis.event (redis.run state start) (.loadCert key)).reply =
      (lastStored key (redis.history state start)).elim .nil .bulk := by
    obtain ⟨next, found, got, -, rfl⟩ :=
      Redis.get_eq documented (redis.run state start) (certKey key)
    rw [Redis.event, Redis.execute, got, Server.get,
      keys_certKey documented fresh]
    cases lastStored key (redis.history state start) with
    | none => rfl
    | some blob => rfl
  refine ⟨replied, fun libraries lawful secret nonce cert json stored last => ?_⟩
  rw [replied, last]
  exact loaded_storedBlob lawful stored

theorem loadCert_lastStored_issuingCalls :
    ∃ taken stored load,
      documentedServer.history emptyServer issuingCalls =
        [taken, stored, load] ∧
        load.reply = (lastStored ['k'] [taken, stored]).elim .nil .bulk ∧
        load.reply = .bulk ['b'] := by
  refine ⟨_, _, _, rfl, ?_, rfl⟩
  exact (@loadCert_lastStored documentedServer documented_documentedServer
    emptyServer fresh_emptyServer issuingCalls [_, _] [] _ ['k'] rfl rfl).1

end LightWaf.StateRedis
