import LightWaf.Rust.Net
import LightWaf.Theory.Lease
import LightWaf.Tls.ClusterRenewal

/-!
# One key space for locks and certificates

The embedding of `waf-state-redis/src/certstore.rs`: the commands and scripts
that the stores of any number of nodes send to one Redis server, and the key
space that they share with the rate limiter and the reputation feed.  The
server carries them out one at a time; whether an answer reaches the node is
up to the connection.

The server is a parameter.  What it does with a command is what the Redis
documentation says, in terms of the data set: the keys that are not past their
deadline.  Lock keys are never written by anything but the lock commands, so
the locks of the server are a table of leases.
-/

namespace LightWaf.StateRedis

open LightWaf.Rust
open LightWaf.Theory
open LightWaf.Tls.ClusterRenewal

/-! ## Keys -/

/-- `cert_key`. -/
def certKey (key : Text) : Text :=
  ['c', 'e', 'r', 't', ':'] ++ key

/-- `lock_key`, behind `issuance_lock:`. -/
def lockKey (key : Text) : Text :=
  ['i', 's', 's', 'u', 'a', 'n', 'c', 'e', '_', 'l', 'o', 'c', 'k', ':'] ++ key

/-- `feed_lock_key`, behind `feed_lock:`. -/
def feedLockKey (name : Text) : Text :=
  ['f', 'e', 'e', 'd', '_', 'l', 'o', 'c', 'k', ':'] ++ name

/-- `rep_key`. -/
def repKey (ip : IpAddr) : Text :=
  ['r', 'e', 'p', ':'] ++ ip.toText

/-- The locks of both traits. -/
inductive Lock
  | issuance (key : Text)
  | feed (name : Text)
deriving DecidableEq

/-- Where a lock stands in the key space. -/
def Lock.redisKey : Lock → Text
  | .issuance key => lockKey key
  | .feed name => feedLockKey name

/-- The keys of the rate limiter and of the reputation feed. -/
inductive OtherKey
  | bucket (ip : IpAddr)
  | reputation (ip : IpAddr)

/-- Where such a key stands in the key space. -/
def OtherKey.redisKey : OtherKey → Text
  | .bucket ip => ip.toText
  | .reputation ip => repKey ip

/-! ## The server -/

/-- A value: a string, or the hash of a token bucket. -/
inductive Value
  | string (text : Text)
  | hash (fields : List (Text × Text))
deriving DecidableEq

/-- A value with its deadline in milliseconds. -/
structure Entry where
  value : Value
  expireAt : Option Nat
deriving DecidableEq

/-- The time, and the keys that are not past their deadline. -/
structure Server where
  now : Nat
  keys : Text → Option Entry

/-- An answer of the server. -/
inductive Reply
  | ok
  | nil
  | integer (value : Nat)
  | bulk (text : Text)
  | error
deriving DecidableEq

namespace Server

/-- The entry of a key is replaced. -/
def put (server : Server) (key : Text) (entry : Option Entry) : Server :=
  { server with keys := Function.update server.keys key entry }

/-- `SET key value`. -/
def set (server : Server) (key value : Text) : Server × Reply :=
  (server.put key (some ⟨.string value, none⟩), .ok)

/--
`SET key value NX PX ttl`.  A time to live of zero, or one beyond the signed
64-bit range of times, is an error whether the key exists or not.
-/
def setNxPx (server : Server) (key value : Text) (ttl : Nat) :
    Server × Reply :=
  if ttl = 0 ∨ 2 ^ 63 ≤ server.now + ttl then (server, .error)
  else
    match server.keys key with
    | some _ => (server, .nil)
    | none =>
        (server.put key (some ⟨.string value, some (server.now + ttl)⟩), .ok)

/-- `GET key`. -/
def get (server : Server) (key : Text) : Reply :=
  match server.keys key with
  | some ⟨.string text, _⟩ => .bulk text
  | some ⟨.hash _, _⟩ => .error
  | none => .nil

/-- `PEXPIRE key ttl`.  A time to live of zero deletes the key. -/
def pexpire (server : Server) (key : Text) (ttl : Nat) : Server × Reply :=
  if 0 < ttl ∧ 2 ^ 63 ≤ server.now + ttl then (server, .error)
  else
    match server.keys key with
    | none => (server, .integer 0)
    | some entry =>
        (server.put key
          (if ttl = 0 then none
            else some { entry with expireAt := some (server.now + ttl) }),
          .integer 1)

/-- `DEL key`. -/
def del (server : Server) (key : Text) : Server × Reply :=
  match server.keys key with
  | none => (server, .integer 0)
  | some _ => (server.put key none, .integer 1)

/-- Time passes. -/
def wait (server : Server) (duration : Nat) : Server where
  now := server.now + duration
  keys := fun key => (server.keys key).filter fun entry =>
    entry.expireAt.all (server.now + duration ≤ ·)

end Server

/-- A Redis server, with the commands that the stores send to it. -/
structure Redis where
  State : Type
  view : State → Server
  set : State → Text → Text → State × Reply
  setNxPx : State → Text → Text → Nat → State × Reply
  get : State → Text → State × Reply
  pexpire : State → Text → Nat → State × Reply
  del : State → Text → State × Reply
  /-- A command or script of another capability, on a key of its own. -/
  other : State → OtherKey → Text → State
  /-- Time passes. -/
  wait : State → Nat → State

namespace Redis

/-- What is seen of the outcome of a command. -/
def viewed (redis : Redis) (outcome : redis.State × Reply) : Server × Reply :=
  (redis.view outcome.1, outcome.2)

/-- The commands do what the documentation says. -/
structure Documented (redis : Redis) : Prop where
  set : ∀ state key value, redis.viewed (redis.set state key value) =
    (redis.view state).set key value
  setNxPx : ∀ state key value ttl,
    redis.viewed (redis.setNxPx state key value ttl) =
      (redis.view state).setNxPx key value ttl
  get : ∀ state key, redis.viewed (redis.get state key) =
    (redis.view state, (redis.view state).get key)
  pexpire : ∀ state key ttl, redis.viewed (redis.pexpire state key ttl) =
    (redis.view state).pexpire key ttl
  del : ∀ state key, redis.viewed (redis.del state key) =
    (redis.view state).del key
  other : ∀ state key command, ∃ entry,
    redis.view (redis.other state key command) =
      (redis.view state).put key.redisKey entry
  wait : ∀ state duration, redis.view (redis.wait state duration) =
    (redis.view state).wait duration

variable (redis : Redis) (state : redis.State)

/-- What the scripts have in common: `GET` the lock, go on for its holder. -/
def ifHeld (key holder : Text) (act : redis.State → redis.State × Reply) :
    redis.State × Reply :=
  match redis.get state key with
  | (state, .error) => (state, .error)
  | (state, found) =>
      if found = .bulk holder then act state else (state, .integer 0)

/-- `EXTEND_LUA`. -/
def extendLua (key holder : Text) (ttl : Nat) : redis.State × Reply :=
  redis.ifHeld state key holder fun state => redis.pexpire state key ttl

/-- `UNLOCK_LUA`. -/
def unlockLua (key holder : Text) : redis.State × Reply :=
  redis.ifHeld state key holder fun state => redis.del state key

/-- What `STORE_LUA` does for the holder: `SET`, and `1` if that succeeds. -/
def setCert (cert blob : Text) : redis.State × Reply :=
  match redis.set state cert blob with
  | (state, .error) => (state, .error)
  | (state, _) => (state, .integer 1)

/-- `STORE_LUA`. -/
def storeLua (lock cert holder blob : Text) : redis.State × Reply :=
  redis.ifHeld state lock holder fun state => redis.setCert state cert blob

end Redis

/-! ## The calls of the nodes -/

/-- `StoredBlob`. -/
structure StoredBlob where
  chainPem : Text
  keyPemEnc : Text
  notAfterUnix : Int
deriving DecidableEq

/-- A nonce of `NONCE_LEN` bytes. -/
abbrev Nonce := {bytes : Bytes // bytes.length = 12}

/--
The libraries behind the store: the key derivation and the authenticated
encryption of `ring`, the `STANDARD` engine of `base64`, and `serde_json`.
-/
structure Libraries (Key : Type) where
  hkdf : Text → Key
  sealInPlace : Key → Nonce → Bytes → Bytes
  openInPlace : Key → Nonce → Bytes → Option Bytes
  encode : Bytes → Text
  decode : Text → Option Bytes
  toString : StoredBlob → Option Text
  fromStr : Text → Option StoredBlob

section Calls

variable {Key : Type} (libraries : Libraries Key)

/-- `CertCipher::encrypt_b64`, with the nonce that the generator fills in. -/
def encryptB64 (key : Key) (nonce : Nonce) (plaintext : Bytes) : Text :=
  libraries.encode (nonce.1 ++ libraries.sealInPlace key nonce plaintext)

/-- `CertCipher::decrypt_b64`. -/
def decryptB64 (key : Key) (text : Text) : Option Bytes := do
  let blob ← libraries.decode text
  if long : 12 + 16 ≤ blob.length then
    libraries.openInPlace key ⟨blob.take 12, by rw [List.length_take]; omega⟩
      (blob.drop 12)
  else none

/-- What `store_cert` sends. -/
def storedBlob (key : Key) (nonce : Nonce) (cert : SharedCert) :
    Option Text :=
  libraries.toString {
    chainPem := cert.chainPem
    keyPemEnc := encryptB64 libraries key nonce (asBytes cert.keyPem)
    notAfterUnix := cert.notAfterUnix }

/-- What `load_cert` makes of the text that it reads. -/
def readBlob (key : Key) (json : Text) : Option SharedCert := do
  let blob ← libraries.fromStr json
  let bytes ← decryptB64 libraries key blob.keyPemEnc
  let keyPem ← fromUtf8 bytes
  some ⟨blob.chainPem, keyPem, blob.notAfterUnix⟩

/--
What reaches the server: the calls of the stores, with what a call makes of
its arguments before; the commands of the other capabilities on their own keys;
and the passing of time.
-/
inductive Call
  | tryLock (key holder : Text) (ttl : Nat)
  | extendLock (key holder : Text) (ttl : Nat)
  | unlock (key holder : Text)
  | storeCert (key holder blob : Text)
  | loadCert (key : Text)
  | acquire (name holder : Text) (ttl : Nat)
  | release (name holder : Text)
  | other (key : OtherKey) (command : Text)
  | wait (duration : Nat)

/-- `ttl.as_millis().max(1) as u64`, of a duration in milliseconds. -/
def ttlMillis (ttl : Nat) : Nat :=
  max ttl 1 % 2 ^ 64

/-- What the server does for a call, and its answer. -/
def Redis.execute (redis : Redis) (state : redis.State) :
    Call → redis.State × Reply
  | .tryLock key holder ttl =>
      redis.setNxPx state (lockKey key) holder (ttlMillis ttl)
  | .extendLock key holder ttl =>
      redis.extendLua state (lockKey key) holder (ttlMillis ttl)
  | .unlock key holder => redis.unlockLua state (lockKey key) holder
  | .storeCert key holder blob =>
      redis.storeLua state (lockKey key) (certKey key) holder blob
  | .loadCert key => redis.get state (certKey key)
  | .acquire name holder ttl =>
      redis.setNxPx state (feedLockKey name) holder (ttlMillis ttl)
  | .release name holder => redis.unlockLua state (feedLockKey name) holder
  | .other key command => (redis.other state key command, .ok)
  | .wait duration => (redis.wait state duration, .ok)

/-- What `try_lock` and `acquire` return; `none` is an error on the way. -/
def acquired : Option Reply → Bool
  | some .ok => true
  | _ => false

/-- What `extend_lock` and `store_cert` return. -/
def confirmed : Option Reply → Bool
  | some (.integer 1) => true
  | _ => false

/-- What `load_cert` returns. -/
def loaded (key : Key) : Option Reply → Option SharedCert
  | some (.bulk json) => readBlob libraries key json
  | _ => none

end Calls

/-! ## The families of keys -/

/-- A character of an address. -/
def ipChar (char : Char) : Bool :=
  char.isDigit || ('a' ≤ char && char ≤ 'f') || char == ':' || char == '.'

theorem ipChar_of_mem_numberText
    {radix value : Nat} (low : 1 < radix) (high : radix ≤ 16) {char : Char}
    (member : char ∈ IpAddr.numberText radix value) :
    ipChar char = true := by
  have digits : ∀ digit < 16, ipChar (Nat.digitChar digit) = true := by
    decide
  induction value using Nat.strongRecOn with
  | _ value induction =>
      rw [IpAddr.numberText, Nat.toDigits_eq_if low] at member
      split at member
      · rename_i small
        rw [List.mem_singleton.mp member]
        exact digits value (small.trans_le high)
      · rename_i large
        rcases List.mem_append.mp member with member | member
        · exact induction _ (Nat.div_lt_self (by omega) low) member
        · rw [List.mem_singleton.mp member]
          exact digits _ ((Nat.mod_lt _ (by omega)).trans_le high)

theorem ipChar_of_mem_intercalate
    {mark : Char} (marked : ipChar mark = true) {pieces : List Text}
    (plain : ∀ piece ∈ pieces, ∀ char ∈ piece, ipChar char = true)
    {char : Char} (member : char ∈ [mark].intercalate pieces) :
    ipChar char = true := by
  induction pieces with
  | nil => exact absurd member List.not_mem_nil
  | cons first rest induction =>
      rw [List.forall_mem_cons] at plain
      cases rest with
      | nil =>
          rw [List.intercalate_singleton] at member
          exact plain.1 char member
      | cons second rest =>
          rw [List.intercalate_cons_cons, List.mem_append,
            List.mem_append] at member
          rcases member with (member | member) | member
          · exact plain.1 char member
          · rwa [List.mem_singleton.mp member]
          · exact induction plain.2 member

theorem ipChar_of_mem_numbers
    {radix : Nat} (low : 1 < radix) (high : radix ≤ 16) {mark : Char}
    (marked : ipChar mark = true) {groups : List Nat} {char : Char}
    (member : char ∈
      [mark].intercalate (groups.map (IpAddr.numberText radix))) :
    ipChar char = true := by
  refine ipChar_of_mem_intercalate marked ?_ member
  intro piece found char inside
  obtain ⟨group, -, rfl⟩ := List.mem_map.mp found
  exact ipChar_of_mem_numberText low high inside

theorem ipChar_of_mem_toText
    {ip : IpAddr} {char : Char} (member : char ∈ ip.toText) :
    ipChar char = true := by
  cases ip with
  | v4 bits => exact ipChar_of_mem_numbers (by decide) (by decide) rfl member
  | v6 bits =>
      have marks : ∀ char ∈ "::ffff:".toList ++ "::".toList,
          ipChar char = true := by
        simp only [String.reduceToList]
        decide
      rw [IpAddr.toText, IpAddr.ipv6Text] at member
      dsimp only at member
      split at member
      · rcases List.mem_append.mp member with member | member
        · exact marks char (List.mem_append_left _ member)
        · exact ipChar_of_mem_numbers (by decide) (by decide) rfl member
      · split at member
        · rcases List.mem_append.mp member with member | member
          · rcases List.mem_append.mp member with member | member
            · exact ipChar_of_mem_numbers (by decide) (by decide) rfl member
            · exact marks char (List.mem_append_right _ member)
          · exact ipChar_of_mem_numbers (by decide) (by decide) rfl member
        · exact ipChar_of_mem_numbers (by decide) (by decide) rfl member

/-- A key that starts unlike a reputation and has a letter of no address. -/
def Guarded (text : Text) : Prop :=
  text.head? ≠ some 'r' ∧ ∃ char ∈ text, ipChar char = false

theorem guarded_redisKey (lock : Lock) : Guarded lock.redisKey := by
  cases lock with
  | issuance key =>
      refine ⟨?_, 's', ?_, by decide⟩
      · simp [Lock.redisKey, lockKey]
      · simp [Lock.redisKey, lockKey]
  | feed name =>
      refine ⟨?_, '_', ?_, by decide⟩
      · simp [Lock.redisKey, feedLockKey]
      · simp [Lock.redisKey, feedLockKey]

theorem guarded_certKey (key : Text) : Guarded (certKey key) := by
  refine ⟨?_, 't', ?_, by decide⟩
  · simp [certKey]
  · simp [certKey]

/-- The other capabilities have keys of their own. -/
theorem Guarded.ne_other
    {text : Text} (guarded : Guarded text) (key : OtherKey) :
    text ≠ key.redisKey := by
  rintro rfl
  obtain ⟨head, char, member, foreign⟩ := guarded
  cases key with
  | bucket ip =>
      rw [ipChar_of_mem_toText member] at foreign
      cases foreign
  | reputation ip => exact head rfl

theorem redisKey_injective : Function.Injective Lock.redisKey := by
  intro first second same
  cases first with
  | issuance key =>
      cases second with
      | issuance other => rw [List.append_cancel_left same]
      | feed name =>
          simp [Lock.redisKey, lockKey, feedLockKey] at same
  | feed name =>
      cases second with
      | issuance key =>
          simp [Lock.redisKey, lockKey, feedLockKey] at same
      | feed other => rw [List.append_cancel_left same]

theorem redisKey_ne_certKey (lock : Lock) (key : Text) :
    lock.redisKey ≠ certKey key := by
  intro same
  cases lock with
  | issuance other => simp [Lock.redisKey, lockKey, certKey] at same
  | feed name => simp [Lock.redisKey, feedLockKey, certKey] at same

theorem certKey_injective : Function.Injective certKey :=
  fun _ _ same => List.append_cancel_left same

end LightWaf.StateRedis
