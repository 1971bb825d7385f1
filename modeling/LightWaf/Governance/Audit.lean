import LightWaf.Rust.Encode
import LightWaf.Rust.Utf8
import LightWaf.Theory.Framing

/-!
# The signed audit log

The embedding of `waf-governance/src/audit.rs` and of `append_audit`.  The
digest and the signature scheme come from a library and are parameters.
-/

namespace LightWaf.Governance

open LightWaf.Rust
open LightWaf.Theory.Framing

/-! ## Values -/

/-- A `String` or `str`, which never holds more than `isize::MAX` bytes. -/
abbrev Str := {text : Text // byteLen text < 2 ^ 63}

/--
An instant, as `unix_timestamp_nanos` gives it.  The dates of the `time` crate
lie within ten thousand years of the epoch, far inside this range.
-/
structure OffsetDateTime where
  nanos : Int
  inRange : nanos.natAbs < 4 * 10 ^ 20
deriving DecidableEq

namespace OffsetDateTime

/-- Whole microseconds since the epoch. -/
def micros (ts : OffsetDateTime) : Int :=
  ts.nanos.tdiv 1000

end OffsetDateTime

/-- `ts_micros`. -/
def tsMicros (ts : OffsetDateTime) : Int64 :=
  Int64.ofInt ts.micros

/-- A SHA-256 digest. -/
abbrev Digest := {bytes : Bytes // bytes.length = 32}

/-- The functions of the cryptographic library. -/
structure Crypto where
  sha256 : Bytes → Digest
  verify : (publicKey message signature : Bytes) → Bool

/-- `AuditSigner`: a key pair. -/
structure AuditSigner where
  publicKey : {bytes : Bytes // bytes.length = 32}
  sign : Bytes → {bytes : Bytes // bytes.length = 64}

/-- `AuditRecord`. -/
structure AuditRecord where
  seq : Int64
  ts : OffsetDateTime
  actor : Str
  action : Str
  target : Option Str
  details : Str
  prevHash : Str
  hash : Str
  signature : Str
deriving DecidableEq

/-- `NewAudit`. -/
structure NewAudit where
  actor : Str
  action : Str
  target : Option Str
  details : Str

/-! ## Hashes -/

/-- The length of a field as a `u64`. -/
def lengthHeader : Header UInt8 (2 ^ 64) where
  write length := beBytes 8 length
  width := 8
  length_write := length_beBytes 8
  injective _ _ small otherSmall := beBytes_inj small otherSmall

/-- `feed`: a field behind its length. -/
def feed (field : Text) : Bytes :=
  frame lengthHeader (asBytes field)

/-- What `compute_hash` feeds to the digest. -/
def preimage (seq tsMicros : Int64) (actor action : Str)
    (target : Option Str) (details prevHash : Str) : Bytes :=
  i64ToBeBytes seq ++ i64ToBeBytes tsMicros ++ feed actor.1 ++
    feed action.1 ++ feed (target.elim [] Subtype.val) ++ feed details.1 ++
    feed prevHash.1

theorem byteLen_hexPair (byte : UInt8) : byteLen (hexPair byte) = 2 := by
  have one : ∀ digit < 16, (String.utf8EncodeChar
      (Nat.digitChar digit)).length = 1 := by decide
  have bound := byte.toNat_lt
  rw [byteLen, hexPair, asBytes_cons, asBytes_cons, asBytes_nil,
    List.length_append, List.length_append, one _ (by omega),
    one _ (by omega)]
  rfl

theorem byteLen_hexEncode (bytes : Bytes) :
    byteLen (hexEncode bytes) = 2 * bytes.length := by
  induction bytes with
  | nil => rfl
  | cons byte rest induction =>
      have two := byteLen_hexPair byte
      rw [byteLen] at two induction ⊢
      rw [hexEncode, List.flatMap_cons, asBytes_append, List.length_append,
        ← hexEncode, two, induction, List.length_cons]
      omega

/-- The hexadecimal form of a digest, a key or a signature. -/
def hexStr (bytes : Bytes) (small : bytes.length ≤ 64) : Str :=
  ⟨hexEncode bytes, by
    rw [byteLen_hexEncode]
    omega⟩

section Crypto

variable (crypto : Crypto) (signer : AuditSigner)

/-- `sha256_hex`. -/
def sha256Hex (bytes : Bytes) : Str :=
  hexStr (crypto.sha256 bytes).1 (by rw [(crypto.sha256 bytes).2]; decide)

/-- `compute_hash`. -/
def computeHash (seq tsMicros : Int64) (actor action : Str)
    (target : Option Str) (details prevHash : Str) : Str :=
  sha256Hex crypto
    (preimage seq tsMicros actor action target details prevHash)

/-- `GENESIS_PREV`. -/
def genesisPrev : Str :=
  hexStr (List.replicate 32 0) (by decide)

/-! ## Signatures -/

namespace AuditSigner

/-- `public_key_hex`. -/
def publicKeyHex (signer : AuditSigner) : Str :=
  hexStr signer.publicKey.1 (by rw [signer.publicKey.2]; decide)

/-- `sign_hash`. -/
def signHash (signer : AuditSigner) (hash : Str) : Str :=
  hexStr (signer.sign (asBytes hash.1)).1
    (signer.sign (asBytes hash.1)).2.le

end AuditSigner

/-- `verify_signature`. -/
def verifySignature (pubkeyHex hashHex sigHex : Text) : Bool :=
  match hexDecode pubkeyHex, hexDecode sigHex with
  | some publicKey, some signature =>
      crypto.verify publicKey (asBytes hashHex) signature
  | _, _ => false

/-! ## The chain -/

/-- `ChainBreak`. -/
structure ChainBreak where
  index : Nat
  seq : Int64
  reason : String
deriving DecidableEq

/-- The bytes a record's hash is taken of. -/
def AuditRecord.preimage (record : AuditRecord) : Bytes :=
  Governance.preimage record.seq (tsMicros record.ts) record.actor
    record.action record.target record.details record.prevHash

/-- The hash that a record ought to have. -/
def AuditRecord.recomputed (record : AuditRecord) : Str :=
  computeHash crypto record.seq (tsMicros record.ts) record.actor
    record.action record.target record.details record.prevHash

/-- The loop of `verify_chain`. -/
def verifyFrom (pubkeyHex : Text) :
    (prev : Str) → (index : Nat) → List AuditRecord → Except ChainBreak Unit
  | _, _, [] => .ok ()
  | prev, index, record :: rest =>
      if record.prevHash ≠ prev then
        .error ⟨index, record.seq,
          "prev_hash does not link the previous record"⟩
      else if record.recomputed crypto ≠ record.hash then
        .error ⟨index, record.seq, "hash does not match record content"⟩
      else if !verifySignature crypto pubkeyHex record.hash.1
          record.signature.1 then
        .error ⟨index, record.seq, "signature does not verify"⟩
      else verifyFrom pubkeyHex record.hash (index + 1) rest

/-- `verify_chain`. -/
def verifyChain (records : List AuditRecord) (pubkeyHex : Text) :
    Except ChainBreak Unit :=
  verifyFrom crypto pubkeyHex genesisPrev 0 records

/-! ## Appending -/

/-- The `seq` and `prev_hash` after a log; there is no `seq` beyond an `i64`. -/
def nextLink (log : List AuditRecord) : Option (Int64 × Str) :=
  match log.getLast? with
  | some last =>
      if last.seq.toInt + 1 < 2 ^ 63 then
        some (Int64.ofInt (last.seq.toInt + 1), last.hash)
      else none
  | none => some (1, genesisPrev)

/-- `append_audit` on a log in the order of its `seq`. -/
def appendAudit (log : List AuditRecord) (ts : OffsetDateTime)
    (entry : NewAudit) : Option AuditRecord :=
  (nextLink log).map fun (seq, prevHash) =>
    let hash := computeHash crypto seq (tsMicros ts) entry.actor entry.action
      entry.target entry.details prevHash
    { seq := seq
      ts := ts
      actor := entry.actor
      action := entry.action
      target := entry.target
      details := entry.details
      prevHash := prevHash
      hash := hash
      signature := signer.signHash hash }

/-- The logs that calls of `append_audit` produce. -/
inductive Logged : List AuditRecord → Prop
  | empty : Logged []
  | append (log : List AuditRecord) (ts : OffsetDateTime) (entry : NewAudit)
      (record : AuditRecord) (logged : Logged log)
      (appended : appendAudit crypto signer log ts entry = some record) :
      Logged (log ++ [record])

end Crypto

end LightWaf.Governance
