import LightWaf.Rust.Utf8
import LightWaf.Theory.Machine

/-!
# The certificate cache on disk

The embedding of `load_cached_cert` and `store_cached_cert` of
`waf-tls-managed/src/acme_dns01.rs`, with a failure or a crash at every step on
the file system.  The chain and the key are two files, written one after the
other, and a chain loads with any key.  What is loaded was stored together as
long as no call replaces one of the files and leaves the other one usable.
-/

namespace LightWaf.Tls.CertificateCache

open LightWaf.Rust
open LightWaf.Theory

/-! ## Certified keys -/

/-- `pem::Error`, as far as it is told apart. -/
inductive PemError
  | noItemsFound
  | other (message : Text)

/-- What the TLS library reads, with the messages of its errors. -/
structure PemReader (Cert KeyDer SigningKey : Type) where
  certificates : Bytes → Except Text (List Cert)
  privateKey : Bytes → Except PemError KeyDer
  loadPrivateKey : KeyDer → Except Text SigningKey

/-- `CertifiedKey`. -/
structure CertifiedKey (Cert SigningKey : Type) where
  certs : List Cert
  key : SigningKey
deriving DecidableEq

section Load

variable {Cert KeyDer SigningKey : Type}
  (reader : PemReader Cert KeyDer SigningKey)

/-- The first half of `certified_key_from_pem`. -/
def chainFromPem (chainPem : Text) : Except Text (List Cert) :=
  match reader.certificates (asBytes chainPem) with
  | .error message =>
      .error ("issued certificate chain: ".toList ++ message)
  | .ok [] =>
      .error "issued certificate chain contained no certificates".toList
  | .ok (cert :: certs) => .ok (cert :: certs)

/-- The second half of `certified_key_from_pem`. -/
def keyFromPem (keyPem : Text) : Except Text SigningKey :=
  match reader.privateKey (asBytes keyPem) with
  | .error .noItemsFound => .error "no private key in PEM".toList
  | .error (.other message) => .error ("private key PEM: ".toList ++ message)
  | .ok key => reader.loadPrivateKey key

/-- `certified_key_from_pem`: the key is not compared with the chain. -/
def certifiedKeyFromPem (chainPem keyPem : Text) :
    Except Text (CertifiedKey Cert SigningKey) := do
  let certs ← chainFromPem reader chainPem
  let key ← keyFromPem reader keyPem
  return ⟨certs, key⟩

/-- The files `cert.pem` and `key.pem` of the cache directory. -/
structure CacheDir where
  cert : Option Bytes
  key : Option Bytes

/-- `load_cached_cert`. -/
def loadCachedCert (dir : CacheDir) :
    Option (CertifiedKey Cert SigningKey) := do
  let chain ← dir.cert.bind fromUtf8
  let key ← dir.key.bind fromUtf8
  (certifiedKeyFromPem reader chain key).toOption

end Load

/-! ## Storing -/

/-- What a write leaves: the old file, a part of the new one, or the new one. -/
inductive Left
  | old
  | truncated (length : Nat)
  | new

/-- How `std::fs::write` ends; it only returns `Ok` with the new file. -/
inductive WriteOutcome
  | completed
  | failed (left : Left)
  | crashed (left : Left)

def WriteOutcome.left : WriteOutcome → Left
  | .completed => .new
  | .failed left => left
  | .crashed left => left

/-- How `create_dir_all` ends. -/
inductive CreateOutcome
  | completed
  | failed
  | crashed

/-- A file after a write of some content. -/
def written (file : Option Bytes) (content : Bytes) : Left → Option Bytes
  | .old => file
  | .truncated length => some (content.take length)
  | .new => some content

/-- The arguments of a call, and how its steps on the file system end. -/
structure StoreCall where
  chainPem : Text
  keyPem : Text
  create : CreateOutcome
  writeCert : WriteOutcome
  writeKey : WriteOutcome

/--
`store_cached_cert`: the files it leaves.  The key is written even if the write
of the chain has failed; the permissions set last do not change a file.
-/
def storeCachedCert (dir : CacheDir) (call : StoreCall) : CacheDir :=
  match call.create with
  | .failed => dir
  | .crashed => dir
  | .completed =>
      let cert := written dir.cert (asBytes call.chainPem) call.writeCert.left
      match call.writeCert with
      | .crashed _ => ⟨cert, dir.key⟩
      | .completed | .failed _ =>
          ⟨cert, written dir.key (asBytes call.keyPem) call.writeKey.left⟩

/-- What the call leaves of `cert.pem`. -/
def StoreCall.certLeft (call : StoreCall) : Left :=
  match call.create with
  | .completed => call.writeCert.left
  | .failed | .crashed => .old

/-- What the call leaves of `key.pem`, also if it does not get that far. -/
def StoreCall.keyLeft (call : StoreCall) : Left :=
  match call.create, call.writeCert with
  | .completed, .completed | .completed, .failed _ => call.writeKey.left
  | .completed, .crashed _ | .failed, _ | .crashed, _ => .old

/-- Each file is left by its own write. -/
theorem storeCachedCert_eq (dir : CacheDir) (call : StoreCall) :
    storeCachedCert dir call =
      ⟨written dir.cert (asBytes call.chainPem) call.certLeft,
        written dir.key (asBytes call.keyPem) call.keyLeft⟩ := by
  obtain ⟨chainPem, keyPem, create, writeCert, writeKey⟩ := call
  cases create with
  | failed => rfl
  | crashed => rfl
  | completed => cases writeCert <;> rfl

/-! ## Sequences of calls -/

/-- The cache directory, and the calls so far. -/
structure Cached where
  dir : CacheDir
  calls : List StoreCall

/-- Before the first call. -/
def Cached.initial : Cached :=
  ⟨⟨none, none⟩, []⟩

/-- After a call, or after the restart that follows a crash in it. -/
def Cached.after (cached : Cached) (call : StoreCall) : Cached :=
  ⟨storeCachedCert cached.dir call, call :: cached.calls⟩

section Runs

variable {Cert KeyDer SigningKey : Type}
  (reader : PemReader Cert KeyDer SigningKey)

/-- What loads was passed together to one of the calls. -/
def LoadsTogether (cached : Cached) : Prop :=
  ∀ loaded, loadCachedCert reader cached.dir = some loaded →
    ∃ call ∈ cached.calls,
      certifiedKeyFromPem reader call.chainPem call.keyPem = .ok loaded

/-- The file is there, and its text is read. -/
def Readable {α : Type} (read : Text → Except Text α)
    (file : Option Bytes) : Prop :=
  ∃ text value, file.bind fromUtf8 = some text ∧ read text = .ok value

/--
A call does not separate the two files: it leaves both with its own content,
both as they were, or one of them so that it cannot be used.
-/
inductive KeepsPair (dir : CacheDir) (call : StoreCall) : Prop
  | both
      (cert : written dir.cert (asBytes call.chainPem) call.certLeft =
        some (asBytes call.chainPem))
      (key : written dir.key (asBytes call.keyPem) call.keyLeft =
        some (asBytes call.keyPem))
  | neither
      (cert : written dir.cert (asBytes call.chainPem) call.certLeft =
        dir.cert)
      (key : written dir.key (asBytes call.keyPem) call.keyLeft = dir.key)
  | withoutChain
      (unusable : ¬ Readable (chainFromPem reader)
        (written dir.cert (asBytes call.chainPem) call.certLeft))
  | withoutKey
      (unusable : ¬ Readable (keyFromPem reader)
        (written dir.key (asBytes call.keyPem) call.keyLeft))

variable {reader}

/-- A chain and a key make a certified key, whatever they are. -/
theorem certifiedKeyFromPem_eq_ok_iff
    {chainPem keyPem : Text} {loaded : CertifiedKey Cert SigningKey} :
    certifiedKeyFromPem reader chainPem keyPem = .ok loaded ↔
      chainFromPem reader chainPem = .ok loaded.certs ∧
        keyFromPem reader keyPem = .ok loaded.key := by
  obtain ⟨certs, key⟩ := loaded
  rw [certifiedKeyFromPem]
  cases chainFromPem reader chainPem with
  | error message =>
      constructor
      · intro same
        cases same
      · rintro ⟨⟨⟩, -⟩
  | ok readCerts =>
      cases keyFromPem reader keyPem with
      | error message =>
          constructor
          · intro same
            cases same
          · rintro ⟨-, ⟨⟩⟩
      | ok readKey =>
          constructor
          · intro same
            cases same
            exact ⟨rfl, rfl⟩
          · rintro ⟨⟨⟩, ⟨⟩⟩
            rfl

/-- What loads is read from both files. -/
theorem loadCachedCert_eq_some_iff
    {dir : CacheDir} {loaded : CertifiedKey Cert SigningKey} :
    loadCachedCert reader dir = some loaded ↔
      ∃ chain key, dir.cert.bind fromUtf8 = some chain ∧
        dir.key.bind fromUtf8 = some key ∧
        certifiedKeyFromPem reader chain key = .ok loaded := by
  rw [loadCachedCert]
  cases dir.cert.bind fromUtf8 with
  | none => simp
  | some chain =>
      cases dir.key.bind fromUtf8 with
      | none => simp
      | some key =>
          simp only [Option.bind_eq_bind, Option.bind_some]
          cases certified : certifiedKeyFromPem reader chain key <;>
            simp [Except.toOption, certified]

/-- Whatever was left before, a pair that is kept loads together. -/
theorem LoadsTogether.after
    {cached : Cached} (together : LoadsTogether reader cached)
    {call : StoreCall} (keeps : KeepsPair reader cached.dir call) :
    LoadsTogether reader (cached.after call) := by
  intro loaded loads
  rw [Cached.after, storeCachedCert_eq, loadCachedCert_eq_some_iff] at loads
  obtain ⟨chain, key, chainRead, keyRead, certified⟩ := loads
  cases keeps with
  | both cert key =>
      rw [cert, Option.bind_some, fromUtf8_asBytes] at chainRead
      rw [key, Option.bind_some, fromUtf8_asBytes] at keyRead
      cases chainRead
      cases keyRead
      exact ⟨call, List.mem_cons_self, certified⟩
  | neither cert key =>
      rw [cert] at chainRead
      rw [key] at keyRead
      obtain ⟨earlier, member, passed⟩ := together loaded
        (loadCachedCert_eq_some_iff.mpr
          ⟨chain, _, chainRead, keyRead, certified⟩)
      exact ⟨earlier, List.mem_cons_of_mem _ member, passed⟩
  | withoutChain unusable =>
      exact absurd ⟨chain, _, chainRead,
        (certifiedKeyFromPem_eq_ok_iff.mp certified).1⟩ unusable
  | withoutKey unusable =>
      exact absurd ⟨key, _, keyRead,
        (certifiedKeyFromPem_eq_ok_iff.mp certified).2⟩ unusable

theorem loadsTogether_initial : LoadsTogether reader .initial := by
  intro loaded loads
  cases loads

/--
Along every sequence of calls that keep the pair, with a failure or a crash at
any step, what loads after each call was passed together to one of them.
-/
theorem throughout_loadsTogether
    (calls : List StoreCall)
    (keeps : Machine.Throughout
      (fun cached call => some (Cached.after cached call))
      (fun cached call => KeepsPair reader cached.dir call) .initial calls) :
    Machine.Throughout (fun cached call => some (Cached.after cached call))
      (fun cached call => LoadsTogether reader (cached.after call)) .initial
      calls := by
  have started : LoadsTogether reader .initial := loadsTogether_initial
  refine Machine.Throughout.imp_of_invariant ?_ ?_ started keeps
  · intro cached call together kept
    exact together.after kept
  · intro cached call next together kept taken
    cases taken
    exact together.after kept

end Runs

/-! ## A crash between the two files -/

/-- The body of a PEM text that is one block of the given kind. -/
def pemBody (kind : Text) (bytes : Bytes) : Option Text := do
  let text ← fromUtf8 bytes
  let rest ← stripPrefix
    ("-----BEGIN ".toList ++ kind ++ "-----\n".toList) text
  stripSuffix ("\n-----END ".toList ++ kind ++ "-----\n".toList) rest

/-- The base64 text of what comes before the seed in an Ed25519 key. -/
def ed25519Lead : Text :=
  "MC4CAQAwBQYDK2VwBCIEI".toList

/-- An Ed25519 key in its shortest encoding, with a seed of 32 bytes. -/
def loadEd25519 (body : Text) : Except Text Text :=
  match stripPrefix ed25519Lead body with
  | some seed =>
      if seed.length = 43 then .ok body
      else .error "failed to parse private key".toList
  | none => .error "failed to parse private key".toList

/-- A reader of texts of one block, which keeps their base64 texts. -/
def oneBlockReader : PemReader Text Text Text where
  certificates := fun bytes => .ok (pemBody "CERTIFICATE".toList bytes).toList
  privateKey := fun bytes =>
    match pemBody "PRIVATE KEY".toList bytes with
    | some body => .ok body
    | none => .error .noItemsFound
  loadPrivateKey := loadEd25519

/-- A text of one block. -/
def pemText (kind body : Text) : Text :=
  "-----BEGIN ".toList ++ kind ++ "-----\n".toList ++
    (body ++ ("\n-----END ".toList ++ kind ++ "-----\n".toList))

theorem pemBody_pemText (kind body : Text) :
    pemBody kind (asBytes (pemText kind body)) = some body := by
  unfold pemBody
  rw [fromUtf8_asBytes]
  unfold pemText
  generalize "-----BEGIN ".toList ++ kind ++ "-----\n".toList = lead
  generalize "\n-----END ".toList ++ kind ++ "-----\n".toList = tail
  simp only [Option.bind_eq_bind, Option.bind_some, stripPrefix_append,
    stripSuffix_append]

/-- The Ed25519 key of a seed, by the rest of its base64 text. -/
def ed25519Pem (seed : Text) : Text :=
  pemText "PRIVATE KEY".toList (ed25519Lead ++ seed)

theorem loadEd25519_append {seed : Text} (size : seed.length = 43) :
    loadEd25519 (ed25519Lead ++ seed) = .ok (ed25519Lead ++ seed) := by
  rw [loadEd25519, stripPrefix_append]
  exact if_pos size

theorem certifiedKeyFromPem_oneBlock
    (body : Text) {seed : Text} (size : seed.length = 43) :
    certifiedKeyFromPem oneBlockReader (pemText "CERTIFICATE".toList body)
        (ed25519Pem seed) =
      .ok ⟨[body], ed25519Lead ++ seed⟩ := by
  rw [certifiedKeyFromPem_eq_ok_iff, chainFromPem, keyFromPem]
  simp only [oneBlockReader, ed25519Pem, pemBody_pemText]
  exact ⟨rfl, loadEd25519_append size⟩

/-- The first certificate and its key. -/
def firstSeed : Text :=
  "AAAAAAAAAAAAAAAAAAAAAAAAAAAAAAAAAAAAAAAAAAA".toList

/-- The key of the second certificate. -/
def secondSeed : Text :=
  "AEBAQEBAQEBAQEBAQEBAQEBAQEBAQEBAQEBAQEBAQEB".toList

/-- A call for the certificate with a body and the key with a seed. -/
def storing (body seed : Text) (writeKey : WriteOutcome) : StoreCall :=
  ⟨pemText "CERTIFICATE".toList body, ed25519Pem seed, .completed,
    .completed, writeKey⟩

/-- Two calls that complete, and one whose directory cannot be made. -/
theorem loadsTogether_completed :
    Machine.Throughout (fun cached call => some (Cached.after cached call))
      (fun cached call => LoadsTogether oneBlockReader (cached.after call))
      .initial
      [storing "AAAA".toList firstSeed .completed,
        storing "AAAB".toList secondSeed .completed,
        { storing "AAAC".toList firstSeed .completed with
          create := .failed }] := by
  apply throughout_loadsTogether
  refine ⟨.both rfl rfl, fun next taken => ?_⟩
  refine ⟨.both rfl rfl, fun next taken => ?_⟩
  exact ⟨.neither rfl rfl, fun _ _ => trivial⟩

/--
A crash before the second key is written: the second chain loads with the
first key.
-/
theorem not_loadsTogether_crashed :
    ¬ Machine.Throughout (fun cached call => some (Cached.after cached call))
      (fun cached call => LoadsTogether oneBlockReader (cached.after call))
      .initial
      [storing "AAAA".toList firstSeed .completed,
        storing "AAAB".toList secondSeed (.crashed .old)] := by
  intro throughout
  have mixed := certifiedKeyFromPem_oneBlock "AAAB".toList
    (show firstSeed.length = 43 by decide)
  have loads := (throughout.2 _ rfl).1 _ (loadCachedCert_eq_some_iff.mpr
    ⟨_, _, fromUtf8_asBytes _, fromUtf8_asBytes _, mixed⟩)
  obtain ⟨call, member, passed⟩ := loads
  rcases List.mem_pair.mp member with rfl | rfl
  · rw [storing, certifiedKeyFromPem_oneBlock _ (by decide)] at passed
    exact absurd (congrArg CertifiedKey.key (Except.ok.inj passed))
      (by decide)
  · rw [storing, certifiedKeyFromPem_oneBlock _ (by decide)] at passed
    exact absurd (congrArg CertifiedKey.certs (Except.ok.inj passed))
      (by decide)

end LightWaf.Tls.CertificateCache
