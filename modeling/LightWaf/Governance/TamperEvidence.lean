import LightWaf.Governance.Audit
import LightWaf.Theory.Chain

/-!
# What the chain gives away

A verified chain binds the content of every record, but for one bit: an absent
target and an empty one are hashed alike.  And it protects the past of each
record, not its future: what is cut off at the end is not missed.
-/

namespace LightWaf.Governance

open LightWaf.Rust
open LightWaf.Theory.Chain
open LightWaf.Theory.Framing

/-! ## The hashed content -/

theorem feed_append_inj
    {rest left : Bytes} {first second : Str}
    (same : feed first.1 ++ rest = feed second.1 ++ left) :
    first = second ∧ rest = left := by
  have fits (field : Str) : (asBytes field.1).length < 2 ^ 64 :=
    lt_trans field.2 (by decide)
  obtain ⟨fields, tails⟩ :=
    frame_append_inj lengthHeader (fits first) (fits second) same
  exact ⟨Subtype.ext (asBytes_injective fields), tails⟩

theorem micros_eq_of_tsMicros
    {first second : OffsetDateTime} (same : tsMicros first = tsMicros second) :
    first.micros = second.micros := by
  have within (ts : OffsetDateTime) :
      -2 ^ 63 ≤ ts.micros ∧ ts.micros < 2 ^ 63 := by
    have bound := ts.inRange
    have small : ts.micros.natAbs = ts.nanos.natAbs / 1000 :=
      Int.natAbs_tdiv ts.nanos 1000
    constructor <;> omega
  have values := congrArg Int64.toInt same
  rwa [tsMicros, tsMicros,
    Int64.toInt_ofInt_of_le (within first).1 (within first).2,
    Int64.toInt_ofInt_of_le (within second).1 (within second).2] at values

/-- The empty text. -/
def emptyStr : Str := ⟨[], by decide⟩

theorem elim_eq_getD (target : Option Str) :
    target.elim [] Subtype.val = (target.getD emptyStr).1 := by
  cases target <;> rfl

/-- All that is hashed, field by field. -/
structure SameContent (record other : AuditRecord) : Prop where
  seq : record.seq = other.seq
  micros : record.ts.micros = other.ts.micros
  actor : record.actor = other.actor
  action : record.action = other.action
  target : record.target.getD emptyStr = other.target.getD emptyStr
  details : record.details = other.details
  prevHash : record.prevHash = other.prevHash

/-- The encoding has one reading. -/
theorem sameContent_of_preimage
    {record other : AuditRecord} (same : record.preimage = other.preimage) :
    SameContent record other := by
  simp only [AuditRecord.preimage, preimage, elim_eq_getD,
    List.append_assoc] at same
  obtain ⟨seqs, same⟩ := List.append_inj same (by simp [i64ToBeBytes])
  obtain ⟨times, same⟩ := List.append_inj same (by simp [i64ToBeBytes])
  obtain ⟨actor, same⟩ := feed_append_inj same
  obtain ⟨action, same⟩ := feed_append_inj same
  obtain ⟨target, same⟩ := feed_append_inj same
  obtain ⟨details, same⟩ := feed_append_inj same
  rw [← List.append_nil (feed record.prevHash.1),
    ← List.append_nil (feed other.prevHash.1)] at same
  exact
    { seq := i64ToBeBytes_injective seqs
      micros := micros_eq_of_tsMicros (i64ToBeBytes_injective times)
      actor := actor
      action := action
      target := target
      details := details
      prevHash := (feed_append_inj same).1 }

/-! ## Verified chains -/

/-- Each record names the hash of the one before it. -/
def Unbroken (records : List AuditRecord) : Prop :=
  Linked AuditRecord.prevHash AuditRecord.hash genesisPrev records

section Crypto

variable (crypto : Crypto) (signer : AuditSigner)

/-- A record that has the hash of its content and a signature of that. -/
structure Sound (pubkeyHex : Text) (record : AuditRecord) : Prop where
  hash : record.recomputed crypto = record.hash
  signature : verifySignature crypto pubkeyHex record.hash.1
    record.signature.1 = true

theorem verifyFrom_cons_of_sound
    {pubkeyHex : Text} {prev : Str} {record : AuditRecord}
    (linked : record.prevHash = prev) (sound : Sound crypto pubkeyHex record)
    (index : Nat) (rest : List AuditRecord) :
    verifyFrom crypto pubkeyHex prev index (record :: rest) =
      verifyFrom crypto pubkeyHex record.hash (index + 1) rest := by
  rw [verifyFrom]
  simp [linked, sound.hash, sound.signature]

theorem verifyFrom_cons_of_unsound
    {pubkeyHex : Text} {prev : Str} {record : AuditRecord}
    (bad : ¬ (record.prevHash = prev ∧ Sound crypto pubkeyHex record))
    (index : Nat) (rest : List AuditRecord) :
    ∃ reason, verifyFrom crypto pubkeyHex prev index (record :: rest) =
      .error ⟨index, record.seq, reason⟩ := by
  rw [verifyFrom]
  split
  · exact ⟨_, rfl⟩
  · rename_i linked
    split
    · exact ⟨_, rfl⟩
    · rename_i hashed
      split
      · exact ⟨_, rfl⟩
      · rename_i signed
        refine absurd ⟨not_not.mp linked, not_not.mp hashed, ?_⟩ bad
        simpa using signed

theorem verifyFrom_eq_ok_iff
    (pubkeyHex : Text) (prev : Str) (index : Nat)
    (records : List AuditRecord) :
    verifyFrom crypto pubkeyHex prev index records = .ok () ↔
      Linked AuditRecord.prevHash AuditRecord.hash prev records ∧
        ∀ record ∈ records, Sound crypto pubkeyHex record := by
  induction records generalizing prev index with
  | nil => simp [verifyFrom, Linked]
  | cons record rest induction =>
      rw [Linked, List.forall_mem_cons]
      by_cases good : record.prevHash = prev ∧ Sound crypto pubkeyHex record
      · rw [verifyFrom_cons_of_sound crypto good.1 good.2, induction,
          and_iff_right good.1, and_iff_right good.2]
      · obtain ⟨reason, broken⟩ :=
          verifyFrom_cons_of_unsound crypto good index rest
        rw [broken]
        constructor
        · exact fun accepted => nomatch accepted
        · rintro ⟨linked, sound⟩
          exact absurd ⟨linked.1, sound.1⟩ good

/-- `verify_chain` accepts unbroken chains of sound records. -/
theorem verifyChain_eq_ok_iff
    (records : List AuditRecord) (pubkeyHex : Text) :
    verifyChain crypto records pubkeyHex = .ok () ↔
      Unbroken records ∧
        ∀ record ∈ records, Sound crypto pubkeyHex record :=
  verifyFrom_eq_ok_iff crypto pubkeyHex genesisPrev 0 records

/-! ## Appended logs -/

variable {crypto signer} {log : List AuditRecord}

/-- What `append_audit` adds. -/
theorem appendAudit_eq_some
    {ts : OffsetDateTime} {entry : NewAudit} {record : AuditRecord}
    (appended : appendAudit crypto signer log ts entry = some record) :
    nextLink log = some (record.seq, record.prevHash) ∧
      record.recomputed crypto = record.hash ∧
      record.signature = signer.signHash record.hash := by
  rw [appendAudit, Option.map_eq_some_iff] at appended
  obtain ⟨⟨seq, prevHash⟩, link, rfl⟩ := appended
  exact ⟨link, rfl, rfl⟩

/-- A record that continues a log is one that `append_audit` adds. -/
theorem logged_concat
    {record : AuditRecord} (logged : Logged crypto signer log)
    (link : nextLink log = some (record.seq, record.prevHash))
    (hashed : record.recomputed crypto = record.hash)
    (signed : record.signature = signer.signHash record.hash) :
    Logged crypto signer (log ++ [record]) := by
  apply Logged.append log record.ts
    ⟨record.actor, record.action, record.target, record.details⟩ record logged
  have computed : computeHash crypto record.seq (tsMicros record.ts)
      record.actor record.action record.target record.details
      record.prevHash = record.hash := hashed
  rw [appendAudit, link, Option.map_some]
  simp only [computed, ← signed]

theorem nextLink_prevHash
    {seq : Int64} {prevHash : Str}
    (link : nextLink log = some (seq, prevHash)) :
    prevHash = (log.getLast?.map AuditRecord.hash).getD genesisPrev := by
  rw [nextLink] at link
  cases last : log.getLast? with
  | none =>
      simp only [last, Option.some.injEq, Prod.mk.injEq] at link
      exact link.2.symm
  | some record =>
      simp only [last, Option.ite_none_right_eq_some, Option.some.injEq,
        Prod.mk.injEq] at link
      exact link.2.2.symm

theorem nextLink_seq
    {seq : Int64} {prevHash : Str}
    (link : nextLink log = some (seq, prevHash)) :
    ∀ last ∈ log.getLast?, last.seq.toInt < seq.toInt := by
  intro last found
  rw [nextLink, Option.mem_def.mp found] at link
  simp only [Option.ite_none_right_eq_some, Option.some.injEq,
    Prod.mk.injEq] at link
  have low := last.seq.le_toInt
  rw [← link.2.1, Int64.toInt_ofInt_of_le (by omega) link.1]
  omega

/-- An appended log is linked from the genesis hash on. -/
theorem unbroken_of_logged (logged : Logged crypto signer log) :
    Unbroken log := by
  induction logged with
  | empty => trivial
  | append log ts entry record logged appended unbroken =>
      exact unbroken.concat
        (nextLink_prevHash (appendAudit_eq_some appended).1)

theorem recomputed_of_logged (logged : Logged crypto signer log) :
    ∀ record ∈ log, record.recomputed crypto = record.hash ∧
      record.signature = signer.signHash record.hash := by
  induction logged with
  | empty => exact fun _ member => nomatch member
  | append log ts entry record logged appended recomputed =>
      intro other member
      rcases List.mem_append.mp member with old | new
      · exact recomputed other old
      · rw [List.mem_singleton.mp new]
        exact (appendAudit_eq_some appended).2

/-- The `seq` grows along an appended log. -/
theorem seq_pairwise_of_logged (logged : Logged crypto signer log) :
    log.Pairwise fun first second => first.seq.toInt < second.seq.toInt := by
  induction logged with
  | empty => exact List.Pairwise.nil
  | append log ts entry record logged appended ordered =>
      rw [List.pairwise_append]
      refine ⟨ordered, List.pairwise_singleton _ _, fun first member second
        new => ?_⟩
      rw [List.mem_singleton.mp new]
      have above := nextLink_seq (appendAudit_eq_some appended).1
      obtain rfl | ⟨init, last, rfl⟩ := List.eq_nil_or_concat' log
      · exact nomatch member
      · have latest := above last (by simp)
        rcases List.mem_append.mp member with old | newest
        · exact ((List.pairwise_append.mp ordered).2.2 first old last
            (List.mem_singleton_self last)).trans latest
        · rwa [List.mem_singleton.mp newest]

/-! ## Assumptions -/

/-- What the digest is taken of in a list of records. -/
def messages (records : List AuditRecord) : Set Bytes :=
  {message | ∃ record ∈ records, record.preimage = message}

/-- The signatures that the signer made verify. -/
def Genuine (crypto : Crypto) (signer : AuditSigner)
    (log : List AuditRecord) : Prop :=
  ∀ record ∈ log, crypto.verify signer.publicKey.1 (asBytes record.hash.1)
    (signer.sign (asBytes record.hash.1)).1 = true

/-- No signature verifies under the key but on a hash of the log. -/
def Unforgeable (crypto : Crypto) (signer : AuditSigner)
    (log : List AuditRecord) : Prop :=
  ∀ message signature,
    crypto.verify signer.publicKey.1 message signature = true →
      ∃ record ∈ log, asBytes record.hash.1 = message

theorem verifySignature_hex
    (publicKey message signature : Bytes) (hash : Str)
    (hashed : asBytes hash.1 = message) :
    verifySignature crypto (hexEncode publicKey) hash.1
      (hexEncode signature) = crypto.verify publicKey message signature := by
  rw [verifySignature, hexDecode_hexEncode, hexDecode_hexEncode, hashed]

/-- An appended log is made of sound records. -/
theorem sound_of_logged
    (logged : Logged crypto signer log)
    (genuine : Genuine crypto signer log) :
    ∀ record ∈ log, Sound crypto signer.publicKeyHex.1 record := by
  intro record member
  obtain ⟨hashed, signed⟩ := recomputed_of_logged logged record member
  refine ⟨hashed, ?_⟩
  rw [signed]
  exact (verifySignature_hex _ _ _ record.hash rfl).trans
    (genuine record member)

/-- An appended log is accepted. -/
theorem accepted_of_logged
    (logged : Logged crypto signer log)
    (genuine : Genuine crypto signer log) :
    verifyChain crypto log signer.publicKeyHex.1 = .ok () := by
  rw [verifyChain_eq_ok_iff]
  exact ⟨unbroken_of_logged logged, sound_of_logged logged genuine⟩

/-- Texts with one digest are the same. -/
theorem eq_of_sha256Hex
    {first second : Bytes} {S : Set Bytes}
    (collisionFree : Set.InjOn crypto.sha256 S)
    (firstIn : first ∈ S) (secondIn : second ∈ S)
    (same : sha256Hex crypto first = sha256Hex crypto second) :
    first = second := by
  apply collisionFree firstIn secondIn
  exact Subtype.ext (hexEncode_injective (congrArg Subtype.val same))

theorem recomputed_eq (record : AuditRecord) :
    record.recomputed crypto = sha256Hex crypto record.preimage :=
  rfl

/-! ## Content -/

/-- A record as it was appended, to the microsecond. -/
def SameRecord (record appended : AuditRecord) : Prop :=
  record.seq = appended.seq ∧ record.ts.micros = appended.ts.micros ∧
    record.actor = appended.actor ∧ record.action = appended.action ∧
    record.target = appended.target ∧ record.details = appended.details ∧
    record.prevHash = appended.prevHash ∧ record.hash = appended.hash

/-- A target that is present and not empty. -/
def HasTarget (record : AuditRecord) : Prop :=
  ∃ target, record.target = some target ∧ target ≠ emptyStr

/-- Every accepted record has the content of an appended one. -/
theorem sameContent_of_accepted
    {records : List AuditRecord}
    (logged : Logged crypto signer log)
    (unforgeable : Unforgeable crypto signer log)
    (collisionFree : Set.InjOn crypto.sha256 (messages (log ++ records)))
    (accepted : verifyChain crypto records signer.publicKeyHex.1 = .ok ())
    {record : AuditRecord} (member : record ∈ records) :
    ∃ appended ∈ log, SameContent record appended ∧
      record.hash = appended.hash := by
  have sound := ((verifyChain_eq_ok_iff crypto records _).mp accepted).2
    record member
  have signed := sound.signature
  rw [verifySignature] at signed
  have key : hexDecode signer.publicKeyHex.1 = some signer.publicKey.1 :=
    hexDecode_hexEncode _
  rw [key] at signed
  cases decoded : hexDecode record.signature.1 with
  | none =>
      rw [decoded] at signed
      exact nomatch signed
  | some signature =>
      rw [decoded] at signed
      obtain ⟨appended, inside, same⟩ := unforgeable _ _ signed
      have hashes : record.hash = appended.hash :=
        Subtype.ext (asBytes_injective same.symm)
      have recomputed := (recomputed_of_logged logged appended inside).1
      refine ⟨appended, inside, sameContent_of_preimage ?_, hashes⟩
      apply eq_of_sha256Hex collisionFree
      · exact ⟨record, List.mem_append_right _ member, rfl⟩
      · exact ⟨appended, List.mem_append_left _ inside, rfl⟩
      · rw [← recomputed_eq, ← recomputed_eq, sound.hash, recomputed, hashes]

/-- The appended record with a `seq` is unique. -/
theorem find_seq_of_logged
    (logged : Logged crypto signer log) {record : AuditRecord}
    (member : record ∈ log) :
    log.find? (fun other => other.seq = record.seq) = some record := by
  obtain ⟨before, after, rfl⟩ := List.append_of_mem member
  have ordered := (List.pairwise_append.mp
    (seq_pairwise_of_logged logged)).2.2
  have earlier : before.find? (fun other => other.seq = record.seq) =
      none := by
    rw [List.find?_eq_none]
    intro other inside same
    have smaller := ordered other inside record List.mem_cons_self
    rw [of_decide_eq_true same] at smaller
    exact absurd smaller (lt_irrefl _)
  rw [List.find?_append, earlier, Option.none_or, List.find?_cons_of_pos]
  exact decide_eq_true rfl

/-! ## Deletion -/

theorem nodup_hash_of_logged
    (logged : Logged crypto signer log)
    (collisionFree : Set.InjOn crypto.sha256 (messages log)) :
    (log.map AuditRecord.hash).Nodup := by
  have distinct : log.Nodup := by
    apply (seq_pairwise_of_logged logged).imp
    rintro first second smaller rfl
    exact lt_irrefl _ smaller
  refine distinct.map_on fun first firstIn second secondIn same => ?_
  have recomputed := recomputed_of_logged logged
  have preimages := eq_of_sha256Hex collisionFree
    ⟨first, firstIn, rfl⟩ ⟨second, secondIn, rfl⟩
    ((recomputed first firstIn).1.trans
      (same.trans (recomputed second secondIn).1.symm))
  have found := find_seq_of_logged logged firstIn
  rw [(sameContent_of_preimage preimages).seq,
    find_seq_of_logged logged secondIn] at found
  exact (Option.some.inj found).symm

/--
Rows that remain of a log are accepted if they are its first ones, or follow a
record whose hash is the genesis hash.
-/
theorem accepted_sublist_iff
    {remaining : List AuditRecord}
    (logged : Logged crypto signer log)
    (genuine : Genuine crypto signer log)
    (collisionFree : Set.InjOn crypto.sha256 (messages log))
    (sublist : remaining.Sublist log) :
    verifyChain crypto remaining signer.publicKeyHex.1 = .ok () ↔
      remaining <+: log ∨ ∃ before zero after,
        log = before ++ zero :: (remaining ++ after) ∧
          zero.hash = genesisPrev := by
  have sound : ∀ record ∈ remaining,
      Sound crypto signer.publicKeyHex.1 record := fun record member =>
    sound_of_logged logged genuine record (sublist.subset member)
  rw [verifyChain_eq_ok_iff, and_iff_left sound]
  exact (unbroken_of_logged logged).sublist_iff
    (nodup_hash_of_logged logged collisionFree) sublist

/-! ## The field that is not bound -/

/-- A record with its empty target made absent, or the other way round. -/
def AuditRecord.flipTarget (record : AuditRecord) : AuditRecord :=
  { record with
    target := if record.target = none then some emptyStr else none }

theorem flipTarget_getD
    {record : AuditRecord} (missing : ¬ HasTarget record) :
    record.flipTarget.target.getD emptyStr =
      record.target.getD emptyStr := by
  cases found : record.target with
  | none => simp [AuditRecord.flipTarget, found]
  | some target =>
      have empty : target = emptyStr := by
        by_contra full
        exact missing ⟨target, found, full⟩
      simp [AuditRecord.flipTarget, found, empty]

theorem preimage_flipTarget
    {record : AuditRecord} (missing : ¬ HasTarget record) :
    record.flipTarget.preimage = record.preimage := by
  have same := flipTarget_getD missing
  simp only [AuditRecord.preimage, preimage, elim_eq_getD, same]
  rfl

/-- The verifier does not see a flipped target. -/
theorem accepted_flipTarget
    {before after : List AuditRecord} {record : AuditRecord}
    (logged : Logged crypto signer (before ++ record :: after))
    (genuine : Genuine crypto signer (before ++ record :: after))
    (missing : ¬ HasTarget record) :
    verifyChain crypto (before ++ record.flipTarget :: after)
      signer.publicKeyHex.1 = .ok () := by
  have sound := sound_of_logged logged genuine
  have unbroken := unbroken_of_logged logged
  rw [verifyChain_eq_ok_iff]
  refine ⟨unbroken.replace record record.flipTarget rfl rfl,
    fun other member => ?_⟩
  rcases List.mem_append.mp member with early | late
  · exact sound other (List.mem_append_left _ early)
  · rcases List.mem_cons.mp late with rfl | last
    · have own := sound record
        (List.mem_append_right _ List.mem_cons_self)
      refine ⟨?_, own.signature⟩
      rw [recomputed_eq, preimage_flipTarget missing, ← recomputed_eq]
      exact own.hash
    · exact sound other
        (List.mem_append_right _ (List.mem_cons_of_mem record last))

/-- Flipping a target adds nothing to what is hashed. -/
theorem messages_flipTarget
    {before after : List AuditRecord} {record : AuditRecord}
    (missing : ¬ HasTarget record) :
    messages ((before ++ record :: after) ++
        (before ++ record.flipTarget :: after)) ⊆
      messages (before ++ record :: after) := by
  rintro message ⟨other, inside, rfl⟩
  rcases List.mem_append.mp inside with own | changed
  · exact ⟨other, own, rfl⟩
  · rcases List.mem_append.mp changed with early | late
    · exact ⟨other, List.mem_append_left _ early, rfl⟩
    · rcases List.mem_cons.mp late with rfl | last
      · exact ⟨record, List.mem_append_right _ List.mem_cons_self,
          (preimage_flipTarget missing).symm⟩
      · exact ⟨other, List.mem_append_right _
          (List.mem_cons_of_mem record last), rfl⟩

theorem flipTarget_target_ne (record : AuditRecord) :
    record.flipTarget.target ≠ record.target := by
  rw [AuditRecord.flipTarget]
  split
  · rename_i absent
    rw [absent]
    exact fun same => nomatch same
  · rename_i present
    exact fun same => present same.symm

/-- The two readings of a target agree where the appended one is not empty. -/
theorem target_eq_of_hasTarget
    {record appended : AuditRecord} (targeted : HasTarget appended)
    (contents : record.target.getD emptyStr = appended.target.getD emptyStr) :
    record.target = appended.target := by
  obtain ⟨target, present, full⟩ := targeted
  rw [present, Option.getD_some] at contents
  rw [present]
  cases found : record.target with
  | none =>
      rw [found, Option.getD_none] at contents
      exact absurd contents.symm full
  | some own =>
      rw [found, Option.getD_some] at contents
      rw [contents]

/--
The chain binds every record, field for field, to the one that was appended
with its `seq`, if and only if every appended record has a target that is
present and not empty.
-/
theorem chain_binds_records_iff
    (logged : Logged crypto signer log)
    (genuine : Genuine crypto signer log)
    (unforgeable : Unforgeable crypto signer log)
    (collisionFree : Set.InjOn crypto.sha256 (messages log)) :
    (∀ records,
      Set.InjOn crypto.sha256 (messages (log ++ records)) →
      verifyChain crypto records signer.publicKeyHex.1 = .ok () →
      ∀ record ∈ records, ∃ appended,
        log.find? (fun other => other.seq = record.seq) = some appended ∧
          SameRecord record appended) ↔
      ∀ appended ∈ log, HasTarget appended := by
  constructor
  · intro binds appended member
    by_contra missing
    obtain ⟨before, after, rfl⟩ := List.append_of_mem member
    obtain ⟨found, located, same⟩ := binds _
      (collisionFree.mono (messages_flipTarget missing))
      (accepted_flipTarget logged genuine missing) appended.flipTarget
      (List.mem_append_right _ List.mem_cons_self)
    have own : some found = some appended :=
      located.symm.trans (find_seq_of_logged logged member)
    rw [Option.some.inj own] at same
    exact flipTarget_target_ne appended same.2.2.2.2.1
  · intro targeted records collisionFree accepted record member
    obtain ⟨appended, inside, same, hashes⟩ := sameContent_of_accepted logged
      unforgeable collisionFree accepted member
    refine ⟨appended, ?_, same.seq, same.micros, same.actor, same.action,
      target_eq_of_hasTarget (targeted appended inside) same.target,
      same.details, same.prevHash, hashes⟩
    rw [same.seq]
    exact find_seq_of_logged logged inside

end Crypto

/-! ## A signed log -/

/-- The bytes of a hexadecimal literal. -/
def unhex (literal : String) : Bytes :=
  (hexDecode literal.toList).getD []

/-- The public key of the seed `04…04`. -/
def samplePublicKey : {bytes : Bytes // bytes.length = 32} :=
  ⟨unhex "ca93ac1705187071d67b83c7ff0efe8108e8ec4530575d7726879333dbdabe7c",
    by decide +kernel⟩

/-- The digest of `login`. -/
def loginDigest : Digest :=
  ⟨unhex "7059761046633f108551b39660cefc5b6189d85f6ba7e35bfc2e77769e433e7c",
    by decide +kernel⟩

/-- The digest of `logout`. -/
def logoutDigest : Digest :=
  ⟨unhex "bd7c4c1a1885eec4a4bf0781608c69d270b3221da0267f434794fe0aa7410c69",
    by decide +kernel⟩

/-- Some other digest. -/
def zeroDigest : Digest :=
  ⟨List.replicate 32 0, by decide⟩

/-- The signature of `login`. -/
def loginSignature : {bytes : Bytes // bytes.length = 64} :=
  ⟨unhex "484d04f9e5808f6178093f52b5a9ddd7880a1aaeff5d6d67f9a12fe00b250083" ++
    unhex "3526e05e3362d85b2219ae772b8c88b4dacf0ac419a6ee61851cc9a7fab22500",
    by decide +kernel⟩

/-- The signature of `logout`. -/
def logoutSignature : {bytes : Bytes // bytes.length = 64} :=
  ⟨unhex "93275d44010b1b6f309d3d23b285b0fa4f0f24d954a4103bb111f968587f064e" ++
    unhex "cbe7211ce37cd81627cf6843e923da179e197e74e56b5bf864a3d290966e0b0a",
    by decide +kernel⟩

/-- The hexadecimal form of a digest. -/
def digestStr (digest : Digest) : Str :=
  hexStr digest.1 (by rw [digest.2]; decide)

/-- An instant of the year 2023. -/
def sampleTs : OffsetDateTime :=
  ⟨1700000000 * 10 ^ 9, by decide⟩

/-- A user logs in. -/
def login : AuditRecord where
  seq := 1
  ts := sampleTs
  actor := ⟨"alice".toList, by decide +kernel⟩
  action := ⟨"login".toList, by decide +kernel⟩
  target := some ⟨"bob".toList, by decide +kernel⟩
  details := ⟨"\x7b\x7d".toList, by decide +kernel⟩
  prevHash := genesisPrev
  hash := digestStr loginDigest
  signature := hexStr loginSignature.1 loginSignature.2.le

/-- The user logs out, which has no target. -/
def logout : AuditRecord where
  seq := 2
  ts := sampleTs
  actor := ⟨"alice".toList, by decide +kernel⟩
  action := ⟨"logout".toList, by decide +kernel⟩
  target := none
  details := ⟨"\x7b\x7d".toList, by decide +kernel⟩
  prevHash := digestStr loginDigest
  hash := digestStr logoutDigest
  signature := hexStr logoutSignature.1 logoutSignature.2.le

/-- The library on the records of a log made of these two. -/
def sampleCrypto (log : List AuditRecord) : Crypto where
  sha256 message :=
    if message = login.preimage then loginDigest
    else if message = logout.preimage then logoutDigest
    else zeroDigest
  verify publicKey message signature :=
    publicKey = samplePublicKey.1 ∧ log.any fun record =>
      asBytes record.hash.1 = message ∧
        record.signature.1 = hexEncode signature

/-- The signer on the hashes of these two records. -/
def sampleSigner : AuditSigner where
  publicKey := samplePublicKey
  sign message :=
    if message = asBytes login.hash.1 then loginSignature
    else logoutSignature

theorem unforgeable_sample (log : List AuditRecord) :
    Unforgeable (sampleCrypto log) sampleSigner log := by
  intro message signature verified
  obtain ⟨_, found⟩ := of_decide_eq_true verified
  obtain ⟨record, member, fits⟩ := List.any_eq_true.mp found
  exact ⟨record, member, (of_decide_eq_true fits).1⟩

theorem sha256Hex_of_digest
    {crypto : Crypto} {message : Bytes} {digest : Digest}
    (digested : crypto.sha256 message = digest) :
    sha256Hex crypto message = digestStr digest := by
  rw [← digested]
  rfl

theorem sha256_login (log : List AuditRecord) :
    (sampleCrypto log).sha256 login.preimage = loginDigest := by
  simp only [sampleCrypto, if_true]

theorem sha256_logout (log : List AuditRecord) :
    (sampleCrypto log).sha256 logout.preimage = logoutDigest := by
  have differ : logout.preimage ≠ login.preimage := by decide
  simp only [sampleCrypto, differ, if_false, if_true]

theorem loginDigest_ne : loginDigest ≠ logoutDigest := by
  decide

theorem signHash_of_sign
    {signer : AuditSigner} {hash : Str}
    {signature : {bytes : Bytes // bytes.length = 64}}
    (signed : signer.sign (asBytes hash.1) = signature) :
    hexStr signature.1 signature.2.le = signer.signHash hash := by
  rw [← signed]
  rfl

theorem signHash_login :
    login.signature = sampleSigner.signHash login.hash := by
  apply signHash_of_sign
  simp only [sampleSigner, if_true]

theorem signHash_logout :
    logout.signature = sampleSigner.signHash logout.hash := by
  have differ : asBytes logout.hash.1 ≠ asBytes login.hash.1 := by
    intro same
    have digests := hexEncode_injective (asBytes_injective same)
    exact loginDigest_ne (Subtype.ext digests.symm)
  apply signHash_of_sign
  simp only [sampleSigner, differ, if_false]

theorem logged_login (log : List AuditRecord) :
    Logged (sampleCrypto log) sampleSigner [login] :=
  logged_concat Logged.empty rfl (sha256Hex_of_digest (sha256_login log))
    signHash_login

theorem logged_logout (log : List AuditRecord) :
    Logged (sampleCrypto log) sampleSigner [login, logout] := by
  have link : nextLink [login] = some (logout.seq, logout.prevHash) := by
    have next : Int64.ofInt (login.seq.toInt + 1) = 2 := by decide
    have small : login.seq.toInt + 1 < 2 ^ 63 := by decide
    rw [nextLink, List.getLast?_singleton]
    simp only [small, if_true, next]
    rfl
  exact logged_concat (logged_login log) link
    (sha256Hex_of_digest (sha256_logout log)) signHash_logout

/-- The signatures that the sample library knows verify. -/
theorem genuine_sample
    {log : List AuditRecord}
    (signed : ∀ record ∈ log,
      record.signature = sampleSigner.signHash record.hash) :
    Genuine (sampleCrypto log) sampleSigner log := by
  intro record member
  apply decide_eq_true
  refine ⟨rfl, List.any_eq_true.mpr ⟨record, member, decide_eq_true ?_⟩⟩
  exact ⟨rfl, congrArg Subtype.val (signed record member)⟩

theorem genuine_login :
    Genuine (sampleCrypto [login]) sampleSigner [login] :=
  genuine_sample fun record member => by
    rw [List.mem_singleton.mp member]
    exact signHash_login

theorem genuine_logout :
    Genuine (sampleCrypto [login, logout]) sampleSigner [login, logout] := by
  apply genuine_sample
  intro record member
  rcases List.mem_cons.mp member with rfl | last
  · exact signHash_login
  · rw [List.mem_singleton.mp last]
    exact signHash_logout

theorem injOn_sample
    (log : List AuditRecord) {S : Set Bytes}
    (covered : S ⊆ {login.preimage, logout.preimage}) :
    Set.InjOn (sampleCrypto log).sha256 S := by
  refine Set.InjOn.mono covered (Set.injOn_pair.mpr fun same => ?_)
  rw [sha256_login, sha256_logout] at same
  exact absurd same loginDigest_ne

theorem chain_binds_login :
    verifyChain (sampleCrypto [login]) [login] sampleSigner.publicKeyHex.1 =
        .ok () ∧
      ∀ record ∈ [login], ∃ appended,
        [login].find? (fun other => other.seq = record.seq) =
            some appended ∧
          SameRecord record appended := by
  have targeted : ∀ appended ∈ [login], HasTarget appended := by
    intro appended member
    rw [List.mem_singleton.mp member]
    exact ⟨_, rfl, by decide⟩
  have covered (count : Nat) : messages (List.replicate count login) ⊆
      {login.preimage, logout.preimage} := by
    rintro message ⟨record, member, rfl⟩
    rw [List.eq_of_mem_replicate member]
    exact Or.inl rfl
  have accepted : verifyChain (sampleCrypto [login]) [login]
      sampleSigner.publicKeyHex.1 = .ok () :=
    accepted_of_logged (logged_login [login]) genuine_login
  exact ⟨accepted, (chain_binds_records_iff (logged_login [login])
    genuine_login (unforgeable_sample [login])
    (injOn_sample [login] (covered 1))).mpr targeted [login]
    (injOn_sample [login] (covered 2)) accepted⟩

/-- An absent target can be made an empty one, and back. -/
theorem absent_target_not_bound :
    Logged (sampleCrypto [login, logout]) sampleSigner [login, logout] ∧
      Genuine (sampleCrypto [login, logout]) sampleSigner [login, logout] ∧
      Unforgeable (sampleCrypto [login, logout]) sampleSigner
        [login, logout] ∧
      Set.InjOn (sampleCrypto [login, logout]).sha256
        (messages ([login, logout] ++ [login, logout.flipTarget])) ∧
      verifyChain (sampleCrypto [login, logout]) [login, logout.flipTarget]
        sampleSigner.publicKeyHex.1 = .ok () ∧
      logout.target = none ∧ logout.flipTarget.target = some emptyStr ∧
      ¬ ∃ appended,
        [login, logout].find? (fun other =>
          other.seq = logout.flipTarget.seq) = some appended ∧
            SameRecord logout.flipTarget appended := by
  have missing : ¬ HasTarget logout := fun ⟨_, present, _⟩ =>
    nomatch present
  have accepted := @accepted_flipTarget _ _ [login] [] logout
    (logged_logout [login, logout]) genuine_logout missing
  refine ⟨logged_logout _, genuine_logout, unforgeable_sample _,
    injOn_sample _ ?_, accepted, rfl, rfl, ?_⟩
  · have flipped : logout.flipTarget.preimage = logout.preimage :=
      preimage_flipTarget missing
    rintro message ⟨record, member, rfl⟩
    simp only [List.cons_append, List.nil_append, List.mem_cons,
      List.not_mem_nil, or_false] at member
    rcases member with rfl | rfl | rfl | rfl
    · exact Or.inl rfl
    · exact Or.inr rfl
    · exact Or.inl rfl
    · exact Or.inr flipped
  · rintro ⟨appended, located, same⟩
    have found : [login, logout].find? (fun other =>
        other.seq = logout.seq) = some logout :=
      find_seq_of_logged (logged_logout [])
        (List.mem_cons_of_mem login List.mem_cons_self)
    have targets := same.2.2.2.2.1
    rw [← Option.some.inj (found.symm.trans located)] at targets
    exact nomatch targets

end LightWaf.Governance
