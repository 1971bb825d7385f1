import LightWaf.Governance.TamperEvidence
import LightWaf.Normalizer.Body

/-!
# Evidence for operators and auditors

The embedding of the audit verification endpoint, of the chain status in a
compliance report, and of the signing and verification of such reports.  The
serialiser of JSON values comes from a library and is a parameter.
-/

namespace LightWaf.ControlPlane.Compliance

open LightWaf.Governance
open LightWaf.Normalizer
open LightWaf.Rust

section Crypto

variable (crypto : Crypto)

/-! ## The chain -/

/-- The answer of `verify_audit`. -/
structure AuditAnswer where
  ok : Bool
  count : Nat
  broken : Option (Int64 × String)
  publicKey : Str

/-- `verify_audit`, on the rows that `all_audit_ordered` reads. -/
def verifyAudit (signer : AuditSigner) (records : List AuditRecord) :
    AuditAnswer :=
  match verifyChain crypto records signer.publicKeyHex.1 with
  | .ok () => ⟨true, records.length, none, signer.publicKeyHex⟩
  | .error brk =>
      ⟨false, records.length, some (brk.seq, brk.reason), signer.publicKeyHex⟩

/-- What `AuditIntegrity` says of the chain. -/
structure ChainStatus where
  chainOk : Bool
  verifiedThroughSeq : Int64
  chainHeadHash : Text
  totalRecords : Nat
  breakReason : Option String

/-- The chain status of `build_report`. -/
def chainStatus (chain : List AuditRecord) (auditPublicKey : Text) :
    ChainStatus :=
  let headHash := chain.getLast?.elim [] fun record => record.hash.1
  match verifyChain crypto chain auditPublicKey with
  | .ok () =>
      ⟨true, chain.getLast?.elim 0 AuditRecord.seq, headHash, chain.length,
        none⟩
  | .error brk =>
      let through :=
        if brk.index = 0 then 0
        else (chain[brk.index - 1]?).elim 0 AuditRecord.seq
      ⟨false, through, headHash, chain.length, some brk.reason⟩

variable {crypto} {signer : AuditSigner}

theorem verifyAudit_ok (records : List AuditRecord) :
    (verifyAudit crypto signer records).ok = true ↔
      verifyChain crypto records signer.publicKeyHex.1 = .ok () := by
  rw [verifyAudit]
  split <;> simp [*]

theorem chainStatus_chainOk (chain : List AuditRecord) (publicKey : Text) :
    (chainStatus crypto chain publicKey).chainOk = true ↔
      verifyChain crypto chain publicKey = .ok () := by
  rw [chainStatus]
  split <;> simp [*]

variable {log remaining : List AuditRecord}

/--
A deletion is reported, by the endpoint and by the compliance report, if and
only if the rows that remain are not the first ones of the log and do not
follow a record whose hash is the genesis hash.
-/
theorem deletion_reported_iff
    (logged : Logged crypto signer log)
    (genuine : Genuine crypto signer log)
    (collisionFree : Set.InjOn crypto.sha256 (messages log))
    (sublist : remaining.Sublist log) :
    (verifyAudit crypto signer remaining).ok = false ∧
        (chainStatus crypto remaining signer.publicKeyHex.1).chainOk =
          false ↔
      ¬ remaining <+: log ∧
        ¬ ∃ before zero after,
          log = before ++ zero :: (remaining ++ after) ∧
            zero.hash = genesisPrev := by
  rw [← not_or, ← accepted_sublist_iff logged genuine collisionFree sublist,
    ← Bool.not_eq_true, ← Bool.not_eq_true, verifyAudit_ok,
    chainStatus_chainOk, and_self]

end Crypto

theorem messages_sample :
    messages [login, logout] ⊆ {login.preimage, logout.preimage} := by
  rintro message ⟨record, member, rfl⟩
  rcases List.mem_cons.mp member with rfl | last
  · exact Or.inl rfl
  · rw [List.mem_singleton.mp last]
    exact Or.inr rfl

/-- The first record is missed. -/
theorem deletion_reported_logout :
    (verifyAudit (sampleCrypto [login, logout]) sampleSigner [logout]).ok =
        false ∧
      (chainStatus (sampleCrypto [login, logout]) [logout]
        sampleSigner.publicKeyHex.1).chainOk = false := by
  have sublist : [logout].Sublist [login, logout] :=
    List.sublist_cons_self login [logout]
  apply (deletion_reported_iff (logged_logout _) genuine_logout
    (injOn_sample _ messages_sample) sublist).mpr
  have differ : logout ≠ login := by
    intro same
    exact absurd (congrArg AuditRecord.seq same) (by decide)
  have nonzero : loginDigest.1 ≠ List.replicate 32 0 := by decide +kernel
  constructor
  · rintro ⟨rest, same⟩
    exact differ (List.cons.inj same).1
  · rintro ⟨before, zero, after, same, hash⟩
    cases before with
    | nil =>
        rw [← (List.cons.inj same).1] at hash
        exact nonzero (hexEncode_injective (congrArg Subtype.val hash))
    | cons head tail =>
        have length := congrArg List.length same
        simp at length
        omega

/-- The last record is not. -/
theorem deletion_of_last_unreported :
    Logged (sampleCrypto [login, logout]) sampleSigner [login, logout] ∧
      Genuine (sampleCrypto [login, logout]) sampleSigner [login, logout] ∧
      Unforgeable (sampleCrypto [login, logout]) sampleSigner
        [login, logout] ∧
      Set.InjOn (sampleCrypto [login, logout]).sha256
        (messages [login, logout]) ∧
      [login].Sublist [login, logout] ∧ [login] ≠ [login, logout] ∧
      (verifyAudit (sampleCrypto [login, logout]) sampleSigner [login]).ok =
        true ∧
      (chainStatus (sampleCrypto [login, logout]) [login]
        sampleSigner.publicKeyHex.1).chainOk = true := by
  have initial : [login] <+: [login, logout] := ⟨[logout], rfl⟩
  have accepted := (accepted_sublist_iff (logged_logout [login, logout])
    genuine_logout (injOn_sample _ messages_sample) initial.sublist).mpr
    (Or.inl initial)
  refine ⟨logged_logout _, genuine_logout, unforgeable_sample _,
    injOn_sample _ messages_sample, initial.sublist, by simp, ?_, ?_⟩
  · exact (verifyAudit_ok [login]).mpr accepted
  · exact (chainStatus_chainOk [login] _).mpr accepted

/-! ## Reports -/

/-- `ReportBody`; its sections are the JSON that `build_report` makes. -/
structure ReportBody where
  reportVersion : Nat
  periodFrom : Text
  periodTo : Text
  generatedAt : Text
  generatedBy : Text
  sections : Json

/-- The fields of a report body, in the order of a `serde_json` map. -/
def ReportBody.fields (body : ReportBody) : List (Text × Json) :=
  [("generated_at".toList, .string body.generatedAt),
    ("generated_by".toList, .string body.generatedBy),
    ("period".toList, .object
      [("from".toList, .string body.periodFrom),
        ("to".toList, .string body.periodTo)]),
    ("report_version".toList, .number (Nat.toDigits 10 body.reportVersion)),
    ("sections".toList, body.sections)]

/-- `to_value` of a report body. -/
def ReportBody.toValue (body : ReportBody) : Json :=
  .object body.fields

/-- `SignedReport`. -/
structure SignedReport where
  body : ReportBody
  contentHash : Str
  signature : Str
  publicKey : Str

/-- `to_value` of a signed report, whose body is flattened. -/
def SignedReport.toValue (report : SignedReport) : Json :=
  .object
    (("content_hash".toList, .string report.contentHash.1) ::
      report.body.fields.take 3 ++
      ("public_key".toList, .string report.publicKey.1) ::
      report.body.fields.drop 3 ++
      [("signature".toList, .string report.signature.1)])

/-- `as_str`. -/
def asStr : Json → Option Text
  | .string text => some text
  | _ => none

/-- The text in a field of an object. -/
def textField (name : String) : Json → Option Text
  | .object fields => (fields.lookup name.toList).bind asStr
  | _ => none

/-- `remove` on a map. -/
def removeField (name : String) (fields : List (Text × Json)) :
    List (Text × Json) :=
  fields.filter fun field => field.1 ≠ name.toList

/-- A bundle without the three signing fields. -/
def reportBody : Json → Json
  | .object fields =>
      .object (removeField "public_key" (removeField "signature"
        (removeField "content_hash" fields)))
  | bundle => bundle

section Crypto

variable (crypto : Crypto) (toVec : Json → Bytes)

/-- `content_hash_of_body`. -/
def contentHashOfBody (body : ReportBody) : Str :=
  sha256Hex crypto (toVec body.toValue)

/-- `sign_report`. -/
def signReport (body : ReportBody) (signer : AuditSigner) : SignedReport :=
  let contentHash := contentHashOfBody crypto toVec body
  { body := body
    contentHash := contentHash
    signature := signer.signHash contentHash
    publicKey := signer.publicKeyHex }

/-- `verify_report_value`. -/
def verifyReportValue (bundle : Json) : Bool :=
  match textField "content_hash" bundle, textField "signature" bundle,
      textField "public_key" bundle with
  | some contentHash, some signature, some publicKey =>
      match bundle with
      | .object _ =>
          let recomputed := sha256Hex crypto (toVec (reportBody bundle))
          recomputed.1 = contentHash &&
            verifySignature crypto publicKey contentHash signature
      | _ => false
  | _, _, _ => false

/-- The answer of `compliance_verify`. -/
def complianceVerify (bundle : Json) : Bool :=
  verifyReportValue crypto toVec bundle

variable {crypto toVec} {signer : AuditSigner}

/-- What an accepted bundle consists of. -/
theorem verifyReportValue_eq_true
    {bundle : Json} (verified : verifyReportValue crypto toVec bundle = true) :
    ∃ signature publicKey,
      textField "public_key" bundle = some publicKey ∧
        verifySignature crypto publicKey
          (sha256Hex crypto (toVec (reportBody bundle))).1 signature =
            true := by
  cases bundle with
  | object fields =>
      rw [verifyReportValue] at verified
      split at verified
      · rename_i contentHash signature publicKey _ _ key
        obtain ⟨same, signed⟩ := (Bool.and_eq_true _ _).mp verified
        rw [← of_decide_eq_true same] at signed
        exact ⟨signature, publicKey, key, signed⟩
      · exact nomatch verified
  | _ => exact nomatch verified

/-- A bundle that was signed verifies. -/
theorem verifyReportValue_signReport
    (body : ReportBody)
    (genuine : crypto.verify signer.publicKey.1
      (asBytes (contentHashOfBody crypto toVec body).1)
      (signer.sign (asBytes (contentHashOfBody crypto toVec body).1)).1 =
        true) :
    verifyReportValue crypto toVec
      (signReport crypto toVec body signer).toValue = true := by
  have stripped (contentHash signature publicKey : Str) :
      verifyReportValue crypto toVec
          (SignedReport.mk body contentHash signature publicKey).toValue =
        (decide ((contentHashOfBody crypto toVec body).1 = contentHash.1) &&
          verifySignature crypto publicKey.1 contentHash.1 signature.1) :=
    rfl
  rw [signReport, stripped, decide_eq_true rfl, Bool.true_and]
  exact (verifySignature_hex _ _ _ _ rfl).trans genuine

/-! ## Authenticity -/

/-- What the control plane takes digests of. -/
def signedMessages (toVec : Json → Bytes) (log : List AuditRecord)
    (issued : List ReportBody) : Set Bytes :=
  messages log ∪ {message | ∃ body ∈ issued, toVec body.toValue = message}

/--
No signature verifies under the audit key but on a hash of the log or on the
content hash of a report that was issued.
-/
def OnlySigned (crypto : Crypto) (toVec : Json → Bytes) (signer : AuditSigner)
    (log : List AuditRecord) (issued : List ReportBody) : Prop :=
  ∀ message signature,
    crypto.verify signer.publicKey.1 message signature = true →
      (∃ record ∈ log, asBytes record.hash.1 = message) ∨
        ∃ body ∈ issued,
          asBytes (contentHashOfBody crypto toVec body).1 = message

theorem byteLen_sha256Hex (bytes : Bytes) :
    byteLen (sha256Hex crypto bytes).1 = 64 := by
  change byteLen (hexEncode (crypto.sha256 bytes).1) = 64
  rw [byteLen_hexEncode, (crypto.sha256 bytes).2]

/-- A hashed record is no text: the length of its `prev_hash` holds a NUL. -/
theorem zero_mem_preimage
    {log : List AuditRecord} {record : AuditRecord}
    (logged : Logged crypto signer log) (member : record ∈ log) :
    (0 : UInt8) ∈ record.preimage := by
  have length : byteLen record.prevHash.1 = 64 := by
    rcases List.mem_cons.mp ((unbroken_of_logged logged).prev_mem member) with
      first | later
    · rw [first]
      exact byteLen_hexEncode _
    · obtain ⟨last, inside, same⟩ := List.mem_map.mp later
      rw [← same, ← (recomputed_of_logged logged last inside).1]
      exact byteLen_sha256Hex _
  have header : (0 : UInt8) ∈ lengthHeader.write 64 := by decide
  rw [AuditRecord.preimage, preimage]
  apply List.mem_append_right
  apply List.mem_append_left
  change (0 : UInt8) ∈ lengthHeader.write (byteLen record.prevHash.1)
  rwa [length]

/--
A bundle that is answered ok and names the audit key carries a report that was
issued.
-/
theorem verified_report_issued
    {log : List AuditRecord} {issued : List ReportBody}
    {bundle : Json} {publicKey : Text}
    (logged : Logged crypto signer log)
    (onlySigned : OnlySigned crypto toVec signer log issued)
    (collisionFree : Set.InjOn crypto.sha256
      (insert (toVec (reportBody bundle)) (signedMessages toVec log issued)))
    (escaped : ∀ value, (0 : UInt8) ∉ toVec value)
    (answered : complianceVerify crypto toVec bundle = true)
    (named : textField "public_key" bundle = some publicKey)
    (auditKey : hexDecode publicKey = some signer.publicKey.1) :
    ∃ body ∈ issued, toVec (reportBody bundle) = toVec body.toValue := by
  obtain ⟨signature, key, found, verified⟩ :=
    verifyReportValue_eq_true answered
  cases named.symm.trans found
  rw [verifySignature, auditKey] at verified
  cases decoded : hexDecode signature with
  | none =>
      rw [decoded] at verified
      cases verified
  | some bytes =>
      rw [decoded] at verified
      rcases onlySigned _ _ verified with
        ⟨record, member, hash⟩ | ⟨body, member, hash⟩
      · rw [← (recomputed_of_logged logged record member).1] at hash
        have text := eq_of_sha256Hex collisionFree
          (Set.mem_insert_of_mem _ (Or.inl ⟨record, member, rfl⟩))
          (Set.mem_insert _ _) (Subtype.ext (asBytes_injective hash))
        have nul := zero_mem_preimage logged member
        rw [text] at nul
        exact absurd nul (escaped _)
      · have text := eq_of_sha256Hex collisionFree
          (Set.mem_insert_of_mem _ (Or.inr ⟨body, member, rfl⟩))
          (Set.mem_insert _ _) (Subtype.ext (asBytes_injective hash))
        exact ⟨body, member, text.symm⟩

end Crypto

/-! ## A report and a forgery -/

mutual

/-- A JSON value without blanks, for texts that need no escapes. -/
def compact : Json → Text
  | .null => "null".toList
  | .bool value => if value then "true".toList else "false".toList
  | .number text => text
  | .string text => '\x22' :: text ++ ['\x22']
  | .array items => '[' :: compactItems items ++ [']']
  | .object fields => '\x7b' :: compactFields fields ++ ['\x7d']

/-- The items of an array. -/
def compactItems : List Json → Text
  | [] => []
  | [item] => compact item
  | item :: rest => compact item ++ ',' :: compactItems rest

/-- The fields of an object. -/
def compactFields : List (Text × Json) → Text
  | [] => []
  | [(name, value)] => '\x22' :: name ++ '\x22' :: ':' :: compact value
  | (name, value) :: rest =>
      '\x22' :: name ++ '\x22' :: ':' :: compact value ++
        ',' :: compactFields rest

end

/-- The bytes of a JSON value. -/
def sampleToVec (value : Json) : Bytes :=
  (asBytes (compact value)).filter (· ≠ 0)

theorem zero_notMem_sampleToVec (value : Json) :
    (0 : UInt8) ∉ sampleToVec value := by
  simp [sampleToVec]

/-- A report that was issued. -/
def sampleReport : ReportBody where
  reportVersion := 1
  periodFrom := "2026-04-01T00:00:00Z".toList
  periodTo := "2026-07-01T00:00:00Z".toList
  generatedAt := "2026-07-02T00:00:00Z".toList
  generatedBy := "alice".toList
  sections := .object []

/-- The digest of the report. -/
def reportDigest : Digest :=
  ⟨unhex "dd0f5e03da5e42664351961949c27a51ee7b0e40a72426c113d9e96f810ab42f",
    by decide +kernel⟩

/-- The signature of the report. -/
def reportSignature : {bytes : Bytes // bytes.length = 64} :=
  ⟨unhex "1053b500c042a83ae5d554c247029fb85aaa8cab198f4e63177ad2a16fbbe180" ++
    unhex "d267bb142368e7709d9f0c302849e5d2f80444c57dfd250643cf892f8bdea100",
    by decide +kernel⟩

/-- The digest of an object without fields. -/
def emptyDigest : Digest :=
  ⟨unhex "44136fa355b3678a1146ad16f7e8649e94fb4fc21fe77e8310c060f61caaff8a",
    by decide +kernel⟩

/-- The public key of the seed `05…05`, which is not the control plane's. -/
def foreignKey : Bytes :=
  unhex "6e7a1cdd29b0b78fd13af4c5598feff4ef2a97166e3ca6f2e4fbfccd80505bf1"

/-- Its signature of an object without fields. -/
def foreignSignature : Bytes :=
  unhex "f881ba6f542971bb3db1daead2ffb68c07aa9b18ed12bd5b0a3ae99dd98b16b0" ++
    unhex "499e8519e91291f84ac3ba61676ddda430c604437203bead4c13c922e689bb0e"

/-- The library on these two bodies. -/
def reportCrypto : Crypto where
  sha256 message :=
    if message = sampleToVec sampleReport.toValue then reportDigest
    else if message = sampleToVec (.object []) then emptyDigest
    else zeroDigest
  verify publicKey message signature :=
    publicKey = samplePublicKey.1 ∧
        message = asBytes (digestStr reportDigest).1 ∧
        signature = reportSignature.1 ∨
      publicKey = foreignKey ∧
        message = asBytes (digestStr emptyDigest).1 ∧
        signature = foreignSignature

/-- The signer of the control plane, on the report. -/
def reportSigner : AuditSigner where
  publicKey := samplePublicKey
  sign _ := reportSignature

/-- A bundle that someone else signed, with their own key in it. -/
def forgedBundle : Json :=
  .object
    [("content_hash".toList, .string (digestStr emptyDigest).1),
      ("public_key".toList, .string (hexEncode foreignKey)),
      ("signature".toList, .string (hexEncode foreignSignature))]

theorem verify_sampleReport :
    reportCrypto.verify samplePublicKey.1
      (asBytes (digestStr reportDigest).1) reportSignature.1 = true := by
  simp only [reportCrypto, and_self, true_or, decide_true]

theorem verify_forgedBundle :
    reportCrypto.verify foreignKey (asBytes (digestStr emptyDigest).1)
      foreignSignature = true := by
  simp only [reportCrypto, and_self, or_true, decide_true]

theorem sha256_sampleReport :
    reportCrypto.sha256 (sampleToVec sampleReport.toValue) =
      reportDigest := by
  simp only [reportCrypto, if_true]

theorem contentHash_sampleReport :
    contentHashOfBody reportCrypto sampleToVec sampleReport =
      digestStr reportDigest :=
  sha256Hex_of_digest sha256_sampleReport

theorem sampleToVec_ne :
    sampleToVec (.object []) ≠ sampleToVec sampleReport.toValue := by
  decide +kernel

theorem sha256_empty :
    reportCrypto.sha256 (sampleToVec (.object [])) = emptyDigest := by
  simp only [reportCrypto, sampleToVec_ne, if_false, if_true]

theorem reportBody_forgedBundle : reportBody forgedBundle = .object [] :=
  rfl

theorem answered_forgedBundle :
    complianceVerify reportCrypto sampleToVec forgedBundle = true := by
  have answer : complianceVerify reportCrypto sampleToVec forgedBundle =
      (decide ((sha256Hex reportCrypto
        (sampleToVec (reportBody forgedBundle))).1 =
          (digestStr emptyDigest).1) &&
        verifySignature reportCrypto (hexEncode foreignKey)
          (digestStr emptyDigest).1 (hexEncode foreignSignature)) := rfl
  have verified : verifySignature reportCrypto (hexEncode foreignKey)
      (digestStr emptyDigest).1 (hexEncode foreignSignature) = true := by
    rw [verifySignature_hex _ _ _ (digestStr emptyDigest) rfl]
    exact verify_forgedBundle
  rw [answer, reportBody_forgedBundle, sha256Hex_of_digest sha256_empty,
    verified, decide_eq_true rfl]
  rfl

theorem onlySigned_sampleReport :
    OnlySigned reportCrypto sampleToVec reportSigner [] [sampleReport] := by
  intro message signature verified
  have differ : samplePublicKey.1 ≠ foreignKey := by decide +kernel
  rcases of_decide_eq_true verified with ⟨_, same, _⟩ | ⟨foreign, _⟩
  · refine Or.inr ⟨sampleReport, List.mem_singleton_self _, ?_⟩
    rw [contentHash_sampleReport, same]
  · exact absurd foreign differ

theorem signedMessages_sampleReport :
    signedMessages sampleToVec [] [sampleReport] ⊆
      {sampleToVec sampleReport.toValue} := by
  rintro message (⟨record, member, _⟩ | ⟨body, member, rfl⟩)
  · exact nomatch member
  · rw [List.mem_singleton.mp member]
    exact Set.mem_singleton _

/-- The bundle as the control plane issued it. -/
theorem verified_report_issued_sampleReport :
    complianceVerify reportCrypto sampleToVec
        (signReport reportCrypto sampleToVec sampleReport
          reportSigner).toValue = true ∧
      ∃ body ∈ [sampleReport],
        sampleToVec (reportBody (signReport reportCrypto sampleToVec
          sampleReport reportSigner).toValue) = sampleToVec body.toValue := by
  have genuine : reportCrypto.verify reportSigner.publicKey.1
      (asBytes (contentHashOfBody reportCrypto sampleToVec sampleReport).1)
      reportSignature.1 = true := by
    rw [contentHash_sampleReport]
    exact verify_sampleReport
  have answered := @verifyReportValue_signReport reportCrypto sampleToVec
    reportSigner sampleReport genuine
  have collisionFree : Set.InjOn reportCrypto.sha256
      (insert (sampleToVec sampleReport.toValue)
        (signedMessages sampleToVec [] [sampleReport])) :=
    (Set.injOn_singleton _ _).mono (Set.insert_subset
      (Set.mem_singleton _) signedMessages_sampleReport)
  exact ⟨answered, verified_report_issued Logged.empty
    onlySigned_sampleReport collisionFree zero_notMem_sampleToVec answered rfl
    (hexDecode_hexEncode _)⟩

/-- A bundle signed with a key of one's own is answered ok. -/
theorem forgedBundle_answered :
    Logged reportCrypto reportSigner [] ∧
      OnlySigned reportCrypto sampleToVec reportSigner [] [sampleReport] ∧
      Set.InjOn reportCrypto.sha256
        (insert (sampleToVec (reportBody forgedBundle))
          (signedMessages sampleToVec [] [sampleReport])) ∧
      (∀ value, (0 : UInt8) ∉ sampleToVec value) ∧
      complianceVerify reportCrypto sampleToVec forgedBundle = true ∧
      ¬ ∃ body ∈ [sampleReport],
        sampleToVec (reportBody forgedBundle) =
          sampleToVec body.toValue := by
  have digests : emptyDigest ≠ reportDigest := by decide +kernel
  refine ⟨Logged.empty, onlySigned_sampleReport, ?_,
    zero_notMem_sampleToVec, answered_forgedBundle, ?_⟩
  · refine Set.InjOn.mono (Set.insert_subset_insert
      signedMessages_sampleReport) (Set.injOn_pair.mpr fun same => ?_)
    rw [reportBody_forgedBundle, sha256_empty, sha256_sampleReport] at same
    exact absurd same digests
  · rintro ⟨body, member, same⟩
    rw [List.mem_singleton.mp member, reportBody_forgedBundle] at same
    exact sampleToVec_ne same

end LightWaf.ControlPlane.Compliance
