import LightWaf.Detection.Content
import LightWaf.Detection.Structural
import LightWaf.Normalizer.GrpcWalk
import LightWaf.Rust.Search

/-!
# What the content modules get to see

Two crates decide together which strings of a body are scanned: the normalizer
fills the derived channel, and `body_str_values` reads the parsed body.  A raw
text body falls between the two when it contains NUL and canonicalization does
not change it.  A gRPC leaf is missed when the normalizer's own limits stop its
walk before the module's limits do.
-/

namespace LightWaf.Detection

open LightWaf.Rust
open LightWaf.Core
open LightWaf.Normalizer

/-! ## Raw text bodies -/

section RawBody

variable (unicode : UnicodeTables) (serde : SerdeJson)

/-- The canonical form of a text. -/
def canonicalForm (text : Text) : Text :=
  (canonicalizeValue unicode text false).1

/-- A string is scanned by the content modules as part of the body. -/
def Scanned (normalized : Normalized) (text : Text) : Prop :=
  text ∈ bodyStrValues unicode normalized.body ∨
    text ∈ normalized.derivedDecoded

/-- The strings derived from the query. -/
def queryDerived (limits : LimitsConfig) (query : Option Text) : List Text :=
  match normalizeQuery unicode limits query with
  | .ok query => query.derived
  | .error _ => []

/-- The strings derived from the request other than the text body itself. -/
def otherDerived (limits : LimitsConfig) (ctx : RequestContext)
    (text : Text) : List Text :=
  pathDerived unicode ctx.rawPath ++ queryDerived unicode limits ctx.query ++
    deriveVariants unicode text ++
    headerDerived unicode (normalizeHeaders unicode ctx.headers)

theorem bodyDerived_text
    {contentType : Option Text} (other : isGrpcContentType contentType = false)
    {bytes : Bytes} {text : Text} (decoded : fromUtf8 bytes = some text) :
    bodyDerived unicode contentType (.raw bytes) =
      rawTextDerived unicode text := by
  simp [bodyDerived, other, decoded]

theorem mem_rawTextDerived (raw text : Text) :
    text ∈ rawTextDerived unicode raw ↔
      text ∈ deriveVariants unicode (canonicalForm unicode raw) ∨
        canonicalForm unicode raw ≠ raw ∧ text = canonicalForm unicode raw := by
  by_cases same : canonicalForm unicode raw = raw
  · have fixed : (canonicalizeValue unicode raw false).1 = raw := same
    simp [rawTextDerived, canonicalForm, fixed]
  · have differs : ¬ (canonicalizeValue unicode raw false).1 = raw := same
    simp [rawTextDerived, canonicalForm, differs]

theorem mem_bodyStrValues_raw
    {bytes : Bytes} {text : Text} (decoded : fromUtf8 bytes = some text)
    (value : Text) :
    value ∈ bodyStrValues unicode (.raw bytes) ↔
      0 ∉ bytes ∧ value = text := by
  by_cases nul : (0 : UInt8) ∈ bytes
  · simp [bodyStrValues, decoded, nul]
  · simp [bodyStrValues, decoded, nul]

/--
Coverage of raw text bodies, exactly.  The canonical form is scanned if and
only if the body has no NUL byte, or canonicalization changes it, or the very
same text is derived from elsewhere in the request.
-/
theorem rawBody_scanned_iff
    (limits : LimitsConfig) (ctx : RequestContext) (normalized : Normalized)
    (done : normalize unicode serde limits ctx = .ok normalized)
    (other : isGrpcContentType
      (firstHeader normalized.headers "content-type".toList) = false)
    (bytes : Bytes) (raw : normalized.body = .raw bytes)
    (text : Text) (decoded : fromUtf8 bytes = some text) :
    Scanned unicode normalized (canonicalForm unicode text) ↔
      0 ∉ ctx.body ∨ canonicalForm unicode text ≠ text ∨
        text ∈ otherDerived unicode limits ctx text := by
  obtain ⟨query, queried, headers, parsed, derived⟩ :=
    normalize_ok unicode serde done
  rw [raw] at parsed derived
  obtain rfl := parseBody_raw unicode serde parsed
  have queryParts : queryDerived unicode limits ctx.query = query.derived := by
    rw [queryDerived, queried]
  rw [bodyDerived_text unicode other decoded, headers] at derived
  simp only [Scanned, raw, derived, mem_bodyStrValues_raw unicode decoded,
    List.mem_append, mem_rawTextDerived, otherDerived, queryParts]
  by_cases same : canonicalForm unicode text = text
  · rw [same]
    simp only [ne_eq, not_true_eq_false, or_false, and_true, false_or]
  · simp [same]

end RawBody

/-- A raw text body with an injection. -/
def injectedRequest (body : Text) : RequestContext :=
  { emptyRequest with body := asBytes body }

/-- Without NUL the injection is scanned. -/
theorem rawBody_scanned_iff_plain :
    Scanned .asciiOnly
      { path := "/".toList, body := .raw (asBytes "union select".toList) }
      (canonicalForm .asciiOnly "union select".toList) :=
  (rawBody_scanned_iff .asciiOnly .rejectAll {}
    (injectedRequest "union select".toList) _ (by rfl) (by decide +kernel)
    (asBytes "union select".toList) rfl "union select".toList
    (by decide +kernel)).mpr (Or.inl (by decide +kernel))

/-- One NUL in front of it hides the injection. -/
theorem rawBody_hidden_by_nul :
    ¬ ∀ (unicode : UnicodeTables) (serde : SerdeJson) (limits : LimitsConfig)
      (ctx : RequestContext) (normalized : Normalized),
      normalize unicode serde limits ctx = .ok normalized →
      isGrpcContentType
        (firstHeader normalized.headers "content-type".toList) = false →
      ∀ bytes, normalized.body = .raw bytes →
      ∀ text, fromUtf8 bytes = some text →
        Scanned unicode normalized (canonicalForm unicode text) := by
  intro claimed
  have scanned := claimed .asciiOnly .rejectAll {}
    (injectedRequest "\x00union select".toList)
    { path := "/".toList
      body := .raw (asBytes "\x00union select".toList) }
    (by rfl) (by decide +kernel) _ rfl "\x00union select".toList
    (by decide +kernel)
  have missed : ¬ Scanned .asciiOnly
      { path := "/".toList
        body := .raw (asBytes "\x00union select".toList) }
      (canonicalForm .asciiOnly "\x00union select".toList) := by
    unfold Scanned
    decide +kernel
  exact missed scanned

/-! ## gRPC leaves -/

section Grpc

variable (unicode : UnicodeTables) (serde : SerdeJson)

/-- The walk of a body under the module's limits, with room for all leaves. -/
def moduleWalk (config : GrpcConfig) (body : Bytes) : GrpcExtract :=
  grpcExtract body ⟨config.maxDepth, config.maxFields, body.length⟩

/-- A gRPC content type in lower case still starts as one. -/
theorem lower_grpc
    {value : Text}
    (grpc : "application/grpc".toList.isPrefixOf (trimStart value) = true) :
    ∃ tail, unicode.toLowercase (trim value) =
      "application/grpc".toList ++ tail := by
  obtain ⟨rest, starts⟩ := List.isPrefixOf_iff_prefix.mp grpc
  obtain ⟨tail, trimmed⟩ := rdropWhile_append_of_last isWhitespace
    "application/grpc".toList rest (by decide)
  have whole : trim value = "application/grpc".toList ++ tail := by
    rw [trim, ← starts, trimmed]
  refine ⟨unicode.lowercaseFrom "application/grpc".toList.reverse tail, ?_⟩
  rw [whole, UnicodeTables.toLowercase,
    UnicodeTables.toLowercase_ascii_append unicode _ _ _
      (List.all_eq_true.mp (by decide))]
  rfl

/-- A gRPC content type declares no other format. -/
theorem grpc_ne_form (tail : Text) :
    ¬ ("application/grpc".toList ++ tail =
        "application/x-www-form-urlencoded".toList ∨
      "application/x-www-form-urlencoded;".toList.isPrefixOf
        ("application/grpc".toList ++ tail) = true) := by
  rintro (equal | starts)
  · have differs : "application/g".toList = "application/x".toList :=
      congrArg (List.take 13) equal
    exact absurd differs (by decide)
  · cases starts

theorem grpc_ne_multipart (tail : Text) :
    ¬ "multipart/".toList.isPrefixOf
      ("application/grpc".toList ++ tail) = true := by
  intro starts
  cases starts

theorem grpc_ne_json (tail : Text) :
    ¬ ("application/grpc".toList ++ tail = "application/json".toList ∨
      "application/json;".toList.isPrefixOf
        ("application/grpc".toList ++ tail) = true) := by
  rintro (equal | starts)
  · have differs : "application/g".toList = "application/j".toList :=
      congrArg (List.take 13) equal
    exact absurd differs (by decide)
  · cases starts

/-- A gRPC body is empty, an undeclared JSON envelope, or raw. -/
theorem parseBody_grpc
    {contentType : Option Text}
    (grpc : isGrpcContentType contentType = true)
    {body : Bytes} {limits : LimitsConfig} {parsed : ParsedBody}
    (done : parseBody unicode serde contentType body limits = .ok parsed) :
    body = [] ∨
      sniffJson serde body limits = .ok (some parsed) ∨
      parsed = .raw body := by
  obtain ⟨value, rfl, starts⟩ := (Option.any_eq_true _ _).mp grpc
  obtain ⟨tail, lower⟩ := lower_grpc unicode starts
  unfold parseBody at done
  dsimp only [Option.getD_some] at done
  rw [lower] at done
  rw [if_neg (grpc_ne_form tail), if_neg (grpc_ne_multipart tail),
    if_neg (grpc_ne_json tail)] at done
  split_ifs at done with empty
  · exact Or.inl empty
  · obtain ⟨found, sniffed, filled⟩ := ok_of_bind_ok done
    cases found with
    | none =>
        cases filled
        exact Or.inr (Or.inr rfl)
    | some envelope =>
        cases filled
        exact Or.inr (Or.inl sniffed)

/-- A frame is made of bytes of the body. -/
theorem readFrame_mem
    {body : Bytes} {flag : UInt8} {message rest : Bytes}
    (read : readFrame body = .frame flag message rest) :
    flag ∈ body ∧ rest ⊆ body := by
  unfold readFrame at read
  split at read
  · cases read
  · dsimp only at read
    split_ifs at read with short
    obtain ⟨rfl, -, rfl⟩ := FrameStep.frame.inj read
    refine ⟨List.mem_cons_self, fun byte member => ?_⟩
    have inside := List.mem_of_mem_drop member
    simp [inside]
  · cases read

/-- Only a frame with a zero flag has leaves. -/
theorem parseFrames_leaves_of_no_zero
    (limits : GrpcLimits) (fuel : Nat) (body : Bytes) (out : GrpcExtract)
    (nonzero : 0 ∉ body) :
    (parseFrames limits fuel body out).leaves = out.leaves := by
  induction fuel generalizing body out with
  | zero => rfl
  | succ fuel induction =>
      rw [parseFrames]
      cases read : readFrame body with
      | done => rfl
      | illegal => rfl
      | frame flag message rest =>
          obtain ⟨flagMember, inside⟩ := readFrame_mem read
          have flagged : flag ≠ 0 := by
            rintro rfl
            exact nonzero flagMember
          refine (induction rest _ fun zero => nonzero (inside zero)).trans ?_
          rw [parseFrame, if_neg flagged]
          split_ifs <;> rfl

/-- JSON text has no frame with leaves. -/
theorem moduleWalk_leaves_of_json
    (strict : serde.RejectsNul) (config : GrpcConfig)
    {body : Bytes} {limits : LimitsConfig} {parsed : ParsedBody}
    (sniffed : sniffJson serde body limits = .ok (some parsed)) :
    (moduleWalk config body).leaves = [] := by
  obtain ⟨text, value, pairs, decoded, accepted, -⟩ :=
    sniffJson_some serde sniffed
  refine parseFrames_leaves_of_no_zero _ _ body {} fun zero => ?_
  have nul : '\x00' ∈ trimStart text :=
    mem_trimStart (nul_mem_of_fromUtf8 decoded zero) (by decide)
  exact strict _ _ accepted nul

/-- A raw body that the module allows hit none of the module's limits. -/
theorem inspectGrpc_allow
    {config : GrpcConfig} (enabled : config.enabled = true)
    {ctx : RequestContext} {body : Bytes}
    (raw : ctx.normalized.body = .raw body)
    (grpc : declaresGrpc ctx = true)
    (allowed : inspectGrpc config ctx = .allow)
    (plainBody : (moduleWalk config body).compressed = false)
    (plainHeader : headerCompressed ctx = false) :
    (moduleWalk config body).depthExceeded = false ∧
      (moduleWalk config body).fieldsExceeded = false := by
  have shape := grpcExtract_shape body
    ⟨config.maxDepth, config.maxFields, body.length⟩ 0
  have compressed :
      (grpcExtract body
        ⟨config.maxDepth, config.maxFields, 0⟩).compressed = false :=
    (congrArg GrpcExtract.compressed shape).trans plainBody
  have deep :
      (grpcExtract body
        ⟨config.maxDepth, config.maxFields, 0⟩).depthExceeded =
        (moduleWalk config body).depthExceeded := by
    have equal := congrArg GrpcExtract.depthExceeded shape
    exact equal
  have many :
      (grpcExtract body
        ⟨config.maxDepth, config.maxFields, 0⟩).fieldsExceeded =
        (moduleWalk config body).fieldsExceeded := by
    have equal := congrArg GrpcExtract.fieldsExceeded shape
    exact equal
  unfold inspectGrpc at allowed
  dsimp only at allowed
  rw [raw] at allowed
  simp only [enabled, grpc, compressed, plainHeader, deep, many,
    Bool.not_true, Bool.false_eq_true, if_false, Bool.or_self, reject]
    at allowed
  split_ifs at allowed with malformed large tooDeep tooMany
  exact ⟨by simpa using tooDeep, by simpa using tooMany⟩

/-- The walk stays within the limits that the normalizer walks under. -/
def FitsNormalizer (walk : GrpcExtract) : Prop :=
  walk.fields ≤ ({} : GrpcLimits).maxFields ∧
    walk.maxDepth ≤ ({} : GrpcLimits).maxDepth ∧
    walk.leaves.length ≤ ({} : GrpcLimits).maxLeaves

/--
Coverage of gRPC leaves.  When the module allows an uncompressed body whose
fields, nesting and leaves stay within the normalizer's limits, the canonical
form of every leaf is in the derived channel.
-/
theorem grpcLeaf_derived
    (strict : serde.RejectsNul) (limits : LimitsConfig)
    (config : GrpcConfig) (enabled : config.enabled = true)
    (ctx : RequestContext) (normalized : Normalized)
    (done : normalize unicode serde limits ctx = .ok normalized)
    (grpc : isGrpcContentType
      (firstHeader normalized.headers "content-type".toList) = true)
    (allowed :
      inspectGrpc config { ctx with normalized := normalized } = .allow)
    (plainBody : (moduleWalk config ctx.body).compressed = false)
    (plainHeader :
      headerCompressed { ctx with normalized := normalized } = false)
    (fits : FitsNormalizer (moduleWalk config ctx.body)) :
    ∀ leaf ∈ (moduleWalk config ctx.body).leaves,
      canonicalForm unicode leaf ∈ normalized.derivedDecoded := by
  obtain ⟨query, -, -, parsed, derived⟩ := normalize_ok unicode serde done
  intro leaf member
  rcases parseBody_grpc unicode serde grpc parsed with empty | sniffed | raw
  · rw [empty] at member
    cases member
  · rw [moduleWalk_leaves_of_json serde strict config sniffed] at member
    cases member
  · have declared :
        declaresGrpc { ctx with normalized := normalized } = true := by
      obtain ⟨value, found, starts⟩ := (Option.any_eq_true _ _).mp grpc
      rw [declaresGrpc, contentType, found]
      exact starts
    obtain ⟨shallow, few⟩ :=
      inspectGrpc_allow enabled raw declared allowed plainBody plainHeader
    have agree : grpcExtract ctx.body {} = moduleWalk config ctx.body :=
      parseFrames_agree _ {} _ ctx.body {} (by simp) (by decide)
        ⟨shallow, few, fits.1, fits.2.1, fits.2.2⟩
    have kept : canonicalForm unicode leaf ∈
        bodyDerived unicode
          (firstHeader normalized.headers "content-type".toList)
          normalized.body := by
      rw [raw, bodyDerived, if_pos grpc, agree]
      refine List.mem_flatMap.mpr ⟨leaf, member, ?_⟩
      exact List.mem_append_right _ (List.mem_singleton.mpr rfl)
    rw [derived]
    exact List.mem_append_left _ (List.mem_append_right _ kept)

end Grpc

/-- A leaf below a number of nested messages, none of them text. -/
def nestedLeaf : Nat → Bytes
  | 0 => [0x08, 0xFF, 0x01, 0x0A, 0x01, 0x61]
  | levels + 1 =>
      0x08 :: 0xFF :: 0x01 :: 0x0A ::
        UInt8.ofNat (nestedLeaf levels).length :: nestedLeaf levels

/-- A gRPC request with that message as its only frame. -/
def nestedRequest (levels : Nat) : RequestContext :=
  { emptyRequest with
    headers := [("content-type".toList, "application/grpc".toList)]
    body := 0 :: 0 :: 0 :: 0 ::
      UInt8.ofNat (nestedLeaf levels).length :: nestedLeaf levels }

/-- What the normalizer makes of it, given the derived strings. -/
def nestedNormalized (levels : Nat) (derived : List Text) : Normalized where
  path := "/".toList
  headers := [("content-type".toList, "application/grpc".toList)]
  body := .raw (nestedRequest levels).body
  derivedDecoded := derived

/-- The module enabled, with room for one more level than the normalizer. -/
def deeperConfig : Config :=
  { modules := { grpc := { enabled := true, maxDepth := 17 } } }

/-- At the sixteenth level the leaf is derived. -/
theorem grpcLeaf_derived_sixteenth :
    canonicalForm .asciiOnly "a".toList ∈
      (nestedNormalized 15 ["a".toList]).derivedDecoded :=
  grpcLeaf_derived .asciiOnly .rejectAll SerdeJson.rejectAll_rejectsNul {}
    deeperConfig.modules.grpc rfl (nestedRequest 15)
    (nestedNormalized 15 ["a".toList]) (by rfl) (by decide +kernel)
    (by decide +kernel) (by decide +kernel) (by decide +kernel)
    (by unfold FitsNormalizer; decide +kernel) "a".toList
    (by decide +kernel)

/-- At the seventeenth it is not, though the module allows the request. -/
theorem grpcLeaf_missed_seventeenth :
    ¬ ∀ (unicode : UnicodeTables) (serde : SerdeJson) (limits : LimitsConfig)
      (config : Config), serde.RejectsNul → config.validate = .ok () →
      config.modules.grpc.enabled = true →
      ∀ (ctx : RequestContext) (normalized : Normalized),
      normalize unicode serde limits ctx = .ok normalized →
      isGrpcContentType
        (firstHeader normalized.headers "content-type".toList) = true →
      inspectGrpc config.modules.grpc { ctx with normalized := normalized } =
        .allow →
      (moduleWalk config.modules.grpc ctx.body).compressed = false →
      headerCompressed { ctx with normalized := normalized } = false →
      ∀ leaf ∈ (moduleWalk config.modules.grpc ctx.body).leaves,
        canonicalForm unicode leaf ∈ normalized.derivedDecoded := by
  intro claimed
  have derived := claimed .asciiOnly .rejectAll {} deeperConfig
    SerdeJson.rejectAll_rejectsNul rfl rfl (nestedRequest 16)
    (nestedNormalized 16 []) (by rfl) (by decide +kernel)
    (by decide +kernel) (by decide +kernel) (by decide +kernel) "a".toList
    (by decide +kernel)
  cases derived

end LightWaf.Detection
