import LightWaf.Normalizer.Body
import LightWaf.Normalizer.Grpc

/-!
# The normalizer

The embedding of `waf-normalizer/src/lib.rs`.  `normalize` checks the limits
and fills the canonical surface.  The derived strings come from four places in
turn: path segments, query values, the body and header values.
-/

namespace LightWaf.Normalizer

open LightWaf.Rust
open LightWaf.Core

/-- `header_base64_excluded`. -/
def headerBase64Excluded (name : Text) : Bool :=
  ["authorization".toList, "proxy-authorization".toList, "cookie".toList,
    "set-cookie".toList, "etag".toList, "if-none-match".toList,
    "if-match".toList].contains name ||
    "-token".toList.isSuffixOf name

/-- `header_content_inspectable`: deny-list first, then the allow-list. -/
def headerContentInspectable (name : Text) : Bool :=
  if ["authorization".toList, "proxy-authorization".toList,
      "cookie".toList, "set-cookie".toList, "user-agent".toList,
      "host".toList, "etag".toList, "if-none-match".toList,
      "if-match".toList, "connection".toList, "keep-alive".toList,
      "transfer-encoding".toList, "te".toList, "trailer".toList,
      "upgrade".toList].contains name ||
      "-token".toList.isSuffixOf name ||
      "accept".toList.isPrefixOf name ||
      "content-".toList.isPrefixOf name ||
      "proxy-".toList.isPrefixOf name then false
  else
    ["referer".toList, "x-forwarded-for".toList,
      "x-forwarded-host".toList, "x-forwarded-proto".toList].contains name ||
      "x-".toList.isPrefixOf name

/-- The value of the first header of a name. -/
def firstHeader (headers : List HeaderLine) (name : Text) : Option Text :=
  (headers.find? fun header => header.1 == name).map Prod.snd

/-- Whether a content type announces gRPC. -/
def isGrpcContentType (contentType : Option Text) : Bool :=
  contentType.any fun value =>
    "application/grpc".toList.isPrefixOf (trimStart value)

section Unicode

variable (unicode : UnicodeTables)

/-- Header names lowered, values trimmed. -/
def normalizeHeaders (headers : List HeaderLine) : List HeaderLine :=
  headers.map fun (name, value) => (unicode.toLowercase name, trim value)

/-- Refuse the first header value beyond the limit. -/
def checkHeaderSizes (limit : Nat) :
    List HeaderLine → Except NormalizationError Unit
  | [] => .ok ()
  | (_, value) :: rest =>
      if limit < byteLen value then
        .error (.headerTooLarge limit (byteLen value))
      else checkHeaderSizes limit rest

/-- The checks on the raw request. -/
def checkLimits (limits : LimitsConfig) (ctx : RequestContext) :
    Except NormalizationError Unit :=
  if limits.maxBodySize < ctx.body.length then
    .error (.bodyTooLarge limits.maxBodySize ctx.body.length)
  else if limits.maxHeaders < ctx.headers.length then
    .error (.tooManyHeaders limits.maxHeaders)
  else checkHeaderSizes limits.maxHeaderSize ctx.headers

/-- The decoded cookies of all cookie headers, and double encoding. -/
def normalizeCookies (limits : LimitsConfig) :
    List HeaderLine →
      Except NormalizationError (List (Text × Text) × Bool)
  | [] => .ok ([], false)
  | (name, value) :: rest => do
      let raw ←
        if name = "cookie".toList then
          parseCookiesLimited value limits.maxCookies
        else .ok []
      let decoded := raw.map fun (key, value) =>
        (canonicalizeValue unicode key false,
          canonicalizeValue unicode value false)
      let (cookies, double) ← normalizeCookies limits rest
      .ok (decoded.map (fun (key, value) => (key.1, value.1)) ++ cookies,
        decoded.any (fun (key, value) => key.2 || value.2) || double)

/-- The variants derived from the segments of the raw path. -/
def pathDerived (rawPath : Text) : List Text :=
  ((rawPath.splitOn '/').filter fun segment => !segment.isEmpty).flatMap
    fun segment => deriveVariants unicode (percentDecode segment false).1

/-- The query of a request, or the empty one. -/
def normalizeQuery (limits : LimitsConfig) (query : Option Text) :
    Except NormalizationError ParsedQuery :=
  match query with
  | some query => parseQuery unicode query limits
  | none => .ok {}

/-- `body_canonical_strings`. -/
def bodyCanonicalStrings : ParsedBody → List Text
  | .formUrlEncoded params => params.map Prod.snd
  | .jsonFlattened pairs =>
      pairs.map fun pair => (canonicalizeValue unicode pair.2 false).1
  | .multipart fields => fields.flatMap fun field =>
      canonicalizeMultipartField unicode field.name ::
        (field.filename.map (canonicalizeMultipartField unicode)).toList ++
        ((fromUtf8 field.data).map
          (canonicalizeMultipartField unicode)).toList
  | .raw bytes =>
      ((fromUtf8 bytes).map fun text =>
        (canonicalizeValue unicode text false).1).toList
  | .none => []

/-- What a walked gRPC leaf contributes: its variants and its canonical form. -/
def grpcLeafDerived (leaf : Text) : List Text :=
  let canonical := (canonicalizeValue unicode leaf false).1
  deriveVariants unicode canonical ++ [canonical]

/-- What a raw text body contributes; the canonical form only if it differs. -/
def rawTextDerived (raw : Text) : List Text :=
  let canonical := (canonicalizeValue unicode raw false).1
  deriveVariants unicode canonical ++
    (if canonical = raw then [] else [canonical])

/-- The strings derived from the parsed body. -/
def bodyDerived (contentType : Option Text) : ParsedBody → List Text
  | .jsonFlattened pairs =>
      pairs.flatMap fun pair => jsonLeafDerived unicode pair.2
  | .raw bytes =>
      if isGrpcContentType contentType then
        (grpcExtract bytes {}).leaves.flatMap (grpcLeafDerived unicode)
      else
        match fromUtf8 bytes with
        | some raw => rawTextDerived unicode raw
        | none => []
  | other =>
      (bodyCanonicalStrings unicode other).flatMap (deriveVariants unicode)

/-- The strings derived from header values. -/
def headerDerived (headers : List HeaderLine) : List Text :=
  (headers.filter fun header => !headerBase64Excluded header.1).flatMap
    fun header => deriveVariants unicode header.2

variable (serde : SerdeJson)

/-- `Normalizer::normalize`: the canonical surface of a request. -/
def normalize (limits : LimitsConfig) (ctx : RequestContext) :
    Except NormalizationError Normalized := do
  checkLimits limits ctx
  let headers := normalizeHeaders unicode ctx.headers
  let (cookies, cookieDouble) ← normalizeCookies unicode limits headers
  let (path, pathDouble, nullByte) := normalizePath unicode ctx.rawPath
  let query ← normalizeQuery unicode limits ctx.query
  let contentType := firstHeader headers "content-type".toList
  let body ← parseBody unicode serde contentType ctx.body limits
  .ok {
    path := path
    query := ctx.query
    queryParams := query.params
    cookies := cookies
    headers := headers
    body := body
    doubleEncodingDetected :=
      pathDouble || query.doubleEncoding || cookieDouble
    nullByteDetected := nullByte
    derivedDecoded :=
      pathDerived unicode ctx.rawPath ++ query.derived ++
        bodyDerived unicode contentType body ++
        headerDerived unicode headers }

/-- What a successful normalization consists of. -/
theorem normalize_ok
    {limits : LimitsConfig} {ctx : RequestContext} {normalized : Normalized}
    (done : normalize unicode serde limits ctx = .ok normalized) :
    ∃ query : ParsedQuery,
      normalizeQuery unicode limits ctx.query = .ok query ∧
      normalized.headers = normalizeHeaders unicode ctx.headers ∧
      parseBody unicode serde
          (firstHeader normalized.headers "content-type".toList) ctx.body
          limits = .ok normalized.body ∧
      normalized.derivedDecoded =
        pathDerived unicode ctx.rawPath ++ query.derived ++
          bodyDerived unicode
            (firstHeader normalized.headers "content-type".toList)
            normalized.body ++
          headerDerived unicode normalized.headers := by
  obtain ⟨_, -, afterLimits⟩ := ok_of_bind_ok done
  obtain ⟨cookies, -, afterCookies⟩ := ok_of_bind_ok afterLimits
  obtain ⟨query, queried, afterQuery⟩ := ok_of_bind_ok afterCookies
  obtain ⟨body, parsed, filled⟩ := ok_of_bind_ok afterQuery
  obtain rfl := Except.ok.inj filled
  exact ⟨query, queried, rfl, parsed, rfl⟩

end Unicode

end LightWaf.Normalizer
