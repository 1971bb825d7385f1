import LightWaf.Proxy.Context
import LightWaf.Detection.Prefilter

/-!
# Inspecting and forwarding a request

The embedding of `try_forward`: the context is built from the readable header
lines, the pipeline judges the context, and what is not answered goes to the
backend with the client's own header lines.

The main result says exactly when the two views agree: every line of a
forwarded request that is the client's has an entry in the context if and only
if every copied value is visible ASCII.
-/

namespace LightWaf.Proxy

open LightWaf.Rust
open LightWaf.Core
open LightWaf.Normalizer
open LightWaf.Detection

/-! ## The request to the backend -/

/-- A header value from a text, if all its bytes are accepted. -/
def HeaderValue.fromText (text : Text) : Option HeaderValue :=
  if valid : (asBytes text).all isValueByte then some ⟨asBytes text, valid⟩
  else none

/-- `x-forwarded-for`. -/
def xForwardedFor : HeaderName :=
  ⟨"x-forwarded-for".toList, by decide +kernel⟩

/-- `x-request-id`. -/
def xRequestId : HeaderName :=
  ⟨"x-request-id".toList, by decide +kernel⟩

/-- The line `te: trailers`. -/
def teTrailers : HeaderField where
  name := ⟨"te".toList, by decide +kernel⟩
  value := ⟨asBytes "trailers".toList, by decide +kernel⟩

/-- What is sent to the backend, and over which client. -/
structure BackendRequest where
  method : Text
  uri : Text
  headers : HeaderMap
  body : Bytes
  trailers : Option HeaderMap
  overGrpcClient : Bool

section Forward

variable (http : HeaderToStr) (validUri : Text → Bool)

/--
`forward_to_backend` up to the round trip; `none` is the error of a URI or of
a header that the `http` crate refuses.
-/
def forwardToBackend (backend : Text) (parts : Parts) (pathAndQuery : Text)
    (body : Bytes) (trailers : Option HeaderMap) (clientAddr : IpAddr)
    (requestId : Text) : Option BackendRequest := do
  let uri := backend ++ pathAndQuery
  guard (validUri uri)
  let isGrpc := isGrpcRequest http parts
  let copied := (copiedHeaders parts.headers).foldl
    (fun map line => HeaderMap.append line map) []
  let peer ← HeaderValue.fromText clientAddr.toText
  let id ← HeaderValue.fromText requestId
  let headers := HeaderMap.append ⟨xRequestId, id⟩
    (HeaderMap.append ⟨xForwardedFor, peer⟩ copied)
  some {
    method := parts.method
    uri := uri
    headers :=
      if isGrpc then HeaderMap.append teTrailers headers else headers
    body := body
    trailers := if isGrpc then trailers else none
    overGrpcClient := isGrpc }

theorem mem_foldl_append
    {lines : List HeaderField} {map : HeaderMap} {line : HeaderField} :
    line ∈ lines.foldl (fun map line => HeaderMap.append line map) map ↔
      line ∈ lines ∨ line ∈ map := by
  induction lines generalizing map with
  | nil => simp
  | cons head tail induction =>
      rw [List.foldl_cons, induction, HeaderMap.mem_append, List.mem_cons]
      tauto

/-- The backend gets the copied lines and the three lines of the proxy. -/
theorem mem_forwardToBackend
    {backend pathAndQuery requestId : Text} {parts : Parts} {body : Bytes}
    {trailers : Option HeaderMap} {clientAddr : IpAddr}
    {request : BackendRequest}
    (built : forwardToBackend http validUri backend parts pathAndQuery body
      trailers clientAddr requestId = some request) (line : HeaderField) :
    line ∈ request.headers ↔
      (line = teTrailers ∧ isGrpcRequest http parts = true) ∨
        (line.name = xRequestId ∧
          HeaderValue.fromText requestId = some line.value) ∨
        (line.name = xForwardedFor ∧
          HeaderValue.fromText clientAddr.toText = some line.value) ∨
        line ∈ copiedHeaders parts.headers := by
  simp only [forwardToBackend, Option.bind_eq_bind,
    Option.bind_eq_some_iff] at built
  obtain ⟨-, -, peer, peerValue, id, idValue, filled⟩ := built
  obtain rfl := Option.some.inj filled
  obtain ⟨name, value⟩ := line
  cases grpc : isGrpcRequest http parts with
  | true =>
      simp only [if_true, HeaderMap.mem_append, mem_foldl_append,
        List.not_mem_nil, or_false, HeaderField.mk.injEq, peerValue, idValue,
        Option.some.injEq, and_true, eq_comm (a := peer), eq_comm (a := id)]
  | false =>
      simp only [Bool.false_eq_true, if_false, HeaderMap.mem_append,
        mem_foldl_append, List.not_mem_nil, or_false, HeaderField.mk.injEq,
        peerValue, idValue, Option.some.injEq, and_false, false_or,
        eq_comm (a := peer), eq_comm (a := id)]

end Forward

/-! ## Answering a request -/

/-- How a request was handled, as the metrics count it. -/
inductive Outcome
  | allowed
  | blocked
  | rateLimited
  | badRequest
  | upstreamError
  | internalError
deriving DecidableEq

/-- A response of the proxy itself. -/
structure Response where
  status : Nat
  body : String
  retryAfter : Option Nat := none
deriving DecidableEq

/--
`deny_response`.  The outer `none` is the panic on a status outside the three
digit codes, which a plugin can ask for.
-/
def denyResponse : PipelineVerdict → Option (Option (Response × Outcome))
  | .allow => some none
  | .block _ _ => some (some (⟨403, "Forbidden", none⟩, .blocked))
  | .reject _ _ status retryAfter =>
      let (body, outcome) :=
        if status = 429 then ("Too Many Requests", Outcome.rateLimited)
        else if status = 400 then ("Bad Request", .badRequest)
        else ("Rejected", .badRequest)
      if 100 ≤ status ∧ status ≤ 999 then
        some (some (⟨status, body, retryAfter⟩, outcome))
      else none

/-- The configuration-derived state of the proxy. -/
structure Reloadable where
  backend : Text
  limits : LimitsConfig
  pipeline : Pipeline
  prefilter : ContentPrefilter
  ipResolver : ClientIpResolver
  resilience : ResilienceConfig

/-- What becomes of a request. -/
inductive Handled
  | answered (response : Response) (outcome : Outcome)
  | forwarded (request : BackendRequest)
  | failed

section Handle

variable (build : Build) (unicode : UnicodeTables) (serde : SerdeJson)
variable (engine : RegexEngine) (http : HeaderToStr)
variable (validUri : Text → Bool)

/-- `build_reloadable`. -/
def buildReloadable (externals : Externals) (config : Config)
    (extra : List (Config → WafModule)) : Reloadable where
  backend := trimEndMatches '/' config.proxy.backend
  limits := config.limits
  pipeline := Pipeline.new config
    (buildModules unicode serde engine externals config ++ extra)
  prefilter := ContentPrefilter.new config.waf.paranoiaLevel
  ipResolver := ClientIpResolver.fromConfig config.network
  resilience := config.resilience

/--
The part of `try_forward` between the context and the backend: the answer, or
the context of a request that passes.
-/
def judge (rel : Reloadable) (ctx : RequestContext) :
    Option (Except (Response × Outcome) RequestContext) := do
  let connection ← rel.pipeline.runConnection build ctx
  match ← denyResponse connection.verdict with
  | some denied => some (.error denied)
  | none =>
      match normalize unicode serde rel.limits connection.ctx with
      | .error _ =>
          match rel.resilience.onParserLimit with
          | .failClosed =>
              some (.error (⟨400, "Bad Request", none⟩, .badRequest))
          | .failOpen => some (.ok connection.ctx)
      | .ok normalized => do
          let ctx := { connection.ctx with normalized := normalized }
          let inspect := rel.prefilter.isCandidate unicode engine ctx
          let inspection ←
            rel.pipeline.runInspectionGated build ctx inspect
          match ← denyResponse inspection.verdict with
          | some denied => some (.error denied)
          | none => some (.ok inspection.ctx)

/-- `try_forward`; `none` is a panic. -/
def tryForward (rel : Reloadable) (requestId : Text) (parts : Parts)
    (body : Bytes) (trailers : Option HeaderMap) (clientAddr : IpAddr) :
    Option Handled := do
  let ctx :=
    buildContext http requestId parts body clientAddr rel.ipResolver
  match ← judge build unicode serde engine rel ctx with
  | .error (response, outcome) => some (.answered response outcome)
  | .ok ctx =>
      let pathAndQuery := parts.pathAndQuery.getD "/".toList
      match forwardToBackend http validUri rel.backend parts pathAndQuery
          body trailers clientAddr ctx.requestId with
      | some request => some (.forwarded request)
      | none => some .failed

variable {build unicode serde engine http validUri}

/-- A request that passes goes to the backend as `forward_to_backend` has it. -/
theorem forwardToBackend_of_tryForward
    {rel : Reloadable} {requestId : Text} {parts : Parts} {body : Bytes}
    {trailers : Option HeaderMap} {clientAddr : IpAddr}
    {request : BackendRequest}
    (handled : tryForward build unicode serde engine http validUri rel
      requestId parts body trailers clientAddr = some (.forwarded request)) :
    ∃ ctx : RequestContext, forwardToBackend http validUri rel.backend parts
      (parts.pathAndQuery.getD "/".toList) body trailers clientAddr
      ctx.requestId = some request := by
  rw [tryForward, Option.bind_eq_bind, Option.bind_eq_some_iff] at handled
  obtain ⟨judged, -, handled⟩ := handled
  cases judged with
  | error denied => cases handled
  | ok ctx =>
      dsimp only at handled
      split at handled
      · rename_i sent
        cases handled
        exact ⟨ctx, sent⟩
      · cases handled

end Handle

/-! ## The two views compared -/

/-- An entry of the context that stands for a header line. -/
def Represents (entry : HeaderLine) (line : HeaderField) : Prop :=
  entry.1 = line.name.text ∧ asBytes entry.2 = line.value.bytes

section Views

variable (http : HeaderToStr)

theorem mem_readableHeaders
    {headers : HeaderMap} {entry : HeaderLine} :
    entry ∈ readableHeaders http headers ↔
      ∃ line ∈ headers, line.name.text = entry.1 ∧
        http.toStr line.value = some entry.2 := by
  obtain ⟨name, text⟩ := entry
  simp only [readableHeaders, List.mem_filterMap, Option.map_eq_some_iff,
    Prod.mk.injEq]
  constructor
  · rintro ⟨line, member, text, read, named, rfl⟩
    exact ⟨line, member, named, read⟩
  · rintro ⟨line, member, named, read⟩
    exact ⟨line, member, text, read, named, rfl⟩

/-- A line has an entry exactly when its value is visible. -/
theorem represented_iff_visible
    {headers : HeaderMap} {line : HeaderField} (member : line ∈ headers) :
    (∃ entry ∈ readableHeaders http headers, Represents entry line) ↔
      line.value.bytes.all isVisibleAscii = true := by
  constructor
  · rintro ⟨entry, present, -, bytes⟩
    obtain ⟨other, -, -, read⟩ := (mem_readableHeaders http).mp present
    have otherVisible := (http.succeeds other.value).mp (by simp [read])
    rwa [← http.verbatim _ _ read, bytes] at otherVisible
  · intro visible
    obtain ⟨text, read⟩ := Option.isSome_iff_exists.mp
      ((http.succeeds line.value).mpr visible)
    refine ⟨(line.name.text, text), ?_, rfl, http.verbatim _ _ read⟩
    exact (mem_readableHeaders http).mpr ⟨line, member, rfl, read⟩

/-- The client's lines of a forwarded request include those that are copied. -/
theorem mem_headers_of_copied
    {validUri : Text → Bool} {backend pathAndQuery requestId : Text}
    {parts : Parts} {body : Bytes} {trailers : Option HeaderMap}
    {clientAddr : IpAddr} {request : BackendRequest}
    (built : forwardToBackend http validUri backend parts pathAndQuery body
      trailers clientAddr requestId = some request)
    {line : HeaderField} (copied : line ∈ copiedHeaders parts.headers) :
    line ∈ request.headers :=
  (mem_forwardToBackend http validUri built line).mpr
    (.inr (.inr (.inr copied)))

/-- A line of the client that reaches the backend is copied, or the proxy's. -/
theorem copied_or_teTrailers
    {validUri : Text → Bool} {backend pathAndQuery requestId : Text}
    {parts : Parts} {body : Bytes} {trailers : Option HeaderMap}
    {clientAddr : IpAddr} {request : BackendRequest}
    (built : forwardToBackend http validUri backend parts pathAndQuery body
      trailers clientAddr requestId = some request)
    {line : HeaderField} (sent : line ∈ request.headers)
    (received : line ∈ parts.headers) :
    line ∈ copiedHeaders parts.headers ∨ line = teTrailers := by
  have kept (name : HeaderName) (named : line.name = name)
      (endToEnd : hopByHop.contains name.text = false) :
      line ∈ copiedHeaders parts.headers := by
    refine List.mem_filter.mpr ⟨received, ?_⟩
    rw [named, endToEnd]
    rfl
  rcases (mem_forwardToBackend http validUri built line).mp sent with
    ⟨same, -⟩ | ⟨named, -⟩ | ⟨named, -⟩ | copied
  · exact .inr same
  · exact .inl (kept xRequestId named (by decide +kernel))
  · exact .inl (kept xForwardedFor named (by decide +kernel))
  · exact .inl copied

/--
Inspected equals forwarded, exactly: every line copied to the backend has an
entry in the context, and every line of a forwarded request that the client
sent, if and only if every copied value is visible ASCII.
-/
theorem forwarded_represented_iff
    (build : Build) (unicode : UnicodeTables) (serde : SerdeJson)
    (engine : RegexEngine) (validUri : Text → Bool) (rel : Reloadable)
    (requestId : Text) (parts : Parts) (body : Bytes)
    (trailers : Option HeaderMap) (clientAddr : IpAddr) :
    ((∀ line ∈ copiedHeaders parts.headers,
        ∃ entry ∈ (buildContext http requestId parts body clientAddr
          rel.ipResolver).headers, Represents entry line) ↔
      ∀ line ∈ copiedHeaders parts.headers,
        line.value.bytes.all isVisibleAscii = true) ∧
    ∀ request, tryForward build unicode serde engine http validUri rel
        requestId parts body trailers clientAddr = some (.forwarded request) →
      ((∀ line ∈ request.headers, line ∈ parts.headers →
          ∃ entry ∈ (buildContext http requestId parts body clientAddr
            rel.ipResolver).headers, Represents entry line) ↔
        ∀ line ∈ copiedHeaders parts.headers,
          line.value.bytes.all isVisibleAscii = true) := by
  have views : (∀ line ∈ copiedHeaders parts.headers,
        ∃ entry ∈ (buildContext http requestId parts body clientAddr
          rel.ipResolver).headers, Represents entry line) ↔
      ∀ line ∈ copiedHeaders parts.headers,
        line.value.bytes.all isVisibleAscii = true := by
    refine forall₂_congr fun line copied => ?_
    exact represented_iff_visible http (List.mem_of_mem_filter copied)
  refine ⟨views, fun request handled => ?_⟩
  obtain ⟨ctx, built⟩ := forwardToBackend_of_tryForward handled
  rw [← views]
  constructor
  · intro represented line copied
    exact represented line (mem_headers_of_copied http built copied)
      (List.mem_of_mem_filter copied)
  · intro represented line sent received
    rcases copied_or_teTrailers http built sent received with copied | same
    · exact represented line copied
    · refine (represented_iff_visible http received).mpr ?_
      rw [same]
      decide +kernel

end Views

/-- A request with one header line. -/
def oneHeaderRequest (line : HeaderField) : Parts where
  method := "GET".toList
  path := "/".toList
  query := none
  pathAndQuery := some "/".toList
  version := "HTTP/1.1".toList
  headers := [line]

/-- `referer: search`. -/
def plainReferer : HeaderField where
  name := ⟨"referer".toList, by decide +kernel⟩
  value := ⟨asBytes "search".toList, by decide +kernel⟩

/-- `referer: <script>`, behind a byte that is not ASCII. -/
def hiddenReferer : HeaderField where
  name := plainReferer.name
  value := ⟨0xFF :: asBytes "<script>".toList, by decide +kernel⟩

/-- A proxy with the default configuration, on which no rule matches. -/
def defaultProxy : Reloadable :=
  buildReloadable .asciiOnly .rejectAll (.ofIsMatch fun _ _ => false)
    noExternals {} []

/-- What becomes of a request with one header line there. -/
def handledBy (line : HeaderField) : Option Handled :=
  tryForward ⟨true⟩ .asciiOnly .rejectAll (.ofIsMatch fun _ _ => false)
    .bytewise (fun _ => true) defaultProxy [] (oneHeaderRequest line) [] none
    (.v4 0x7F000001#32)

/-- Whether a request is forwarded with a line. -/
def Handled.carries (line : HeaderField) : Handled → Bool
  | .forwarded request => request.headers.contains line
  | _ => false

theorem exists_forwarded
    {line : HeaderField}
    (carried : (handledBy line).any (Handled.carries line) = true) :
    ∃ request, handledBy line = some (.forwarded request) ∧
      line ∈ request.headers := by
  obtain ⟨handled, same, carries⟩ := (Option.any_eq_true _ _).mp carried
  cases handled with
  | forwarded request =>
      exact ⟨request, same, List.contains_iff_mem.mp carries⟩
  | answered response outcome => cases carries
  | failed => cases carries

/-- The plain line is seen, and forwarded. -/
theorem forwarded_represented_iff_plainReferer :
    ∃ request, handledBy plainReferer = some (.forwarded request) ∧
      plainReferer ∈ request.headers ∧
      ∃ entry ∈ (buildContext .bytewise [] (oneHeaderRequest plainReferer)
        [] (.v4 0x7F000001#32) defaultProxy.ipResolver).headers,
        Represents entry plainReferer := by
  obtain ⟨request, handled, sent⟩ :=
    @exists_forwarded plainReferer (by decide +kernel)
  refine ⟨request, handled, sent, ?_⟩
  exact ((forwarded_represented_iff .bytewise ⟨true⟩ .asciiOnly .rejectAll
    (.ofIsMatch fun _ _ => false) (fun _ => true) defaultProxy []
    (oneHeaderRequest plainReferer) [] none (.v4 0x7F000001#32)).2 request
    handled).mpr (by decide +kernel) plainReferer sent List.mem_cons_self

/-- One byte hides a line from every module, and the backend still gets it. -/
theorem hiddenReferer_forwarded_unseen :
    ¬ ∀ (http : HeaderToStr) (build : Build) (unicode : UnicodeTables)
      (serde : SerdeJson) (engine : RegexEngine) (validUri : Text → Bool)
      (rel : Reloadable) (requestId : Text) (parts : Parts) (body : Bytes)
      (trailers : Option HeaderMap) (clientAddr : IpAddr)
      (request : BackendRequest),
      tryForward build unicode serde engine http validUri rel requestId parts
        body trailers clientAddr = some (.forwarded request) →
      ∀ line ∈ copiedHeaders parts.headers, line ∈ request.headers →
        ∃ entry ∈ (buildContext http requestId parts body clientAddr
          rel.ipResolver).headers, Represents entry line := by
  intro claimed
  have copied :
      hiddenReferer ∈
        copiedHeaders (oneHeaderRequest hiddenReferer).headers := by
    decide +kernel
  obtain ⟨request, handled, sent⟩ :=
    @exists_forwarded hiddenReferer (by decide +kernel)
  obtain ⟨entry, present, -⟩ := claimed .bytewise ⟨true⟩ .asciiOnly .rejectAll
    (.ofIsMatch fun _ _ => false) (fun _ => true) defaultProxy []
    (oneHeaderRequest hiddenReferer) [] none (.v4 0x7F000001#32) request
    handled hiddenReferer copied sent
  have unseen :
      (buildContext .bytewise [] (oneHeaderRequest hiddenReferer) []
        (.v4 0x7F000001#32) defaultProxy.ipResolver).headers = [] := by
    decide +kernel
  rw [unseen] at present
  exact absurd present List.not_mem_nil

end LightWaf.Proxy
