import LightWaf.Normalizer.Graphql
import LightWaf.Normalizer.Normalize
import LightWaf.Pipeline.Run

/-!
# Structural modules

The modules that judge the shape of a request instead of matching rules:
framing (`request_smuggling`), encoding flags (`evasion`), and the caps on
GraphQL and gRPC bodies.  All but the first run even when the fast path skips
the content modules.
-/

namespace LightWaf.Detection

open LightWaf.Rust
open LightWaf.Core
open LightWaf.Normalizer

/-- A refusal with status 400. -/
def reject (ruleId reason : String) : Decision :=
  .reject ruleId reason 400 none

/-- `content_type`: the first content type, or the empty text. -/
def contentType (ctx : RequestContext) : Text :=
  (firstHeader ctx.normalized.headers "content-type".toList).getD []

/-! ## Request smuggling -/

/-- `is_valid_content_length`. -/
def isValidContentLength (value : Text) : Bool :=
  !value.isEmpty && value.all isAsciiDigit

/-- The values of the raw headers of a name. -/
def rawHeaderValues (ctx : RequestContext) (name : String) : List Text :=
  (ctx.headers.filter fun header => header.1 == name.toList).map Prod.snd

/-- `RequestSmugglingModule::inspect`. -/
def inspectFraming (enabled : Bool) (ctx : RequestContext) : Decision :=
  let lengths := rawHeaderValues ctx "content-length"
  let encodings := rawHeaderValues ctx "transfer-encoding"
  let reject := reject "request-smuggling"
  if !enabled then .allow
  else
    match lengths, encodings with
    | _ :: _, _ :: _ =>
        reject "content-length and transfer-encoding both present"
    | _ :: _ :: _, [] => reject "duplicate content-length headers"
    | [length], [] =>
        if isValidContentLength length then .allow
        else reject "malformed content-length value"
    | [], _ :: _ :: _ => reject "duplicate transfer-encoding headers"
    | [], [encoding] =>
        if eqIgnoreAsciiCase encoding "chunked".toList then .allow
        else reject "obfuscated or non-chunked transfer-encoding"
    | [], [] => .allow

/-- `RequestSmugglingModule`. -/
def requestSmugglingModule (config : Config) : WafModule where
  id := "request_smuggling"
  phase := .connection
  inspect := fun ctx =>
    some (inspectFraming config.modules.requestSmuggling.enabled ctx)

/-! ## Evasion -/

/-- `EvasionModule::inspect`. -/
def inspectEvasion (ctx : RequestContext) : Decision :=
  let items : List ScoreItem :=
    (if ctx.normalized.nullByteDetected then
      [⟨"evasion-null-byte", .critical⟩] else []) ++
    (if ctx.normalized.doubleEncodingDetected then
      [⟨"evasion-double-encoding", .warning⟩] else [])
  if items.isEmpty then .allow else .scores items

/-- `EvasionModule`. -/
def evasionModule (_config : Config) : WafModule where
  id := "evasion"
  phase := .body
  structural := true
  inspect := fun ctx => some (inspectEvasion ctx)

/-! ## GraphQL -/

/-- `is_graphql_query_key`: `query`, or `query` below an array index. -/
def isGraphqlQueryKey (key : Text) : Bool :=
  key == "query".toList ||
    (stripSuffix ".query".toList key).any fun lead =>
      !lead.isEmpty && lead.all isAsciiDigit

/-- `expand`: the operations inside the carriers. -/
def expandCarriers (serde : SerdeJson) (carriers : List Text) : List Text :=
  carriers.flatMap fun carrier =>
    (unwrapQueryEnvelope serde carrier).getD [carrier]

/-- `GraphqlModule::operations`. -/
def graphqlOperations (serde : SerdeJson) (config : GraphqlConfig)
    (ctx : RequestContext) : List Text :=
  if "application/graphql".toList.isPrefixOf
      (trimStart (contentType ctx)) then
    match ctx.normalized.body with
    | .raw bytes => expandCarriers serde (fromUtf8 bytes).toList
    | _ => []
  else if !config.paths.any (eqIgnoreAsciiCase ctx.normalized.path) then []
  else
    let fromBody :=
      match ctx.normalized.body with
      | .jsonFlattened pairs =>
          (pairs.filter fun pair => isGraphqlQueryKey pair.1).map Prod.snd
      | _ => []
    let fromQuery :=
      if eqIgnoreAsciiCase ctx.method "GET".toList then
        (ctx.normalized.queryParams.filter fun param =>
          param.1 == "query".toList).map Prod.snd
      else []
    expandCarriers serde (fromBody ++ fromQuery)

/-- The caps on one operation: the first one exceeded decides. -/
def checkOperation (config : GraphqlConfig) (operation : Text) :
    Option Decision :=
  let stats := graphqlLex operation
  let reject := reject "graphql"
  if config.maxDepth < stats.maxDepth.toNat then
    some (reject "graphql query nesting depth exceeds limit")
  else if config.maxAliases < stats.aliases.toNat then
    some (reject "graphql alias count exceeds limit")
  else if config.maxFields < stats.fields.toNat then
    some (reject "graphql field/complexity exceeds limit")
  else if config.maxDirectives < stats.directives.toNat then
    some (reject "graphql directive count exceeds limit")
  else if config.blockIntrospection && stats.hasIntrospection then
    some (.block "graphql-introspection"
      "graphql schema introspection is blocked")
  else none

/-- `GraphqlModule::inspect`. -/
def inspectGraphql (serde : SerdeJson) (config : GraphqlConfig)
    (ctx : RequestContext) : Decision :=
  let operations := graphqlOperations serde config ctx
  if !config.enabled || operations.isEmpty then .allow
  else if config.maxBatch < operations.length % 2 ^ 32 then
    reject "graphql" "graphql batch operation count exceeds limit"
  else (operations.findSome? (checkOperation config)).getD .allow

/-- `GraphqlModule`. -/
def graphqlModule (serde : SerdeJson) (config : Config) : WafModule where
  id := "graphql"
  phase := .body
  structural := true
  inspect := fun ctx =>
    some (inspectGraphql serde config.modules.graphql ctx)

/-! ## gRPC -/

/-- `header_compressed`: a `grpc-encoding` other than `identity`. -/
def headerCompressed (ctx : RequestContext) : Bool :=
  (firstHeader ctx.normalized.headers "grpc-encoding".toList).any fun value =>
    !eqIgnoreAsciiCase (trim value) "identity".toList

/-- The content type that `GrpcModule::inspect` looks for. -/
def declaresGrpc (ctx : RequestContext) : Bool :=
  "application/grpc".toList.isPrefixOf (trimStart (contentType ctx))

/-- `GrpcModule::inspect`. -/
def inspectGrpc (config : GrpcConfig) (ctx : RequestContext) : Decision :=
  let reject := reject "grpc"
  if !config.enabled then .allow
  else if !declaresGrpc ctx then .allow
  else
    match ctx.normalized.body with
    | .raw body =>
        let extract :=
          grpcExtract body ⟨config.maxDepth, config.maxFields, 0⟩
        if extract.malformed then reject "malformed gRPC framing"
        else if config.maxMessageBytes < extract.totalPayloadBytes then
          reject "gRPC message size exceeds limit"
        else if extract.compressed || headerCompressed ctx then
          match config.onCompressed with
          | .reject => reject "gRPC compressed payload is not inspectable"
          | .passthrough => .allow
        else if extract.depthExceeded then
          reject "gRPC message nesting depth exceeds limit"
        else if extract.fieldsExceeded then
          reject "gRPC field count exceeds limit"
        else .allow
    | _ => .allow

/-- `GrpcModule`. -/
def grpcModule (config : Config) : WafModule where
  id := "grpc"
  phase := .body
  structural := true
  inspect := fun ctx => some (inspectGrpc config.modules.grpc ctx)

end LightWaf.Detection
