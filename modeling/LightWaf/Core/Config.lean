import LightWaf.Core.Network

/-!
# Configuration and its validation

The sections of the configuration with their defaults, and the semantic
validation run before a configuration is used.  Weights, thresholds and scores
are the source's 32-bit words, since the anomaly score is summed in them.
-/

namespace LightWaf.Core

open LightWaf.Rust

/-- Severity classes of rules. -/
inductive Severity
  | critical
  | error
  | warning
  | notice
deriving DecidableEq, Repr

/-- What to do in one failure scenario. -/
inductive FailMode
  | failOpen
  | failClosed
deriving DecidableEq, Repr

/-- Whether a denial is enforced or only logged. -/
inductive WafMode
  | detectionOnly
  | blocking
deriving DecidableEq, Repr

/-- What the rate limiter does with a key over its budget. -/
inductive RateLimitAction
  | block
  | score
deriving DecidableEq, Repr

/-- What to do with a compressed gRPC payload. -/
inductive CompressedPolicy
  | reject
  | passthrough
deriving DecidableEq, Repr

/-- The points of each severity class. -/
structure SeverityScores where
  critical : UInt32 := 6
  error : UInt32 := 4
  warning : UInt32 := 3
  notice : UInt32 := 2
deriving DecidableEq

/-- `points_for`. -/
def SeverityScores.pointsFor (scores : SeverityScores) :
    Severity → UInt32
  | .critical => scores.critical
  | .error => scores.error
  | .warning => scores.warning
  | .notice => scores.notice

structure ProxyConfig where
  backend : Text := "http://localhost:8080".toList

structure WafConfig where
  mode : WafMode := .detectionOnly
  blockThreshold : UInt32 := 5
  paranoiaLevel : Nat := 1
  severityScores : SeverityScores := {}

structure LimitsConfig where
  maxBodySize : Nat := 1048576
  maxHeaderSize : Nat := 8192
  maxHeaders : Nat := 100
  maxParams : Nat := 100
  maxCookies : Nat := 50
  maxJsonDepth : Nat := 20

structure RateLimitConfig where
  enabled : Bool := false
  requests : Nat := 100
  windowSeconds : Nat := 60
  burst : Option Nat := none
  action : RateLimitAction := .block
  score : UInt32 := 5
  maxTrackedKeys : Nat := 100000

structure ResilienceConfig where
  onUpstreamError : FailMode := .failClosed
  onInternalError : FailMode := .failOpen
  onConfigError : FailMode := .failOpen
  onParserLimit : FailMode := .failClosed
  upstreamTimeoutMs : Nat := 30000

structure TlsConfig where
  enabled : Bool := false
  certPath : Text := []
  keyPath : Text := []
  alpn : List Text := ["h2".toList, "http/1.1".toList]

structure ModuleConfig where
  enabled : Bool := true

structure GraphqlConfig where
  enabled : Bool := false
  paths : List Text := ["/graphql".toList]
  maxDepth : Nat := 15
  maxAliases : Nat := 30
  maxFields : Nat := 1000
  maxDirectives : Nat := 50
  maxBatch : Nat := 10
  blockIntrospection : Bool := false

structure GrpcConfig where
  enabled : Bool := false
  maxMessageBytes : Nat := 4 * 1024 * 1024
  maxFields : Nat := 4096
  maxDepth : Nat := 16
  onCompressed : CompressedPolicy := .reject

structure CrsConfig where
  enabled : Bool := false
  files : List Text := []

structure WasmPluginConfig where
  path : Text
  config : Option Text := none

structure WasmConfig where
  enabled : Bool := false
  plugins : List WasmPluginConfig := []

structure ModulesConfig where
  sqli : ModuleConfig := {}
  xss : ModuleConfig := {}
  pathTraversal : ModuleConfig := {}
  rce : ModuleConfig := {}
  lfiRfi : ModuleConfig := {}
  ssrf : ModuleConfig := {}
  ldap : ModuleConfig := {}
  nosql : ModuleConfig := {}
  mail : ModuleConfig := {}
  ssti : ModuleConfig := {}
  scanner : ModuleConfig := {}
  ssi : ModuleConfig := {}
  xxe : ModuleConfig := {}
  headerInjection : ModuleConfig := {}
  evasion : ModuleConfig := {}
  requestSmuggling : ModuleConfig := {}
  graphql : GraphqlConfig := {}
  grpc : GrpcConfig := {}
  crs : CrsConfig := {}
  wasm : WasmConfig := {}

/-- The whole configuration. -/
structure Config where
  proxy : ProxyConfig := {}
  waf : WafConfig := {}
  limits : LimitsConfig := {}
  modules : ModulesConfig := {}
  rateLimit : RateLimitConfig := {}
  network : NetworkConfig := {}
  resilience : ResilienceConfig := {}
  tls : TlsConfig := {}

/-! ## Validation -/

/-- A semantic configuration error. -/
inductive ConfigError
  | invalidBackend (backend : Text)
  | blockThresholdZero
  | paranoiaOutOfRange (level : Nat)
  | severityWeightZero (name : String)
  | limitZero (name : String)
  | rateLimitValueZero (name : String)
  | trustedHopsOutOfRange (hops : Nat)
  | invalidCidr (entry : Text)
  | emptyClientIpHeader
  | resilienceTimeoutZero
  | graphqlCapZero (name : String)
  | grpcCapZero (name : String)
  | tlsPathEmpty (name : String)
  | tlsAlpnInvalid
  | crsNoFiles
  | wasmNoPlugins
  | wasmPluginPathEmpty
deriving DecidableEq

/-- The highest paranoia level. -/
def maxParanoiaLevel : Nat := 4

/-- The upper bound on `trusted_hops`. -/
def maxTrustedHops : Nat := 10

/-- Fail with `error` when the condition holds. -/
def rejectIf (condition : Bool) (error : ConfigError) :
    Except ConfigError Unit :=
  if condition then .error error else .ok ()

/-- Fail at the first of the named values that is zero. -/
def rejectZeros (error : String → ConfigError)
    (values : List (String × Nat)) : Except ConfigError Unit :=
  values.forM fun (name, value) => rejectIf (value == 0) (error name)

namespace Config

variable (config : Config)

/-- `proxy.backend`: an absolute http(s) URL with a non-empty authority. -/
def validateBackend : Except ConfigError Unit :=
  let backend := trim config.proxy.backend
  let authority :=
    (stripPrefix "http://".toList backend).or
      (stripPrefix "https://".toList backend)
  match authority with
  | some ('/' :: _) => .error (.invalidBackend config.proxy.backend)
  | some (_ :: _) => .ok ()
  | _ => .error (.invalidBackend config.proxy.backend)

/-- The scoring section. -/
def validateScoring : Except ConfigError Unit := do
  rejectIf (config.waf.blockThreshold == 0) .blockThresholdZero
  rejectIf
    (!(decide (1 ≤ config.waf.paranoiaLevel) &&
      decide (config.waf.paranoiaLevel ≤ maxParanoiaLevel)))
    (.paranoiaOutOfRange config.waf.paranoiaLevel)
  rejectZeros .severityWeightZero
    [("critical", config.waf.severityScores.critical.toNat),
      ("error", config.waf.severityScores.error.toNat),
      ("warning", config.waf.severityScores.warning.toNat),
      ("notice", config.waf.severityScores.notice.toNat)]

/-- The defensive limits. -/
def validateLimits : Except ConfigError Unit :=
  rejectZeros .limitZero
    [("max_body_size", config.limits.maxBodySize),
      ("max_header_size", config.limits.maxHeaderSize),
      ("max_headers", config.limits.maxHeaders),
      ("max_params", config.limits.maxParams),
      ("max_cookies", config.limits.maxCookies),
      ("max_json_depth", config.limits.maxJsonDepth)]

/-- Rate limiting, when enabled. -/
def validateRateLimit : Except ConfigError Unit :=
  if config.rateLimit.enabled then do
    rejectIf (config.rateLimit.requests == 0) (.rateLimitValueZero "requests")
    rejectIf (config.rateLimit.windowSeconds == 0)
      (.rateLimitValueZero "window_seconds")
    rejectIf (config.rateLimit.burst == some 0) (.rateLimitValueZero "burst")
    rejectIf (config.rateLimit.maxTrackedKeys == 0)
      (.rateLimitValueZero "max_tracked_keys")
    rejectIf
      (config.rateLimit.action == .score && config.rateLimit.score == 0)
      (.rateLimitValueZero "score")
  else .ok ()

/-- Client-address resolution. -/
def validateNetwork : Except ConfigError Unit := do
  rejectIf
    (!(decide (1 ≤ config.network.trustedHops) &&
      decide (config.network.trustedHops ≤ maxTrustedHops)))
    (.trustedHopsOutOfRange config.network.trustedHops)
  config.network.trustedProxies.forM fun entry =>
    rejectIf (!isValidCidr entry) (.invalidCidr entry)
  rejectIf (trim config.network.clientIpHeader).isEmpty .emptyClientIpHeader

/-- TLS, when enabled. -/
def validateTls : Except ConfigError Unit :=
  if config.tls.enabled then do
    rejectIf (trim config.tls.certPath).isEmpty (.tlsPathEmpty "cert_path")
    rejectIf (trim config.tls.keyPath).isEmpty (.tlsPathEmpty "key_path")
    rejectIf
      (config.tls.alpn.isEmpty ||
        config.tls.alpn.any fun protocol => (trim protocol).isEmpty)
      .tlsAlpnInvalid
  else .ok ()

/-- The GraphQL caps, when the module is enabled. -/
def validateGraphql : Except ConfigError Unit :=
  if config.modules.graphql.enabled then
    rejectZeros .graphqlCapZero
      [("max_depth", config.modules.graphql.maxDepth),
        ("max_aliases", config.modules.graphql.maxAliases),
        ("max_fields", config.modules.graphql.maxFields),
        ("max_directives", config.modules.graphql.maxDirectives),
        ("max_batch", config.modules.graphql.maxBatch)]
  else .ok ()

/-- The gRPC caps, when the module is enabled. -/
def validateGrpc : Except ConfigError Unit :=
  if config.modules.grpc.enabled then
    rejectZeros .grpcCapZero
      [("max_message_bytes", config.modules.grpc.maxMessageBytes),
        ("max_fields", config.modules.grpc.maxFields),
        ("max_depth", config.modules.grpc.maxDepth)]
  else .ok ()

/-- Imported rules and plugins, when enabled. -/
def validateExtensions : Except ConfigError Unit := do
  rejectIf
    (config.modules.crs.enabled && config.modules.crs.files.isEmpty)
    .crsNoFiles
  if config.modules.wasm.enabled then
    rejectIf config.modules.wasm.plugins.isEmpty .wasmNoPlugins
    rejectIf
      (config.modules.wasm.plugins.any fun plugin =>
        (trim plugin.path).isEmpty)
      .wasmPluginPathEmpty

/-- `Config::validate`: the first error in the order of the checks. -/
def validate : Except ConfigError Unit := do
  config.validateBackend
  config.validateScoring
  config.validateLimits
  config.validateRateLimit
  config.validateNetwork
  rejectIf (config.resilience.upstreamTimeoutMs == 0) .resilienceTimeoutZero
  config.validateTls
  config.validateGraphql
  config.validateGrpc
  config.validateExtensions

example : ({} : Config).validate = .ok () := by
  rfl

theorem condition_of_rejectIf_ok
    {condition : Bool} {error : ConfigError}
    (accepted : rejectIf condition error = .ok ()) :
    condition = false := by
  cases condition with
  | false => rfl
  | true => cases accepted

/-- An accepted configuration has a positive threshold. -/
theorem blockThreshold_ne_zero
    (accepted : config.validate = .ok ()) :
    config.waf.blockThreshold ≠ 0 := by
  obtain ⟨_, -, afterBackend⟩ := ok_of_bind_ok accepted
  obtain ⟨_, scoring, -⟩ := ok_of_bind_ok afterBackend
  obtain ⟨_, threshold, -⟩ := ok_of_bind_ok scoring
  simpa using condition_of_rejectIf_ok threshold

end Config

end LightWaf.Core
