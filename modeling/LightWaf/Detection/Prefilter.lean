import LightWaf.Detection.Content
import LightWaf.Detection.Structural
import LightWaf.Pipeline.Gate

/-!
# The content prefilter

The fast path: `ContentPrefilter` scans the canonical surface once with the
union of all active patterns, and when nothing matches the proxy runs the
structural modules only.  The result of this module is that such a skip is
never wrong: the modules left out would have allowed the request.
-/

namespace LightWaf.Detection

open LightWaf.Rust
open LightWaf.Core
open LightWaf.Normalizer

/-! ## The prefilter -/

/-- The rule tables of the prefilter, in its order. -/
def contentTables : List (List Rule) :=
  [sqliRules, xssRules, pathTraversalRules, rceRules, lfiRfiRules, ssrfRules,
    ldapRules, nosqlRules, mailRules, sstiRules, scannerRules, ssiRules,
    xxeRules]

/-- One row of `rule_meta`. -/
structure RuleMeta where
  id : String
  pattern : String
  paranoia : Nat
  hostOnly : Bool

/-- `rule_meta`: what the prefilter reads of the header-injection rules. -/
def ruleMeta : List RuleMeta :=
  headerInjectionRules.map fun rule =>
    ⟨rule.id, rule.pattern, rule.paranoia, rule.scope == .hostHeaders⟩

/-- `content_rules_split`: the ids and patterns of the two buckets. -/
def contentRulesSplit (paranoia : Nat) :
    List (String × String) × List (String × String) :=
  let tables := contentTables.flatMap fun table =>
    (activeRules table paranoia).map fun rule => (rule.id, rule.pattern)
  let active := ruleMeta.filter fun row => row.paranoia ≤ paranoia
  (tables ++ (active.filter fun row => !row.hostOnly).map
      fun row => (row.id, row.pattern),
    (active.filter fun row => row.hostOnly).map
      fun row => (row.id, row.pattern))

/-- `ContentPrefilter`: the patterns of the two unions, with their ids. -/
structure ContentPrefilter where
  main : List String
  host : List String
  mainIds : List String
  hostIds : List String

/-- `ContentPrefilter::new`. -/
def ContentPrefilter.new (paranoia : Nat) : ContentPrefilter where
  main := (contentRulesSplit paranoia).1.map Prod.snd
  host := (contentRulesSplit paranoia).2.map Prod.snd
  mainIds := (contentRulesSplit paranoia).1.map Prod.fst
  hostIds := (contentRulesSplit paranoia).2.map Prod.fst

section Candidate

variable (unicode : UnicodeTables) (engine : RegexEngine)
variable (prefilter : ContentPrefilter)

/-- `main_hit`: the main union on a value or on its collapsed form. -/
def ContentPrefilter.mainHit (value : Text) : Bool :=
  engine.setIsMatch prefilter.main value ||
    (collapseSqlBlockComments value).any (engine.setIsMatch prefilter.main)

/-- The key scans of the prefilter. -/
def keyHit (key : Text) : Bool :=
  engine.isMatch nosqlOperatorKeyPattern key ||
    engine.isMatch protoPollutionKeyPattern key

/-- `is_candidate`. -/
def ContentPrefilter.isCandidate (ctx : RequestContext) : Bool :=
  prefilter.mainHit engine ctx.normalized.path ||
    (ctx.normalized.queryParams ++ ctx.normalized.cookies ++
      ctx.normalized.headers).any
        (fun pair => prefilter.mainHit engine pair.2) ||
    (bodyStrValues unicode ctx.normalized.body).any
      (prefilter.mainHit engine) ||
    (ctx.normalized.queryParams.any (fun pair => keyHit engine pair.1) ||
      (bodyKeyStrings ctx.normalized.body).any (keyHit engine)) ||
    ctx.normalized.derivedDecoded.any (prefilter.mainHit engine) ||
    (hostHeaderValues ctx).any (engine.setIsMatch prefilter.host)

end Candidate

/-! ## The modules of the proxy -/

/--
What the proxy loads besides the modules above: the rate limiter at one
moment, the imported rules of the configured files and the plugins.
-/
structure Externals where
  rateLimit : Config → RequestContext → Option Decision
  crs : List Text → RequestContext → Option Decision
  wasm : WasmPluginConfig →
    Option (String × (RequestContext → Option Decision))

section Build

variable (unicode : UnicodeTables) (serde : SerdeJson)
variable (engine : RegexEngine) (externals : Externals)

/-- `RateLimitModule`. -/
def rateLimitModule (config : Config) : WafModule where
  id := "rate_limit"
  phase := .connection
  inspect := externals.rateLimit config

/-- `CrsModule`. -/
def crsModule (files : List Text) (_config : Config) : WafModule where
  id := "crs"
  phase := .body
  structural := true
  inspect := externals.crs files

/-- `WasmModule`. -/
def wasmModule (plugin : String × (RequestContext → Option Decision))
    (_config : Config) : WafModule where
  id := plugin.1
  phase := .body
  structural := true
  inspect := plugin.2

/-- The modules of the proxy in order, each with its switch. -/
def moduleTable (config : Config) : List (Bool × (Config → WafModule)) :=
  [(true, noopLogger),
    (config.modules.requestSmuggling.enabled, requestSmugglingModule),
    (config.rateLimit.enabled, rateLimitModule externals),
    (config.modules.sqli.enabled, sqliModule unicode engine),
    (config.modules.xss.enabled, xssModule unicode engine),
    (config.modules.pathTraversal.enabled,
      pathTraversalModule unicode engine),
    (config.modules.rce.enabled, rceModule unicode engine),
    (config.modules.lfiRfi.enabled, lfiRfiModule unicode engine),
    (config.modules.ssrf.enabled, ssrfModule unicode engine),
    (config.modules.ldap.enabled, ldapModule unicode engine),
    (config.modules.nosql.enabled, nosqlModule unicode engine),
    (config.modules.mail.enabled, mailModule unicode engine),
    (config.modules.ssti.enabled, sstiModule unicode engine),
    (config.modules.scanner.enabled, scannerModule engine),
    (config.modules.ssi.enabled, ssiModule unicode engine),
    (config.modules.xxe.enabled, xxeModule unicode engine),
    (config.modules.headerInjection.enabled,
      headerInjectionModule unicode engine),
    (config.modules.evasion.enabled, evasionModule),
    (config.modules.graphql.enabled, graphqlModule serde),
    (config.modules.grpc.enabled, grpcModule),
    (config.modules.crs.enabled,
      crsModule externals config.modules.crs.files)]

/-- The plugins of the proxy. -/
def wasmModules (config : Config) : List (Config → WafModule) :=
  if config.modules.wasm.enabled then
    (config.modules.wasm.plugins.filterMap externals.wasm).map wasmModule
  else []

/-- `build_modules`: the enabled modules in order, then the plugins. -/
def buildModules (config : Config) : List (Config → WafModule) :=
  ((moduleTable unicode serde engine externals config).filter
    Prod.fst).map Prod.snd ++ wasmModules externals config

/-- The pipeline of the proxy. -/
def builtinPipeline (config : Config) : Pipeline :=
  Pipeline.new config (buildModules unicode serde engine externals config)

end Build

/-! ## What a clean scan proves -/

section Clean

variable (unicode : UnicodeTables) (engine : RegexEngine)

/-- The strings scanned with the main union. -/
def scannedValues (ctx : RequestContext) : List Text :=
  ctx.normalized.path :: parameterValues ctx ++
    ctx.normalized.headers.map Prod.snd ++
    bodyStrValues unicode ctx.normalized.body ++
    ctx.normalized.derivedDecoded

/-- No active pattern matches anything in its bucket. -/
structure Clean (paranoia : Nat) (ctx : RequestContext) : Prop where
  main : ∀ pattern ∈ (ContentPrefilter.new paranoia).main,
    ∀ value ∈ scannedValues unicode ctx, engine.isMatch pattern value = false
  collapsed : ∀ pattern ∈ (ContentPrefilter.new paranoia).main,
    ∀ value ∈ (scannedValues unicode ctx).filterMap collapseSqlBlockComments,
      engine.isMatch pattern value = false
  keys : ∀ key ∈ keyStrings ctx, keyHit engine key = false
  host : ∀ pattern ∈ (ContentPrefilter.new paranoia).host,
    ∀ value ∈ hostHeaderValues ctx, engine.isMatch pattern value = false

theorem isMatch_of_setIsMatch
    {patterns : List String} {value : Text}
    (quiet : engine.setIsMatch patterns value = false) :
    ∀ pattern ∈ patterns, engine.isMatch pattern value = false := by
  intro pattern member
  rw [Bool.eq_false_iff] at quiet ⊢
  intro matched
  exact quiet ((engine.setIsMatch_iff patterns value).mpr
    ⟨pattern, member, matched⟩)

/-- The scan looks at every string of the surface. -/
theorem mainHit_of_isCandidate
    {prefilter : ContentPrefilter} {ctx : RequestContext}
    (skipped : prefilter.isCandidate unicode engine ctx = false) :
    ∀ value ∈ scannedValues unicode ctx,
      prefilter.mainHit engine value = false := by
  simp only [ContentPrefilter.isCandidate, Bool.or_eq_false_iff,
    List.any_eq_false, Bool.not_eq_true, List.mem_append] at skipped
  obtain ⟨⟨⟨⟨⟨path, pairs⟩, body⟩, -⟩, derived⟩, -⟩ := skipped
  intro value member
  simp only [scannedValues, parameterValues, List.mem_append, List.mem_cons,
    List.mem_map] at member
  rcases member with (((rfl | query | cookie) | header) | text) | decoded
  · exact path
  · obtain ⟨pair, pairMember, rfl⟩ := query
    exact pairs pair (Or.inl (Or.inl pairMember))
  · obtain ⟨pair, pairMember, rfl⟩ := cookie
    exact pairs pair (Or.inl (Or.inr pairMember))
  · obtain ⟨pair, pairMember, rfl⟩ := header
    exact pairs pair (Or.inr pairMember)
  · exact body value text
  · exact derived value decoded

/-- A request that is not a candidate is clean. -/
theorem clean_of_isCandidate
    {paranoia : Nat} {ctx : RequestContext}
    (skipped : (ContentPrefilter.new paranoia).isCandidate unicode engine
      ctx = false) :
    Clean unicode engine paranoia ctx := by
  have hits := mainHit_of_isCandidate unicode engine skipped
  simp only [ContentPrefilter.isCandidate, Bool.or_eq_false_iff,
    List.any_eq_false, Bool.not_eq_true] at skipped
  obtain ⟨⟨⟨-, queryKeys, bodyKeys⟩, -⟩, host⟩ := skipped
  refine ⟨?_, ?_, ?_, ?_⟩
  · intro pattern member value scanned
    have hit := hits value scanned
    rw [ContentPrefilter.mainHit, Bool.or_eq_false_iff] at hit
    exact isMatch_of_setIsMatch engine hit.1 pattern member
  · intro pattern member value scanned
    obtain ⟨original, originalScanned, collapsed⟩ :=
      List.mem_filterMap.mp scanned
    have hit := hits original originalScanned
    rw [ContentPrefilter.mainHit, Bool.or_eq_false_iff, collapsed,
      Option.any_some] at hit
    exact isMatch_of_setIsMatch engine hit.2 pattern member
  · intro key member
    rcases List.mem_append.mp member with query | body
    · obtain ⟨pair, pairMember, rfl⟩ := List.mem_map.mp query
      exact queryKeys pair pairMember
    · exact bodyKeys key body
  · intro pattern member value scanned
    exact isMatch_of_setIsMatch engine (host value scanned) pattern member

/-! ## The content modules of a clean request -/

theorem ofItems_nil : ofItems [] = .allow := rfl

/-- Nothing is reported when no active rule matches the surface. -/
theorem matchedItems_eq_nil
    {active : List Rule} {values : List Text}
    (quiet : ∀ rule ∈ active, ∀ value ∈ values,
      engine.isMatch rule.pattern value = false) :
    matchedItems engine active values = [] := by
  rw [matchedItems_eq, List.map_eq_nil_iff, List.filter_eq_nil_iff]
  intro rule member
  simp only [List.any_eq_true, not_exists, not_and, Bool.not_eq_true]
  exact quiet rule member

/-- The patterns of the active rules of a table are in the main union. -/
theorem pattern_mem_main
    {table : List Rule} (shipped : table ∈ contentTables)
    {paranoia : Nat} {rule : Rule} (active : rule ∈ activeRules table paranoia) :
    rule.pattern ∈ (ContentPrefilter.new paranoia).main := by
  refine List.mem_map.mpr ⟨(rule.id, rule.pattern), ?_, rfl⟩
  refine List.mem_append_left _ (List.mem_flatMap.mpr ⟨table, shipped, ?_⟩)
  exact List.mem_map.mpr ⟨rule, active, rfl⟩

variable {unicode engine}
variable {paranoia : Nat} {ctx : RequestContext}

/-- A table reports nothing on scanned strings or their collapsed copies. -/
theorem Clean.matchedItems_eq_nil
    (clean : Clean unicode engine paranoia ctx)
    {table : List Rule} (shipped : table ∈ contentTables)
    {values : List Text}
    (covered : ∀ value ∈ values, value ∈ scannedValues unicode ctx ∨
      value ∈ (scannedValues unicode ctx).filterMap
        collapseSqlBlockComments) :
    matchedItems engine (activeRules table paranoia) values = [] := by
  refine Detection.matchedItems_eq_nil engine ?_
  intro rule active value member
  have pattern := pattern_mem_main shipped active
  rcases covered value member with scanned | collapsed
  · exact clean.main _ pattern value scanned
  · exact clean.collapsed _ pattern value collapsed

theorem inspectable_scanned
    {value : Text} (member : value ∈ inspectableHeaderValues ctx) :
    value ∈ ctx.normalized.headers.map Prod.snd := by
  obtain ⟨header, headerMember, rfl⟩ := List.mem_map.mp member
  exact List.mem_map_of_mem (List.mem_of_mem_filter headerMember)

theorem valueSurface_scanned
    {value : Text} (member : value ∈ valueSurface unicode ctx) :
    value ∈ scannedValues unicode ctx := by
  simp only [valueSurface, scannedValues, List.mem_append, List.mem_cons]
    at member ⊢
  tauto

theorem contentSurface_scanned
    {value : Text} (member : value ∈ contentSurface unicode ctx) :
    value ∈ scannedValues unicode ctx := by
  rcases List.mem_append.mp member with early | header
  · rcases List.mem_cons.mp early with rfl | inner
    · simp [scannedValues]
    · exact valueSurface_scanned inner
  · have all := inspectable_scanned header
    simp only [scannedValues, List.mem_append]
    exact Or.inl (Or.inl (Or.inr all))

theorem sqliSurface_scanned
    {value : Text} (member : value ∈ sqliSurface unicode ctx) :
    value ∈ scannedValues unicode ctx ∨
      value ∈ (scannedValues unicode ctx).filterMap
        collapseSqlBlockComments := by
  rcases List.mem_append.mp member with original | collapsed
  · exact Or.inl (contentSurface_scanned original)
  · obtain ⟨original, originalMember, same⟩ :=
      List.mem_filterMap.mp collapsed
    exact Or.inr (List.mem_filterMap.mpr
      ⟨original, contentSurface_scanned originalMember, same⟩)

theorem userAgent_scanned
    {value : Text} (member : value ∈ userAgentValues ctx) :
    value ∈ scannedValues unicode ctx := by
  obtain ⟨header, headerMember, rfl⟩ := List.mem_map.mp member
  have all : header.2 ∈ ctx.normalized.headers.map Prod.snd :=
    List.mem_map_of_mem (List.mem_of_mem_filter headerMember)
  simp only [scannedValues, List.mem_append]
  exact Or.inl (Or.inl (Or.inr all))

/-- A module of the common scheme allows a clean request. -/
theorem Clean.contentModule_allow
    {config : Config}
    (clean : Clean unicode engine config.waf.paranoiaLevel ctx)
    {id : String} {phase : Phase} {table : List Rule}
    (shipped : table ∈ contentTables)
    {surface : RequestContext → List Text}
    (covered : ∀ value ∈ surface ctx, value ∈ scannedValues unicode ctx ∨
      value ∈ (scannedValues unicode ctx).filterMap
        collapseSqlBlockComments) :
    (contentModule engine id phase table surface config).inspect ctx =
      some .allow := by
  simp only [contentModule]
  rw [clean.matchedItems_eq_nil shipped covered, ofItems_nil]

theorem pushUnlessPresent_false
    (items : List ScoreItem) (item : ScoreItem) :
    pushUnlessPresent items false item = items := by
  simp [pushUnlessPresent]

theorem pattern_of_shellshock :
    ∀ rule ∈ rceRules, rule.id = "rce-shellshock" →
      rule.pattern = shellshockPattern := by
  decide +kernel

theorem firstHeader_userAgent
    {value : Text}
    (first : firstHeader ctx.normalized.headers "user-agent".toList =
      some value) :
    value ∈ userAgentValues ctx := by
  obtain ⟨header, found, rfl⟩ := Option.map_eq_some_iff.mp first
  have named := List.find?_some found
  exact List.mem_map_of_mem (List.mem_filter.mpr
    ⟨List.mem_of_find?_eq_some found, named⟩)

/-- The user-agent test repeats a pattern of the table. -/
theorem Clean.shellshockUserAgent_eq_false
    (clean : Clean unicode engine paranoia ctx) :
    shellshockUserAgent engine (activeRules rceRules paranoia) ctx =
      false := by
  rw [Bool.eq_false_iff]
  intro hit
  simp only [shellshockUserAgent, Bool.and_eq_true, List.any_eq_true,
    beq_iff_eq] at hit
  obtain ⟨⟨rule, active, named⟩, matched⟩ := hit
  have pattern := pattern_mem_main
    (show rceRules ∈ contentTables by simp [contentTables]) active
  rw [pattern_of_shellshock rule (List.mem_of_mem_filter active) named]
    at pattern
  obtain ⟨value, first, hit⟩ := (Option.any_eq_true _ _).mp matched
  have quiet := clean.main _ pattern value
    (userAgent_scanned (firstHeader_userAgent first))
  rw [quiet] at hit
  cases hit

theorem Clean.rceItems_eq_nil
    (clean : Clean unicode engine paranoia ctx) :
    rceItems unicode engine paranoia ctx = [] := by
  rw [rceItems, clean.shellshockUserAgent_eq_false, pushUnlessPresent_false]
  exact clean.matchedItems_eq_nil (by simp [contentTables])
    fun value member => Or.inl (contentSurface_scanned member)

theorem Clean.nosqlItems_eq_nil
    (clean : Clean unicode engine paranoia ctx) :
    nosqlItems unicode engine paranoia ctx = [] := by
  have keys := clean.keys
  simp only [keyHit, Bool.or_eq_false_iff] at keys
  have operator : (keyStrings ctx).any
      (engine.isMatch nosqlOperatorKeyPattern) = false :=
    List.any_eq_false.mpr fun key member => by
      simp [(keys key member).1]
  have pollution : (keyStrings ctx).any
      (engine.isMatch protoPollutionKeyPattern) = false :=
    List.any_eq_false.mpr fun key member => by
      simp [(keys key member).2]
  rw [nosqlItems, operator, pollution]
  simp only [pushUnlessPresent_false]
  exact clean.matchedItems_eq_nil (by simp [contentTables])
    fun value member => Or.inl (contentSurface_scanned member)

/-- Where the pattern of an active header rule is scanned. -/
theorem hdrPattern_mem
    {rule : HdrRule} (active : rule ∈ activeHdrRules paranoia) :
    if rule.scope = .hostHeaders then
      rule.pattern ∈ (ContentPrefilter.new paranoia).host
    else rule.pattern ∈ (ContentPrefilter.new paranoia).main := by
  have row : (⟨rule.id, rule.pattern, rule.paranoia,
      rule.scope == .hostHeaders⟩ : RuleMeta) ∈
      ruleMeta.filter fun row => row.paranoia ≤ paranoia := by
    simp only [activeHdrRules, List.mem_filter] at active
    simp only [List.mem_filter, ruleMeta, List.mem_map]
    exact ⟨⟨rule, active.1, rfl⟩, active.2⟩
  split_ifs with host
  · refine List.mem_map.mpr ⟨(rule.id, rule.pattern), ?_, rfl⟩
    exact List.mem_map.mpr
      ⟨_, List.mem_filter.mpr ⟨row, by simp [host]⟩, rfl⟩
  · refine List.mem_map.mpr ⟨(rule.id, rule.pattern), ?_, rfl⟩
    refine List.mem_append_right _ (List.mem_map.mpr
      ⟨_, List.mem_filter.mpr ⟨row, by simp [host]⟩, rfl⟩)

theorem scopeValues_scanned
    {scope : Scope} (elsewhere : scope ≠ .hostHeaders) {value : Text}
    (member : value ∈ scopeValues unicode ctx scope) :
    value ∈ scannedValues unicode ctx := by
  cases scope with
  | hostHeaders => exact absurd rfl elsewhere
  | all =>
      simp only [scopeValues, scannedValues, List.mem_append] at member ⊢
      exact Or.inl member
  | nonBody =>
      simp only [scopeValues, scannedValues, List.mem_append] at member ⊢
      exact Or.inl (Or.inl member)
  | body =>
      simp only [scopeValues, scannedValues, List.mem_append] at member ⊢
      exact Or.inl (Or.inr member)

theorem Clean.headerInjectionItems_eq_nil
    (clean : Clean unicode engine paranoia ctx) :
    headerInjectionItems unicode engine paranoia ctx = [] := by
  rw [headerInjectionItems, List.map_eq_nil_iff, List.filter_eq_nil_iff]
  intro rule active
  simp only [List.any_eq_true, not_exists, not_and, Bool.not_eq_true]
  intro value member
  have pattern := hdrPattern_mem active
  split_ifs at pattern with host
  · rw [host] at member
    exact clean.host _ pattern value member
  · exact clean.main _ pattern value (scopeValues_scanned host member)

/-- Every content module allows a clean request. -/
theorem Clean.contentModules_allow
    {config : Config}
    (clean : Clean unicode engine config.waf.paranoiaLevel ctx) :
    ∀ module ∈ contentModules unicode engine,
      (module config).inspect ctx = some .allow := by
  have onContent : ∀ value ∈ contentSurface unicode ctx,
      value ∈ scannedValues unicode ctx ∨
        value ∈ (scannedValues unicode ctx).filterMap
          collapseSqlBlockComments :=
    fun value member => Or.inl (contentSurface_scanned member)
  have onValues : ∀ value ∈ valueSurface unicode ctx,
      value ∈ scannedValues unicode ctx ∨
        value ∈ (scannedValues unicode ctx).filterMap
          collapseSqlBlockComments :=
    fun value member => Or.inl (valueSurface_scanned member)
  simp only [contentModules, List.forall_mem_cons, List.not_mem_nil,
    false_imp_iff, implies_true, and_true]
  refine ⟨rfl, ?sqli, ?xss, ?pathTraversal, ?rce, ?lfiRfi, ?ssrf, ?ldap,
    ?nosql, ?mail, ?ssti, ?scanner, ?ssi, ?xxe, ?headerInjection⟩
  case sqli =>
    exact clean.contentModule_allow (by simp [contentTables])
      fun value member => sqliSurface_scanned member
  case xss => exact clean.contentModule_allow (by simp [contentTables]) onContent
  case pathTraversal =>
    exact clean.contentModule_allow (by simp [contentTables]) onContent
  case rce => simp only [rceModule, clean.rceItems_eq_nil, ofItems_nil]
  case lfiRfi =>
    exact clean.contentModule_allow (by simp [contentTables]) onValues
  case ssrf => exact clean.contentModule_allow (by simp [contentTables]) onValues
  case ldap => exact clean.contentModule_allow (by simp [contentTables]) onContent
  case nosql => simp only [nosqlModule, clean.nosqlItems_eq_nil, ofItems_nil]
  case mail => exact clean.contentModule_allow (by simp [contentTables]) onContent
  case ssti => exact clean.contentModule_allow (by simp [contentTables]) onContent
  case scanner =>
    exact clean.contentModule_allow (by simp [contentTables])
      fun value member => Or.inl (userAgent_scanned member)
  case ssi => exact clean.contentModule_allow (by simp [contentTables]) onContent
  case xxe => exact clean.contentModule_allow (by simp [contentTables]) onContent
  case headerInjection =>
    simp only [headerInjectionModule, clean.headerInjectionItems_eq_nil,
      ofItems_nil]

/-- A content module is silent on a clean request. -/
theorem Clean.silent
    {config : Config}
    (clean : Clean unicode engine config.waf.paranoiaLevel ctx)
    {module : Config → WafModule}
    (member : module ∈ contentModules unicode engine) :
    Silent ctx (module config) := by
  intro score contributions
  have same : Clean unicode engine config.waf.paranoiaLevel
      { ctx with score := score, scoreContributions := contributions } :=
    ⟨clean.main, clean.collapsed, clean.keys, clean.host⟩
  exact same.contentModules_allow module member

end Clean

/-! ## Soundness of the fast path -/

section FastPath

variable (unicode : UnicodeTables) (serde : SerdeJson)
variable (engine : RegexEngine) (externals : Externals) (build : Build)

/-- The structural modules of the inspection phases. -/
def structuralModules (config : Config) : List (Config → WafModule) :=
  [evasionModule, graphqlModule serde, grpcModule,
    crsModule externals config.modules.crs.files] ++
    wasmModules externals config

theorem structural_of_mem
    {config : Config} {module : Config → WafModule}
    (member : module ∈ structuralModules serde externals config) :
    (module config).structural = true := by
  rcases List.mem_append.mp member with listed | plugins
  · have all : ∀ other ∈ [evasionModule, graphqlModule serde, grpcModule,
        crsModule externals config.modules.crs.files],
        (other config).structural = true := by
      simp only [List.forall_mem_cons, List.not_mem_nil, false_imp_iff,
        implies_true, and_true]
      exact ⟨rfl, rfl, rfl, rfl⟩
    exact all module listed
  · rw [wasmModules] at plugins
    split_ifs at plugins with enabled
    · obtain ⟨plugin, -, rfl⟩ := List.mem_map.mp plugins
      rfl
    · cases plugins

/-- The table has modules of three kinds. -/
theorem moduleTable_cases (config : Config) :
    ∀ entry ∈ moduleTable unicode serde engine externals config,
      (∀ other, (entry.2 other).phase = .connection) ∨
        entry.2 ∈ contentModules unicode engine ∨
          entry.2 ∈ structuralModules serde externals config := by
  have content : ∀ index (bound : index < 15),
      (contentModules unicode engine).get ⟨index, bound⟩ ∈
        contentModules unicode engine :=
    fun index bound => List.get_mem _ _
  have structural : ∀ module ∈ [evasionModule, graphqlModule serde,
      grpcModule, crsModule externals config.modules.crs.files],
      module ∈ structuralModules serde externals config :=
    fun module member => List.mem_append_left _ member
  simp only [List.forall_mem_cons, List.not_mem_nil, false_imp_iff,
    implies_true, and_true] at structural
  obtain ⟨evasion, graphql, grpc, crs⟩ := structural
  simp only [moduleTable, List.forall_mem_cons, List.not_mem_nil,
    false_imp_iff, implies_true, and_true]
  exact ⟨.inr (.inl (content 0 (by decide))),
    .inl fun _ => rfl, .inl fun _ => rfl,
    .inr (.inl (content 1 (by decide))), .inr (.inl (content 2 (by decide))),
    .inr (.inl (content 3 (by decide))), .inr (.inl (content 4 (by decide))),
    .inr (.inl (content 5 (by decide))), .inr (.inl (content 6 (by decide))),
    .inr (.inl (content 7 (by decide))), .inr (.inl (content 8 (by decide))),
    .inr (.inl (content 9 (by decide))),
    .inr (.inl (content 10 (by decide))),
    .inr (.inl (content 11 (by decide))),
    .inr (.inl (content 12 (by decide))),
    .inr (.inl (content 13 (by decide))),
    .inr (.inl (content 14 (by decide))),
    .inr (.inr evasion), .inr (.inr graphql), .inr (.inr grpc),
    .inr (.inr crs)⟩

/-- So has the list of built modules. -/
theorem buildModules_cases
    {config : Config} {module : Config → WafModule}
    (built : module ∈ buildModules unicode serde engine externals config) :
    (∀ other, (module other).phase = .connection) ∨
      module ∈ contentModules unicode engine ∨
        module ∈ structuralModules serde externals config := by
  rcases List.mem_append.mp built with table | plugins
  · obtain ⟨entry, entryMember, rfl⟩ := List.mem_map.mp table
    exact moduleTable_cases unicode serde engine externals config entry
      (List.mem_of_mem_filter entryMember)
  · exact .inr (.inr (List.mem_append_right _ plugins))

theorem builtinPipeline_modules (config : Config) :
    (builtinPipeline unicode serde engine externals config).modules =
      (buildModules unicode serde engine externals config).map
        fun init => init config :=
  rfl

/-- The modules that the gate leaves out are silent on a clean request. -/
theorem Clean.gate_silent
    {config : Config} {ctx : RequestContext}
    (clean : Clean unicode engine config.waf.paranoiaLevel ctx) :
    ∀ module ∈ (builtinPipeline unicode serde engine externals
        config).selected inspectionPhases false,
      module.structural = false → Silent ctx module := by
  intro module member optional
  obtain ⟨phase, phaseMember, selected⟩ := List.mem_flatMap.mp member
  obtain ⟨moduleMember, taken⟩ := List.mem_filter.mp selected
  rw [builtinPipeline_modules] at moduleMember
  obtain ⟨init, built, rfl⟩ := List.mem_map.mp moduleMember
  have inspecting : (init config).phase ≠ .connection := by
    simp only [Bool.and_eq_true, beq_iff_eq] at taken
    rw [taken.1]
    rintro rfl
    exact absurd phaseMember (by decide)
  rcases buildModules_cases unicode serde engine externals built with
    early | content | structural
  · exact absurd (early config) inspecting
  · exact clean.silent content
  · rw [structural_of_mem serde externals structural] at optional
    cases optional

/--
Soundness of the fast path.  When the prefilter finds no candidate, every
content module allows the request, and running the structural modules only
gives the verdict, the score and the breakdown of the full inspection.
-/
theorem fastPath_sound
    (config : Config) (ctx : RequestContext)
    (skipped : (ContentPrefilter.new config.waf.paranoiaLevel).isCandidate
      unicode engine ctx = false) :
    (∀ module ∈ contentModules unicode engine,
      (module config).inspect ctx = some .allow) ∧
    ((builtinPipeline unicode serde engine externals
        config).runInspectionGated build ctx false).map
          (fun outcome => (outcome.verdict, outcome.ctx)) =
      ((builtinPipeline unicode serde engine externals
        config).runInspectionGated build ctx true).map
          (fun outcome => (outcome.verdict, outcome.ctx)) := by
  have clean := clean_of_isCandidate unicode engine skipped
  exact ⟨clean.contentModules_allow,
    runInspectionGated_eq build _ ctx
      (clean.gate_silent unicode serde engine externals)⟩

end FastPath

/-- A normalized request for the root, with nothing to match. -/
def rootRequest : RequestContext :=
  { emptyRequest with normalized := { path := "/".toList } }

/-- A proxy with no limiter state, imported rules or plugins. -/
def noExternals : Externals where
  rateLimit := fun _ _ => some .allow
  crs := fun _ _ => some .allow
  wasm := fun _ => none

/-- Of all patterns only that of `nosql-where-js` matches a string there. -/
def scriptEngine : RegexEngine :=
  .ofIsMatch fun pattern value =>
    pattern == "\\$where\\b" && value == "$where".toList

/-- A search for a term, with headers and a form. -/
def searchRequest (term : String) : RequestContext :=
  { emptyRequest with
    method := "POST".toList
    normalized :=
      { path := "/search".toList
        queryParams := [("q".toList, term.toList)]
        headers := [("host".toList, "shop.example".toList),
          ("content-type".toList,
            "application/x-www-form-urlencoded".toList)]
        body := .formUrlEncoded [("size".toList, "42".toList)] } }

/-- The second level of paranoia, other settings by default. -/
def carefulConfig : Config :=
  { waf := { paranoiaLevel := 2 } }

/-- A script would be a candidate; shoes are skipped, and rightly so. -/
theorem fastPath_sound_searchRequest :
    (ContentPrefilter.new 2).isCandidate .asciiOnly scriptEngine
        (searchRequest "$where") = true ∧
    (∀ module ∈ contentModules .asciiOnly scriptEngine,
      (module carefulConfig).inspect (searchRequest "shoes") = some .allow) ∧
    ((builtinPipeline .asciiOnly .rejectAll scriptEngine noExternals
        carefulConfig).runInspectionGated ⟨true⟩
          (searchRequest "shoes") false).map
          (fun outcome => (outcome.verdict, outcome.ctx)) =
      ((builtinPipeline .asciiOnly .rejectAll scriptEngine noExternals
        carefulConfig).runInspectionGated ⟨true⟩
          (searchRequest "shoes") true).map
          (fun outcome => (outcome.verdict, outcome.ctx)) :=
  ⟨by decide +kernel,
    fastPath_sound .asciiOnly .rejectAll scriptEngine noExternals ⟨true⟩
      carefulConfig (searchRequest "shoes") (by decide +kernel)⟩

end LightWaf.Detection
