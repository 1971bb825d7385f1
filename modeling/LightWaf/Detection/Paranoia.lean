import LightWaf.Detection.Prefilter
import LightWaf.Pipeline.Monotone

/-!
# Paranoia levels

Raising the paranoia level activates more rules.  Module by module the items
reported at the lower level are among those reported at the higher one, so a
request that is denied at a level is denied at every higher level.
-/

namespace LightWaf.Detection

open LightWaf.Rust
open LightWaf.Core
open LightWaf.Normalizer

/-- A configuration at another paranoia level. -/
def withParanoia (config : Config) (level : Nat) : Config :=
  { config with waf := { config.waf with paranoiaLevel := level } }

/-- The imported rules and the plugins do not read what was scored so far. -/
structure Externals.ScoreBlind (externals : Externals) : Prop where
  crs : ∀ files left right, SameRequest left right →
    externals.crs files left = externals.crs files right
  wasm : ∀ plugin loaded, externals.wasm plugin = some loaded →
    ∀ left right, SameRequest left right → loaded.2 left = loaded.2 right

/-! ## Items grow with the level -/

section Items

variable {unicode : UnicodeTables} {engine : RegexEngine}
variable {lower upper : Nat}

theorem activeRules_sublist (raised : lower ≤ upper) (table : List Rule) :
    (activeRules table lower).Sublist (activeRules table upper) := by
  refine List.monotone_filter_right table fun rule active => ?_
  simp only [decide_eq_true_eq] at active ⊢
  exact active.trans raised

theorem matchedItems_sublist
    (raised : lower ≤ upper) (table : List Rule) (values : List Text) :
    (matchedItems engine (activeRules table lower) values).Sublist
      (matchedItems engine (activeRules table upper) values) := by
  rw [matchedItems_eq, matchedItems_eq]
  exact ((activeRules_sublist raised table).filter _).map _

theorem pushUnlessPresent_sublist
    {items others : List ScoreItem} (sublist : items.Sublist others)
    {hit again : Bool} {item : ScoreItem}
    (kept : hit = true →
      items.any (fun present => present.ruleId == item.ruleId) = false →
        again = true ∧
          others.any (fun present => present.ruleId == item.ruleId) =
            false) :
    (pushUnlessPresent items hit item).Sublist
      (pushUnlessPresent others again item) := by
  simp only [pushUnlessPresent]
  split_ifs with pushed repeated
  · exact sublist.append (List.Sublist.refl _)
  · simp only [Bool.and_eq_true, Bool.not_eq_true'] at pushed repeated
    exact absurd (kept pushed.1 pushed.2) repeated
  · exact sublist.trans (List.sublist_append_left _ _)
  · exact sublist

/-- A rule id is reported exactly by the active rules of that id. -/
theorem any_matchedItems
    (active : List Rule) (values : List Text) (ruleId : String) :
    (matchedItems engine active values).any
        (fun present => present.ruleId == ruleId) = true ↔
      ∃ rule ∈ active, values.any (engine.isMatch rule.pattern) = true ∧
        rule.id = ruleId := by
  rw [matchedItems_eq]
  simp [Rule.item]

theorem paranoia_of_shellshock :
    ∀ rule ∈ rceRules, rule.id = "rce-shellshock" → rule.paranoia = 1 := by
  decide +kernel

/--
The shellshock item is pushed at the lower level only if it is at the higher
one: all rules of that id have one paranoia level, so the table reports the id
at both levels or at neither.
-/
theorem rceItems_sublist (raised : lower ≤ upper) (ctx : RequestContext) :
    (rceItems unicode engine lower ctx).Sublist
      (rceItems unicode engine upper ctx) := by
  refine pushUnlessPresent_sublist (matchedItems_sublist raised _ _) ?_
  intro hit absent
  simp only [shellshockUserAgent, Bool.and_eq_true, List.any_eq_true,
    beq_iff_eq] at hit
  obtain ⟨⟨rule, active, named⟩, agent⟩ := hit
  have level : 1 ≤ lower := by
    have bound : rule.paranoia ≤ lower := by
      simpa using (List.mem_filter.mp active).2
    rw [paranoia_of_shellshock rule (List.mem_of_mem_filter active) named]
      at bound
    exact bound
  constructor
  · simp only [shellshockUserAgent, Bool.and_eq_true, List.any_eq_true,
      beq_iff_eq]
    exact ⟨⟨rule, (activeRules_sublist raised rceRules).subset active,
      named⟩, agent⟩
  · rw [Bool.eq_false_iff] at absent ⊢
    intro present
    obtain ⟨other, otherActive, matched, otherNamed⟩ :=
      (any_matchedItems _ _ _).mp present
    have shipped : other ∈ rceRules := List.mem_of_mem_filter otherActive
    have early : other ∈ activeRules rceRules lower := by
      refine List.mem_filter.mpr ⟨shipped, ?_⟩
      simpa [paranoia_of_shellshock other shipped otherNamed] using level
    exact absent ((any_matchedItems _ _ _).mpr
      ⟨other, early, matched, otherNamed⟩)

theorem nosqlRules_ids :
    ∀ rule ∈ nosqlRules, rule.id ≠ "nosql-operator-key" ∧
      rule.id ≠ "proto-pollution-key" := by
  simp [nosqlRules]

/-- The table never reports the ids of the key scans. -/
theorem any_nosqlItems
    (level : Nat) (values : List Text) {ruleId : String}
    (key : ruleId = "nosql-operator-key" ∨ ruleId = "proto-pollution-key") :
    (matchedItems engine (activeRules nosqlRules level) values).any
      (fun present => present.ruleId == ruleId) = false := by
  rw [Bool.eq_false_iff]
  intro present
  obtain ⟨rule, active, -, named⟩ := (any_matchedItems _ _ _).mp present
  have differs := nosqlRules_ids rule (List.mem_of_mem_filter active)
  rcases key with rfl | rfl
  · exact differs.1 named
  · exact differs.2 named

theorem nosqlItems_sublist (raised : lower ≤ upper) (ctx : RequestContext) :
    (nosqlItems unicode engine lower ctx).Sublist
      (nosqlItems unicode engine upper ctx) := by
  refine pushUnlessPresent_sublist (pushUnlessPresent_sublist
    (matchedItems_sublist raised _ _) ?_) ?_
  · intro hit _
    exact ⟨hit, any_nosqlItems upper _ (Or.inl rfl)⟩
  · intro hit _
    refine ⟨hit, ?_⟩
    have table :
        (matchedItems engine (activeRules nosqlRules upper)
          (contentSurface unicode ctx)).any
            (fun present => present.ruleId == "proto-pollution-key") =
          false :=
      any_nosqlItems upper _ (Or.inr rfl)
    rw [pushUnlessPresent]
    split_ifs
    · rw [List.any_append, table]
      decide
    · exact table

theorem headerInjectionItems_sublist
    (raised : lower ≤ upper) (ctx : RequestContext) :
    (headerInjectionItems unicode engine lower ctx).Sublist
      (headerInjectionItems unicode engine upper ctx) := by
  have active :
      (activeHdrRules lower).Sublist (activeHdrRules upper) := by
    refine List.monotone_filter_right _ fun rule early => ?_
    simp only [decide_eq_true_eq] at early ⊢
    exact early.trans raised
  exact (active.filter _).map _

theorem covered_ofItems
    {items others : List ScoreItem} (sublist : items.Sublist others) :
    Covered (ofItems items) (ofItems others) := by
  cases items with
  | nil => exact .silent _
  | cons item rest =>
      cases others with
      | nil => cases sublist
      | cons other later => exact .more sublist

end Items

/-! ## Decisions grow with the level -/

section Decisions

variable (unicode : UnicodeTables) (serde : SerdeJson)
variable (engine : RegexEngine) (externals : Externals)

/-- A content module reports more at a higher level. -/
theorem contentModules_report
    (config : Config) {lower upper : Nat} (raised : lower ≤ upper)
    {left right : RequestContext} (same : SameRequest left right) :
    ∀ module ∈ contentModules unicode engine,
      ∃ items others,
        (module (withParanoia config lower)).inspect left =
          some (ofItems items) ∧
        (module (withParanoia config upper)).inspect right =
          some (ofItems others) ∧
        items.Sublist others := by
  obtain ⟨score, contributions, rfl⟩ := same
  have table : ∀ rules values,
      (matchedItems engine (activeRules rules lower) values).Sublist
        (matchedItems engine (activeRules rules upper) values) :=
    matchedItems_sublist raised
  simp only [contentModules, List.forall_mem_cons, List.not_mem_nil,
    false_imp_iff, implies_true, and_true]
  exact ⟨⟨[], [], rfl, rfl, List.Sublist.refl _⟩,
    ⟨_, _, rfl, rfl, table sqliRules _⟩, ⟨_, _, rfl, rfl, table xssRules _⟩,
    ⟨_, _, rfl, rfl, table pathTraversalRules _⟩,
    ⟨_, _, rfl, rfl, rceItems_sublist raised left⟩,
    ⟨_, _, rfl, rfl, table lfiRfiRules _⟩,
    ⟨_, _, rfl, rfl, table ssrfRules _⟩, ⟨_, _, rfl, rfl, table ldapRules _⟩,
    ⟨_, _, rfl, rfl, nosqlItems_sublist raised left⟩,
    ⟨_, _, rfl, rfl, table mailRules _⟩, ⟨_, _, rfl, rfl, table sstiRules _⟩,
    ⟨_, _, rfl, rfl, table scannerRules _⟩,
    ⟨_, _, rfl, rfl, table ssiRules _⟩, ⟨_, _, rfl, rfl, table xxeRules _⟩,
    ⟨_, _, rfl, rfl, headerInjectionItems_sublist raised left⟩⟩

/-- A structural module depends neither on the level nor on the score. -/
theorem structuralModules_steady
    (blind : externals.ScoreBlind) (config : Config) (lower upper : Nat)
    {left right : RequestContext} (same : SameRequest left right)
    {module : Config → WafModule}
    (member : module ∈ structuralModules serde externals config) :
    (module (withParanoia config lower)).id =
        (module (withParanoia config upper)).id ∧
      (module (withParanoia config lower)).inspect left =
        (module (withParanoia config upper)).inspect right := by
  rcases List.mem_append.mp member with listed | plugins
  · have all : ∀ other ∈ [evasionModule, graphqlModule serde, grpcModule,
        crsModule externals config.modules.crs.files],
        (other (withParanoia config lower)).id =
            (other (withParanoia config upper)).id ∧
          (other (withParanoia config lower)).inspect left =
            (other (withParanoia config upper)).inspect right := by
      have imported :=
        blind.crs config.modules.crs.files left right same
      obtain ⟨score, contributions, rfl⟩ := same
      simp only [List.forall_mem_cons, List.not_mem_nil, false_imp_iff,
        implies_true, and_true]
      exact ⟨⟨rfl, rfl⟩, ⟨rfl, rfl⟩, ⟨rfl, rfl⟩, ⟨rfl, imported⟩⟩
    exact all module listed
  · rw [wasmModules] at plugins
    split_ifs at plugins with enabled
    · obtain ⟨loaded, loadedMember, rfl⟩ := List.mem_map.mp plugins
      obtain ⟨plugin, -, found⟩ := List.mem_filterMap.mp loadedMember
      exact ⟨rfl, blind.wasm plugin loaded found left right same⟩
    · cases plugins

/-- The policy does not depend on the level. -/
theorem samePolicy_withParanoia (config : Config) (lower upper : Nat) :
    SamePolicy
      (builtinPipeline unicode serde engine externals
        (withParanoia config lower))
      (builtinPipeline unicode serde engine externals
        (withParanoia config upper)) :=
  ⟨rfl, rfl, rfl, rfl⟩

/-- At a higher level every inspecting module covers its decision. -/
theorem decisionOf_covered
    (blind : externals.ScoreBlind) (config : Config)
    {lower upper : Nat} (raised : lower ≤ upper)
    {lax strict : Pipeline} (policy : SamePolicy lax strict)
    {module : Config → WafModule}
    (built : module ∈ buildModules unicode serde engine externals config)
    (inspecting : (module config).phase ≠ .connection)
    (left right : RequestContext) (same : SameRequest left right) :
    Covered (lax.decisionOf (module (withParanoia config lower)) left)
      (strict.decisionOf (module (withParanoia config upper)) right) := by
  rcases buildModules_cases unicode serde engine externals built with
    early | content | structural
  · exact absurd (early config) inspecting
  · obtain ⟨items, others, reported, more, sublist⟩ :=
      contentModules_report unicode engine config raised same module content
    rw [Pipeline.decisionOf, Pipeline.decisionOf, reported, more]
    exact covered_ofItems sublist
  · obtain ⟨sameId, steady⟩ := structuralModules_steady serde externals blind
      config lower upper same structural
    rw [Pipeline.decisionOf, Pipeline.decisionOf, steady, sameId,
      policy.onInternalError]
    exact .same _

end Decisions

/-! ## Denials are kept -/

section Denials

variable (unicode : UnicodeTables) (serde : SerdeJson)
variable (engine : RegexEngine) (externals : Externals) (build : Build)

/-- Whether the prefilter lets the content modules run. -/
def candidate (config : Config) (ctx : RequestContext) : Bool :=
  (ContentPrefilter.new config.waf.paranoiaLevel).isCandidate unicode engine
    ctx

/-- The modules that run behind the prefilter. -/
def gatedModules (config : Config) (ctx : RequestContext) : List WafModule :=
  (builtinPipeline unicode serde engine externals config).selected
    inspectionPhases (!candidate unicode engine config ctx)

/-- The inspection behind the prefilter. -/
def gatedInspection (config : Config) (ctx : RequestContext) :
    Option Outcome :=
  (builtinPipeline unicode serde engine externals config).runInspectionGated
    build ctx (candidate unicode engine config ctx)

/-- The phase of a module does not depend on the configuration. -/
theorem phase_withParanoia
    {config : Config} {module : Config → WafModule}
    (built : module ∈ buildModules unicode serde engine externals config)
    (level : Nat) :
    (module (withParanoia config level)).phase = (module config).phase := by
  rcases List.mem_append.mp built with table | plugins
  · obtain ⟨entry, entryMember, rfl⟩ := List.mem_map.mp table
    have all : ∀ row ∈ moduleTable unicode serde engine externals config,
        (row.2 (withParanoia config level)).phase = (row.2 config).phase := by
      simp only [moduleTable, List.forall_mem_cons, List.not_mem_nil,
        false_imp_iff, implies_true, and_true]
      exact ⟨rfl, rfl, rfl, rfl, rfl, rfl, rfl, rfl, rfl, rfl, rfl, rfl, rfl,
        rfl, rfl, rfl, rfl, rfl, rfl, rfl, rfl⟩
    exact all entry (List.mem_of_mem_filter entryMember)
  · rw [wasmModules] at plugins
    split_ifs at plugins with enabled
    · obtain ⟨loaded, -, rfl⟩ := List.mem_map.mp plugins
      rfl
    · cases plugins

/-- The built modules of the inspection phases, before `init`. -/
def inspecting (config : Config) : List (Config → WafModule) :=
  inspectionPhases.flatMap fun phase =>
    (buildModules unicode serde engine externals config).filter
      fun module => (module config).phase == phase

theorem selected_withParanoia (config : Config) (level : Nat) :
    (builtinPipeline unicode serde engine externals
        (withParanoia config level)).selected inspectionPhases false =
      (inspecting unicode serde engine externals config).map
        fun module => module (withParanoia config level) := by
  rw [Pipeline.selected, builtinPipeline_modules, inspecting,
    List.map_flatMap]
  refine List.flatMap_congr fun phase _ => ?_
  rw [List.filter_map]
  refine congrArg _ (List.filter_congr fun module built => ?_)
  have listed :
      module ∈ buildModules unicode serde engine externals config := built
  simp [phase_withParanoia unicode serde engine externals listed level]

/-- Behind the prefilter nothing is lost: it denies as the full run does. -/
theorem denied_gatedInspection (config : Config) (ctx : RequestContext) :
    Denied (gatedInspection unicode serde engine externals build config
        ctx) ↔
      Denied ((builtinPipeline unicode serde engine externals
        config).runModules build
          ((builtinPipeline unicode serde engine externals config).selected
            inspectionPhases false) ctx) := by
  have full : (builtinPipeline unicode serde engine externals
      config).runInspectionGated build ctx true =
      (builtinPipeline unicode serde engine externals config).runModules build
        ((builtinPipeline unicode serde engine externals config).selected
          inspectionPhases false) ctx :=
    runPhasesFiltered_eq build _ ctx inspectionPhases false
  rw [← full, gatedInspection]
  cases taken : candidate unicode engine config ctx with
  | true => rfl
  | false =>
      have clean := clean_of_isCandidate unicode engine taken
      have agree := runInspectionGated_eq build _ ctx
        (clean.gate_silent unicode serde engine externals)
      constructor
      · exact denied_of_map_eq agree
      · exact denied_of_map_eq agree.symm

/-- The sums of the full run are those of the run behind the prefilter. -/
theorem sumsFit_gatedModules
    {config : Config} {ctx : RequestContext}
    (fits : (builtinPipeline unicode serde engine externals config).sumsFit
      (gatedModules unicode serde engine externals config ctx) ctx = true) :
    (builtinPipeline unicode serde engine externals config).sumsFit
      ((builtinPipeline unicode serde engine externals config).selected
        inspectionPhases false) ctx = true := by
  rw [gatedModules] at fits
  cases taken : candidate unicode engine config ctx with
  | true =>
      rw [taken] at fits
      exact fits
  | false =>
      have clean := clean_of_isCandidate unicode engine taken
      rw [taken, Bool.not_false, selected_structuralOnly] at fits
      exact sumsFit_of_filter _ WafModule.structural _ ctx
        (clean.gate_silent unicode serde engine externals) fits

/--
Paranoia monotonicity.  In blocking mode, as long as no sum overflows, a
request denied behind the prefilter at one level is denied at every higher
level.
-/
theorem denied_of_raised_paranoia
    (blind : externals.ScoreBlind)
    (config : Config) (blocking : config.waf.mode = .blocking)
    (ctx : RequestContext) {lower upper : Nat} (raised : lower ≤ upper)
    (lowerFits : (builtinPipeline unicode serde engine externals
        (withParanoia config lower)).sumsFit
          (gatedModules unicode serde engine externals
            (withParanoia config lower) ctx) ctx = true)
    (upperFits : (builtinPipeline unicode serde engine externals
        (withParanoia config upper)).sumsFit
          (gatedModules unicode serde engine externals
            (withParanoia config upper) ctx) ctx = true)
    (denied : Denied (gatedInspection unicode serde engine externals build
      (withParanoia config lower) ctx)) :
    Denied (gatedInspection unicode serde engine externals build
      (withParanoia config upper) ctx) := by
  rw [denied_gatedInspection, selected_withParanoia] at denied ⊢
  have lowerFull :=
    sumsFit_gatedModules unicode serde engine externals lowerFits
  have upperFull :=
    sumsFit_gatedModules unicode serde engine externals upperFits
  rw [selected_withParanoia] at lowerFull upperFull
  have policy := samePolicy_withParanoia unicode serde engine externals
    config lower upper
  have covered : ∀ module ∈ inspecting unicode serde engine externals config,
      ∀ left right, SameRequest left right →
        Covered
          ((builtinPipeline unicode serde engine externals
            (withParanoia config lower)).decisionOf
              (module (withParanoia config lower)) left)
          ((builtinPipeline unicode serde engine externals
            (withParanoia config upper)).decisionOf
              (module (withParanoia config upper)) right) := by
    intro module member
    obtain ⟨phase, phaseMember, filtered⟩ := List.mem_flatMap.mp member
    obtain ⟨built, taken⟩ := List.mem_filter.mp filtered
    have later : (module config).phase ≠ .connection := by
      rw [beq_iff_eq.mp taken]
      rintro rfl
      exact absurd phaseMember (by decide)
    exact decisionOf_covered unicode serde engine externals blind config
      raised policy built later
  have same : SameRequest ctx ctx := ⟨_, _, rfl⟩
  have enforced : (builtinPipeline unicode serde engine externals
      (withParanoia config lower)).mode = .blocking := blocking
  have carried := runModules_denied build policy enforced
    (fun module => module (withParanoia config lower))
    (fun module => module (withParanoia config upper))
    (inspecting unicode serde engine externals config) covered
  exact carried ctx ctx same (le_refl _) lowerFull upperFull denied

end Denials

/-! ## A request that is denied at every level -/

/-- A server-side script in a query value. -/
def scriptedRequest : RequestContext :=
  { rootRequest with
    normalized :=
      { path := "/".toList
        queryParams := [("q".toList, "$where".toList)] } }

/-- Blocking mode, other settings by default. -/
def blockingConfig : Config :=
  { waf := { mode := .blocking } }

theorem noExternals_scoreBlind : noExternals.ScoreBlind where
  crs := fun _ _ _ _ => rfl
  wasm := fun _ _ loaded => by cases loaded

theorem denied_scriptedRequest :
    Denied (gatedInspection .asciiOnly .rejectAll scriptEngine noExternals ⟨true⟩
      (withParanoia blockingConfig 1) scriptedRequest) := by
  have refused :
      (gatedInspection .asciiOnly .rejectAll scriptEngine noExternals ⟨true⟩
        (withParanoia blockingConfig 1) scriptedRequest).any
          (fun outcome => decide (outcome.verdict ≠ .allow)) = true := by
    decide +kernel
  obtain ⟨outcome, ran, denies⟩ := (Option.any_eq_true _ _).mp refused
  exact ⟨outcome, ran, of_decide_eq_true denies⟩

/-- It is denied at the first level, and so at the third. -/
theorem denied_of_raised_paranoia_scriptedRequest :
    Denied (gatedInspection .asciiOnly .rejectAll scriptEngine noExternals ⟨true⟩
      (withParanoia blockingConfig 3) scriptedRequest) :=
  denied_of_raised_paranoia .asciiOnly .rejectAll scriptEngine noExternals
    ⟨true⟩ noExternals_scoreBlind blockingConfig rfl scriptedRequest
    (show 1 ≤ 3 by decide) (by decide +kernel) (by decide +kernel)
    denied_scriptedRequest

end LightWaf.Detection
