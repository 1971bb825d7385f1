import LightWaf.Core.Request

/-!
# The pipeline

The embedding of `waf-pipeline/src/lib.rs`.  Modules run phase by phase; each
decision may add to the anomaly score, and in blocking mode the first denial
ends the run.

The score is a 32-bit word.  Whether its addition is checked depends on the
build: a checked overflow panics outside the panic guard, which ends the run
without a verdict, and an unchecked one wraps.
-/

namespace LightWaf

open LightWaf.Core

/-- The verdict of a run. -/
inductive PipelineVerdict
  | allow
  | block (ruleId reason : String)
  | reject (ruleId reason : String) (status : Nat) (retryAfter : Option Nat)
deriving DecidableEq

/-- The canonical order of the phases. -/
def phaseOrder : List Phase :=
  [.connection, .requestLine, .headers, .body, .response]

/-- The phases that run after normalization. -/
def inspectionPhases : List Phase :=
  [.requestLine, .headers, .body, .response]

/-- The modules with the scoring policy. -/
structure Pipeline where
  modules : List WafModule
  blockThreshold : UInt32
  mode : WafMode
  severityScores : SeverityScores
  onInternalError : FailMode

/-- How a run ended: its verdict, the context, and which modules decided what. -/
structure Outcome where
  verdict : PipelineVerdict
  ctx : RequestContext
  executed : List (WafModule × Decision)

/-- Whether the build checks arithmetic overflow. -/
structure Build where
  overflowChecks : Bool

namespace Pipeline

/-- `Pipeline::new`: every module is initialised with the configuration. -/
def new (config : Config) (modules : List (Config → WafModule)) :
    Pipeline where
  modules := modules.map fun init => init config
  blockThreshold := config.waf.blockThreshold
  mode := config.waf.mode
  severityScores := config.waf.severityScores
  onInternalError := config.resilience.onInternalError

variable (build : Build) (pipeline : Pipeline)

/-- `accumulate`: add the points and record the contribution. -/
def accumulate (ctx : RequestContext) (module ruleId : String)
    (severity : Option Severity) (points : UInt32) :
    Option RequestContext :=
  if build.overflowChecks &&
      decide (UInt32.size ≤ ctx.score.toNat + points.toNat) then none
  else some { ctx with
    score := ctx.score + points
    scoreContributions :=
      ctx.scoreContributions ++ [⟨module, ruleId, severity, points⟩] }

/-- `threshold_check`: a block when the threshold is reached and enforced. -/
def thresholdCheck (ctx : RequestContext) (ruleId : String) :
    Option PipelineVerdict :=
  if ctx.score < pipeline.blockThreshold then none
  else if pipeline.mode = .blocking then
    some (.block ruleId
      ("anomaly score " ++ toString ctx.score ++ " >= threshold " ++
        toString pipeline.blockThreshold))
  else none

/-- The decision of a module, with the policy for a panic inside it. -/
def decisionOf (module : WafModule) (ctx : RequestContext) : Decision :=
  match module.inspect ctx with
  | some decision => decision
  | none =>
      match pipeline.onInternalError with
      | .failOpen => .allow
      | .failClosed =>
          .block "internal-error" ("module " ++ module.id ++ " panicked")

/-- A verdict that is enforced in blocking mode only. -/
def enforced (verdict : PipelineVerdict) : Option PipelineVerdict :=
  if pipeline.mode = .blocking then some verdict else none

/-- The effect of one decision, and the verdict if it ends the run. -/
def applyDecision (ctx : RequestContext) (module : String) :
    Decision → Option (RequestContext × Option PipelineVerdict)
  | .allow => some (ctx, none)
  | .monitor _ => some (ctx, none)
  | .score ruleId points => do
      let ctx ← accumulate build ctx module ruleId none points
      some (ctx, pipeline.thresholdCheck ctx ruleId)
  | .scores items => do
      let ctx ← items.foldlM (fun ctx item =>
        accumulate build ctx module item.ruleId (some item.severity)
          (pipeline.severityScores.pointsFor item.severity)) ctx
      let lastRuleId := (items.getLast?.map ScoreItem.ruleId).getD ""
      some (ctx, pipeline.thresholdCheck ctx lastRuleId)
  | .block ruleId reason =>
      some (ctx, pipeline.enforced (.block ruleId reason))
  | .reject ruleId reason status retryAfter =>
      some (ctx, pipeline.enforced (.reject ruleId reason status retryAfter))

/-- The loop over the modules that take part, in order. -/
def runModules : List WafModule → RequestContext → Option Outcome
  | [], ctx => some ⟨.allow, ctx, []⟩
  | module :: rest, ctx => do
      let decision := pipeline.decisionOf module ctx
      let (ctx, stop) ←
        pipeline.applyDecision build ctx module.id decision
      match stop with
      | some verdict => some ⟨verdict, ctx, [(module, decision)]⟩
      | none => do
          let outcome ← runModules rest ctx
          some { outcome with
            executed := (module, decision) :: outcome.executed }

/-- The modules that take part in a run, phase by phase. -/
def selected (phases : List Phase) (structuralOnly : Bool) :
    List WafModule :=
  phases.flatMap fun phase => pipeline.modules.filter fun module =>
    module.phase == phase && (!structuralOnly || module.structural)

/--
`run_phases_filtered`.

Without enforcement no decision ends the loop, so the final match on the mode
only matters for the verdict it returns.
-/
def runPhasesFiltered (ctx : RequestContext) (phases : List Phase)
    (structuralOnly : Bool) : Option Outcome :=
  (pipeline.runModules build (pipeline.selected phases structuralOnly)
    ctx).map fun outcome =>
      match pipeline.mode with
      | .blocking => outcome
      | .detectionOnly => { outcome with verdict := .allow }

/-- `run_phases`. -/
def runPhases (ctx : RequestContext) (phases : List Phase) :
    Option Outcome :=
  pipeline.runPhasesFiltered build ctx phases false

/-- `run`: every phase. -/
def run (ctx : RequestContext) : Option Outcome :=
  pipeline.runPhases build ctx phaseOrder

/-- `run_connection`: the phase before normalization. -/
def runConnection (ctx : RequestContext) : Option Outcome :=
  pipeline.runPhases build ctx [.connection]

/-- `run_inspection`: the phases after normalization. -/
def runInspection (ctx : RequestContext) : Option Outcome :=
  pipeline.runPhases build ctx inspectionPhases

/-- `run_inspection_gated`: structural modules only when `inspect` is false. -/
def runInspectionGated (ctx : RequestContext) (inspect : Bool) :
    Option Outcome :=
  if inspect then pipeline.runInspection build ctx
  else pipeline.runPhasesFiltered build ctx inspectionPhases true

end Pipeline

/-- `NoopLogger`: logs the request and lets it pass. -/
def noopLogger (_config : Config) : WafModule where
  id := "noop_logger"
  phase := .requestLine
  inspect := fun _ => some .allow

end LightWaf
