import LightWaf.Pipeline.Run

/-!
# Accounting of the anomaly score

A run is compared with the run in unbounded arithmetic, which tests the
threshold on the sum of the recorded contributions instead of on the 32-bit
score.  As long as that sum fits in a word, the two runs take the same steps
and the score is the sum.  Once it does not fit, no build gets it right: the
checked one panics, the other wraps.
-/

namespace LightWaf

open LightWaf.Core

/-- The mathematical sum of the points of contributions. -/
def points (contributions : List ScoreContribution) : Nat :=
  (contributions.map fun contribution => contribution.points.toNat).sum

@[simp]
theorem points_nil : points [] = 0 := rfl

@[simp]
theorem points_append (left right : List ScoreContribution) :
    points (left ++ right) = points left + points right := by
  simp [points]

/-- Record contributions: wrapping addition and a longer breakdown. -/
def record (ctx : RequestContext) (contributions : List ScoreContribution) :
    RequestContext :=
  { ctx with
    score := contributions.foldl
      (fun score contribution => score + contribution.points) ctx.score
    scoreContributions := ctx.scoreContributions ++ contributions }

@[simp]
theorem record_nil (ctx : RequestContext) : record ctx [] = ctx := by
  simp [record]

@[simp]
theorem record_scoreContributions
    (ctx : RequestContext) (contributions : List ScoreContribution) :
    (record ctx contributions).scoreContributions =
      ctx.scoreContributions ++ contributions :=
  rfl

/-- The score is the sum of the recorded points. -/
def Balanced (ctx : RequestContext) : Prop :=
  ctx.score.toNat = points ctx.scoreContributions

/-- Whether a decision is a direct denial. -/
def denies : Decision → Bool
  | .block _ _ => true
  | .reject _ _ _ _ => true
  | _ => false

/-! ## One decision -/

section Step

variable (build : Build) (pipeline : Pipeline)

/-- What a decision of a module contributes. -/
def Pipeline.contributionsOf (module : String) :
    Decision → List ScoreContribution
  | .score ruleId points => [⟨module, ruleId, none, points⟩]
  | .scores items => items.map fun item =>
      ⟨module, item.ruleId, some item.severity,
        pipeline.severityScores.pointsFor item.severity⟩
  | _ => []

/-- The verdict with which a decision ends the run, if it does. -/
def Pipeline.stop (ctx : RequestContext) : Decision → Option PipelineVerdict
  | .allow => none
  | .monitor _ => none
  | .score ruleId _ => pipeline.thresholdCheck ctx ruleId
  | .scores items => pipeline.thresholdCheck ctx
      ((items.getLast?.map ScoreItem.ruleId).getD "")
  | .block ruleId reason => pipeline.enforced (.block ruleId reason)
  | .reject ruleId reason status retryAfter =>
      pipeline.enforced (.reject ruleId reason status retryAfter)

/-- Contributions one after the other: the checked build stops on overflow. -/
theorem accumulate_all
    (ctx : RequestContext) (contributions : List ScoreContribution) :
    contributions.foldlM
        (fun ctx contribution =>
          Pipeline.accumulate build ctx contribution.module
            contribution.ruleId contribution.severity contribution.points)
        ctx =
      if build.overflowChecks &&
          decide (UInt32.size ≤ ctx.score.toNat + points contributions) then
        none
      else some (record ctx contributions) := by
  induction contributions generalizing ctx with
  | nil =>
      have fits : ¬ UInt32.size ≤ ctx.score.toNat :=
        not_le.mpr ctx.score.toNat_lt_size
      simp [fits]
  | cons first rest induction =>
      rw [List.foldlM_cons, Pipeline.accumulate]
      have total : points (first :: rest) =
          first.points.toNat + points rest := by
        simp [points]
      rw [total]
      by_cases overflow :
          UInt32.size ≤ ctx.score.toNat + first.points.toNat
      · by_cases checked : build.overflowChecks = true
        · have later : UInt32.size ≤
              ctx.score.toNat + (first.points.toNat + points rest) := by
            omega
          simp [checked, overflow, later]
        · simp [checked, induction, record]
      · have sum : (ctx.score + first.points).toNat =
            ctx.score.toNat + first.points.toNat := by
          rw [UInt32.toNat_add]
          exact Nat.mod_eq_of_lt (not_le.mp overflow)
        simp [overflow, induction, record, sum, Nat.add_assoc]

/-- One decision, for every kind of it. -/
theorem applyDecision_spec
    (ctx : RequestContext) (module : String) (decision : Decision) :
    pipeline.applyDecision build ctx module decision =
      let contributions := pipeline.contributionsOf module decision
      if build.overflowChecks &&
          decide (UInt32.size ≤ ctx.score.toNat + points contributions) then
        none
      else
        some (record ctx contributions,
          pipeline.stop (record ctx contributions) decision) := by
  have fits : ¬ UInt32.size ≤ ctx.score.toNat :=
    not_le.mpr ctx.score.toNat_lt_size
  cases decision with
  | allow => simp [Pipeline.applyDecision, Pipeline.contributionsOf,
      Pipeline.stop, fits]
  | monitor ruleId => simp [Pipeline.applyDecision,
      Pipeline.contributionsOf, Pipeline.stop, fits]
  | block ruleId reason => simp [Pipeline.applyDecision,
      Pipeline.contributionsOf, Pipeline.stop, fits]
  | reject ruleId reason status retryAfter => simp [Pipeline.applyDecision,
      Pipeline.contributionsOf, Pipeline.stop, fits]
  | score ruleId points =>
      have all := accumulate_all build ctx [⟨module, ruleId, none, points⟩]
      rw [List.foldlM_cons] at all
      simp only [List.foldlM_nil, bind_pure] at all
      rw [Pipeline.applyDecision, all, Pipeline.contributionsOf]
      dsimp only
      split_ifs <;> rfl
  | scores items =>
      have all := accumulate_all build ctx
        (pipeline.contributionsOf module (.scores items))
      rw [Pipeline.contributionsOf, List.foldlM_map] at all
      rw [Pipeline.applyDecision, all, Pipeline.contributionsOf]
      dsimp only
      split_ifs <;> rfl

/-- One turn of the loop: the decision is recorded, then ends the run or not. -/
theorem runModules_cons
    (module : WafModule) (rest : List WafModule) (ctx : RequestContext) :
    pipeline.runModules build (module :: rest) ctx =
      let decision := pipeline.decisionOf module ctx
      let contributions := pipeline.contributionsOf module.id decision
      if build.overflowChecks &&
          decide (UInt32.size ≤ ctx.score.toNat + points contributions) then
        none
      else
        match pipeline.stop (record ctx contributions) decision with
        | some verdict =>
            some ⟨verdict, record ctx contributions, [(module, decision)]⟩
        | none =>
            (pipeline.runModules build rest (record ctx contributions)).map
              fun outcome => { outcome with
                executed := (module, decision) :: outcome.executed } := by
  rw [Pipeline.runModules, applyDecision_spec]
  dsimp only
  split_ifs with overflow
  · rfl
  · cases pipeline.stop
        (record ctx (pipeline.contributionsOf module.id
          (pipeline.decisionOf module ctx)))
        (pipeline.decisionOf module ctx) with
    | some verdict => rfl
    | none =>
        cases ran : pipeline.runModules build rest
            (record ctx (pipeline.contributionsOf module.id
              (pipeline.decisionOf module ctx))) with
        | none => simp [ran]
        | some outcome => simp [ran]

/-- Nothing stops a run that only detects. -/
theorem stop_detectionOnly
    (detection : pipeline.mode = .detectionOnly)
    (ctx : RequestContext) (decision : Decision) :
    pipeline.stop ctx decision = none := by
  cases decision <;>
    simp [Pipeline.stop, Pipeline.thresholdCheck, Pipeline.enforced,
      detection]

/-- A verdict that ends a run is never `allow`. -/
theorem stop_ne_allow
    {ctx : RequestContext} {decision : Decision} {verdict : PipelineVerdict}
    (stopped : pipeline.stop ctx decision = some verdict) :
    verdict ≠ .allow := by
  rintro rfl
  cases decision <;>
    simp [Pipeline.stop, Pipeline.thresholdCheck, Pipeline.enforced]
      at stopped

/-- Enforced denials end the run. -/
theorem denies_of_stop_none
    (blocking : pipeline.mode = .blocking)
    {ctx : RequestContext} {decision : Decision}
    (passed : pipeline.stop ctx decision = none) :
    denies decision = false := by
  cases decision <;> simp [denies]
  all_goals simp [Pipeline.stop, Pipeline.enforced, blocking] at passed

end Step

/-! ## The run in unbounded arithmetic -/

section Exact

variable (build : Build) (pipeline : Pipeline)

/-- Whether a decision ends the run, by the sum of the recorded points. -/
def Pipeline.exactStop (ctx : RequestContext) (decision : Decision) : Bool :=
  pipeline.mode == .blocking &&
    match decision with
    | .allow => false
    | .monitor _ => false
    | .score _ _ =>
        pipeline.blockThreshold.toNat ≤ points ctx.scoreContributions
    | .scores _ =>
        pipeline.blockThreshold.toNat ≤ points ctx.scoreContributions
    | .block _ _ => true
    | .reject _ _ _ _ => true

/-- The run in unbounded arithmetic: its context, and whether it ended early. -/
def Pipeline.exactRun :
    List WafModule → RequestContext → RequestContext × Bool
  | [], ctx => (ctx, false)
  | module :: rest, ctx =>
      let decision := pipeline.decisionOf module ctx
      let ctx := record ctx (pipeline.contributionsOf module.id decision)
      if pipeline.exactStop ctx decision then (ctx, true)
      else Pipeline.exactRun rest ctx

/-- The sum of the points recorded by the run in unbounded arithmetic. -/
def Pipeline.exactTotal (modules : List WafModule) (ctx : RequestContext) :
    Nat :=
  points (pipeline.exactRun modules ctx).1.scoreContributions

/-- As long as the sum fits, wrapping addition is addition. -/
theorem record_score
    (ctx : RequestContext) (contributions : List ScoreContribution)
    (fits : ctx.score.toNat + points contributions < UInt32.size) :
    (record ctx contributions).score.toNat =
      ctx.score.toNat + points contributions := by
  induction contributions generalizing ctx with
  | nil => simp
  | cons first rest induction =>
      have total : points (first :: rest) =
          first.points.toNat + points rest := by
        simp [points]
      rw [total] at fits ⊢
      have single : (record ctx [first]).score.toNat =
          ctx.score.toNat + first.points.toNat := by
        have sum : (ctx.score + first.points).toNat =
            (ctx.score.toNat + first.points.toNat) % UInt32.size :=
          UInt32.toNat_add _ _
        exact sum.trans (Nat.mod_eq_of_lt (by omega))
      have both : record ctx (first :: rest) =
          record (record ctx [first]) rest := by
        simp [record]
      rw [both, induction (record ctx [first]) (by rw [single]; omega),
        single, Nat.add_assoc]

theorem record_balanced
    {ctx : RequestContext} (balanced : Balanced ctx)
    (contributions : List ScoreContribution)
    (fits : points (ctx.scoreContributions ++ contributions) < UInt32.size) :
    Balanced (record ctx contributions) := by
  rw [points_append, ← balanced] at fits
  rw [Balanced, record_score ctx contributions fits,
    record_scoreContributions, points_append, balanced]

/-- In a balanced context the two threshold tests agree. -/
theorem stop_isSome
    {ctx : RequestContext} (balanced : Balanced ctx) (decision : Decision) :
    (pipeline.stop ctx decision).isSome = pipeline.exactStop ctx decision := by
  have check : ∀ ruleId, (pipeline.thresholdCheck ctx ruleId).isSome =
      (pipeline.mode == .blocking &&
        decide (pipeline.blockThreshold.toNat ≤
          points ctx.scoreContributions)) := by
    intro ruleId
    have below : ctx.score < pipeline.blockThreshold ↔
        ¬ pipeline.blockThreshold.toNat ≤ points ctx.scoreContributions := by
      rw [← balanced, UInt32.lt_iff_toNat_lt]
      exact not_le.symm
    unfold Pipeline.thresholdCheck
    by_cases reached : pipeline.blockThreshold.toNat ≤
        points ctx.scoreContributions
    · by_cases mode : pipeline.mode = .blocking
      · simp [below, reached, mode]
      · simp [below, reached, mode]
    · simp [below, reached]
  have enforce : ∀ verdict, (pipeline.enforced verdict).isSome =
      (pipeline.mode == .blocking) := by
    intro verdict
    unfold Pipeline.enforced
    by_cases mode : pipeline.mode = .blocking
    · simp [mode]
    · simp [mode]
  cases decision <;>
    simp [Pipeline.stop, Pipeline.exactStop, check, enforce]

/-- A run only appends to the breakdown. -/
theorem runModules_extends
    (modules : List WafModule) (ctx : RequestContext) (outcome : Outcome)
    (ran : pipeline.runModules build modules ctx = some outcome) :
    points ctx.scoreContributions ≤
      points outcome.ctx.scoreContributions := by
  induction modules generalizing ctx outcome with
  | nil =>
      obtain rfl := Option.some.inj ran
      exact le_refl _
  | cons module rest induction =>
      rw [runModules_cons] at ran
      dsimp only at ran
      set ctx' := record ctx (pipeline.contributionsOf module.id
        (pipeline.decisionOf module ctx)) with ctxEq
      have grows : points ctx.scoreContributions ≤
          points ctx'.scoreContributions := by
        rw [ctxEq, record_scoreContributions, points_append]
        exact Nat.le_add_right _ _
      split_ifs at ran with overflow
      cases stopped : pipeline.stop ctx' (pipeline.decisionOf module ctx) with
      | some verdict =>
          rw [stopped] at ran
          obtain rfl := Option.some.inj ran
          exact grows
      | none =>
          rw [stopped] at ran
          obtain ⟨later, ranRest, rfl⟩ := Option.map_eq_some_iff.mp ran
          exact grows.trans (induction ctx' later ranRest)

/-- The exact run only appends to the breakdown. -/
theorem exactRun_extends
    (modules : List WafModule) (ctx : RequestContext) :
    points ctx.scoreContributions ≤ pipeline.exactTotal modules ctx := by
  induction modules generalizing ctx with
  | nil => exact le_refl _
  | cons module rest induction =>
      have grows : points ctx.scoreContributions ≤
          points (record ctx (pipeline.contributionsOf module.id
            (pipeline.decisionOf module ctx))).scoreContributions := by
        rw [record_scoreContributions, points_append]
        exact Nat.le_add_right _ _
      unfold Pipeline.exactTotal Pipeline.exactRun
      dsimp only
      split_ifs with stopped
      · exact grows
      · exact grows.trans (induction _)

/-- A run whose exact total fits in a word follows the exact run. -/
theorem runModules_exact
    (modules : List WafModule) (ctx : RequestContext)
    (balanced : Balanced ctx)
    (fits : pipeline.exactTotal modules ctx < UInt32.size) :
    ∃ outcome, pipeline.runModules build modules ctx = some outcome ∧
      outcome.ctx = (pipeline.exactRun modules ctx).1 ∧
      Balanced outcome.ctx ∧
      (outcome.verdict = .allow ↔
        (pipeline.exactRun modules ctx).2 = false) := by
  induction modules generalizing ctx with
  | nil => exact ⟨⟨.allow, ctx, []⟩, rfl, rfl, balanced, by
      simp [Pipeline.exactRun]⟩
  | cons module rest induction =>
      unfold Pipeline.exactTotal at fits
      rw [Pipeline.exactRun] at fits ⊢
      rw [runModules_cons]
      dsimp only at fits ⊢
      set decision := pipeline.decisionOf module ctx
      set contributions := pipeline.contributionsOf module.id decision
      have stepFits :
          points (ctx.scoreContributions ++ contributions) <
            UInt32.size := by
        refine lt_of_le_of_lt ?_ fits
        split_ifs with stopped
        · exact le_refl _
        · exact exactRun_extends pipeline rest (record ctx contributions)
      have balanced' := record_balanced balanced contributions stepFits
      have noOverflow : ¬ UInt32.size ≤
          ctx.score.toNat + points contributions := by
        rw [balanced, ← points_append]
        exact not_le.mpr stepFits
      have agree := stop_isSome pipeline balanced' decision
      rw [if_neg (by simp [noOverflow])]
      cases stopped : pipeline.stop (record ctx contributions) decision with
      | some verdict =>
          rw [stopped, Option.isSome_some] at agree
          rw [if_pos agree.symm]
          refine ⟨_, rfl, rfl, balanced', ?_⟩
          simpa using stop_ne_allow pipeline stopped
      | none =>
          rw [stopped, Option.isSome_none] at agree
          rw [← agree] at fits ⊢
          obtain ⟨outcome, ran, same, outcomeBalanced, verdict⟩ :=
            induction (record ctx contributions) balanced' fits
          exact ⟨{ outcome with
              executed := (module, decision) :: outcome.executed },
            by rw [ran]; rfl, same, outcomeBalanced, verdict⟩

/-- A run whose exact total does not fit records more than a word holds. -/
theorem runModules_overflow
    (modules : List WafModule) (ctx : RequestContext)
    (balanced : Balanced ctx)
    (exceeds : UInt32.size ≤ pipeline.exactTotal modules ctx)
    (outcome : Outcome)
    (ran : pipeline.runModules build modules ctx = some outcome) :
    ¬ Balanced outcome.ctx := by
  suffices UInt32.size ≤ points outcome.ctx.scoreContributions by
    intro outcomeBalanced
    rw [← outcomeBalanced] at this
    exact absurd outcome.ctx.score.toNat_lt_size (not_lt.mpr this)
  induction modules generalizing ctx outcome with
  | nil =>
      obtain rfl := Option.some.inj ran
      exact exceeds
  | cons module rest induction =>
      unfold Pipeline.exactTotal at exceeds
      rw [Pipeline.exactRun] at exceeds
      rw [runModules_cons] at ran
      dsimp only at exceeds ran
      set decision := pipeline.decisionOf module ctx
      set contributions := pipeline.contributionsOf module.id decision
      split_ifs at ran with checked
      by_cases stepFits :
          points (ctx.scoreContributions ++ contributions) < UInt32.size
      · -- No overflow yet: both runs go on, or both stop below the bound.
        have balanced' := record_balanced balanced contributions stepFits
        have agree := stop_isSome pipeline balanced' decision
        cases stopped : pipeline.stop (record ctx contributions)
            decision with
        | some verdict =>
            rw [stopped, Option.isSome_some] at agree
            rw [if_pos agree.symm] at exceeds
            exact absurd stepFits (not_lt.mpr exceeds)
        | none =>
            rw [stopped, Option.isSome_none] at agree
            rw [← agree] at exceeds
            rw [stopped] at ran
            obtain ⟨later, ranRest, rfl⟩ := Option.map_eq_some_iff.mp ran
            exact induction (record ctx contributions) balanced' exceeds
              later ranRest
      · have recorded : UInt32.size ≤
            points (record ctx contributions).scoreContributions :=
          not_lt.mp stepFits
        cases stopped : pipeline.stop (record ctx contributions)
            decision with
        | some verdict =>
            rw [stopped] at ran
            obtain rfl := Option.some.inj ran
            exact recorded
        | none =>
            rw [stopped] at ran
            obtain ⟨later, ranRest, rfl⟩ := Option.map_eq_some_iff.mp ran
            exact recorded.trans
              (runModules_extends build pipeline rest _ later ranRest)

/-- A run that allows went through all its modules, with no enforced denial. -/
theorem runModules_allow
    (modules : List WafModule) (ctx : RequestContext) (outcome : Outcome)
    (ran : pipeline.runModules build modules ctx = some outcome)
    (allowed : outcome.verdict = .allow) :
    outcome.executed.map Prod.fst = modules ∧
      (pipeline.mode = .blocking →
        ∀ entry ∈ outcome.executed, denies entry.2 = false) := by
  induction modules generalizing ctx outcome with
  | nil =>
      obtain rfl := Option.some.inj ran
      exact ⟨rfl, by simp⟩
  | cons module rest induction =>
      rw [runModules_cons] at ran
      dsimp only at ran
      set decision := pipeline.decisionOf module ctx
      set ctx' := record ctx (pipeline.contributionsOf module.id decision)
      split_ifs at ran with overflow
      cases stopped : pipeline.stop ctx' decision with
      | some verdict =>
          rw [stopped] at ran
          obtain rfl := Option.some.inj ran
          exact absurd allowed (stop_ne_allow pipeline stopped)
      | none =>
          rw [stopped] at ran
          obtain ⟨later, ranRest, rfl⟩ := Option.map_eq_some_iff.mp ran
          obtain ⟨all, harmless⟩ := induction ctx' later ranRest allowed
          refine ⟨by simp [all], ?_⟩
          intro blocking entry member
          rcases List.mem_cons.mp member with rfl | later
          · exact denies_of_stop_none pipeline blocking stopped
          · exact harmless blocking entry later

/-- Without enforcement a run allows. -/
theorem runModules_detectionOnly
    (detection : pipeline.mode = .detectionOnly)
    (modules : List WafModule) (ctx : RequestContext) (outcome : Outcome)
    (ran : pipeline.runModules build modules ctx = some outcome) :
    outcome.verdict = .allow := by
  induction modules generalizing ctx outcome with
  | nil =>
      obtain rfl := Option.some.inj ran
      rfl
  | cons module rest induction =>
      rw [runModules_cons] at ran
      dsimp only at ran
      split_ifs at ran with overflow
      rw [stop_detectionOnly pipeline detection] at ran
      obtain ⟨later, ranRest, rfl⟩ := Option.map_eq_some_iff.mp ran
      exact induction _ later ranRest

/-- A run in blocking mode that does not end early stays below the threshold. -/
theorem exactRun_below
    (blocking : pipeline.mode = .blocking)
    (modules : List WafModule) (ctx : RequestContext)
    (below :
      points ctx.scoreContributions < pipeline.blockThreshold.toNat)
    (finished : (pipeline.exactRun modules ctx).2 = false) :
    pipeline.exactTotal modules ctx < pipeline.blockThreshold.toNat := by
  induction modules generalizing ctx with
  | nil => exact below
  | cons module rest induction =>
      simp only [Pipeline.exactTotal, Pipeline.exactRun] at finished ⊢
      split_ifs at finished ⊢ with stopped
      refine induction _ ?_ finished
      generalize pipeline.decisionOf module ctx = decision at stopped ⊢
      cases decision <;>
        simp_all [Pipeline.exactStop, Pipeline.contributionsOf]

/-- Without early verdicts `run_phases_filtered` is the loop itself. -/
theorem runPhasesFiltered_eq
    (ctx : RequestContext) (phases : List Phase) (structuralOnly : Bool) :
    pipeline.runPhasesFiltered build ctx phases structuralOnly =
      pipeline.runModules build
        (pipeline.selected phases structuralOnly) ctx := by
  unfold Pipeline.runPhasesFiltered
  cases ran : pipeline.runModules build
      (pipeline.selected phases structuralOnly) ctx with
  | none => rfl
  | some outcome =>
      cases mode : pipeline.mode with
      | blocking => rfl
      | detectionOnly =>
          have allowed :=
            runModules_detectionOnly build pipeline mode _ ctx outcome ran
          rw [Option.map_some, ← allowed]

end Exact

/-! ## Accounting of whole runs -/

section Accounting

variable (build : Build) (pipeline : Pipeline)

/--
The score is the sum of the contributions.  An enforced `allow` had no denial
and stays below the threshold; without enforcement the verdict is `allow` and
every module ran.
-/
structure Accounted (verdict : PipelineVerdict) (ctx : RequestContext)
    (executed : List (WafModule × Decision)) : Prop where
  balanced : Balanced ctx
  blocking : pipeline.mode = .blocking → verdict = .allow →
    (∀ entry ∈ executed, denies entry.2 = false) ∧
      points ctx.scoreContributions < pipeline.blockThreshold.toNat
  detection : pipeline.mode = .detectionOnly →
    verdict = .allow ∧ (executed.map Prod.fst).Perm pipeline.modules

/-- `run` ends without a panic and is accounted for. -/
def RunAccounted (ctx : RequestContext) : Prop :=
  ∃ outcome, pipeline.run build ctx = some outcome ∧
    Accounted pipeline outcome.verdict outcome.ctx outcome.executed

/--
`run_connection` ends without a panic; if it allows, `run_inspection` on the
normalized request does too, and the two together are accounted for.
-/
def SplitRunAccounted (ctx : RequestContext) (normalized : Normalized) :
    Prop :=
  ∃ first, pipeline.runConnection build ctx = some first ∧
    (first.verdict = .allow →
      ∃ second,
        pipeline.runInspection build
            { first.ctx with normalized := normalized } = some second ∧
          Accounted pipeline second.verdict second.ctx
            (first.executed ++ second.executed))

/-- The exact total of all phases fits in a word. -/
def RunFits (ctx : RequestContext) : Prop :=
  pipeline.exactTotal (pipeline.selected phaseOrder false) ctx < UInt32.size

/-- So does the exact total when normalization comes after the connection. -/
def SplitRunFits (ctx : RequestContext) (normalized : Normalized) : Prop :=
  let connection :=
    pipeline.exactRun (pipeline.selected [.connection] false) ctx
  connection.2 = false →
    pipeline.exactTotal (pipeline.selected inspectionPhases false)
      { connection.1 with normalized := normalized } < UInt32.size

/-- Every module belongs to exactly one phase. -/
theorem selected_perm
    (phases : List Phase) (distinct : phases.Nodup)
    (modules : List WafModule)
    (covered : ∀ module ∈ modules, module.phase ∈ phases) :
    (phases.flatMap fun phase =>
      modules.filter fun module => module.phase == phase).Perm modules := by
  induction phases generalizing modules with
  | nil =>
      cases modules with
      | nil => exact List.Perm.nil
      | cons module rest => exact absurd (covered module (by simp)) (by simp)
  | cons phase rest induction =>
      rw [List.nodup_cons] at distinct
      have others :
          (rest.flatMap fun other =>
            modules.filter fun module => module.phase == other) =
          rest.flatMap fun other =>
            (modules.filter fun module => !(module.phase == phase)).filter
              fun module => module.phase == other := by
        refine List.flatMap_congr fun other member => ?_
        rw [List.filter_filter]
        refine List.filter_congr fun module _ => ?_
        by_cases here : module.phase = other
        · have elsewhere : other ≠ phase := by
            rintro rfl
            exact distinct.1 member
          simp [here, elsewhere]
        · simp [here]
      rw [List.flatMap_cons, others]
      refine (List.Perm.append_left _ (induction distinct.2 _ ?_)).trans
        (List.filter_append_perm _ modules)
      intro module member
      rw [List.mem_filter] at member
      rcases List.mem_cons.mp (covered module member.1) with here | later
      · simp [here] at member
      · exact later

theorem selected_phaseOrder_perm :
    (pipeline.selected phaseOrder false).Perm pipeline.modules := by
  have covered : ∀ module ∈ pipeline.modules,
      module.phase ∈ phaseOrder := by
    intro module _
    cases module.phase <;> decide
  have perm := selected_perm phaseOrder (by decide) pipeline.modules covered
  simpa [Pipeline.selected] using perm

/-- A run that fits, from a balanced context below the threshold. -/
theorem runModules_accounted
    (modules : List WafModule) (ctx : RequestContext)
    (balanced : Balanced ctx)
    (below :
      points ctx.scoreContributions < pipeline.blockThreshold.toNat)
    (fits : pipeline.exactTotal modules ctx < UInt32.size) :
    ∃ outcome, pipeline.runModules build modules ctx = some outcome ∧
      outcome.ctx = (pipeline.exactRun modules ctx).1 ∧
      (outcome.verdict = .allow ↔
        (pipeline.exactRun modules ctx).2 = false) ∧
      Balanced outcome.ctx ∧
      (outcome.verdict = .allow →
        outcome.executed.map Prod.fst = modules) ∧
      (pipeline.mode = .blocking → outcome.verdict = .allow →
        (∀ entry ∈ outcome.executed, denies entry.2 = false) ∧
          points outcome.ctx.scoreContributions <
            pipeline.blockThreshold.toNat) ∧
      (pipeline.mode = .detectionOnly → outcome.verdict = .allow) := by
  obtain ⟨outcome, ran, same, outcomeBalanced, verdict⟩ :=
    runModules_exact build pipeline modules ctx balanced fits
  refine ⟨outcome, ran, same, verdict, outcomeBalanced, ?_, ?_, ?_⟩
  · intro allowed
    exact (runModules_allow build pipeline modules ctx outcome ran allowed).1
  · intro blocking allowed
    refine ⟨(runModules_allow build pipeline modules ctx outcome ran
      allowed).2 blocking, ?_⟩
    rw [same]
    exact exactRun_below pipeline blocking modules ctx below
      (verdict.mp allowed)
  · intro detection
    exact runModules_detectionOnly build pipeline detection modules ctx
      outcome ran

theorem exactRun_append
    (first second : List WafModule) (ctx : RequestContext) :
    pipeline.exactRun (first ++ second) ctx =
      if (pipeline.exactRun first ctx).2 then pipeline.exactRun first ctx
      else pipeline.exactRun second (pipeline.exactRun first ctx).1 := by
  induction first generalizing ctx with
  | nil => simp [Pipeline.exactRun]
  | cons module rest induction =>
      simp only [List.cons_append, Pipeline.exactRun]
      by_cases stopped : pipeline.exactStop
          (record ctx (pipeline.contributionsOf module.id
            (pipeline.decisionOf module ctx)))
          (pipeline.decisionOf module ctx) = true
      · simp [stopped]
      · simp [stopped, induction]

/-- The connection phase contributes to the total of all phases. -/
theorem connection_fits
    {ctx : RequestContext} (fits : RunFits pipeline ctx) :
    pipeline.exactTotal (pipeline.selected [.connection] false) ctx <
      UInt32.size := by
  refine lt_of_le_of_lt ?_ fits
  have split : pipeline.selected phaseOrder false =
      pipeline.selected [.connection] false ++
        pipeline.selected inspectionPhases false := by
    simp [Pipeline.selected, phaseOrder, inspectionPhases]
  rw [split]
  unfold Pipeline.exactTotal
  rw [exactRun_append]
  split_ifs with ended
  · exact le_refl _
  · exact exactRun_extends pipeline _ _

theorem runAccounted_iff
    (ctx : RequestContext) (balanced : Balanced ctx)
    (below :
      points ctx.scoreContributions < pipeline.blockThreshold.toNat) :
    RunAccounted build pipeline ctx ↔ RunFits pipeline ctx := by
  simp only [RunAccounted, Pipeline.run, Pipeline.runPhases,
    runPhasesFiltered_eq]
  constructor
  · rintro ⟨outcome, ran, accounted⟩
    by_contra exceeds
    exact runModules_overflow build pipeline _ ctx balanced
      (not_lt.mp exceeds) outcome ran accounted.balanced
  · intro fits
    obtain ⟨outcome, ran, -, -, outcomeBalanced, all, enforced, detects⟩ :=
      runModules_accounted build pipeline _ ctx balanced below fits
    refine ⟨outcome, ran, outcomeBalanced, enforced, ?_⟩
    intro detection
    refine ⟨detects detection, ?_⟩
    rw [all (detects detection)]
    exact selected_phaseOrder_perm pipeline

theorem splitRunAccounted_iff
    (ctx : RequestContext) (normalized : Normalized)
    (balanced : Balanced ctx)
    (below :
      points ctx.scoreContributions < pipeline.blockThreshold.toNat)
    (fits : RunFits pipeline ctx) :
    SplitRunAccounted build pipeline ctx normalized ↔
      SplitRunFits pipeline ctx normalized := by
  simp only [SplitRunAccounted, SplitRunFits, Pipeline.runConnection,
    Pipeline.runInspection, Pipeline.runPhases, runPhasesFiltered_eq]
  obtain ⟨first, ran, same, verdict, firstBalanced, all, enforced, detects⟩ :=
    runModules_accounted build pipeline _ ctx balanced below
      (connection_fits pipeline fits)
  rw [← same, ← verdict]
  constructor
  · rintro ⟨first', ran', accounted⟩ allowed
    obtain rfl := Option.some.inj (ran.symm.trans ran')
    obtain ⟨second, ranSecond, secondAccounted⟩ := accounted allowed
    by_contra exceeds
    exact runModules_overflow build pipeline _
      { first.ctx with normalized := normalized } firstBalanced
      (not_lt.mp exceeds) second ranSecond secondAccounted.balanced
  · intro fitsSecond
    refine ⟨first, ran, fun allowed => ?_⟩
    have belowFirst : pipeline.mode = .blocking →
        points first.ctx.scoreContributions <
          pipeline.blockThreshold.toNat :=
      fun blocking => (enforced blocking allowed).2
    obtain ⟨second, ranSecond, sameSecond, secondBalanced, secondVerdict⟩ :=
      runModules_exact build pipeline _
        { first.ctx with normalized := normalized } firstBalanced
        (fitsSecond allowed)
    refine ⟨second, ranSecond, secondBalanced, ?_, ?_⟩
    · intro blocking allowedSecond
      refine ⟨?_, ?_⟩
      · intro entry member
        rcases List.mem_append.mp member with early | late
        · exact (enforced blocking allowed).1 entry early
        · exact (runModules_allow build pipeline _ _ second ranSecond
            allowedSecond).2 blocking entry late
      · rw [sameSecond]
        exact exactRun_below pipeline blocking _ _ (belowFirst blocking)
          (secondVerdict.mp allowedSecond)
    · intro detection
      have allowedSecond := runModules_detectionOnly build pipeline detection
        _ _ second ranSecond
      refine ⟨allowedSecond, ?_⟩
      rw [List.map_append, all allowed,
        (runModules_allow build pipeline _ _ second ranSecond
          allowedSecond).1]
      simpa [Pipeline.selected, phaseOrder, inspectionPhases] using
        selected_phaseOrder_perm pipeline

/--
Anomaly-score accounting, exactly.  For an accepted configuration and a fresh
request, the whole run and the split run are accounted for if and only if the
points recorded in unbounded arithmetic fit in a 32-bit word.
-/
theorem accounted_iff_fits
    (config : Config) (accepted : config.validate = .ok ())
    (modules : List (Config → WafModule))
    (ctx : RequestContext) (normalized : Normalized)
    (fresh : ctx.score = 0) (unscored : ctx.scoreContributions = []) :
    let pipeline := Pipeline.new config modules
    RunAccounted build pipeline ctx ∧
        SplitRunAccounted build pipeline ctx normalized ↔
      RunFits pipeline ctx ∧ SplitRunFits pipeline ctx normalized := by
  intro pipeline
  have balanced : Balanced ctx := by
    simp [Balanced, fresh, unscored]
  have below :
      points ctx.scoreContributions < pipeline.blockThreshold.toNat := by
    have positive := config.blockThreshold_ne_zero accepted
    rw [unscored, points_nil]
    exact Nat.pos_of_ne_zero fun zero =>
      positive (UInt32.toNat_inj.mp (zero.trans UInt32.toNat_zero.symm))
  rw [runAccounted_iff build pipeline ctx balanced below]
  constructor
  · rintro ⟨fits, split⟩
    exact ⟨fits, (splitRunAccounted_iff build pipeline ctx normalized
      balanced below fits).mp split⟩
  · rintro ⟨fits, split⟩
    exact ⟨fits, (splitRunAccounted_iff build pipeline ctx normalized
      balanced below fits).mpr split⟩

end Accounting

/-! ## A heavy request -/

/-- A module that reports two critical matches on every request. -/
def twoCriticals (_config : Config) : WafModule where
  id := "twice"
  phase := .body
  inspect := fun _ =>
    some (.scores [⟨"first", .critical⟩, ⟨"second", .critical⟩])

/-- Blocking mode with a critical weight of half the range of a word. -/
def heavyConfig : Config :=
  { waf := { mode := .blocking, severityScores := { critical := 0x80000000 } } }

/-- With default weights two critical matches are accounted for. -/
theorem accounted_iff_fits_twoCriticals :
    RunAccounted ⟨false⟩ (Pipeline.new {} [twoCriticals]) emptyRequest ∧
      SplitRunAccounted ⟨false⟩ (Pipeline.new {} [twoCriticals])
        emptyRequest {} :=
  (accounted_iff_fits ⟨false⟩ {} rfl [twoCriticals] emptyRequest {} rfl
    rfl).mpr ⟨by unfold RunFits; decide +kernel, by
      unfold SplitRunFits; decide +kernel⟩

/-- The score of the heavy request wraps to zero and the request passes. -/
theorem heavy_request_allowed :
    ¬ ∀ (build : Build) (config : Config),
      config.validate = .ok () →
      ∀ (modules : List (Config → WafModule)) (ctx : RequestContext)
        (normalized : Normalized),
        ctx.score = 0 → ctx.scoreContributions = [] →
        RunAccounted build (Pipeline.new config modules) ctx ∧
          SplitRunAccounted build (Pipeline.new config modules) ctx
            normalized := by
  intro claimed
  obtain ⟨accounted, -⟩ :=
    claimed ⟨false⟩ heavyConfig rfl [twoCriticals] emptyRequest {} rfl rfl
  have fits :=
    (runAccounted_iff ⟨false⟩ (Pipeline.new heavyConfig [twoCriticals])
      emptyRequest rfl (by decide +kernel)).mp accounted
  unfold RunFits at fits
  exact absurd fits (by decide +kernel)

end LightWaf
