import LightWaf.Pipeline.Gate

/-!
# Runs that report more

Two pipelines with one policy run the same modules at two levels of
strictness.  When at every turn the stricter module reports whatever the other
one does, and no sum overflows, a denial by the laxer pipeline is a denial by
the stricter one.  The two runs may end at different modules: the stricter one
can only reach the threshold earlier.
-/

namespace LightWaf

open LightWaf.Core

/-- The same request, up to what has been scored so far. -/
def SameRequest (left right : RequestContext) : Prop :=
  ∃ score contributions, right = { left with
    score := score, scoreContributions := contributions }

theorem SameRequest.record
    {left right : RequestContext} (same : SameRequest left right)
    (lower upper : List ScoreContribution) :
    SameRequest (record left lower) (record right upper) := by
  obtain ⟨score, contributions, rfl⟩ := same
  exact ⟨_, _, rfl⟩

/-- One decision covers another when it reports at least as much. -/
inductive Covered : Decision → Decision → Prop
  | same (decision : Decision) : Covered decision decision
  | silent (decision : Decision) : Covered .allow decision
  | more {lower upper : List ScoreItem} (sublist : lower.Sublist upper) :
      Covered (.scores lower) (.scores upper)

/-- The pipelines agree on everything but their modules. -/
structure SamePolicy (lower upper : Pipeline) : Prop where
  blockThreshold : lower.blockThreshold = upper.blockThreshold
  mode : lower.mode = upper.mode
  severityScores : lower.severityScores = upper.severityScores
  onInternalError : lower.onInternalError = upper.onInternalError

/-- A run denies when it ends with a verdict other than `allow`. -/
def Denied (run : Option Outcome) : Prop :=
  ∃ outcome, run = some outcome ∧ outcome.verdict ≠ .allow

/-- No sum formed during a run exceeds a 32-bit word. -/
def Pipeline.sumsFit (pipeline : Pipeline) :
    List WafModule → RequestContext → Bool
  | [], _ => true
  | module :: rest, ctx =>
      let decision := pipeline.decisionOf module ctx
      let contributions := pipeline.contributionsOf module.id decision
      decide (ctx.score.toNat + points contributions < UInt32.size) &&
        ((pipeline.stop (record ctx contributions) decision).isSome ||
          Pipeline.sumsFit pipeline rest (record ctx contributions))

/-! ## One turn -/

theorem sumsFit_cons
    {pipeline : Pipeline} {module : WafModule} {rest : List WafModule}
    {ctx : RequestContext} :
    pipeline.sumsFit (module :: rest) ctx = true ↔
      ctx.score.toNat + points (pipeline.contributionsOf module.id
          (pipeline.decisionOf module ctx)) < UInt32.size ∧
        (pipeline.stop
            (record ctx (pipeline.contributionsOf module.id
              (pipeline.decisionOf module ctx)))
            (pipeline.decisionOf module ctx) = none →
          pipeline.sumsFit rest
            (record ctx (pipeline.contributionsOf module.id
              (pipeline.decisionOf module ctx))) = true) := by
  rw [Pipeline.sumsFit]
  simp only [Bool.and_eq_true, decide_eq_true_eq, Bool.or_eq_true]
  refine and_congr_right fun _ => ?_
  cases pipeline.stop
      (record ctx (pipeline.contributionsOf module.id
        (pipeline.decisionOf module ctx)))
      (pipeline.decisionOf module ctx) with
  | none => simp
  | some verdict => simp

theorem SamePolicy.contributionsOf
    {lower upper : Pipeline} (policy : SamePolicy lower upper)
    (module : String) (decision : Decision) :
    lower.contributionsOf module decision =
      upper.contributionsOf module decision := by
  cases decision <;> simp [Pipeline.contributionsOf, policy.severityScores]

/-- The points of a decision do not depend on the module's name. -/
theorem points_contributionsOf
    (pipeline : Pipeline) (module other : String) (decision : Decision) :
    points (pipeline.contributionsOf module decision) =
      points (pipeline.contributionsOf other decision) := by
  cases decision <;>
    simp [Pipeline.contributionsOf, points, Function.comp_def]

/-- Whoever reports more scores at least as much. -/
theorem Covered.points_le
    {lower upper : Decision} (covered : Covered lower upper)
    (pipeline : Pipeline) (module other : String) :
    points (pipeline.contributionsOf module lower) ≤
      points (pipeline.contributionsOf other upper) := by
  rw [points_contributionsOf pipeline module other]
  cases covered with
  | same decision => exact le_refl _
  | silent decision => exact Nat.zero_le _
  | more sublist =>
      refine List.Sublist.sum_le_sum ?_ fun _ _ => Nat.zero_le _
      exact (sublist.map _).map _

theorem thresholdCheck_isSome
    (pipeline : Pipeline) (blocking : pipeline.mode = .blocking)
    (ctx : RequestContext) (ruleId : String) :
    (pipeline.thresholdCheck ctx ruleId).isSome = true ↔
      pipeline.blockThreshold.toNat ≤ ctx.score.toNat := by
  unfold Pipeline.thresholdCheck
  rw [if_pos blocking]
  split_ifs with below
  · rw [UInt32.lt_iff_toNat_lt] at below
    simpa using below
  · rw [UInt32.lt_iff_toNat_lt, not_lt] at below
    simpa using below

/-- Whoever reports more, on a score at least as high, ends the run too. -/
theorem Covered.stop_isSome
    {lower upper : Pipeline} (policy : SamePolicy lower upper)
    (blocking : lower.mode = .blocking)
    {laxer stricter : Decision} (covered : Covered laxer stricter)
    {left right : RequestContext}
    (higher : left.score.toNat ≤ right.score.toNat)
    (stopped : (lower.stop left laxer).isSome = true) :
    (upper.stop right stricter).isSome = true := by
  have upperBlocking : upper.mode = .blocking := by
    rw [← policy.mode]
    exact blocking
  have check : ∀ first second,
      (lower.thresholdCheck left first).isSome = true →
        (upper.thresholdCheck right second).isSome = true := by
    intro first second reached
    rw [thresholdCheck_isSome lower blocking, policy.blockThreshold]
      at reached
    rw [thresholdCheck_isSome upper upperBlocking]
    exact reached.trans higher
  cases covered with
  | silent decision => cases stopped
  | more sublist => exact check _ _ stopped
  | same =>
      cases laxer with
      | allow => cases stopped
      | monitor ruleId => cases stopped
      | score ruleId points => exact check _ _ stopped
      | scores items => exact check _ _ stopped
      | block ruleId reason =>
          simp [Pipeline.stop, Pipeline.enforced, upperBlocking]
      | reject ruleId reason status retryAfter =>
          simp [Pipeline.stop, Pipeline.enforced, upperBlocking]

/-! ## Whole runs -/

theorem denied_map_executed
    {run : Option Outcome} {entry : WafModule × Decision} :
    Denied (run.map fun outcome => { outcome with
      executed := entry :: outcome.executed }) ↔ Denied run := by
  cases run with
  | none => simp [Denied]
  | some outcome => simp [Denied]

/-- Whether a run denies can be read off its verdict. -/
theorem denied_of_map_eq
    {first second : Option Outcome}
    (agree : first.map (fun outcome => (outcome.verdict, outcome.ctx)) =
      second.map fun outcome => (outcome.verdict, outcome.ctx))
    (denied : Denied first) :
    Denied second := by
  obtain ⟨outcome, rfl, refused⟩ := denied
  obtain ⟨other, rfl, same⟩ := Option.map_eq_some_iff.mp agree.symm
  refine ⟨other, rfl, ?_⟩
  rw [(Prod.mk.inj same).1]
  exact refused

/-- A turn that fits does not panic: it denies here, or the rest does. -/
theorem denied_cons_iff
    (build : Build) (pipeline : Pipeline)
    {module : WafModule} {rest : List WafModule} {ctx : RequestContext}
    (fits : pipeline.sumsFit (module :: rest) ctx = true) :
    Denied (pipeline.runModules build (module :: rest) ctx) ↔
      (pipeline.stop
          (record ctx (pipeline.contributionsOf module.id
            (pipeline.decisionOf module ctx)))
          (pipeline.decisionOf module ctx)).isSome = true ∨
        Denied (pipeline.runModules build rest
          (record ctx (pipeline.contributionsOf module.id
            (pipeline.decisionOf module ctx)))) ∧
        pipeline.stop
          (record ctx (pipeline.contributionsOf module.id
            (pipeline.decisionOf module ctx)))
          (pipeline.decisionOf module ctx) = none := by
  have within : ¬ UInt32.size ≤ ctx.score.toNat +
      points (pipeline.contributionsOf module.id
        (pipeline.decisionOf module ctx)) :=
    not_le.mpr (sumsFit_cons.mp fits).1
  rw [runModules_cons]
  dsimp only
  rw [if_neg (by simp [within])]
  cases stopped : pipeline.stop
      (record ctx (pipeline.contributionsOf module.id
        (pipeline.decisionOf module ctx)))
      (pipeline.decisionOf module ctx) with
  | some verdict =>
      have refused := stop_ne_allow pipeline stopped
      simp [Denied, refused]
  | none => simp [denied_map_executed]

/--
Lockstep of the laxer and the stricter run.  The invariant is that the
stricter score is at least as high.
-/
theorem runModules_denied
    {ι : Type} (build : Build)
    {lower upper : Pipeline} (policy : SamePolicy lower upper)
    (blocking : lower.mode = .blocking)
    (laxer stricter : ι → WafModule) (modules : List ι)
    (covered : ∀ module ∈ modules, ∀ left right,
      SameRequest left right →
        Covered (lower.decisionOf (laxer module) left)
          (upper.decisionOf (stricter module) right))
    (left right : RequestContext) (same : SameRequest left right)
    (higher : left.score.toNat ≤ right.score.toNat)
    (lowerFits : lower.sumsFit (modules.map laxer) left = true)
    (upperFits : upper.sumsFit (modules.map stricter) right = true)
    (denied : Denied (lower.runModules build (modules.map laxer) left)) :
    Denied (upper.runModules build (modules.map stricter) right) := by
  induction modules generalizing left right with
  | nil =>
      obtain ⟨outcome, ran, refused⟩ := denied
      obtain rfl := Option.some.inj ran
      exact absurd rfl refused
  | cons module rest induction =>
      rw [List.map_cons] at lowerFits upperFits denied ⊢
      have lowerTurn := sumsFit_cons.mp lowerFits
      have upperTurn := sumsFit_cons.mp upperFits
      have turn := covered module List.mem_cons_self left right same
      have more := turn.points_le upper (laxer module).id (stricter module).id
      have scored :
          (record left (lower.contributionsOf (laxer module).id
            (lower.decisionOf (laxer module) left))).score.toNat ≤
          (record right (upper.contributionsOf (stricter module).id
            (upper.decisionOf (stricter module) right))).score.toNat := by
        rw [record_score _ _ lowerTurn.1, record_score _ _ upperTurn.1,
          policy.contributionsOf]
        omega
      rw [denied_cons_iff build lower lowerFits] at denied
      rw [denied_cons_iff build upper upperFits]
      cases upperStop : upper.stop
          (record right (upper.contributionsOf (stricter module).id
            (upper.decisionOf (stricter module) right)))
          (upper.decisionOf (stricter module) right) with
      | some verdict => exact Or.inl rfl
      | none =>
          rcases denied with here | ⟨later, passed⟩
          · have ended := turn.stop_isSome policy blocking scored here
            rw [upperStop] at ended
            cases ended
          · exact Or.inr ⟨induction
              (fun other member => covered other
                (List.mem_cons_of_mem _ member))
              _ _ (same.record _ _) scored (lowerTurn.2 passed)
              (upperTurn.2 upperStop) later, rfl⟩

/-- Silent modules form no sums. -/
theorem sumsFit_of_filter
    (pipeline : Pipeline) (keep : WafModule → Bool)
    (modules : List WafModule) (ctx : RequestContext)
    (silent : ∀ module ∈ modules, keep module = false → Silent ctx module)
    (fits : pipeline.sumsFit (modules.filter keep) ctx = true) :
    pipeline.sumsFit modules ctx = true := by
  induction modules generalizing ctx with
  | nil => rfl
  | cons module rest induction =>
      have silentRest : ∀ contributions, ∀ other ∈ rest,
          keep other = false → Silent (record ctx contributions) other :=
        fun contributions other member left =>
          silent other (List.mem_cons_of_mem _ member) left
      cases kept : keep module with
      | true =>
          rw [List.filter_cons_of_pos kept, sumsFit_cons] at fits
          exact sumsFit_cons.mpr ⟨fits.1, fun passed =>
            induction _ (silentRest _) (fits.2 passed)⟩
      | false =>
          rw [List.filter_cons_of_neg (by simp [kept])] at fits
          have allowed := decisionOf_silent pipeline
            (silent module List.mem_cons_self kept)
          have unchanged := induction ctx (by simpa using silentRest []) fits
          refine sumsFit_cons.mpr ⟨?_, ?_⟩
          · rw [allowed]
            exact ctx.score.toNat_lt_size
          · intro _
            rw [allowed]
            simpa [Pipeline.contributionsOf] using unchanged

end LightWaf
