import LightWaf.Pipeline.Accounting

/-!
# Gated runs

When the gate is closed the pipeline runs its structural modules only.  That
makes no difference to the outcome as long as every module left out would have
allowed the request.
-/

namespace LightWaf

open LightWaf.Core

section Gate

variable (build : Build) (pipeline : Pipeline)

/-- A module that allows a request whatever its score. -/
def Silent (ctx : RequestContext) (module : WafModule) : Prop :=
  ∀ score contributions,
    module.inspect { ctx with
      score := score, scoreContributions := contributions } = some .allow

theorem decisionOf_silent
    {ctx : RequestContext} {module : WafModule}
    (silent : Silent ctx module) :
    pipeline.decisionOf module ctx = .allow := by
  have inspected : module.inspect ctx = some .allow :=
    silent ctx.score ctx.scoreContributions
  rw [Pipeline.decisionOf, inspected]

/-- Leaving out silent modules changes neither the verdict nor the context. -/
theorem runModules_filter
    (keep : WafModule → Bool) (modules : List WafModule)
    (ctx : RequestContext)
    (silent : ∀ module ∈ modules, keep module = false →
      Silent ctx module) :
    (pipeline.runModules build (modules.filter keep) ctx).map
        (fun outcome => (outcome.verdict, outcome.ctx)) =
      (pipeline.runModules build modules ctx).map
        (fun outcome => (outcome.verdict, outcome.ctx)) := by
  induction modules generalizing ctx with
  | nil => rfl
  | cons module rest induction =>
      have silentRest : ∀ contributions, ∀ other ∈ rest,
          keep other = false → Silent (record ctx contributions) other :=
        fun contributions other member left =>
          silent other (List.mem_cons_of_mem _ member) left
      cases kept : keep module with
      | true =>
          rw [List.filter_cons_of_pos kept, runModules_cons,
            runModules_cons]
          dsimp only
          split_ifs
          · rfl
          · cases pipeline.stop
                (record ctx (pipeline.contributionsOf module.id
                  (pipeline.decisionOf module ctx)))
                (pipeline.decisionOf module ctx) with
            | some verdict => rfl
            | none =>
                simpa [Option.map_map, Function.comp_def] using
                  induction _ (silentRest _)
      | false =>
          have allowed := decisionOf_silent pipeline
            (silent module List.mem_cons_self kept)
          have fits : ¬ UInt32.size ≤ ctx.score.toNat :=
            not_le.mpr ctx.score.toNat_lt_size
          rw [List.filter_cons_of_neg (by simp [kept]), runModules_cons,
            allowed]
          have unchanged := induction ctx
            (by simpa using silentRest [])
          simp only [Pipeline.contributionsOf, points_nil, Nat.add_zero,
            fits, decide_false, Bool.and_false, Bool.false_eq_true,
            if_false, record_nil, Pipeline.stop, Option.map_map,
            Function.comp_def]
          exact unchanged

theorem selected_structuralOnly (phases : List Phase) :
    pipeline.selected phases true =
      (pipeline.selected phases false).filter WafModule.structural := by
  simp only [Pipeline.selected, List.filter_flatMap, List.filter_filter]
  congr 1
  funext phase
  congr 1
  funext module
  simp [Bool.and_comm]

/-- A closed gate over silent modules makes no difference. -/
theorem runInspectionGated_eq
    (ctx : RequestContext)
    (silent : ∀ module ∈ pipeline.selected inspectionPhases false,
      module.structural = false → Silent ctx module) :
    (pipeline.runInspectionGated build ctx false).map
        (fun outcome => (outcome.verdict, outcome.ctx)) =
      (pipeline.runInspectionGated build ctx true).map
        (fun outcome => (outcome.verdict, outcome.ctx)) := by
  simp only [Pipeline.runInspectionGated, Pipeline.runInspection,
    Pipeline.runPhases, runPhasesFiltered_eq, Bool.false_eq_true, if_false,
    if_true, selected_structuralOnly]
  exact runModules_filter build pipeline WafModule.structural _ ctx silent

end Gate

end LightWaf
