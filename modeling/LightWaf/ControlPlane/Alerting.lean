import LightWaf.ControlPlane.Evaluator

/-!
# Alerts over whole runs

What the evaluator guarantees however its queries fail and whenever its process
restarts.  Every alert is exact, a rule that is evaluated to its end passes no
group over, and no alert is fired again within its cooldown, as long as the
retention keeps the alerts for that time.
-/

namespace LightWaf.ControlPlane.Evaluator

open LightWaf.Rust
open LightWaf.Governance
open LightWaf.ControlPlane.Siem
open LightWaf.Theory.Machine

/-! ## What is fired -/

/-- An alert of the group is within its cooldown, or of this very instant. -/
def Covered (fired : List Alert) (rule : AlertRule) (now : OffsetDateTime)
    (groupKey : Text) : Prop :=
  ∃ alert ∈ fired, Alert.Of rule.name groupKey alert ∧
    (now.nanos - alert.firedAt.nanos < seconds rule.cooldownSeconds ∨
      alert.firedAt = timestamptz now)

namespace Evaluation

/-- The rows that the database has answered with. -/
def answer (evaluation : Evaluation) : List (Text × Int) :=
  countEventsGrouped evaluation.rule (timestamptz evaluation.since)
    evaluation.counted

/-- The rule is a configured one, and the window ends now. -/
structure Sane (config : Alerting) (evaluation : Evaluation) : Prop where
  rule : evaluation.rule ∈ config.rules
  rest : ∀ rule ∈ evaluation.rest, rule ∈ config.rules
  since : earlier evaluation.now evaluation.rule.windowSeconds =
    some evaluation.since

/-- Every row over the threshold is still to come or covered. -/
structure Tracks (fired : List Alert) (evaluation : Evaluation)
    (left : List (Text × Int)) : Prop where
  rows : ∀ row ∈ left, row ∈ evaluation.answer
  covered : ∀ row ∈ evaluation.answer, evaluation.rule.threshold ≤ row.2 →
    row ∈ left ∨ Covered fired evaluation.rule evaluation.now row.1

end Evaluation

/-- What holds of the evaluator, given the rows inserted so far. -/
def Phase.Fits (config : Alerting) (fired : List Alert) : Phase → Prop
  | .waiting | .panicked => True
  | .starting rules => ∀ rule ∈ rules, rule ∈ config.rules
  | .counting evaluation => evaluation.Sane config
  | .grouping evaluation => evaluation.Sane config ∧
      evaluation.Tracks fired evaluation.rows
  | .asking evaluation groupKey count => evaluation.Sane config ∧
      evaluation.Tracks fired ((groupKey, count) :: evaluation.rows) ∧
      evaluation.rule.threshold ≤ count
  | .inserting evaluation alert => evaluation.Sane config ∧
      ∃ groupKey count,
        alert = alertOf evaluation.rule evaluation.now groupKey count ∧
        evaluation.Tracks fired ((groupKey, count) :: evaluation.rows) ∧
        evaluation.rule.threshold ≤ count

/-- The invariant that needs no condition. -/
structure Tracked (config : Alerting) (plane : Plane) : Prop where
  phase : plane.phase.Fits config plane.fired
  stored : ∀ alert ∈ plane.alerts, alert ∈ plane.fired

section Invariant

variable {config : Alerting} {plane next : Plane} {evaluation : Evaluation}

theorem Covered.mono
    {fired more : List Alert} {rule : AlertRule} {now : OffsetDateTime}
    {groupKey : Text} (covered : Covered fired rule now groupKey)
    (grows : ∀ alert ∈ fired, alert ∈ more) :
    Covered more rule now groupKey := by
  obtain ⟨alert, member, own, recent⟩ := covered
  exact ⟨alert, grows alert member, own, recent⟩

/-- A row that is below the threshold or covered is dealt with. -/
theorem Evaluation.Tracks.settle
    {fired more : List Alert} {row : Text × Int} {rows : List (Text × Int)}
    (tracks : evaluation.Tracks fired (row :: rows))
    (grows : ∀ alert ∈ fired, alert ∈ more)
    (settled : row.2 < evaluation.rule.threshold ∨
      Covered more evaluation.rule evaluation.now row.1) :
    evaluation.Tracks more rows where
  rows other member := tracks.rows other (List.mem_cons_of_mem _ member)
  covered other member enough := by
    rcases tracks.covered other member enough with remaining | covered
    · rcases List.mem_cons.mp remaining with rfl | remaining
      · rcases settled with under | covered
        · exact absurd enough (not_le.mpr under)
        · exact .inr covered
      · exact .inl remaining
    · exact .inr (covered.mono grows)

theorem Evaluation.Sane.fail
    (sane : evaluation.Sane config) (fired : List Alert) :
    evaluation.fail.Fits config fired :=
  sane.rest

/-- The evaluator moves on and leaves the tables as they are. -/
theorem Tracked.turn
    (tracked : Tracked config plane) {phase : Phase}
    (fits : phase.Fits config plane.fired) :
    Tracked config { plane with phase := phase } :=
  ⟨fits, tracked.stored⟩

/-- A row is inserted. -/
theorem Tracked.record
    (tracked : Tracked config plane) {alert : Alert} {post : Bool}
    {phase : Phase} (fits : phase.Fits config
      (plane.fired ++ [insertedRow alert])) :
    Tracked config { plane.record alert post with phase := phase } where
  phase := fits
  stored row member := by
    rcases List.mem_append.mp member with member | member
    · exact List.mem_append_left _ (tracked.stored row member)
    · exact List.mem_append_right _ member

theorem covered_of_inserted
    (fired : List Alert) (rule : AlertRule) (now : OffsetDateTime)
    (groupKey : Text) (count : Int) :
    Covered (fired ++ [insertedRow (alertOf rule now groupKey count)]) rule
      now groupKey :=
  ⟨_, List.mem_append_right _ List.mem_cons_self, ⟨rfl, rfl⟩, .inr rfl⟩

theorem Tracked.step
    (tracked : Tracked config plane) {action : Action}
    (moves : Moves config plane action next) :
    Tracked config next := by
  have fits := tracked.phase
  cases moves with
  | tick idle => exact tracked.turn fun _ member => member
  | finish now empty => exact tracked.turn trivial
  | start first window =>
      rw [first] at fits
      exact tracked.turn ⟨fits _ List.mem_cons_self,
        fun rule member => fits rule (List.mem_cons_of_mem _ member), window⟩
  | panic now => exact tracked.turn trivial
  | unanswered counts =>
      rw [counts] at fits
      exact tracked.turn (fits.fail _)
  | answered counts answer =>
      rw [counts] at fits
      refine tracked.turn ⟨⟨fits.rule, fits.rest, fits.since⟩, ?_, ?_⟩
      · exact fun row member => answer.mem_iff.mp member
      · exact fun row member _ => .inl (answer.mem_iff.mpr member)
  | ruleDone groups empty =>
      rw [groups] at fits
      exact tracked.turn fits.1.rest
  | below groups first under =>
      rw [groups, Phase.Fits, first] at fits
      obtain ⟨sane, tracks⟩ := fits
      have settled := tracks.settle (fun _ member => member) (.inl under)
      exact tracked.turn ⟨⟨sane.rule, sane.rest, sane.since⟩,
        settled.rows, settled.covered⟩
  | reached groups first enough =>
      rw [groups, Phase.Fits, first] at fits
      obtain ⟨sane, tracks⟩ := fits
      exact tracked.turn ⟨⟨sane.rule, sane.rest, sane.since⟩,
        ⟨tracks.rows, tracks.covered⟩, enough⟩
  | unknown asks =>
      rw [asks] at fits
      exact tracked.turn (fits.1.fail _)
  | fires asks due =>
      rw [asks] at fits
      obtain ⟨sane, tracks, enough⟩ := fits
      exact tracked.turn ⟨sane, _, _, rfl, tracks, enough⟩
  | cools asks quiet =>
      rw [asks] at fits
      obtain ⟨sane, tracks, enough⟩ := fits
      obtain ⟨alert, member, own, recent⟩ :=
        cooling_of_not_shouldFire enough quiet
      refine tracked.turn ⟨sane, tracks.settle (fun _ member => member) ?_⟩
      exact .inr ⟨alert, tracked.stored alert member, own, .inl recent⟩
  | inserted inserts =>
      rw [inserts] at fits
      obtain ⟨sane, groupKey, count, rfl, tracks, -⟩ := fits
      refine tracked.record ⟨sane, tracks.settle
        (fun _ member => List.mem_append_left _ member) ?_⟩
      exact .inr (covered_of_inserted ..)
  | refused inserts =>
      rw [inserts] at fits
      exact tracked.turn (fits.1.fail _)
  | lost inserts =>
      rw [inserts] at fits
      exact tracked.record (fits.1.fail _)
  | ingest event => exact ⟨tracked.phase, tracked.stored⟩
  | pruneEvents time => exact ⟨tracked.phase, tracked.stored⟩
  | pruneAlerts time bounded =>
      exact ⟨tracked.phase, fun alert member =>
        tracked.stored alert (List.mem_of_mem_filter member)⟩
  | restart => exact tracked.turn trivial

/-! ## Groups over the threshold -/

/-- The events of a group in the window that was counted. -/
def Evaluation.countOf (evaluation : Evaluation) (group : Option Text) : Int :=
  (evaluation.rule.members (timestamptz evaluation.since) group
    evaluation.counted).length

/--
An alert tells the number of events of a group of its rule that is over the
threshold.  When a rule is done, every such group has an alert of this instant
or one that is still in its cooldown.
-/
def Reports (plane : Plane) (action : Action) : Prop :=
  match plane.phase, action with
  | .inserting evaluation alert, .insert _ =>
      ∃ group, evaluation.rule.threshold ≤ evaluation.countOf group ∧
        alert = alertOf evaluation.rule evaluation.now (group.getD [])
          (evaluation.countOf group)
  | .grouping evaluation, .nextGroup => evaluation.rows = [] →
      ∀ group, evaluation.rule.threshold ≤ evaluation.countOf group →
        Covered plane.fired evaluation.rule evaluation.now (group.getD [])
  | _, _ => True

theorem Tracked.reports
    (tracked : Tracked config plane)
    (positive : ∀ rule ∈ config.rules, 0 < rule.threshold) (action : Action) :
    Reports plane action := by
  have fits := tracked.phase
  unfold Reports
  split
  · rename_i inserts
    rw [inserts] at fits
    obtain ⟨-, groupKey, count, rfl, tracks, enough⟩ := fits
    obtain ⟨group, same⟩ :=
      mem_countEventsGrouped (tracks.rows _ List.mem_cons_self)
    cases same
    exact ⟨group, enough, rfl⟩
  · rename_i evaluation groups
    rw [groups] at fits
    obtain ⟨sane, tracks⟩ := fits
    intro empty group enough
    have counted := lt_of_lt_of_le (positive _ sane.rule) enough
    obtain ⟨event, member⟩ :=
      List.exists_mem_of_length_pos (Int.natCast_pos.mp counted)
    have covered := tracks.covered _
      (mem_countEventsGrouped_of_member member) enough
    rw [empty] at covered
    exact covered.resolve_left List.not_mem_nil
  · trivial

/-- An empty control plane. -/
theorem tracked_boot : Tracked config {} :=
  ⟨trivial, fun _ member => absurd member List.not_mem_nil⟩

/--
Whatever fails and whenever the process restarts: alerts are exact, and a rule
that is evaluated to its end passes no group over.
-/
theorem throughout_reports
    (valid : validateAlerts [] config.rules = .ok ()) (actions : List Action) :
    Throughout (Evaluator.step config) Reports {} actions := by
  have positive (rule : AlertRule) (member : rule ∈ config.rules) :=
    ((spec_of_validateAlerts valid).1 rule member).2
  exact Throughout.of_invariant
    (fun state action tracked => tracked.reports positive action)
    (fun state action next tracked taken =>
      tracked.step (moves_of_step taken))
    tracked_boot

/-! ## Cooldowns -/

/-- Two alerts of one rule and group are a cooldown apart. -/
def Apart (config : Alerting) (old new : Alert) : Prop :=
  Alert.Of new.ruleName new.groupKey old →
    ∀ rule ∈ config.rules, rule.name = new.ruleName →
      seconds rule.cooldownSeconds ≤ new.firedAt.nanos - old.firedAt.nanos

/--
When the evaluator looks for the last alert, its clock is not further than
`skew` behind the clock of the last retention run.
-/
def ClockWithin (skew : Int) (plane : Plane) (action : Action) : Prop :=
  ∀ evaluation groupKey count time, action = .lookUp true →
    plane.phase = .asking evaluation groupKey count →
      plane.prunedAt = some time → time ≤ evaluation.now.nanos + skew

/-- Whether the clocks are that close. -/
def clockWithin (skew : Int) (plane : Plane) : Action → Bool
  | .lookUp true =>
      match plane.phase, plane.prunedAt with
      | .asking evaluation _ _, some time =>
          time ≤ evaluation.now.nanos + skew
      | _, _ => true
  | _ => true

theorem clockWithin_iff (skew : Int) (plane : Plane) (action : Action) :
    clockWithin skew plane action = true ↔ ClockWithin skew plane action := by
  unfold clockWithin ClockWithin
  split
  · split
    · rename_i asks pruned
      rw [asks, pruned, decide_eq_true_eq]
      constructor
      · rintro within _ _ _ _ - ⟨⟩ ⟨⟩
        exact within
      · exact fun within => within _ _ _ _ rfl rfl rfl
    · rename_i other
      simp only [true_iff]
      intro evaluation groupKey count time _ asks pruned
      exact absurd pruned (other evaluation groupKey count time asks)
  · rename_i other
    simp only [true_iff]
    intro _ _ _ _ same
    exact absurd same other

instance (skew : Int) (plane : Plane) (action : Action) :
    Decidable (ClockWithin skew plane action) :=
  decidable_of_iff _ (clockWithin_iff skew plane action)

/-- Alerts are kept for their cooldown and the skew of the clocks. -/
def Alerting.Retains (config : Alerting) (skew : Int) : Prop :=
  config.retentionDays = 0 ∨ ∀ rule ∈ config.rules,
    seconds rule.cooldownSeconds + skew ≤ days config.retentionDays

/-- The invariant of the cooldowns. -/
structure Spaced (config : Alerting) (plane : Plane) : Prop where
  tracked : Tracked config plane
  aligned : ∀ alert ∈ plane.fired, Aligned alert.firedAt
  bounded : ∀ time, plane.prunedAt = some time → config.retentionDays ≠ 0
  kept : ∀ alert ∈ plane.fired, alert ∈ plane.alerts ∨
    ∃ time, plane.prunedAt = some time ∧
      alert.firedAt.nanos < config.cutOff time
  ready : ∀ evaluation alert, plane.phase = .inserting evaluation alert →
    ∀ old ∈ plane.fired, Alert.Of alert.ruleName alert.groupKey old →
      seconds evaluation.rule.cooldownSeconds ≤
        evaluation.now.nanos - old.firedAt.nanos
  apart : plane.fired.Pairwise (Apart config)

theorem Spaced.turn
    (spaced : Spaced config plane) {phase : Phase}
    (tracked : Tracked config { plane with phase := phase })
    (ready : ∀ evaluation alert, phase = .inserting evaluation alert →
      ∀ old ∈ plane.fired, Alert.Of alert.ruleName alert.groupKey old →
        seconds evaluation.rule.cooldownSeconds ≤
          evaluation.now.nanos - old.firedAt.nanos) :
    Spaced config { plane with phase := phase } :=
  ⟨tracked, spaced.aligned, spaced.bounded, spaced.kept, ready, spaced.apart⟩

/-- A row is inserted, and the evaluator is not about to insert another one. -/
theorem Spaced.record
    (valid : validateAlerts [] config.rules = .ok ())
    (spaced : Spaced config plane) {alert : Alert} {post : Bool} {phase : Phase}
    (inserts : plane.phase = .inserting evaluation alert)
    (tracked : Tracked config { plane.record alert post with phase := phase })
    (leaves : ∀ evaluation alert, phase ≠ .inserting evaluation alert) :
    Spaced config { plane.record alert post with phase := phase } := by
  have fits := spaced.tracked.phase
  rw [inserts] at fits
  obtain ⟨sane, groupKey, count, rfl, -, -⟩ := fits
  refine ⟨tracked, ?_, spaced.bounded, ?_, ?_, ?_⟩
  · intro row member
    rcases List.mem_append.mp member with member | member
    · exact spaced.aligned row member
    · rw [List.mem_singleton.mp member]
      exact aligned_timestamptz _
  · intro row member
    rcases List.mem_append.mp member with member | member
    · rcases spaced.kept row member with stored | pruned
      · exact .inl (List.mem_append_left _ stored)
      · exact .inr pruned
    · exact .inl (List.mem_append_right _ member)
  · exact fun evaluation alert same => absurd same (leaves evaluation alert)
  · refine List.pairwise_append.mpr ⟨spaced.apart, List.pairwise_singleton .., ?_⟩
    intro old member row new own rule configured same
    obtain rfl := List.mem_singleton.mp new
    obtain rfl := eq_of_name_eq valid configured sane.rule same
    exact seconds_le_timestamptz (spaced.aligned old member)
      (spaced.ready _ _ inserts old member own)

theorem Spaced.step
    {skew : Int} (valid : validateAlerts [] config.rules = .ok ())
    (retains : config.Retains skew) (spaced : Spaced config plane)
    {action : Action} (clock : ClockWithin skew plane action)
    (moves : Moves config plane action next) :
    Spaced config next := by
  have tracked := spaced.tracked.step moves
  have leaves {phase : Phase}
      (other : ∀ evaluation alert, phase ≠ .inserting evaluation alert) :
      ∀ evaluation alert, phase = .inserting evaluation alert →
        ∀ old ∈ plane.fired, Alert.Of alert.ruleName alert.groupKey old →
          seconds evaluation.rule.cooldownSeconds ≤
            evaluation.now.nanos - old.firedAt.nanos :=
    fun evaluation alert same => absurd same (other evaluation alert)
  cases moves with
  | fires asks due =>
      refine spaced.turn tracked ?_
      intro evaluation alert same old member own
      cases same
      rcases spaced.kept old member with stored | ⟨time, pruned, before⟩
      · exact cooled_of_shouldFire due stored own
      · have near := clock _ _ _ time rfl asks pruned
        have fits := spaced.tracked.phase
        rw [asks] at fits
        have covers :=
          (retains.resolve_left (spaced.bounded time pruned)) _ fits.1.rule
        unfold Alerting.cutOff at before
        omega
  | inserted inserts => exact spaced.record valid inserts tracked (by simp)
  | lost inserts =>
      exact spaced.record valid inserts tracked (by simp [Evaluation.fail])
  | ingest event => exact ⟨tracked, spaced.aligned, spaced.bounded,
      spaced.kept, spaced.ready, spaced.apart⟩
  | pruneEvents time => exact ⟨tracked, spaced.aligned, spaced.bounded,
      spaced.kept, spaced.ready, spaced.apart⟩
  | pruneAlerts time bounded =>
      refine ⟨tracked, spaced.aligned, fun _ _ => bounded, ?_, spaced.ready,
        spaced.apart⟩
      intro alert member
      rcases spaced.kept alert member with stored | ⟨last, pruned, before⟩
      · by_cases inside : config.cutOff time.nanos ≤ alert.firedAt.nanos
        · exact .inl (List.mem_filter.mpr ⟨stored, decide_eq_true inside⟩)
        · refine .inr ⟨_, rfl, ?_⟩
          unfold Alerting.cutOff at inside ⊢
          omega
      · refine .inr ⟨_, rfl, ?_⟩
        rw [pruned, Option.getD_some]
        unfold Alerting.cutOff at before ⊢
        omega
  | tick idle => exact spaced.turn tracked (leaves (by simp))
  | finish now empty => exact spaced.turn tracked (leaves (by simp))
  | start first window => exact spaced.turn tracked (leaves (by simp))
  | panic now => exact spaced.turn tracked (leaves (by simp))
  | unanswered counts =>
      exact spaced.turn tracked (leaves (by simp [Evaluation.fail]))
  | answered counts answer => exact spaced.turn tracked (leaves (by simp))
  | ruleDone groups empty => exact spaced.turn tracked (leaves (by simp))
  | below groups first under => exact spaced.turn tracked (leaves (by simp))
  | reached groups first enough => exact spaced.turn tracked (leaves (by simp))
  | unknown asks =>
      exact spaced.turn tracked (leaves (by simp [Evaluation.fail]))
  | cools asks quiet => exact spaced.turn tracked (leaves (by simp))
  | refused inserts =>
      exact spaced.turn tracked (leaves (by simp [Evaluation.fail]))
  | restart => exact spaced.turn tracked (leaves (by simp))

/--
In every run, with failures, restarts and retention at any point, a rule fires
again for a group only after its cooldown.
-/
theorem refires_after_cooldown
    {skew : Int} (valid : validateAlerts [] config.rules = .ok ())
    (retains : config.Retains skew) {actions : List Action} {final : Plane}
    (clocks : Throughout (Evaluator.step config) (ClockWithin skew) {} actions)
    (ran : actions.foldlM (Evaluator.step config) {} = some final) :
    final.fired.Pairwise fun old new =>
      old.ruleName = new.ruleName → old.groupKey = new.groupKey →
        ∀ rule ∈ config.rules, rule.name = new.ruleName →
          seconds rule.cooldownSeconds ≤
            new.firedAt.nanos - old.firedAt.nanos := by
  have spaced : Spaced config final := by
    refine Throughout.invariant_of_run clocks ?_ ?_ ran
    · exact fun state action next spaced clock taken =>
        spaced.step valid retains clock (moves_of_step taken)
    · exact ⟨tracked_boot, by simp, by simp, by simp, by simp, .nil⟩
  exact spaced.apart.imp fun apart name key => apart ⟨name, key⟩

end Invariant

/-! ## A run -/

/-- One alert per client and minute. -/
def everyMinute : Alerting where
  rules := [⟨['r'], none, none, none, .clientIp, 60, 1, ['w'], 60⟩]
  retentionDays := 0
  webhook := true

/-- An instant in the year 2001. -/
def instant (offset : Fin 1000000) : OffsetDateTime :=
  ⟨seconds (1000000000 + offset), by unfold seconds; omega⟩

/-- A blocked request of an unknown client. -/
def blockedEvent : DecisionEvent OffsetDateTime :=
  ⟨['i'], instant 0, ['n'], none, none, none, "blocked", none, none, 0, []⟩

/-- One evaluation that fires. -/
def firing (now : OffsetDateTime) : List Action :=
  [.tick, .readClock now, .count (some [([], 1)]), .nextGroup, .lookUp true,
    .insert .done, .nextGroup, .readClock now]

/-- Two evaluations, a minute apart. -/
def firingTwice : List Action :=
  .ingest blockedEvent :: (firing (instant 0) ++ firing (instant 60))

theorem throughout_reports_firingTwice :
    Throughout (step everyMinute) Reports {} firingTwice ∧
      ((firingTwice.foldlM (step everyMinute) {}).map fun final =>
        final.fired.map fun alert => alert.value) = some [1, 1] :=
  ⟨throughout_reports (by decide) firingTwice, by decide⟩

/-- The same rule with alerts that are kept for a day. -/
def keptADay : Alerting :=
  { everyMinute with retentionDays := 1 }

/--
An alert, an evaluation that a restart cuts short, and two more alerts when the
first one has been deleted.
-/
def firingAcross : List Action :=
  .ingest blockedEvent :: (firing (instant 0) ++
    [.tick, .readClock (instant 30), .restart, .pruneEvents (instant 172800),
      .pruneAlerts (instant 172800),
      .ingest { blockedEvent with ts := instant 172800 }] ++
    firing (instant 172800) ++ firing (instant 172860))

theorem refires_after_cooldown_firingAcross :
    ∃ final, firingAcross.foldlM (step keptADay) {} = some final ∧
      final.fired.length = 3 ∧ final.alerts.length = 2 ∧
      final.fired.Pairwise fun old new =>
        old.ruleName = new.ruleName → old.groupKey = new.groupKey →
          ∀ rule ∈ keptADay.rules, rule.name = new.ruleName →
            seconds rule.cooldownSeconds ≤
              new.firedAt.nanos - old.firedAt.nanos := by
  cases ran : firingAcross.foldlM (step keptADay) {} with
  | none =>
      have fired : (firingAcross.foldlM (step keptADay) {}).isSome = true := by
        decide
      rw [ran] at fired
      cases fired
  | some final =>
      have counted : (firingAcross.foldlM (step keptADay) {}).all (fun final =>
          final.fired.length = 3 ∧ final.alerts.length = 2) = true := by
        decide
      rw [ran] at counted
      obtain ⟨fired, stored⟩ := of_decide_eq_true counted
      exact ⟨final, rfl, fired, stored, refires_after_cooldown (by decide)
        (.inr (by decide) : keptADay.Retains 0) (by decide) ran⟩

end LightWaf.ControlPlane.Evaluator
