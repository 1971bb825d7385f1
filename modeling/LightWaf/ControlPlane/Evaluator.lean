import LightWaf.ControlPlane.SiemEvents
import LightWaf.Rust.Debug
import LightWaf.Theory.Machine

/-!
# The alert evaluator

The embedding of `waf-controlplane/src/evaluator.rs` with the queries of
`store.rs` that it runs.  The evaluator is one task of a process that can be
restarted at any time; events arrive and old rows are deleted between any two
of its queries, and each query can fail.
-/

namespace LightWaf.ControlPlane.Evaluator

open LightWaf.Rust
open LightWaf.Governance
open LightWaf.ControlPlane.Siem
open LightWaf.Theory.Machine

/-! ## Rules -/

/-- `GroupBy`. -/
inductive GroupBy
  | none
  | clientIp
  | ruleId
deriving DecidableEq

/-- `GroupBy::column`. -/
def GroupBy.column : GroupBy → Option Text
  | .none => Option.none
  | .clientIp => some "client_ip".toList
  | .ruleId => some "rule_id".toList

/-- `AlertRule`. -/
structure AlertRule where
  name : Text
  decision : Option Text
  ruleId : Option Text
  clientIp : Option Text
  groupBy : GroupBy
  windowSeconds : Nat
  threshold : Int
  severity : Text
  cooldownSeconds : Nat
deriving DecidableEq

/-- What `validate` refuses in a rule. -/
inductive AlertError
  | emptyName
  | duplicateName (name : Text)
  | windowZero (name : Text)
  | thresholdNotPositive (name : Text)
deriving DecidableEq

/-- The text of the error. -/
def AlertError.message (tables : DebugTables) : AlertError → Text
  | .emptyName => "an [[controlplane.alerts]] rule has an empty name".toList
  | .duplicateName name =>
      "duplicate alert rule name ".toList ++ debugStr tables name
  | .windowZero name =>
      "alert rule ".toList ++ debugStr tables name ++
        ": window_seconds must be > 0".toList
  | .thresholdNotPositive name =>
      "alert rule ".toList ++ debugStr tables name ++
        ": threshold must be > 0".toList

/-- The loop of `ControlPlaneConfig::validate` over the alert rules. -/
def validateAlerts (seen : List Text) :
    List AlertRule → Except AlertError Unit
  | [] => .ok ()
  | rule :: rest =>
      if (trim rule.name).isEmpty then .error .emptyName
      else if seen.contains rule.name then
        .error (.duplicateName rule.name)
      else if rule.windowSeconds = 0 then .error (.windowZero rule.name)
      else if rule.threshold ≤ 0 then
        .error (.thresholdNotPositive rule.name)
      else validateAlerts (rule.name :: seen) rest

/-- The settings of the evaluator and of the retention of its tables. -/
structure Alerting where
  rules : List AlertRule
  retentionDays : Nat
  webhook : Bool

/-! ## Instants -/

/-- The nanoseconds of a number of seconds. -/
def seconds (count : Nat) : Int :=
  count * 10 ^ 9

/-- The nanoseconds of a number of days. -/
def days (count : Nat) : Int :=
  seconds (count * 86400)

/-- The epoch of Postgres, the start of the year 2000. -/
def pgEpoch : Int :=
  seconds 946684800

/-- The nanoseconds below a microsecond, with the sign of the value. -/
theorem tmod_bounds (value : Int) :
    (value.tmod 1000).natAbs < 1000 ∧
      (0 ≤ value → 0 ≤ value.tmod 1000) ∧
      (value ≤ 0 → value.tmod 1000 ≤ 0) := by
  refine ⟨?_, Int.tmod_nonneg 1000, fun below => ?_⟩
  · rw [Int.natAbs_tmod]
    exact Nat.mod_lt _ (by decide)
  · have mirrored := Int.tmod_nonneg 1000 (Int.neg_nonneg_of_nonpos below)
    rw [Int.neg_tmod] at mirrored
    exact Int.nonpos_of_neg_nonneg mirrored

/-- What a `TIMESTAMPTZ` keeps of an instant: whole microseconds. -/
def timestamptz (ts : OffsetDateTime) : OffsetDateTime where
  nanos := ts.nanos - (ts.nanos - pgEpoch).tmod 1000
  inRange := by
    have bound := ts.inRange
    have small := tmod_bounds (ts.nanos - pgEpoch)
    unfold pgEpoch seconds at *
    omega

/-- The first instant that the `time` crate can represent. -/
def minInstant : Int :=
  -seconds 377705116800

/-- `now - Duration::from_secs(window)`; `none` is the panic behind it. -/
def earlier (now : OffsetDateTime) (window : Nat) : Option OffsetDateTime :=
  if inside : minInstant ≤ now.nanos - seconds window then
    some ⟨now.nanos - seconds window, by
      have bound := now.inRange
      unfold minInstant seconds at *
      omega⟩
  else none

/-! ## Queries -/

/-- The value of the column that a rule groups by; `none` is `NULL`. -/
def GroupBy.value (event : DecisionEvent OffsetDateTime) :
    GroupBy → Option Text
  | .none => Option.none
  | .clientIp => event.clientIp
  | .ruleId => event.ruleId

/-- The `WHERE` clause of `count_events_grouped`. -/
def AlertRule.selects (rule : AlertRule) (since : OffsetDateTime)
    (event : DecisionEvent OffsetDateTime) : Bool :=
  since.nanos ≤ event.ts.nanos &&
    rule.decision.all (event.decision.toList == ·) &&
    rule.ruleId.all (event.ruleId == some ·) &&
    rule.clientIp.all (event.clientIp == some ·)

/-- The events of one group. -/
def AlertRule.members (rule : AlertRule) (since : OffsetDateTime)
    (group : Option Text) (events : List (DecisionEvent OffsetDateTime)) :
    List (DecisionEvent OffsetDateTime) :=
  events.filter fun event =>
    rule.selects since event && rule.groupBy.value event == group

/--
`count_events_grouped`, in one of the orders in which the rows can come.
Without a grouping there is one row for all events; `NULL` is a group of its
own, which is shown under the empty key.
-/
def countEventsGrouped (rule : AlertRule) (since : OffsetDateTime)
    (events : List (DecisionEvent OffsetDateTime)) : List (Text × Int) :=
  match rule.groupBy with
  | .none => [([], (rule.members since none events).length)]
  | _ =>
      (((events.filter (rule.selects since)).map
        rule.groupBy.value).dedup).map fun group =>
          (group.getD [], (rule.members since group events).length)

/-- The greatest of a column of instants. -/
def latest : List OffsetDateTime → Option OffsetDateTime
  | [] => none
  | ts :: rest =>
      match latest rest with
      | none => some ts
      | some other => some (if other.nanos ≤ ts.nanos then ts else other)

/-- `last_alert_fired`. -/
def lastAlertFired (alerts : List Alert) (ruleName groupKey : Text) :
    Option OffsetDateTime :=
  latest ((alerts.filter fun alert =>
    alert.ruleName == ruleName && alert.groupKey == groupKey).map
      Alert.firedAt)

/-- `should_fire`. -/
def shouldFire (count threshold : Int) (lastFired : Option OffsetDateTime)
    (now : OffsetDateTime) (cooldownSeconds : Nat) : Bool :=
  if count < threshold then false
  else
    match lastFired with
    | none => true
    | some prev => seconds cooldownSeconds ≤ now.nanos - prev.nanos

/-- `summary`. -/
def summary (rule : AlertRule) (groupKey : Text) (count : Int) : Text :=
  match rule.groupBy.column with
  | some column =>
      rule.name ++ ": ".toList ++ decimal count ++ " events ≥ ".toList ++
        decimal rule.threshold ++ " for ".toList ++ column ++ "=".toList ++
        groupKey
  | none =>
      rule.name ++ ": ".toList ++ decimal count ++ " events ≥ ".toList ++
        decimal rule.threshold

/-- The alert of a group. -/
def alertOf (rule : AlertRule) (now : OffsetDateTime) (groupKey : Text)
    (count : Int) : Alert where
  ruleName := rule.name
  groupKey := groupKey
  firedAt := now
  severity := rule.severity
  value := count
  threshold := rule.threshold
  summary := summary rule groupKey count

/-- The row of an alert, as `insert_alert` leaves it. -/
def insertedRow (alert : Alert) : Alert :=
  { alert with firedAt := timestamptz alert.firedAt }

/-! ## The machine -/

/-- The evaluation of one rule: its instant, its rows and the rules behind it. -/
structure Evaluation where
  rule : AlertRule
  now : OffsetDateTime
  since : OffsetDateTime
  counted : List (DecisionEvent OffsetDateTime)
  rows : List (Text × Int)
  rest : List AlertRule

/-- The table that was counted, and the answer. -/
def Evaluation.answered (evaluation : Evaluation)
    (counted : List (DecisionEvent OffsetDateTime))
    (rows : List (Text × Int)) : Evaluation :=
  { evaluation with counted := counted, rows := rows }

/-- The rows that are left. -/
def Evaluation.remaining (evaluation : Evaluation)
    (rows : List (Text × Int)) : Evaluation :=
  { evaluation with rows := rows }

/-- Where the evaluator is. -/
inductive Phase
  | waiting
  | starting (rules : List AlertRule)
  | counting (evaluation : Evaluation)
  | grouping (evaluation : Evaluation)
  | asking (evaluation : Evaluation) (groupKey : Text) (count : Int)
  | inserting (evaluation : Evaluation) (alert : Alert)
  | panicked

/--
The tables, the evaluator, and the history: every row that was inserted into
`alerts`, every alert that was posted, and the last time at which `alerts` was
pruned.
-/
structure Plane where
  events : List (DecisionEvent OffsetDateTime) := []
  alerts : List Alert := []
  phase : Phase := .waiting
  fired : List Alert := []
  posted : List Alert := []
  prunedAt : Option Int := none

/-- How an insert ends: done, not done, or done with the answer lost. -/
inductive InsertOutcome
  | done
  | refused
  | lost

/-- The steps of the evaluator, and what happens around it. -/
inductive Action
  | tick
  | readClock (now : OffsetDateTime)
  | count (answer : Option (List (Text × Int)))
  | nextGroup
  | lookUp (answered : Bool)
  | insert (outcome : InsertOutcome)
  | ingest (event : DecisionEvent OffsetDateTime)
  | pruneEvents (time : OffsetDateTime)
  | pruneAlerts (time : OffsetDateTime)
  | restart

section Machine

variable (config : Alerting)

/-- The first instant that `prune_older_than_days` keeps. -/
def Alerting.cutOff (time : Int) : Int :=
  time - days config.retentionDays

/-- A row of `alerts` is added, and the alert is posted if that is set up. -/
def Plane.record (plane : Plane) (alert : Alert) (post : Bool) : Plane :=
  { plane with
    alerts := plane.alerts ++ [insertedRow alert]
    fired := plane.fired ++ [insertedRow alert]
    posted := if post then plane.posted ++ [alert] else plane.posted }

/-- The rule is given up for this cycle. -/
def Evaluation.fail (evaluation : Evaluation) : Phase :=
  .starting evaluation.rest

/-- One step of `run_evaluator`, of a writer of events or of the retention. -/
def step (plane : Plane) : Action → Option Plane
  | .tick =>
      match plane.phase with
      | .waiting =>
          if config.rules.isEmpty then none
          else some { plane with phase := .starting config.rules }
      | _ => none
  | .readClock now =>
      match plane.phase with
      | .starting [] => some { plane with phase := .waiting }
      | .starting (rule :: rest) =>
          match earlier now rule.windowSeconds with
          | some since => some { plane with
              phase := .counting ⟨rule, now, since, [], [], rest⟩ }
          | none => some { plane with phase := .panicked }
      | _ => none
  | .count answer =>
      match plane.phase with
      | .counting evaluation =>
          match answer with
          | none => some { plane with phase := evaluation.fail }
          | some rows =>
              -- SQL fixes no order of the rows
              if rows.isPerm (countEventsGrouped evaluation.rule
                  (timestamptz evaluation.since) plane.events) then
                some { plane with
                  phase := .grouping (evaluation.answered plane.events rows) }
              else none
      | _ => none
  | .nextGroup =>
      match plane.phase with
      | .grouping evaluation =>
          match evaluation.rows with
          | [] => some { plane with phase := .starting evaluation.rest }
          | (groupKey, count) :: rows =>
              let evaluation := evaluation.remaining rows
              if count < evaluation.rule.threshold then
                some { plane with phase := .grouping evaluation }
              else some { plane with
                phase := .asking evaluation groupKey count }
      | _ => none
  | .lookUp answered =>
      match plane.phase with
      | .asking evaluation groupKey count =>
          if answered then
            let last :=
              lastAlertFired plane.alerts evaluation.rule.name groupKey
            if shouldFire count evaluation.rule.threshold last evaluation.now
                evaluation.rule.cooldownSeconds then
              some { plane with
                phase := .inserting evaluation
                  (alertOf evaluation.rule evaluation.now groupKey count) }
            else some { plane with phase := .grouping evaluation }
          else some { plane with phase := evaluation.fail }
      | _ => none
  | .insert outcome =>
      match plane.phase with
      | .inserting evaluation alert =>
          match outcome with
          | .done => some { plane.record alert config.webhook with
              phase := .grouping evaluation }
          | .refused => some { plane with phase := evaluation.fail }
          | .lost => some { plane.record alert false with
              phase := evaluation.fail }
      | _ => none
  | .ingest event =>
      some { plane with
        events := plane.events ++ [{ event with ts := timestamptz event.ts }] }
  | .pruneEvents time =>
      if config.retentionDays = 0 then none
      else some { plane with
        events := plane.events.filter fun event =>
          config.cutOff time.nanos ≤ event.ts.nanos }
  | .pruneAlerts time =>
      if config.retentionDays = 0 then none
      else some { plane with
        alerts := plane.alerts.filter fun alert =>
          config.cutOff time.nanos ≤ alert.firedAt.nanos
        prunedAt := some (max time.nanos (plane.prunedAt.getD time.nanos)) }
  | .restart => some { plane with phase := .waiting }

end Machine

/-! ## Instants in the table -/

/-- An instant of whole microseconds. -/
def Aligned (ts : OffsetDateTime) : Prop :=
  ∃ micros : Int, ts.nanos = pgEpoch + 1000 * micros

theorem aligned_timestamptz (ts : OffsetDateTime) :
    Aligned (timestamptz ts) := by
  refine ⟨(ts.nanos - pgEpoch).tdiv 1000, ?_⟩
  have parts := Int.mul_tdiv_add_tmod (ts.nanos - pgEpoch) 1000
  change ts.nanos - (ts.nanos - pgEpoch).tmod 1000 = _
  omega

/-- A distance of whole seconds is not lost to the microseconds. -/
theorem seconds_le_timestamptz
    {old now : OffsetDateTime} {count : Nat} (aligned : Aligned old)
    (apart : seconds count ≤ now.nanos - old.nanos) :
    seconds count ≤ (timestamptz now).nanos - old.nanos := by
  obtain ⟨micros, value⟩ := aligned
  have parts := Int.mul_tdiv_add_tmod (now.nanos - pgEpoch) 1000
  have bounds := tmod_bounds (now.nanos - pgEpoch)
  change seconds count ≤ now.nanos - (now.nanos - pgEpoch).tmod 1000 - _
  unfold seconds at *
  omega

/-! ## Rules and queries -/

/-- Validated rules have different names and positive thresholds. -/
theorem spec_of_validateAlerts
    {seen : List Text} {rules : List AlertRule}
    (valid : validateAlerts seen rules = .ok ()) :
    (∀ rule ∈ rules, rule.name ∉ seen ∧ 0 < rule.threshold) ∧
      rules.Pairwise fun first second => first.name ≠ second.name := by
  induction rules generalizing seen with
  | nil => exact ⟨fun _ member => absurd member List.not_mem_nil, .nil⟩
  | cons head tail induction =>
      unfold validateAlerts at valid
      split at valid
      · cases valid
      split at valid
      · cases valid
      rename_i unseen
      rw [List.contains_iff_mem] at unseen
      split at valid
      · cases valid
      split at valid
      · cases valid
      rename_i positive
      obtain ⟨others, distinct⟩ := induction valid
      refine ⟨?_, List.pairwise_cons.mpr ⟨fun rule member => ?_, distinct⟩⟩
      · intro rule member
        rcases List.mem_cons.mp member with rfl | member
        · exact ⟨unseen, not_le.mp positive⟩
        · exact ⟨fun known =>
            (others rule member).1 (List.mem_cons_of_mem _ known),
            (others rule member).2⟩
      · intro same
        exact (others rule member).1 (same ▸ List.mem_cons_self)

/-- The name tells validated rules apart. -/
theorem eq_of_name_eq
    {rules : List AlertRule} (valid : validateAlerts [] rules = .ok ())
    {first second : AlertRule} (left : first ∈ rules) (right : second ∈ rules)
    (same : first.name = second.name) :
    first = second := by
  by_contra different
  have symmetric : Std.Symm
      (fun first second : AlertRule => first.name ≠ second.name) :=
    ⟨fun _ _ distinct => distinct.symm⟩
  exact (spec_of_validateAlerts valid).2.forall left right different same

theorem latest_mem
    {column : List OffsetDateTime} {last : OffsetDateTime}
    (found : latest column = some last) :
    last ∈ column := by
  induction column generalizing last with
  | nil => cases found
  | cons head tail induction =>
      rw [latest] at found
      split at found
      · cases found
        exact List.mem_cons_self
      · rename_i other rest
        cases found
        split
        · exact List.mem_cons_self
        · exact List.mem_cons_of_mem _ (induction rest)

theorem le_latest
    {column : List OffsetDateTime} {ts : OffsetDateTime} (member : ts ∈ column) :
    ∃ last, latest column = some last ∧ ts.nanos ≤ last.nanos := by
  induction column with
  | nil => exact absurd member List.not_mem_nil
  | cons head tail induction =>
      rw [latest]
      split
      · rename_i empty
        rcases List.mem_cons.mp member with rfl | member
        · exact ⟨ts, rfl, le_refl _⟩
        · obtain ⟨last, found, -⟩ := induction member
          rw [empty] at found
          cases found
      · rename_i other rest
        refine ⟨_, rfl, ?_⟩
        rcases List.mem_cons.mp member with rfl | member
        · split <;> omega
        · obtain ⟨last, found, bound⟩ := induction member
          rw [rest] at found
          cases found
          split <;> omega

/-- The alerts of one rule and one group. -/
def Alert.Of (ruleName groupKey : Text) (alert : Alert) : Prop :=
  alert.ruleName = ruleName ∧ alert.groupKey = groupKey

theorem mem_column
    {alerts : List Alert} {ruleName groupKey : Text} {ts : OffsetDateTime} :
    ts ∈ (alerts.filter fun alert =>
        alert.ruleName == ruleName && alert.groupKey == groupKey).map
          Alert.firedAt ↔
      ∃ alert ∈ alerts, Alert.Of ruleName groupKey alert ∧
        alert.firedAt = ts := by
  simp only [List.mem_map, List.mem_filter, Bool.and_eq_true, beq_iff_eq,
    Alert.Of, and_assoc]

/-- A rule fires only when every alert of the group is out of its cooldown. -/
theorem cooled_of_shouldFire
    {alerts : List Alert} {ruleName groupKey : Text} {count threshold : Int}
    {now : OffsetDateTime} {cooldown : Nat}
    (fires : shouldFire count threshold
      (lastAlertFired alerts ruleName groupKey) now cooldown = true)
    {alert : Alert} (member : alert ∈ alerts)
    (own : Alert.Of ruleName groupKey alert) :
    seconds cooldown ≤ now.nanos - alert.firedAt.nanos := by
  obtain ⟨last, found, bound⟩ :=
    le_latest (mem_column.mpr ⟨alert, member, own, rfl⟩)
  unfold shouldFire lastAlertFired at fires
  rw [found] at fires
  split at fires
  · cases fires
  · have apart := of_decide_eq_true fires
    omega

/-- A rule that does not fire over its threshold is in its cooldown. -/
theorem cooling_of_not_shouldFire
    {alerts : List Alert} {ruleName groupKey : Text} {count threshold : Int}
    {now : OffsetDateTime} {cooldown : Nat} (reached : threshold ≤ count)
    (quiet : shouldFire count threshold
      (lastAlertFired alerts ruleName groupKey) now cooldown = false) :
    ∃ alert ∈ alerts, Alert.Of ruleName groupKey alert ∧
      now.nanos - alert.firedAt.nanos < seconds cooldown := by
  unfold shouldFire lastAlertFired at quiet
  rw [if_neg (not_lt.mpr reached)] at quiet
  cases column : latest ((alerts.filter fun alert =>
      alert.ruleName == ruleName && alert.groupKey == groupKey).map
        Alert.firedAt) with
  | none =>
      rw [column] at quiet
      cases quiet
  | some last =>
      rw [column] at quiet
      obtain ⟨alert, member, own, same⟩ := mem_column.mp (latest_mem column)
      refine ⟨alert, member, own, ?_⟩
      rw [same]
      exact not_le.mp (of_decide_eq_false quiet)

/-! ## The rows of a count -/

theorem mem_countEventsGrouped
    {rule : AlertRule} {since : OffsetDateTime}
    {events : List (DecisionEvent OffsetDateTime)} {row : Text × Int}
    (member : row ∈ countEventsGrouped rule since events) :
    ∃ group : Option Text,
      row = (group.getD [], ((rule.members since group events).length : Int)) := by
  unfold countEventsGrouped at member
  split at member
  · exact ⟨none, List.mem_singleton.mp member⟩
  · obtain ⟨group, -, same⟩ := List.mem_map.mp member
    exact ⟨group, same.symm⟩

/-- A group with events has its row. -/
theorem mem_countEventsGrouped_of_member
    {rule : AlertRule} {since : OffsetDateTime} {group : Option Text}
    {events : List (DecisionEvent OffsetDateTime)}
    {event : DecisionEvent OffsetDateTime}
    (member : event ∈ rule.members since group events) :
    (group.getD [], ((rule.members since group events).length : Int)) ∈
      countEventsGrouped rule since events := by
  rw [AlertRule.members, List.mem_filter, Bool.and_eq_true, beq_iff_eq] at member
  obtain ⟨stored, selected, value⟩ := member
  unfold countEventsGrouped
  split
  · rename_i ungrouped
    rw [ungrouped, GroupBy.value] at value
    subst value
    exact List.mem_singleton_self _
  · refine List.mem_map.mpr ⟨group, ?_, rfl⟩
    rw [List.mem_dedup, List.mem_map]
    exact ⟨event, List.mem_filter.mpr ⟨stored, selected⟩, value⟩

/-! ## Steps -/

section Steps

variable (config : Alerting) (plane : Plane)

/-- What a step can do. -/
inductive Moves : Action → Plane → Prop
  | tick (idle : plane.phase = .waiting) :
      Moves .tick { plane with phase := .starting config.rules }
  | finish (now : OffsetDateTime) (empty : plane.phase = .starting []) :
      Moves (.readClock now) { plane with phase := .waiting }
  | start {rule : AlertRule} {rest : List AlertRule}
      {now since : OffsetDateTime} (first : plane.phase = .starting (rule :: rest))
      (window : earlier now rule.windowSeconds = some since) :
      Moves (.readClock now)
        { plane with phase := .counting ⟨rule, now, since, [], [], rest⟩ }
  | panic (now : OffsetDateTime) :
      Moves (.readClock now) { plane with phase := .panicked }
  | unanswered {evaluation : Evaluation}
      (counts : plane.phase = .counting evaluation) :
      Moves (.count none) { plane with phase := evaluation.fail }
  | answered {evaluation : Evaluation} {rows : List (Text × Int)}
      (counts : plane.phase = .counting evaluation)
      (answer : rows.Perm (countEventsGrouped evaluation.rule
        (timestamptz evaluation.since) plane.events)) :
      Moves (.count (some rows)) { plane with
        phase := .grouping (evaluation.answered plane.events rows) }
  | ruleDone {evaluation : Evaluation}
      (groups : plane.phase = .grouping evaluation)
      (empty : evaluation.rows = []) :
      Moves .nextGroup { plane with phase := .starting evaluation.rest }
  | below {evaluation : Evaluation} {groupKey : Text} {count : Int}
      {rows : List (Text × Int)} (groups : plane.phase = .grouping evaluation)
      (first : evaluation.rows = (groupKey, count) :: rows)
      (under : count < evaluation.rule.threshold) :
      Moves .nextGroup
        { plane with phase := .grouping (evaluation.remaining rows) }
  | reached {evaluation : Evaluation} {groupKey : Text} {count : Int}
      {rows : List (Text × Int)} (groups : plane.phase = .grouping evaluation)
      (first : evaluation.rows = (groupKey, count) :: rows)
      (enough : evaluation.rule.threshold ≤ count) :
      Moves .nextGroup { plane with
        phase := .asking (evaluation.remaining rows) groupKey count }
  | unknown {evaluation : Evaluation} {groupKey : Text} {count : Int}
      (asks : plane.phase = .asking evaluation groupKey count) :
      Moves (.lookUp false) { plane with phase := evaluation.fail }
  | fires {evaluation : Evaluation} {groupKey : Text} {count : Int}
      (asks : plane.phase = .asking evaluation groupKey count)
      (due : shouldFire count evaluation.rule.threshold
        (lastAlertFired plane.alerts evaluation.rule.name groupKey)
        evaluation.now evaluation.rule.cooldownSeconds = true) :
      Moves (.lookUp true) { plane with
        phase := .inserting evaluation
          (alertOf evaluation.rule evaluation.now groupKey count) }
  | cools {evaluation : Evaluation} {groupKey : Text} {count : Int}
      (asks : plane.phase = .asking evaluation groupKey count)
      (quiet : shouldFire count evaluation.rule.threshold
        (lastAlertFired plane.alerts evaluation.rule.name groupKey)
        evaluation.now evaluation.rule.cooldownSeconds = false) :
      Moves (.lookUp true) { plane with phase := .grouping evaluation }
  | inserted {evaluation : Evaluation} {alert : Alert}
      (inserts : plane.phase = .inserting evaluation alert) :
      Moves (.insert .done) { plane.record alert config.webhook with
        phase := .grouping evaluation }
  | refused {evaluation : Evaluation} {alert : Alert}
      (inserts : plane.phase = .inserting evaluation alert) :
      Moves (.insert .refused) { plane with phase := evaluation.fail }
  | lost {evaluation : Evaluation} {alert : Alert}
      (inserts : plane.phase = .inserting evaluation alert) :
      Moves (.insert .lost) { plane.record alert false with
        phase := evaluation.fail }
  | ingest (event : DecisionEvent OffsetDateTime) :
      Moves (.ingest event) { plane with
        events := plane.events ++ [{ event with ts := timestamptz event.ts }] }
  | pruneEvents (time : OffsetDateTime) :
      Moves (.pruneEvents time) { plane with
        events := plane.events.filter fun event =>
          config.cutOff time.nanos ≤ event.ts.nanos }
  | pruneAlerts (time : OffsetDateTime) (bounded : config.retentionDays ≠ 0) :
      Moves (.pruneAlerts time) { plane with
        alerts := plane.alerts.filter fun alert =>
          config.cutOff time.nanos ≤ alert.firedAt.nanos
        prunedAt := some (max time.nanos (plane.prunedAt.getD time.nanos)) }
  | restart : Moves .restart { plane with phase := .waiting }

end Steps

theorem moves_of_step
    {config : Alerting} {plane next : Plane} {action : Action}
    (taken : step config plane action = some next) :
    Moves config plane action next := by
  cases action with
  | tick =>
      simp only [step] at taken
      split at taken
      · rename_i idle
        split at taken
        · cases taken
        · cases taken
          exact .tick idle
      · cases taken
  | readClock now =>
      simp only [step] at taken
      split at taken
      · rename_i empty
        cases taken
        exact .finish now empty
      · rename_i rule rest first
        split at taken
        · rename_i since window
          cases taken
          exact .start first window
        · cases taken
          exact .panic now
      · cases taken
  | count answer =>
      simp only [step] at taken
      split at taken
      · rename_i evaluation counts
        split at taken
        · cases taken
          exact .unanswered counts
        · split at taken
          · rename_i answer
            cases taken
            exact .answered counts (List.isPerm_iff.mp answer)
          · cases taken
      · cases taken
  | nextGroup =>
      simp only [step] at taken
      split at taken
      · rename_i evaluation groups
        split at taken
        · rename_i empty
          cases taken
          exact .ruleDone groups empty
        · rename_i groupKey count rows first
          split at taken
          · rename_i under
            cases taken
            exact .below groups first under
          · rename_i enough
            cases taken
            exact .reached groups first (not_lt.mp enough)
      · cases taken
  | lookUp answered =>
      simp only [step] at taken
      split at taken
      · rename_i evaluation groupKey count asks
        cases answered with
        | false =>
            cases taken
            exact .unknown asks
        | true =>
            rw [if_pos rfl] at taken
            split at taken
            · rename_i due
              cases taken
              exact .fires asks due
            · rename_i quiet
              cases taken
              exact .cools asks (Bool.eq_false_of_not_eq_true quiet)
      · cases taken
  | insert outcome =>
      simp only [step] at taken
      split at taken
      · rename_i evaluation alert inserts
        cases outcome with
        | done =>
            cases taken
            exact .inserted inserts
        | refused =>
            cases taken
            exact .refused inserts
        | lost =>
            cases taken
            exact .lost inserts
      · cases taken
  | ingest event =>
      cases taken
      exact .ingest event
  | pruneEvents time =>
      simp only [step] at taken
      split at taken
      · cases taken
      · cases taken
        exact .pruneEvents time
  | pruneAlerts time =>
      simp only [step] at taken
      split at taken
      · cases taken
      · rename_i bounded
        cases taken
        exact .pruneAlerts time bounded
  | restart =>
      cases taken
      exact .restart

end LightWaf.ControlPlane.Evaluator
