import LightWaf.ControlPlane.Ingest
import LightWaf.Governance.Audit
import LightWaf.Rust.Net

/-!
# Events for a SIEM

The embedding of `waf-controlplane/src/siem.rs`: the mapping of decisions,
audit records and alerts to one event type, and the CEF formatter.  The
printer and the reader of timestamps come from a library and are parameters.
-/

namespace LightWaf.ControlPlane.Siem

open LightWaf.Rust
open LightWaf.Governance

/-! ## The normalized event -/

/-- `Alert`. -/
structure Alert where
  ruleName : Text
  groupKey : Text
  firedAt : OffsetDateTime
  severity : Text
  value : Int
  threshold : Int
  summary : Text

/-- `EventFields`. -/
structure EventFields where
  kind : String
  category : List String
  action : Text
  outcome : Option String
  id : Text

/-- `Observer`. -/
structure Observer where
  vendor : String
  product : String
  version : String

/-- `WafAudit`. -/
structure WafAudit where
  seq : Int64
  hash : Text
  signature : Text
  prevHash : Text

/-- `WafAlert`. -/
structure WafAlert where
  rule : Text
  group : Text
  value : Int
  threshold : Int
  severity : Text

/-- `Waf`; a `WafContribution` has the fields of a `Contribution`. -/
structure Waf where
  node : Option Text := none
  score : Option Int := none
  contributions : List Contribution := []
  audit : Option WafAudit := none
  alert : Option WafAlert := none

/-- `SiemEvent`; the wrappers of one field are the field. -/
structure SiemEvent where
  version : Nat
  timestamp : Text
  event : EventFields
  source : Option Text
  http : Option Text
  url : Option Text
  rule : Option Text
  user : Option Text
  message : Option Text
  observer : Observer
  waf : Waf

/-- `SIEM_SCHEMA_VERSION`. -/
def siemSchemaVersion : Nat := 1

/-- `observer`, with the version of the workspace. -/
def observer : Observer :=
  ⟨"Light WAF", "waf", "1.0.2"⟩

/-- `source_ip`. -/
def sourceIp (value : Text) : Option Text :=
  if (IpAddr.fromStr value).isSome then some value else none

/-- A number as `to_string` prints it. -/
def decimal (value : Int) : Text :=
  (toString value).toList

/-- The well-known format `Rfc3339` of the `time` crate. -/
structure Rfc3339 where
  format : OffsetDateTime → Option Text
  parse : Text → Option OffsetDateTime

/-! ## Mappers -/

section Mappers

variable (rfc : Rfc3339)

/-- `rfc3339`. -/
def Rfc3339.text (ts : OffsetDateTime) : Text :=
  (rfc.format ts).getD []

/-- `decision_to_siem`. -/
def decisionToSiem (id : Int) (ev : DecisionEvent OffsetDateTime) :
    SiemEvent where
  version := siemSchemaVersion
  timestamp := rfc.text ev.ts
  event :=
    { kind := "alert"
      category := ["network", "intrusion_detection"]
      action := ev.decision.toList
      outcome := some "failure"
      id := "waf-decision-".toList ++ decimal id }
  source := ev.clientIp.bind sourceIp
  http := ev.method
  url := ev.path
  rule := ev.ruleId
  user := none
  message := ev.reason
  observer := observer
  waf :=
    { node := some ev.node
      score := some ev.score
      contributions := ev.contributions }

/-- `audit_to_siem`. -/
def auditToSiem (rec : AuditRecord) : SiemEvent where
  version := siemSchemaVersion
  timestamp := rfc.text rec.ts
  event :=
    { kind := "event"
      category := ["iam", "configuration"]
      action := rec.action.1
      outcome := none
      id := "waf-audit-".toList ++ decimal rec.seq.toInt }
  source := none
  http := none
  url := none
  rule := none
  user := some rec.actor.1
  message := rec.target.map Subtype.val
  observer := observer
  waf :=
    { audit := some
        { seq := rec.seq
          hash := rec.hash.1
          signature := rec.signature.1
          prevHash := rec.prevHash.1 } }

/-- `alert_to_siem`. -/
def alertToSiem (id : Int) (alert : Alert) : SiemEvent where
  version := siemSchemaVersion
  timestamp := rfc.text alert.firedAt
  event :=
    { kind := "alert"
      category := ["intrusion_detection"]
      action := alert.ruleName
      outcome := none
      id := "waf-alert-".toList ++ decimal id }
  source := sourceIp alert.groupKey
  http := none
  url := none
  rule := some alert.ruleName
  user := none
  message := if alert.summary.isEmpty then none else some alert.summary
  observer := observer
  waf :=
    { alert := some
        { rule := alert.ruleName
          group := alert.groupKey
          value := alert.value
          threshold := alert.threshold
          severity := alert.severity } }

end Mappers

/-! ## CEF -/

/-- `char::is_control`. -/
def isControl (char : Char) : Bool :=
  char.toNat < 0x20 || (0x7f ≤ char.toNat && char.toNat ≤ 0x9f)

/-- One character of a header field. -/
def cefHeaderChar (char : Char) : Text :=
  if char = '\\' then "\\\\".toList
  else if char = '|' then "\\|".toList
  else if isControl char then [' ']
  else [char]

/-- `cef_header`. -/
def cefHeader (value : Text) : Text :=
  value.flatMap cefHeaderChar

/-- One character of an extension value. -/
def cefValueChar (char : Char) : Text :=
  if char = '\\' then "\\\\".toList
  else if char = '=' then "\\=".toList
  else if char = '\n' then "\\n".toList
  else if char = '\r' then "\\r".toList
  else if isControl char then [' ']
  else [char]

/-- `cef_value`. -/
def cefValue (value : Text) : Text :=
  value.flatMap cefValueChar

/-- `cef_clip`. -/
def cefClip (value : Text) (max : Nat) : Text :=
  value.take max

/-- `cef_severity_of`. -/
def cefSeverityOf (label : Text) : Nat :=
  let label := toAsciiLowercase label
  if label = "critical".toList then 9
  else if label = "error".toList then 7
  else if label = "warning".toList then 5
  else if label = "notice".toList then 3
  else 0

/-- `cef_severity`. -/
def cefSeverity (ev : SiemEvent) : Nat :=
  match ev.waf.alert, ev.waf.audit with
  | some alert, _ => cefSeverityOf alert.severity
  | none, some _ => 3
  | none, none =>
      ((ev.waf.contributions.filterMap Contribution.severity).map
        cefSeverityOf).max?.getD 0

/-- `cef_signature`. -/
def cefSignature (ev : SiemEvent) : Text :=
  match ev.waf.alert, ev.waf.audit with
  | some alert, _ => "alert-".toList ++ alert.rule
  | none, some _ => "audit-".toList ++ ev.event.action
  | none, none => ev.rule.getD ("decision-".toList ++ ev.event.action)

/-- `cef_name`. -/
def cefName (ev : SiemEvent) : String :=
  if ev.waf.alert.isSome then "Alert fired"
  else if ev.waf.audit.isSome then "Audit event"
  else if ev.event.action = "blocked".toList then "Request blocked"
  else if ev.event.action = "rejected".toList then "Request rejected"
  else "Request denied"

/-- A call of the closure `put` of `cef_line`. -/
structure Put where
  key : String
  value : Text
  max : Nat

/-- A `put` for a field that may be absent. -/
def putSome (key : String) (max : Nat) (value : Option Text) : List Put :=
  (value.map fun value => ⟨key, value, max⟩).toList

/-- A contribution as `cs1` lists it. -/
def contributionText (contribution : Contribution) : Text :=
  contribution.module ++ ':' :: (contribution.ruleId ++
    ':' :: decimal contribution.points)

/-- The puts for the contributions to a decision. -/
def contributionPuts (contributions : List Contribution) : List Put :=
  if contributions.isEmpty then []
  else
    [⟨"cs1", [','].intercalate (contributions.map contributionText), 4000⟩,
      ⟨"cs1Label", "contributions".toList, 1023⟩]

/-- The puts for the score of a decision. -/
def scorePuts : Option Int → List Put
  | none => []
  | some score =>
      [⟨"cn1", decimal score, 1023⟩, ⟨"cn1Label", "score".toList, 1023⟩]

/-- The puts for an alert. -/
def alertPuts : Option WafAlert → List Put
  | none => []
  | some alert =>
      [⟨"cn1", decimal alert.value, 1023⟩,
        ⟨"cn1Label", "value".toList, 1023⟩,
        ⟨"cn2", decimal alert.threshold, 1023⟩,
        ⟨"cn2Label", "threshold".toList, 1023⟩] ++
      (if alert.group.isEmpty then []
        else
          [⟨"cs1", alert.group, 4000⟩, ⟨"cs1Label", "group".toList, 1023⟩])

/-- The puts for an audit record. -/
def auditPuts : Option WafAudit → List Put
  | none => []
  | some audit =>
      [⟨"cn1", decimal audit.seq.toInt, 1023⟩,
        ⟨"cn1Label", "auditSeq".toList, 1023⟩,
        ⟨"cs1", audit.hash, 4000⟩,
        ⟨"cs1Label", "auditHash".toList, 1023⟩,
        ⟨"cs2", audit.signature, 4000⟩,
        ⟨"cs2Label", "auditSignature".toList, 1023⟩,
        ⟨"cs3", audit.prevHash, 4000⟩,
        ⟨"cs3Label", "auditPrevHash".toList, 1023⟩]

section Line

variable (rfc : Rfc3339)

/-- The timestamp in milliseconds, if it can be read. -/
def cefMillis (ev : SiemEvent) : Option Text :=
  (rfc.parse ev.timestamp).map fun ts => decimal (ts.nanos.tdiv 1000000)

/-- The puts of `cef_line`, in their order. -/
def puts (ev : SiemEvent) : List Put :=
  ⟨"externalId", ev.event.id, 40⟩ ::
    (putSome "rt" 1023 (cefMillis rfc ev) ++
    [⟨"act", ev.event.action, 63⟩,
      ⟨"cat", [','].intercalate (ev.event.category.map String.toList),
        1023⟩] ++
    putSome "outcome" 63 (ev.event.outcome.map String.toList) ++
    putSome "src" 1023 ev.source ++
    putSome "requestMethod" 1023 ev.http ++
    putSome "request" 1023 ev.url ++
    putSome "suser" 1023 ev.user ++
    putSome "msg" 1023 ev.message ++
    putSome "dvchost" 100 ev.waf.node ++
    scorePuts ev.waf.score ++
    contributionPuts ev.waf.contributions ++
    alertPuts ev.waf.alert ++
    auditPuts ev.waf.audit)

/-- What a `put` appends. -/
def Put.text (put : Put) : Text :=
  put.key.toList ++ '=' :: cefValue (cefClip put.value put.max)

/-- `cef_line`. -/
def cefLine (ev : SiemEvent) : Text :=
  "CEF:0".toList ++
    '|' :: (cefHeader ev.observer.vendor.toList ++
    '|' :: (cefHeader ev.observer.product.toList ++
    '|' :: (cefHeader ev.observer.version.toList ++
    '|' :: (cefHeader (cefClip (cefSignature ev) 1023) ++
    '|' :: ((cefName ev).toList ++
    '|' :: (decimal (cefSeverity ev) ++
    '|' :: [' '].intercalate ((puts rfc ev).map Put.text)))))))

/-- `CefFormatter::format_batch`. -/
def formatBatch (events : List SiemEvent) : Bytes :=
  events.flatMap fun ev => asBytes (cefLine rfc ev) ++ [10]

end Line

end LightWaf.ControlPlane.Siem
