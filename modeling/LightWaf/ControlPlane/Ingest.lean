import LightWaf.Rust.HashMap
import LightWaf.Rust.Search
import LightWaf.Normalizer.Body

/-!
# Ingesting the decision log

The embedding of `waf-controlplane/src/ingest.rs` and of the handler that
feeds it.  Batches of lines from any number of nodes are worked off side by
side, one line at a time under the lock of the one correlator; the store may
refuse an event.
-/

namespace LightWaf.ControlPlane

open LightWaf.Rust
open LightWaf.Normalizer

/-! ## The correlator -/

/-- `ReqCtx`. -/
structure ReqCtx where
  method : Option Text := none
  path : Option Text := none
  clientIp : Option Text := none
deriving DecidableEq

/-- `Correlator`. -/
structure Correlator where
  map : HashMap Text ReqCtx
  order : List Text
  cap : Nat

namespace Correlator

/-- `Correlator::new`. -/
def new (cap : Nat) : Correlator :=
  ⟨.empty, [], cap⟩

/-- The oldest ids are dropped while there are more than `cap`. -/
def evict (cap : Nat) : List Text → HashMap Text ReqCtx →
    HashMap Text ReqCtx × List Text
  | [], map => (map, [])
  | old :: order, map =>
      if cap < (old :: order).length then evict cap order (map.remove old)
      else (map, old :: order)

/-- `Correlator::insert`. -/
def insert (correlator : Correlator) (requestId : Text) (ctx : ReqCtx) :
    Correlator :=
  let map := correlator.map.insert requestId ctx
  if (correlator.map.get requestId).isNone then
    let (map, order) :=
      evict correlator.cap (correlator.order ++ [requestId]) map
    { correlator with map := map, order := order }
  else { correlator with map := map }

/-- `Correlator::take`. -/
def take (correlator : Correlator) (requestId : Text) :
    Option ReqCtx × Correlator :=
  (correlator.map.get requestId,
    { correlator with map := correlator.map.remove requestId })

end Correlator

/-! ## Lines -/

/-- `Contribution`. -/
structure Contribution where
  module : Text
  ruleId : Text
  severity : Option Text
  points : Nat
deriving DecidableEq

/-- `DecisionEvent`. -/
structure DecisionEvent (Time : Type) where
  requestId : Text
  ts : Time
  node : Text
  method : Option Text
  path : Option Text
  clientIp : Option Text
  decision : String
  ruleId : Option Text
  reason : Option Text
  score : Int
  contributions : List Contribution
deriving DecidableEq

/-- The readers of the log that come from libraries. -/
structure LogReader (Time : Type) where
  serde : SerdeJson
  asI64 : Text → Option Int
  parseTime : Text → Option Time
  contributionsFromStr : Text → Option (List Contribution)
  contributionsFromValue : List Json → Option (List Contribution)

variable {Time : Type} (reader : LogReader Time)

/-- `Value::get`. -/
def getKey (value : Json) (name : String) : Option Json :=
  match value with
  | .object fields => fields.lookup name.toList
  | _ => none

/-- `field`: nested under `fields`, else flat. -/
def field (value : Json) (name : String) : Option Json :=
  ((getKey value "fields").bind fun nested => getKey nested name).or
    (getKey value name)

/-- `field_str`. -/
def fieldStr (value : Json) (name : String) : Option Text :=
  match field value name with
  | some (.string text) => some text
  | _ => none

/-- `parse_contributions`. -/
def parseContributions (value : Json) : List Contribution :=
  match field value "score_contributions" with
  | some (.string text) => (reader.contributionsFromStr text).getD []
  | some (.array items) => (reader.contributionsFromValue items).getD []
  | _ => []

/-- `parse_ts`; `now` is the clock when the line is read. -/
def parseTs (now : Time) (value : Json) : Time :=
  ((fieldStr value "timestamp").bind reader.parseTime).getD now

/-- The score, truncated to 32 bits. -/
def parseScore (value : Json) : Int :=
  match field value "score" with
  | some (.number text) => ((reader.asI64 text).getD 0).bmod (2 ^ 32)
  | _ => 0

/-- The context a request line carries. -/
def reqCtx (value : Json) : ReqCtx where
  method := fieldStr value "method"
  path := fieldStr value "path"
  clientIp := fieldStr value "client_ip"

/-- The event of a decision line, joined with the context that was taken. -/
def decisionEvent (now : Time) (node requestId : Text) (value : Json)
    (decision : String) (ctx : ReqCtx) : DecisionEvent Time where
  requestId := requestId
  ts := parseTs reader now value
  node := node
  method := ctx.method
  path := ctx.path
  clientIp := ctx.clientIp
  decision := decision
  ruleId := fieldStr value "rule_id"
  reason := fieldStr value "reason"
  score := parseScore reader value
  contributions := parseContributions reader value

/-- The two messages of a denied request, and how they are stored. -/
def decisionOf (message : Text) : Option String :=
  if message = "request blocked".toList then some "blocked"
  else if message = "request rejected".toList then some "rejected"
  else none

/-- `correlate_line`. -/
def correlateLine (now : Time) (node line : Text) (correlator : Correlator) :
    Option (DecisionEvent Time) × Correlator :=
  match reader.serde.fromStr line with
  | .error _ => (none, correlator)
  | .ok value =>
      let message := (fieldStr value "message").getD []
      match fieldStr value "request_id" with
      | none => (none, correlator)
      | some requestId =>
          if message = "→ request".toList then
            (none, correlator.insert requestId (reqCtx value))
          else
            match decisionOf message with
            | none => (none, correlator)
            | some decision =>
                let (taken, correlator) := correlator.take requestId
                (some (decisionEvent reader now node requestId value decision
                  (taken.getD {})), correlator)

/-! ## Batches -/

/-- A batch being worked off: its node, the lines left, how many stored. -/
structure Batch where
  node : Text
  lines : List Text
  stored : Nat

/-- The lines of a body that are looked at. -/
def batchLines (body : Text) : List Text :=
  ((lines body).map trim).filter fun line => !line.isEmpty

/-- A line as it was shipped. -/
structure Shipped where
  node : Text
  line : Text
deriving DecidableEq

/-- A line that was worked off, with the event the store took for it. -/
structure Processed (Time : Type) extends Shipped where
  stored : Option (DecisionEvent Time)
deriving DecidableEq

/--
`Ingestor`, with the batches in flight.  The lines worked off are recorded in
their order.
-/
structure Ingestor (Time : Type) where
  correlator : Correlator
  batches : List Batch
  processed : List (Processed Time)

/-- `Ingestor::new`, for any size of the correlation buffer. -/
def Ingestor.new (cap : Nat) : Ingestor Time :=
  ⟨.new cap, [], []⟩

/-- `Ingestor::DEFAULT_CAP`. -/
def defaultCap : Nat := 10000

/--
The turn of the loop of `ingest_ndjson` for the next line of a batch that
stands between others; the store accepts the event or fails.
-/
def Ingestor.workOff (state : Ingestor Time) (before after : List Batch)
    (batch : Batch) (line : Text) (rest : List Text) (now : Time)
    (accepted : Bool) : Ingestor Time :=
  let (event, correlator) :=
    correlateLine reader now batch.node line state.correlator
  let stored := event.filter fun _ => accepted
  { correlator := correlator
    batches := before ++
      ⟨batch.node, rest, batch.stored + stored.toList.length⟩ :: after
    processed := state.processed ++ [⟨⟨batch.node, line⟩, stored⟩] }

/--
What happens to the ingestor: `ingest_events` is called, the next line of one
of the batches is worked off, or a batch is answered.
-/
inductive Step : Ingestor Time → Ingestor Time → Prop
  | post (state : Ingestor Time) (node : Option Text) (body : Text) :
      Step state
        { state with
          batches := state.batches ++
            [⟨node.getD "unknown".toList, batchLines body, 0⟩] }
  | line (state : Ingestor Time) (before after : List Batch) (batch : Batch)
      (line : Text) (rest : List Text) (now : Time) (accepted : Bool)
      (running : state.batches = before ++ batch :: after)
      (next : batch.lines = line :: rest) :
      Step state
        (state.workOff reader before after batch line rest now accepted)
  | answer (state : Ingestor Time) (before after : List Batch)
      (batch : Batch) (running : state.batches = before ++ batch :: after)
      (finished : batch.lines = []) :
      Step state { state with batches := before ++ after }

/-- The states of an ingestor with a correlation buffer of size `cap`. -/
def Reachable (cap : Nat) (state : Ingestor Time) : Prop :=
  Relation.ReflTransGen (Step reader) (.new cap) state

end LightWaf.ControlPlane
