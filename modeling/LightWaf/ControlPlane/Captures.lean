import LightWaf.Proxy.Context
import LightWaf.Rust.Encode

/-!
# Whose capture the drill-down returns

Nodes take a capture of every denied request and ship it, perhaps more than
once.  The table `request_captures` and the drill-down know a capture by its
request id alone, and every process numbers its requests from zero.  Each
request gets its own capture, and `ON CONFLICT DO NOTHING` absorbs only
re-deliveries, exactly when no stored capture comes from another request with
the same counter value.
-/

namespace LightWaf.ControlPlane.Captures

open LightWaf.Rust

/-! ## Request ids -/

/-- The number that hexadecimal digits write. -/
def hexValue (digits : Text) : Nat :=
  digits.foldl (fun value char => value * 16 + (toDigit 16 char).getD 0) 0

theorem hexValue_toDigits (number : Nat) :
    hexValue (Nat.toDigits 16 number) = number := by
  induction number using Nat.strong_induction_on with
  | _ number induction =>
      rw [Nat.toDigits_eq_if (by decide)]
      split
      · rename_i small
        simp [hexValue, toDigit_hexDigit number small]
      · rename_i large
        have smaller : number / 16 < number := by omega
        have last := toDigit_hexDigit (number % 16)
          (Nat.mod_lt _ (by decide))
        have high := induction (number / 16) smaller
        rw [hexValue] at high
        rw [hexValue, List.foldl_append, high]
        simp only [List.foldl_cons, List.foldl_nil, last, Option.getD_some]
        omega

theorem hexValue_leftpad (width : Nat) (digits : Text) :
    hexValue (digits.leftpad width '0') = hexValue digits := by
  have zeros (count : Nat) :
      hexValue (List.replicate count '0' ++ digits) = hexValue digits := by
    induction count with
    | zero => rfl
    | succ count induction => exact induction
  exact zeros _

/-- Different counter values give different ids. -/
theorem requestIdText_injective :
    Function.Injective Proxy.requestIdText := by
  intro first second same
  rw [Proxy.requestIdText, Proxy.requestIdText,
    List.append_cancel_left_eq] at same
  have values := congrArg hexValue same
  rw [hexValue_leftpad, hexValue_leftpad, hexValue_toDigits,
    hexValue_toDigits] at values
  exact UInt64.toNat_inj.mp values

/-! ## The table -/

/-- `CapturedRequest`. -/
structure CapturedRequest where
  requestId : Text
  method : Text
  path : Text
  query : Option Text
  httpVersion : Text
  headers : List (Text × Text)
  cookies : List (Text × Text)
  bodyB64 : Text
  bodySize : UInt64
  bodyTruncated : Bool
  redacted : List Text
deriving DecidableEq

/-- A row of `request_captures`. -/
structure CaptureRow where
  requestId : Text
  node : Text
  method : Text
  path : Text
  query : Option Text
  httpVersion : Text
  headers : List (Text × Text)
  cookies : List (Text × Text)
  body : Bytes
  bodySize : Int64
  bodyTruncated : Bool
  redacted : List Text

/-- The standard engine of the base64 library. -/
structure Base64 where
  decode : Text → Option Bytes
  encode : Bytes → Text

variable (base64 : Base64)

/-- The values that `insert_capture` binds; a body may be malformed. -/
def captureRow (node : Text) (cap : CapturedRequest) : Option CaptureRow :=
  (base64.decode cap.bodyB64).map fun body =>
    { requestId := cap.requestId
      node := node
      method := cap.method
      path := cap.path
      query := cap.query
      httpVersion := cap.httpVersion
      headers := cap.headers
      cookies := cap.cookies
      body := body
      bodySize := cap.bodySize.toInt64
      bodyTruncated := cap.bodyTruncated
      redacted := cap.redacted }

/-- `CapturedRequest::from` a row. -/
def CapturedRequest.fromRow (row : CaptureRow) : CapturedRequest where
  requestId := row.requestId
  method := row.method
  path := row.path
  query := row.query
  httpVersion := row.httpVersion
  headers := row.headers
  cookies := row.cookies
  bodyB64 := base64.encode row.body
  bodySize := (max row.bodySize 0).toUInt64
  bodyTruncated := row.bodyTruncated
  redacted := row.redacted

/-! ## Nodes, deliveries and events -/

/--
A request: the node, the run of its process and the place in that run.  The
counter of the process is the place, modulo its width.
-/
structure Request where
  node : Text
  run : Nat
  place : Nat
deriving DecidableEq

namespace Request

/-- The value of `REQUEST_COUNTER` for the request. -/
def counter (request : Request) : UInt64 :=
  UInt64.ofNat request.place

/-- The id that `next_request_id` gave it. -/
def id (request : Request) : Text :=
  (Proxy.nextRequestId request.counter).1

end Request

/-- A capture and the request it was taken for. -/
structure Taken where
  request : Request
  capture : CapturedRequest
  named : capture.requestId = request.id

/-- A row, and the capture that made it (which no query reads). -/
structure Stored where
  row : CaptureRow
  source : Taken
  made : ∃ node, captureRow base64 node source.capture = some row

/-- The run of a node's process, and how many requests it has numbered. -/
structure Process where
  run : Nat
  requests : Nat

/-- All nodes and the tables of the control plane. -/
structure Fleet where
  processes : Text → Process
  taken : List Taken
  captures : List (Stored base64)
  /-- The requests whose captures `insert_capture` has answered with success. -/
  accepted : List Request
  /-- The requests whose decision event is stored. -/
  events : List Request

variable {base64}

namespace Fleet

/-- Before any request. -/
def new : Fleet base64 where
  processes _ := ⟨0, 0⟩
  taken := []
  captures := []
  accepted := []
  events := []

/-- The row under a request id, which is the primary key. -/
def lookup (captures : List (Stored base64)) (requestId : Text) :
    Option (Stored base64) :=
  captures.find? fun stored => stored.row.requestId = requestId

/-- `get_capture`. -/
def getCapture (fleet : Fleet base64) (requestId : Text) :
    Option CapturedRequest :=
  (lookup fleet.captures requestId).map fun stored =>
    .fromRow base64 stored.row

/-- `INSERT ... ON CONFLICT (request_id) DO NOTHING`. -/
def insertRow (captures : List (Stored base64)) (stored : Stored base64) :
    List (Stored base64) :=
  if (lookup captures stored.row.requestId).isSome then captures
  else captures ++ [stored]

/-- A process starts: its counter begins at zero. -/
def restart (fleet : Fleet base64) (node : Text) : Fleet base64 :=
  { fleet with
    processes := Function.update fleet.processes node
      ⟨(fleet.processes node).run + 1, 0⟩ }

/-- The next request of a node. -/
def nextRequest (fleet : Fleet base64) (node : Text) : Request :=
  ⟨node, (fleet.processes node).run, (fleet.processes node).requests⟩

/-- The capture of the next request, `CapturedRequest::from_ctx`. -/
def nextTaken (fleet : Fleet base64) (node : Text)
    (content : CapturedRequest) : Taken :=
  ⟨fleet.nextRequest node,
    { content with requestId := (fleet.nextRequest node).id }, rfl⟩

/-- A node numbers a request and takes its capture. -/
def take (fleet : Fleet base64) (node : Text) (content : CapturedRequest) :
    Fleet base64 :=
  let request := fleet.nextRequest node
  { fleet with
    processes := Function.update fleet.processes node
      ⟨request.run, request.place + 1⟩
    taken := fleet.taken ++ [fleet.nextTaken node content] }

/--
`insert_capture`, called for a capture of a node that may or may not name
itself.  The database may fail, and a malformed body is an error.
-/
def insertCapture (fleet : Fleet base64) (node : Option Text)
    (taken : Taken) (available : Bool) : Fleet base64 :=
  let node := node.getD "unknown".toList
  match made : captureRow base64 node taken.capture with
  | none => fleet
  | some row =>
      if available then
        { fleet with
          captures := insertRow fleet.captures ⟨row, taken, node, made⟩
          accepted := fleet.accepted ++ [taken.request] }
      else fleet

/-- `insert_decision_event` for a request. -/
def insertEvent (fleet : Fleet base64) (request : Request) :
    Fleet base64 :=
  { fleet with events := fleet.events ++ [request] }

end Fleet

/-- What happens, in any order; a capture may be delivered any time. -/
inductive Step : Fleet base64 → Fleet base64 → Prop
  | restart (fleet : Fleet base64) (node : Text) :
      Step fleet (fleet.restart node)
  | take (fleet : Fleet base64) (node : Text) (content : CapturedRequest) :
      Step fleet (fleet.take node content)
  | deliver (fleet : Fleet base64) (node : Option Text) (taken : Taken)
      (available : Bool) (shipped : taken ∈ fleet.taken) :
      Step fleet (fleet.insertCapture node taken available)
  | event (fleet : Fleet base64) (taken : Taken)
      (served : taken ∈ fleet.taken) :
      Step fleet (fleet.insertEvent taken.request)

/-- The states of the fleet. -/
def Reachable (fleet : Fleet base64) : Prop :=
  Relation.ReflTransGen Step .new fleet

/-! ## Identity -/

/--
The drill-down of a stored event returns the capture of that very request or
nothing, and no accepted capture was dropped for that of another request.
-/
structure Identified (fleet : Fleet base64) : Prop where
  events : ∀ request ∈ fleet.events, ∀ stored,
    Fleet.lookup fleet.captures request.id = some stored →
      stored.source.request = request
  accepted : ∀ request ∈ fleet.accepted, ∃ stored,
    Fleet.lookup fleet.captures request.id = some stored ∧
      stored.source.request = request

/--
No accepted capture has the counter value of another request, on another node
or in another run, that has a stored event or an accepted capture.
-/
def Unshared (fleet : Fleet base64) : Prop :=
  ∀ first ∈ fleet.accepted, ∀ second,
    second ∈ fleet.events ∨ second ∈ fleet.accepted →
    first.counter = second.counter → first = second

theorem Request.id_eq_iff {first second : Request} :
    first.id = second.id ↔ first.counter = second.counter :=
  requestIdText_injective.eq_iff

theorem Stored.requestId_eq (stored : Stored base64) :
    stored.row.requestId = stored.source.request.id := by
  obtain ⟨node, made⟩ := stored.made
  rw [captureRow, Option.map_eq_some_iff] at made
  obtain ⟨body, -, built⟩ := made
  rw [← built]
  exact stored.source.named

theorem lookup_eq_some
    {captures : List (Stored base64)} {requestId : Text}
    {stored : Stored base64}
    (found : Fleet.lookup captures requestId = some stored) :
    stored ∈ captures ∧ stored.source.request.id = requestId := by
  refine ⟨List.mem_of_find?_eq_some found, ?_⟩
  rw [← stored.requestId_eq]
  simpa using List.find?_some found

theorem lookup_insertRow
    {captures : List (Stored base64)} {stored : Stored base64}
    {requestId : Text} :
    (Fleet.lookup (Fleet.insertRow captures stored) requestId).isSome ↔
      (Fleet.lookup captures requestId).isSome ∨
        stored.row.requestId = requestId := by
  rw [Fleet.insertRow]
  split
  · rename_i present
    constructor
    · exact Or.inl
    · rintro (found | rfl)
      · exact found
      · exact present
  · simp [Fleet.lookup, List.find?_append, Option.isSome_or]

/-- The table holds accepted captures, and each id that was accepted. -/
structure Kept (fleet : Fleet base64) : Prop where
  delivered : ∀ stored ∈ fleet.captures,
    stored.source.request ∈ fleet.accepted
  present : ∀ request ∈ fleet.accepted,
    (Fleet.lookup fleet.captures request.id).isSome

theorem kept_insertCapture
    {fleet : Fleet base64} (kept : Kept fleet) (node : Option Text)
    (taken : Taken) (available : Bool) :
    Kept (fleet.insertCapture node taken available) := by
  rw [Fleet.insertCapture]
  split
  · exact kept
  · rename_i row made
    split
    · constructor
      · intro stored member
        rw [Fleet.insertRow] at member
        rw [List.mem_append]
        split at member
        · exact .inl (kept.delivered stored member)
        · rcases List.mem_append.mp member with older | newest
          · exact .inl (kept.delivered stored older)
          · rw [List.mem_singleton.mp newest]
            exact .inr (List.mem_singleton_self _)
      · intro request member
        rw [lookup_insertRow, Stored.requestId_eq]
        rcases List.mem_append.mp member with older | newest
        · exact .inl (kept.present request older)
        · exact .inr (by rw [List.mem_singleton.mp newest])
    · exact kept

/-- Every step keeps the table in order. -/
theorem kept_of_reachable
    {fleet : Fleet base64} (reachable : Reachable fleet) : Kept fleet := by
  induction reachable with
  | refl =>
      exact ⟨(fun _ member => nomatch member),
        (fun _ member => nomatch member)⟩
  | tail earlier step kept =>
      cases step with
      | restart => exact ⟨kept.delivered, kept.present⟩
      | take => exact ⟨kept.delivered, kept.present⟩
      | deliver node taken available shipped =>
          exact kept_insertCapture kept node taken available
      | event => exact ⟨kept.delivered, kept.present⟩

/--
In every state of the fleet each request has its own capture in the
drill-down, if it has any, if and only if no accepted capture shares its
counter value with another request.
-/
theorem identified_iff_unshared
    {fleet : Fleet base64} (reachable : Reachable fleet) :
    Identified fleet ↔ Unshared fleet := by
  have kept := kept_of_reachable reachable
  constructor
  · intro identified first accepted second known same
    obtain ⟨stored, found, own⟩ := identified.accepted first accepted
    rw [Request.id_eq_iff.mpr same] at found
    rw [← own]
    rcases known with event | other
    · exact identified.events second event stored found
    · obtain ⟨stored', found', own'⟩ := identified.accepted second other
      obtain rfl := Option.some.inj (found.symm.trans found')
      exact own'
  · intro unshared
    have owned {request : Request}
        (known : request ∈ fleet.events ∨ request ∈ fleet.accepted)
        {stored : Stored base64}
        (found : Fleet.lookup fleet.captures request.id = some stored) :
        stored.source.request = request := by
      obtain ⟨inside, named⟩ := lookup_eq_some found
      exact unshared _ (kept.delivered stored inside) request known
        (Request.id_eq_iff.mp named)
    constructor
    · intro request event stored found
      exact owned (.inl event) found
    · intro request accepted
      obtain ⟨stored, found⟩ :=
        Option.isSome_iff_exists.mp (kept.present request accepted)
      exact ⟨stored, found, owned (.inr accepted) found⟩

/-! ## Two nodes -/

/-- The library on an empty body. -/
def emptyBody : Base64 where
  decode text := if text = [] then some [] else none
  encode _ := []

/-- A request without a body. -/
def bodyless (path : String) : CapturedRequest where
  requestId := []
  method := "GET".toList
  path := path.toList
  query := none
  httpVersion := "HTTP/1.1".toList
  headers := []
  cookies := []
  bodyB64 := []
  bodySize := 0
  bodyTruncated := false
  redacted := []

/-- The first request of a node, its capture delivered and its event stored. -/
def Fleet.denied (fleet : Fleet emptyBody) (node path : String) :
    Fleet emptyBody :=
  let taken := fleet.nextTaken node.toList (bodyless path)
  ((fleet.take node.toList (bodyless path)).insertCapture
    (some node.toList) taken true).insertEvent taken.request

theorem taken_insertCapture
    (fleet : Fleet base64) (node : Option Text) (taken : Taken)
    (available : Bool) :
    (fleet.insertCapture node taken available).taken = fleet.taken := by
  rw [Fleet.insertCapture]
  split
  · rfl
  · split <;> rfl

theorem reachable_denied
    {fleet : Fleet emptyBody} (reachable : Reachable fleet)
    (node path : String) :
    Reachable (fleet.denied node path) := by
  have shipped : fleet.nextTaken node.toList (bodyless path) ∈
      (fleet.take node.toList (bodyless path)).taken :=
    List.mem_append_right _ (List.mem_singleton_self _)
  have served := shipped
  rw [← taken_insertCapture _ (some node.toList) _ true] at served
  exact ((reachable.tail (Step.take ..)).tail
    (Step.deliver _ _ _ _ shipped)).tail (Step.event _ _ served)

/-- One node, one denied request. -/
def oneNode : Fleet emptyBody :=
  Fleet.new.denied "edge-a" "/login"

/-- Another node denies its own first request. -/
def twoNodes : Fleet emptyBody :=
  oneNode.denied "edge-b" "/admin"

theorem reachable_oneNode : Reachable oneNode :=
  reachable_denied .refl "edge-a" "/login"

theorem reachable_twoNodes : Reachable twoNodes :=
  reachable_denied reachable_oneNode "edge-b" "/admin"

/--
Another node denies its second request, its first one was let through; the
capture of the first node is delivered once more.
-/
def redelivered : Fleet emptyBody :=
  ((oneNode.take "edge-b".toList (bodyless "/")).denied "edge-b"
    "/admin").insertCapture (some "edge-a".toList)
      ((Fleet.new : Fleet emptyBody).nextTaken "edge-a".toList
        (bodyless "/login")) true

theorem reachable_redelivered : Reachable redelivered := by
  have served : Reachable ((oneNode.take "edge-b".toList
      (bodyless "/")).denied "edge-b" "/admin") :=
    reachable_denied (reachable_oneNode.tail (Step.take ..)) "edge-b" "/admin"
  exact served.tail (Step.deliver _ _ _ _ List.mem_cons_self)

theorem identified_redelivered :
    redelivered.accepted = [⟨"edge-a".toList, 0, 0⟩, ⟨"edge-b".toList, 0, 1⟩,
      ⟨"edge-a".toList, 0, 0⟩] ∧ Identified redelivered := by
  refine ⟨rfl, (identified_iff_unshared reachable_redelivered).mpr ?_⟩
  have known : ∀ request : Request, request ∈ redelivered.events ∨
      request ∈ redelivered.accepted →
        request = ⟨"edge-a".toList, 0, 0⟩ ∨
          request = ⟨"edge-b".toList, 0, 1⟩ := by
    rintro request (event | accepted)
    · exact List.mem_pair.mp event
    · rcases List.mem_cons.mp accepted with first | later
      · exact .inl first
      · exact (List.mem_pair.mp later).symm
  intro first accepted second member same
  rcases known first (.inr accepted) with rfl | rfl <;>
    rcases known second member with rfl | rfl
  · rfl
  · exact absurd same (by decide)
  · exact absurd same (by decide)
  · rfl

/-- The event of the second node shows the request of the first. -/
theorem not_identified_twoNodes :
    Reachable twoNodes ∧
      (⟨"edge-b".toList, 0, 0⟩ : Request) ∈ twoNodes.events ∧
      (twoNodes.getCapture (Request.id ⟨"edge-b".toList, 0, 0⟩)).map
        CapturedRequest.path = some "/login".toList ∧
      ¬ Identified twoNodes := by
  have event : (⟨"edge-b".toList, 0, 0⟩ : Request) ∈ twoNodes.events :=
    List.mem_append_right _ (List.mem_singleton_self _)
  refine ⟨reachable_twoNodes, event, rfl, fun identified => ?_⟩
  have own := identified.events _ event _ rfl
  exact absurd own (by decide)

end LightWaf.ControlPlane.Captures
