import LightWaf.ControlPlane.Ingest
import LightWaf.Proxy.Context

/-!
# Whose request a decision is joined to

The correlator knows a request by its id alone, and every node numbers its
requests from zero.  A decision is joined to the request of its own node as
long as no other node has shipped a request of the same id in between.
-/

namespace LightWaf.ControlPlane

open LightWaf.Rust
open LightWaf.Normalizer

variable {Time : Type} (reader : LogReader Time)

/-! ## What the log says about a request -/

/--
The request a line is about: with the context if it is a request line, with
none if it is a decision line.
-/
def mention (line : Text) : Option (Text × Option ReqCtx) :=
  match reader.serde.fromStr line with
  | .error _ => none
  | .ok value =>
      (fieldStr value "request_id").bind fun requestId =>
        let message := (fieldStr value "message").getD []
        if message = "→ request".toList then
          some (requestId, some (reqCtx value))
        else (decisionOf message).map fun _ => (requestId, none)

/-- The lines about a request id, each with the node that shipped it. -/
def mentions (history : List Shipped) (requestId : Text) :
    List (Text × Option ReqCtx) :=
  history.filterMap fun shipped =>
    (mention reader shipped.line).bind fun (other, ctx) =>
      if other = requestId then some (shipped.node, ctx) else none

/-- The latest line about a request id, whoever shipped it. -/
def latestMention (history : List Shipped) (requestId : Text) :
    Option (Text × Option ReqCtx) :=
  (mentions reader history requestId).getLast?

/-- The context of the latest request line of a node with an id. -/
def latestRequest (history : List Shipped) (node requestId : Text) :
    Option ReqCtx :=
  ((mentions reader history requestId).filterMap fun (other, ctx) =>
    if other = node then ctx else none).getLast?

/-- The event carries the context of its own request, or none. -/
def Attributed (history : List Shipped) (node : Text)
    (event : DecisionEvent Time) : Prop :=
  (event.method = none ∧ event.path = none ∧ event.clientIp = none) ∨
    ∃ ctx, latestRequest reader history node event.requestId = some ctx ∧
      event.method = ctx.method ∧ event.path = ctx.path ∧
        event.clientIp = ctx.clientIp

/-- What a line does to the correlator. -/
def absorb (correlator : Correlator) (line : Text) : Correlator :=
  match mention reader line with
  | none => correlator
  | some (requestId, some ctx) => correlator.insert requestId ctx
  | some (requestId, none) => (correlator.take requestId).2

/-- The correlator after a history of lines. -/
def replay (cap : Nat) (history : List Shipped) : Correlator :=
  history.foldl (fun correlator shipped => absorb reader correlator
    shipped.line) (.new cap)

/--
Whenever a decision line finds a context under its id, the latest line about
that id came from the same node.
-/
def MeetsOwn (cap : Nat) (history : List Shipped) : Prop :=
  ∀ before shipped after requestId ctx,
    history = before ++ shipped :: after →
    mention reader shipped.line = some (requestId, none) →
    (replay reader cap before).map.get requestId = some ctx →
    ∃ last, latestMention reader before requestId = some (shipped.node, last)

/-! ## The correlator -/

/-- A line without a bearing, a request line or a decision line. -/
theorem correlateLine_cases
    (now : Time)
    (node line : Text)
    (correlator : Correlator) :
    (mention reader line = none ∧
      correlateLine reader now node line correlator = (none, correlator)) ∨
    (∃ requestId ctx, mention reader line = some (requestId, some ctx) ∧
      correlateLine reader now node line correlator =
        (none, correlator.insert requestId ctx)) ∨
    (∃ requestId value decision,
      mention reader line = some (requestId, none) ∧
      correlateLine reader now node line correlator =
        (some (decisionEvent reader now node requestId value decision
          ((correlator.map.get requestId).getD {})),
          (correlator.take requestId).2)) := by
  unfold correlateLine mention
  cases reader.serde.fromStr line with
  | error _ =>
      left
      exact ⟨rfl, rfl⟩
  | ok value =>
      cases named : fieldStr value "request_id" with
      | none =>
          left
          simp only [named, Option.bind_none, and_self]
      | some requestId =>
          simp only [named, Option.bind_some]
          generalize (fieldStr value "message").getD [] = message
          by_cases request : message = "→ request".toList
          · right
            left
            rw [if_pos request, if_pos request]
            exact ⟨requestId, reqCtx value, rfl, rfl⟩
          · rw [if_neg request, if_neg request]
            cases decided : decisionOf message with
            | none =>
                left
                exact ⟨rfl, rfl⟩
            | some decision =>
                right
                right
                exact ⟨requestId, value, decision, rfl, rfl⟩

/-- An event leaves the correlator as its line does. -/
theorem correlateLine_snd
    (now : Time)
    (node line : Text)
    (correlator : Correlator) :
    (correlateLine reader now node line correlator).2 =
      absorb reader correlator line := by
  unfold absorb
  rcases correlateLine_cases reader now node line correlator with
    ⟨mentioned, same⟩ | ⟨_, _, mentioned, same⟩ | ⟨_, _, _, mentioned, same⟩
  · rw [mentioned, same]
  · rw [mentioned, same]
  · rw [mentioned, same]

namespace Correlator

theorem get_remove_eq_some
    {map : HashMap Text ReqCtx}
    {removed other : Text}
    {ctx : ReqCtx}
    (found : (map.remove removed).get other = some ctx) :
    other ≠ removed ∧ map.get other = some ctx := by
  rw [HashMap.remove, HashMap.get_retain, Option.filter_eq_some_iff] at found
  exact ⟨of_decide_eq_true found.2, found.1⟩

/-- Eviction only forgets. -/
theorem get_evict_eq_some
    {cap : Nat}
    {order : List Text}
    {map : HashMap Text ReqCtx}
    {requestId : Text}
    {ctx : ReqCtx}
    (found : (evict cap order map).1.get requestId = some ctx) :
    map.get requestId = some ctx := by
  induction order generalizing map with
  | nil => exact found
  | cons old order induction =>
      rw [evict] at found
      split at found
      · exact (get_remove_eq_some (induction found)).2
      · exact found

/-- What is buffered after an insertion was inserted now or before. -/
theorem get_insert_eq_some
    {correlator : Correlator}
    {requestId other : Text}
    {ctx found : ReqCtx}
    (stored : (correlator.insert requestId ctx).map.get other =
      some found) :
    (other = requestId ∧ found = ctx) ∨
      (other ≠ requestId ∧ correlator.map.get other = some found) := by
  have inserted : (correlator.map.insert requestId ctx).get other =
      some found := by
    unfold insert at stored
    dsimp only at stored
    split at stored
    · exact get_evict_eq_some stored
    · exact stored
  rw [HashMap.get_insert] at inserted
  split at inserted
  · rename_i same
    exact Or.inl ⟨same, (Option.some.inj inserted).symm⟩
  · rename_i differs
    exact Or.inr ⟨differs, inserted⟩

end Correlator

/-! ## Histories -/

/-- One more line about a request is the latest about it. -/
theorem mentions_concat
    (history : List Shipped)
    (shipped : Shipped)
    (requestId : Text) :
    mentions reader (history ++ [shipped]) requestId =
      mentions reader history requestId ++
        ((mention reader shipped.line).bind fun (other, ctx) =>
          if other = requestId then some (shipped.node, ctx)
          else none).toList := by
  unfold mentions
  rw [List.filterMap_append]
  congr 1

theorem replay_concat
    (cap : Nat)
    (history : List Shipped)
    (shipped : Shipped) :
    replay reader cap (history ++ [shipped]) =
      absorb reader (replay reader cap history) shipped.line := by
  simp [replay]

/-- A context is buffered only if the latest line about it brought it. -/
theorem latestMention_of_buffered
    (cap : Nat)
    (history : List Shipped)
    (requestId : Text)
    (ctx : ReqCtx)
    (buffered : (replay reader cap history).map.get requestId = some ctx) :
    ∃ node, latestMention reader history requestId =
      some (node, some ctx) := by
  induction history using List.reverseRecOn generalizing ctx with
  | nil => cases buffered
  | append_singleton history shipped induction =>
      rw [replay_concat] at buffered
      rw [latestMention, mentions_concat]
      unfold absorb at buffered
      split at buffered
      · rename_i unsaid
        simpa [unsaid, latestMention] using induction ctx buffered
      · rename_i other brought said
        rcases Correlator.get_insert_eq_some buffered with
          ⟨rfl, rfl⟩ | ⟨differs, kept⟩
        · exact ⟨shipped.node, by simp [said]⟩
        · simpa [said, differs.symm, latestMention] using induction ctx kept
      · rename_i other said
        obtain ⟨differs, kept⟩ := Correlator.get_remove_eq_some buffered
        simpa [said, differs.symm, latestMention] using induction ctx kept

/-- The latest line about a request is the latest of the node it is from. -/
theorem latestRequest_of_latestMention
    {history : List Shipped}
    {node requestId : Text}
    {ctx : ReqCtx}
    (latest : latestMention reader history requestId =
      some (node, some ctx)) :
    latestRequest reader history node requestId = some ctx := by
  obtain ⟨earlier, split⟩ := List.getLast?_eq_some_iff.mp latest
  rw [latestRequest, split, List.filterMap_append]
  simp

/-- A decision that meets a line of its own node is attributed. -/
theorem attributed_of_meetsOwn
    (cap : Nat)
    (now : Time)
    (before : List Shipped)
    (shipped : Shipped)
    (own : ∀ requestId ctx,
      mention reader shipped.line = some (requestId, none) →
      (replay reader cap before).map.get requestId = some ctx →
      ∃ last, latestMention reader before requestId =
        some (shipped.node, last))
    (event : DecisionEvent Time)
    (joined : (correlateLine reader now shipped.node shipped.line
      (replay reader cap before)).1 = some event) :
    Attributed reader before shipped.node event := by
  rcases correlateLine_cases reader now shipped.node shipped.line
      (replay reader cap before) with
    ⟨_, same⟩ | ⟨_, _, _, same⟩ |
    ⟨requestId, value, decision, decides, same⟩
  · rw [same] at joined
    cases joined
  · rw [same] at joined
    cases joined
  · rw [same] at joined
    cases joined
    cases found : (replay reader cap before).map.get requestId with
    | none =>
        left
        exact ⟨rfl, rfl, rfl⟩
    | some ctx =>
        right
        obtain ⟨node, brought⟩ :=
          latestMention_of_buffered reader cap before requestId ctx found
        obtain ⟨last, latest⟩ := own requestId ctx decides found
        cases brought.symm.trans latest
        exact ⟨ctx, latestRequest_of_latestMention reader brought,
          rfl, rfl, rfl⟩

/-! ## Every interleaving -/

/-- The lines an ingestor has worked off, as they were shipped. -/
def Ingestor.history (state : Ingestor Time) : List Shipped :=
  state.processed.map Processed.toShipped

/--
The correlator is that of the lines worked off, and what was stored for a
line is what the lines before it made of it.
-/
structure Tracks (cap : Nat) (state : Ingestor Time) : Prop where
  correlator : state.correlator = replay reader cap state.history
  stored : ∀ (before : List (Processed Time)) (entry : Processed Time)
      (after : List (Processed Time)) (event : DecisionEvent Time),
    state.processed = before ++ entry :: after →
    entry.stored = some event →
    ∃ now, (correlateLine reader now entry.node entry.line
      (replay reader cap (before.map Processed.toShipped))).1 = some event

theorem tracks_new (cap : Nat) : Tracks reader cap (.new cap) := by
  refine ⟨rfl, ?_⟩
  intro before entry after event split
  cases before <;> cases split

theorem tracks_workOff
    {cap : Nat}
    {state : Ingestor Time}
    (tracks : Tracks reader cap state)
    (before after : List Batch)
    (batch : Batch)
    (line : Text)
    (rest : List Text)
    (now : Time)
    (accepted : Bool) :
    Tracks reader cap
      (state.workOff reader before after batch line rest now accepted) := by
  constructor
  · have worked : (state.workOff reader before after batch line rest now
        accepted).history = state.history ++ [⟨batch.node, line⟩] := by
      simp [Ingestor.history, Ingestor.workOff]
    rw [worked, replay_concat, ← tracks.correlator]
    exact correlateLine_snd reader now batch.node line state.correlator
  · intro earlier entry later event split stored
    rcases List.eq_nil_or_concat' later with rfl | ⟨later, last, rfl⟩
    · obtain ⟨same, final⟩ := List.append_inj' split rfl
      cases final
      refine ⟨now, ?_⟩
      rw [← same]
      have seen : replay reader cap
          (state.processed.map Processed.toShipped) = state.correlator :=
        tracks.correlator.symm
      rw [seen]
      exact (Option.filter_eq_some_iff.mp stored).1
    · rw [← List.cons_append, ← List.append_assoc] at split
      exact tracks.stored earlier entry later event
        (List.append_inj' split rfl).1 stored

theorem tracks_of_reachable
    {cap : Nat}
    {state : Ingestor Time}
    (reached : Reachable reader cap state) :
    Tracks reader cap state := by
  induction reached with
  | refl => exact tracks_new reader cap
  | tail _ step induction =>
      cases step with
      | post node body => exact ⟨induction.correlator, induction.stored⟩
      | line before after batch line rest now accepted running next =>
          exact tracks_workOff reader induction before after batch line rest
            now accepted
      | answer before after batch running finished =>
          exact ⟨induction.correlator, induction.stored⟩

/--
In every interleaving of batches in which each decision that finds a context
meets a line of its own node, every stored event carries the context of the
latest request line of its node with the same id, or no context at all.
-/
theorem decisions_attributed
    (cap : Nat)
    (state : Ingestor Time)
    (reached : Reachable reader cap state)
    (own : MeetsOwn reader cap state.history)
    (before : List (Processed Time))
    (entry : Processed Time)
    (after : List (Processed Time))
    (event : DecisionEvent Time)
    (split : state.processed = before ++ entry :: after)
    (stored : entry.stored = some event) :
    Attributed reader (before.map Processed.toShipped) entry.node event := by
  obtain ⟨now, joined⟩ :=
    (tracks_of_reachable reader reached).stored before entry after event
      split stored
  apply attributed_of_meetsOwn reader cap now _ entry.toShipped _ event joined
  intro requestId ctx decides found
  have shippedSplit : state.history =
      before.map Processed.toShipped ++
        entry.toShipped :: after.map Processed.toShipped := by
    rw [Ingestor.history, split, List.map_append, List.map_cons]
  exact own _ entry.toShipped _ requestId ctx shippedSplit decides found

/-! ## Two nodes -/

/-- The state after an idle ingestor was sent one line and stored its event. -/
def Ingestor.feed (state : Ingestor Time) (shipped : Shipped) (now : Time) :
    Ingestor Time where
  correlator :=
    (correlateLine reader now shipped.node shipped.line state.correlator).2
  batches := []
  processed := state.processed ++ [⟨shipped,
    (correlateLine reader now shipped.node shipped.line
      state.correlator).1⟩]

theorem reachable_feed
    {cap : Nat}
    {state : Ingestor Time}
    (reached : Reachable reader cap state)
    (idle : state.batches = [])
    (shipped : Shipped)
    (now : Time)
    (single : batchLines shipped.line = [shipped.line]) :
    Reachable reader cap (state.feed reader shipped now) := by
  have posted := reached.tail
    (Step.post state (some shipped.node) shipped.line)
  have worked := posted.tail
    (Step.line _ [] [] ⟨shipped.node, [shipped.line], 0⟩ shipped.line [] now
      true (by rw [idle, single]; rfl) rfl)
  have answered := worked.tail (Step.answer _ [] [] _ rfl rfl)
  have kept : ∀ event : Option (DecisionEvent Time),
      event.filter (fun _ => true) = event := by
    intro event
    cases event <;> rfl
  simpa [Reachable, Ingestor.feed, Ingestor.workOff, kept] using answered

/-- A line of the log with the given fields. -/
def logText (fields : List (Text × Text)) : Text :=
  let quoted (text : Text) : Text := '\x22' :: text ++ ['\x22']
  "\x7b\x22fields\x22:\x7b".toList ++
    List.intercalate [','] (fields.map fun (key, value) =>
      quoted key ++ ':' :: quoted value) ++ "\x7d\x7d".toList

/-- The value of such a line. -/
def logValue (fields : List (Text × Text)) : Json :=
  .object [("fields".toList,
    .object (fields.map fun (key, value) => (key, .string value)))]

/-- The fields of the first request of a process. -/
def requestFields (path clientIp : String) : List (Text × Text) :=
  [("message".toList, "→ request".toList),
    ("request_id".toList, (Proxy.nextRequestId 0).1),
    ("method".toList, "GET".toList), ("path".toList, path.toList),
    ("client_ip".toList, clientIp.toList)]

/-- The fields of the line that denies it. -/
def blockedFields : List (Text × Text) :=
  [("message".toList, "request blocked".toList),
    ("request_id".toList, (Proxy.nextRequestId 0).1)]

/-- A reader of lines with the given fields. -/
def readerOf (known : List (List (Text × Text))) : LogReader Unit where
  serde := ⟨fun text =>
    match known.find? fun fields => logText fields = text with
    | some fields => .ok (logValue fields)
    | none => .error "expected value".toList⟩
  asI64 _ := none
  parseTime _ := none
  contributionsFromStr _ := none
  contributionsFromValue _ := none

/-- The requests that the two nodes number alike, and a denial. -/
def twoNodes : LogReader Unit :=
  readerOf [requestFields "/a" "203.0.113.7",
    requestFields "/b" "198.51.100.9", blockedFields]

/-- The first request of the first node. -/
def firstRequest : Shipped :=
  ⟨"edge-1".toList, logText (requestFields "/a" "203.0.113.7")⟩

/-- The first request of the second node. -/
def otherRequest : Shipped :=
  ⟨"edge-2".toList, logText (requestFields "/b" "198.51.100.9")⟩

/-- The first node denies its request. -/
def firstBlocked : Shipped :=
  ⟨"edge-1".toList, logText blockedFields⟩

/-- The first node has shipped its request and its decision. -/
def ownDecision : Ingestor Unit :=
  ((Ingestor.new defaultCap).feed twoNodes firstRequest ()).feed twoNodes
    firstBlocked ()

/-- The second node has shipped a request of the same id in between. -/
def foreignDecision : Ingestor Unit :=
  (((Ingestor.new defaultCap).feed twoNodes firstRequest ()).feed twoNodes
    otherRequest ()).feed twoNodes firstBlocked ()

/-- The event of the denial, joined with a context. -/
def blockedEvent (path clientIp : String) : DecisionEvent Unit where
  requestId := (Proxy.nextRequestId 0).1
  ts := ()
  node := "edge-1".toList
  method := some "GET".toList
  path := some path.toList
  clientIp := some clientIp.toList
  decision := "blocked"
  ruleId := none
  reason := none
  score := 0
  contributions := []

/-- The lines are batches of their own. -/
theorem batchLines_twoNodes :
    ∀ shipped ∈ [firstRequest, otherRequest, firstBlocked],
      batchLines shipped.line = [shipped.line] := by
  decide +kernel

theorem reachable_firstRequest :
    Reachable twoNodes defaultCap
      ((Ingestor.new defaultCap).feed twoNodes firstRequest ()) :=
  reachable_feed twoNodes .refl rfl firstRequest ()
    (batchLines_twoNodes _ (by simp))

theorem reachable_ownDecision :
    Reachable twoNodes defaultCap ownDecision :=
  reachable_feed twoNodes reachable_firstRequest rfl firstBlocked ()
    (batchLines_twoNodes _ (by simp))

theorem reachable_foreignDecision :
    Reachable twoNodes defaultCap foreignDecision := by
  have requested := reachable_feed twoNodes reachable_firstRequest rfl
    otherRequest () (batchLines_twoNodes _ (by simp))
  exact reachable_feed twoNodes requested rfl firstBlocked ()
    (batchLines_twoNodes _ (by simp))

/-- What the lines mention and what both runs stored. -/
theorem runs_twoNodes :
    (mention twoNodes firstRequest.line =
        some ((Proxy.nextRequestId 0).1, some ⟨some "GET".toList,
          some "/a".toList, some "203.0.113.7".toList⟩) ∧
      mention twoNodes firstBlocked.line =
        some ((Proxy.nextRequestId 0).1, none)) ∧
    (ownDecision.processed =
        [⟨firstRequest, none⟩] ++
          ⟨firstBlocked, some (blockedEvent "/a" "203.0.113.7")⟩ :: [] ∧
      foreignDecision.processed =
        [⟨firstRequest, none⟩, ⟨otherRequest, none⟩] ++
          ⟨firstBlocked, some (blockedEvent "/b" "198.51.100.9")⟩ :: []) := by
  decide +kernel

theorem meetsOwn_ownDecision :
    MeetsOwn twoNodes defaultCap ownDecision.history := by
  intro before shipped after requestId ctx split decides _
  have shippedLines : ownDecision.history = [firstRequest, firstBlocked] :=
    rfl
  rw [shippedLines] at split
  rcases before with _ | ⟨first, _ | ⟨second, before⟩⟩
  · cases split
    rw [runs_twoNodes.1.1] at decides
    cases decides
  · cases split
    rw [runs_twoNodes.1.2] at decides
    cases decides
    exact ⟨some ⟨some "GET".toList, some "/a".toList,
      some "203.0.113.7".toList⟩, by decide +kernel⟩
  · simp at split

theorem processed_ownDecision :
    ownDecision.processed =
      [⟨firstRequest, none⟩] ++
        ⟨firstBlocked, some (blockedEvent "/a" "203.0.113.7")⟩ :: [] :=
  runs_twoNodes.2.1

theorem processed_foreignDecision :
    foreignDecision.processed =
      [⟨firstRequest, none⟩, ⟨otherRequest, none⟩] ++
        ⟨firstBlocked, some (blockedEvent "/b" "198.51.100.9")⟩ :: [] :=
  runs_twoNodes.2.2

/-- Undisturbed, the first node's decision is joined to its request. -/
theorem decisions_attributed_ownDecision :
    Attributed twoNodes [firstRequest] firstBlocked.node
      (blockedEvent "/a" "203.0.113.7") :=
  decisions_attributed twoNodes defaultCap ownDecision reachable_ownDecision
    meetsOwn_ownDecision [⟨firstRequest, none⟩]
    ⟨firstBlocked, some (blockedEvent "/a" "203.0.113.7")⟩ []
    (blockedEvent "/a" "203.0.113.7") processed_ownDecision rfl

/-- The decision of the first node is stored with the second's request. -/
theorem not_attributed_foreignDecision :
    Reachable twoNodes defaultCap foreignDecision ∧
    ∃ (before : List (Processed Unit)) (entry : Processed Unit)
      (after : List (Processed Unit)) (event : DecisionEvent Unit),
      foreignDecision.processed = before ++ entry :: after ∧
      entry.stored = some event ∧
      ¬ Attributed twoNodes (before.map Processed.toShipped) entry.node
        event := by
  refine ⟨reachable_foreignDecision, _, _, _, _, processed_foreignDecision,
    rfl, ?_⟩
  rintro (⟨absent, _⟩ | ⟨ctx, latest, _, path, _⟩)
  · cases absent
  · have own : latestRequest twoNodes [firstRequest, otherRequest]
        firstBlocked.node (Proxy.nextRequestId 0).1 =
          some ⟨some "GET".toList, some "/a".toList,
            some "203.0.113.7".toList⟩ := by
      decide +kernel
    cases own.symm.trans latest
    revert path
    decide

end LightWaf.ControlPlane
