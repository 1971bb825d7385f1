import LightWaf.ControlPlane.Prometheus
import LightWaf.Theory.Resets

/-!
# Lifetime totals of the decisions

The embedding of `scrape_node` of `waf-controlplane/src/scraper.rs` and of
`accumulate_metric_totals` of `store.rs`, with the node that is scraped.  The
node counts requests while it renders its counters one after the other, it may
be restarted at any point, and a scrape may fail between any two statements.
No total ever exceeds the number of requests that were recorded, and no total
is ever reduced.
-/

namespace LightWaf.ControlPlane.MetricTotals

open LightWaf.Rust
open LightWaf.Proxy
open LightWaf.Theory
open LightWaf.Theory.Resets
open LightWaf.ControlPlane.Prometheus

/-! ## The node and the scraper -/

/-- `metric_totals`, by node and decision; its rows are as of the histogram. -/
abbrev Table :=
  HashMap (Text × Text) LatencyRow

/-- How far a scrape has come. -/
inductive Stage
  | idle
  | rendering (left : List Counter) (loaded : Counter → UInt64)
  | storing (left : List DecisionCount) (ts : Int)

/--
A node with its counters, and the control plane with the table `metric_totals`.
Besides it is noted how many requests of each outcome were recorded in all, and
how many when the scrape began.
-/
structure Scraping where
  counters : Counter → UInt64
  table : Table
  stage : Stage
  recorded : Proxy.Outcome → Nat
  begun : Proxy.Outcome → Nat

inductive Action
  /-- An atomic step of a `record` call. -/
  | update (call : Call) (index : Nat)
  /-- The process of the node is replaced, a reply that it renders is lost. -/
  | restart
  | get
  /-- An atomic step of `render`. -/
  | load
  | reply (ts : Int)
  /-- The statement for one decision. -/
  | store
  | finish
  /-- A request or a statement fails, or the control plane is restarted. -/
  | fail
  /-- A statement of the scrape of another node. -/
  | elsewhere (key : Text × Text) (row : LatencyRow)

/-- The statement for one decision. -/
def upsertMetricRow (table : Table) (node : Text) (ts : Int)
    (count : DecisionCount) : Option Table :=
  upsertRow table (node, count.decision) count.count ts

/-- What a reply brings; a panic of `render` leaves none. -/
def Stage.received (ts : Int) : Option Text → Stage
  | none => .idle
  | some page => .storing (parseRequestsTotal page) ts

/-- The requests recorded, after an update of a counter. -/
def noted (recorded : Proxy.Outcome → Nat) : Counter → Proxy.Outcome → Nat
  | .request outcome =>
      Function.update recorded outcome (recorded outcome + 1)
  | _ => recorded

/-- `scrape_node` and `accumulate_metric_totals`, step by step. -/
def step (build : Build) (seconds : Nat → Text) (node : Text)
    (state : Scraping) : Action → Option Scraping
  | .update call index => do
      let (counter, amount) ← call.updates[index]?
      some { state with
        counters := Function.update state.counters counter
          (state.counters counter + .ofNat amount)
        recorded := noted state.recorded counter }
  | .restart =>
      some { state with
        counters := fun _ => 0
        stage := match state.stage with
          | .rendering _ _ => .idle
          | stage => stage }
  | .get =>
      match state.stage with
      | .idle =>
          some { state with
            stage := .rendering renderLoads fun _ => 0
            begun := state.recorded }
      | _ => none
  | .load =>
      match state.stage with
      | .rendering (counter :: left) loaded =>
          some { state with
            stage := .rendering left
              (Function.update loaded counter (state.counters counter)) }
      | _ => none
  | .reply ts =>
      match state.stage with
      | .rendering [] loaded =>
          some { state with
            stage := .received ts (render build seconds loaded) }
      | _ => none
  | .store =>
      match state.stage with
      | .storing (count :: left) ts =>
          match upsertMetricRow state.table node ts count with
          | none => some { state with stage := .idle }
          | some table =>
              some { state with table := table, stage := .storing left ts }
      | _ => none
  | .finish =>
      match state.stage with
      | .storing [] _ => some { state with stage := .idle }
      | _ => none
  | .fail => some { state with stage := .idle }
  | .elsewhere key row =>
      if key.1 = node then none
      else some { state with table := state.table.insert key row }

/-- A node that was never scraped, and a process that has just started. -/
def start (table : Table) : Scraping where
  counters := fun _ => 0
  table := table
  stage := .idle
  recorded := fun _ => 0
  begun := fun _ => 0

/-! ## What the rows were read from -/

/-- The row of an outcome. -/
def Scraping.row (state : Scraping) (node : Text) (outcome : Proxy.Outcome) :
    Option LatencyRow :=
  state.table.get (node, outcome.label)

/-- What the counter of an outcome shows now. -/
def Scraping.now (state : Scraping) (outcome : Proxy.Outcome) : Reading :=
  ⟨(state.counters (.request outcome)).toNat, state.recorded outcome⟩

/--
A reading later than the one a row was last written from, whose events the
total does not exceed.
-/
def Follows : Option LatencyRow → Reading → Prop
  | none, reading => Reading.Leads ⟨0, 0⟩ reading
  | some row, reading => ∃ seen : Reading, row.lastRaw = seen.shown ∧
      0 ≤ row.cumulative ∧ row.cumulative ≤ seen.total ∧ seen.Leads reading

theorem Follows.trans
    {row : Option LatencyRow} {reading later : Reading}
    (follows : Follows row reading) (leads : reading.Leads later) :
    Follows row later := by
  cases row with
  | none => exact Reading.Leads.trans follows leads
  | some row =>
      obtain ⟨seen, raw, low, high, before⟩ := follows
      exact ⟨seen, raw, low, high, before.trans leads⟩

/-- A count that was loaded after the row was last written. -/
def Fresh (row : Option LatencyRow) (now : Reading) (count : Int) : Prop :=
  ∃ reading : Reading, count = reading.shown ∧ Follows row reading ∧
    reading.Leads now

theorem Fresh.later
    {row : Option LatencyRow} {now later : Reading} {count : Int}
    (fresh : Fresh row now count) (leads : now.Leads later) :
    Fresh row later count := by
  obtain ⟨reading, shown, follows, before⟩ := fresh
  exact ⟨reading, shown, follows, before.trans leads⟩

/-- The gain of a row is that of the readings. -/
theorem gain_eq {row : LatencyRow} {seen reading : Reading}
    (raw : row.lastRaw = seen.shown) :
    row.gain reading.shown = (gain seen.shown reading.shown : Nat) := by
  rw [LatencyRow.gain, gain, raw]
  split_ifs <;> omega

/-- A row that is written from a fresh count has it as its reading. -/
theorem Fresh.following
    {row : Option LatencyRow} {now : Reading} {count : Int}
    (fresh : Fresh row now count) (ts : Int) :
    Follows (some (.following row count ts)) now := by
  obtain ⟨reading, rfl, follows, before⟩ := fresh
  cases row with
  | none =>
      have shown := Reading.Leads.shown_le follows
      exact ⟨reading, rfl, Int.natCast_nonneg _, Int.ofNat_le.mpr shown,
        before⟩
  | some row =>
      obtain ⟨seen, raw, low, high, leads⟩ := follows
      have gained := leads.gain_le
      refine ⟨reading, rfl, ?_, ?_, before⟩
      · simp only [LatencyRow.following, gain_eq raw]
        omega
      · simp only [LatencyRow.following, gain_eq raw]
        omega

/-! ## The invariant -/

/-- What holds of every count that is on its way to the table. -/
def Stage.Pending (fresh : Proxy.Outcome → Int → Prop) : Stage → Prop
  | .idle => True
  | .rendering left loaded =>
      ∀ outcome, .request outcome ∉ left →
        fresh outcome (loaded (.request outcome)).toNat
  | .storing left _ =>
      (left.map DecisionCount.decision).Nodup ∧
        ∀ count ∈ left, ∀ outcome : Proxy.Outcome,
          count.decision = outcome.label → fresh outcome count.count

theorem Stage.Pending.imp
    {stage : Stage} {fresh other : Proxy.Outcome → Int → Prop}
    (pending : stage.Pending fresh)
    (implied : ∀ outcome count, fresh outcome count → other outcome count) :
    stage.Pending other := by
  cases stage with
  | idle => trivial
  | rendering left loaded =>
      exact fun outcome done => implied _ _ (pending outcome done)
  | storing left ts =>
      exact ⟨pending.1, fun count member outcome named =>
        implied _ _ (pending.2 count member outcome named)⟩

/-- A counter that is loaded is on its way, as what was loaded before is. -/
theorem Stage.Pending.load
    {fresh : Proxy.Outcome → Int → Prop} {counter : Counter}
    {left : List Counter} {loaded : Counter → UInt64} {value : UInt64}
    (pending : (Stage.rendering (counter :: left) loaded).Pending fresh)
    (loads : ∀ outcome, counter = .request outcome →
      fresh outcome value.toNat) :
    (Stage.rendering left (Function.update loaded counter value)).Pending
      fresh := by
  intro outcome done
  by_cases here : counter = .request outcome
  · rw [← here, Function.update_self]
    exact loads outcome here
  · rw [Function.update_of_ne (Ne.symm here)]
    refine pending outcome fun member => ?_
    rcases List.mem_cons.mp member with same | later
    · exact here same.symm
    · exact done later

/-- The rows were written from readings before now, as what is on its way was. -/
structure Sound (node : Text) (state : Scraping) : Prop where
  follows : ∀ outcome,
    Follows (state.row node outcome) (state.now outcome)
  pending : state.stage.Pending fun outcome count =>
    Fresh (state.row node outcome) (state.now outcome) count

/-- The rows stay as they are, and the readings only get later. -/
theorem Sound.of_leads
    {node : Text} {state next : Scraping} (sound : Sound node state)
    (rows : ∀ outcome, next.row node outcome = state.row node outcome)
    (leads : ∀ outcome, (state.now outcome).Leads (next.now outcome))
    (stage : next.stage = state.stage ∨ next.stage = .idle) :
    Sound node next where
  follows := by
    intro outcome
    rw [rows]
    exact (sound.follows outcome).trans (leads outcome)
  pending := by
    rcases stage with same | idle
    · rw [same]
      refine sound.pending.imp fun outcome count fresh => ?_
      rw [rows]
      exact fresh.later (leads outcome)
    · rw [idle]
      trivial

/-! ## One step -/

theorem label_injective : Function.Injective Outcome.label := by
  intro first second same
  cases first <;> cases second <;> first
    | rfl
    | (unfold Outcome.label at same
       simp only [String.reduceToList] at same
       simp at same)

theorem mem_all (outcome : Proxy.Outcome) : outcome ∈ Outcome.all := by
  cases outcome <;> decide

theorem nodup_all : Outcome.all.Nodup := by
  decide

theorem request_mem_renderLoads (outcome : Proxy.Outcome) :
    .request outcome ∈ renderLoads :=
  List.mem_append_left _
    (List.mem_append_left _ (List.mem_map_of_mem (mem_all outcome)))

/-- A request is counted by one. -/
theorem amount_of_request
    {call : Call} {outcome : Proxy.Outcome} {amount : Nat}
    (update : (Counter.request outcome, amount) ∈ call.updates) :
    amount = 1 := by
  rw [Call.updates, List.mem_cons, List.mem_append] at update
  rcases update with same | bucket | last
  · exact (Prod.ext_iff.mp same).2
  · split_ifs at bucket
    · cases List.mem_singleton.mp bucket
    · cases bucket
  · simp at last

theorem noted_of_ne
    {counter : Counter} {outcome : Proxy.Outcome}
    (other : counter ≠ .request outcome) (recorded : Proxy.Outcome → Nat) :
    noted recorded counter outcome = recorded outcome := by
  cases counter with
  | request here =>
      exact Function.update_of_ne (fun same => other (by rw [same])) _ _
  | bucket index => rfl
  | count => rfl
  | sumNanos => rfl

/-- An update of a counter makes a later reading of it. -/
theorem leads_update
    (state : Scraping) {call : Call} {counter : Counter} {amount : Nat}
    (update : (counter, amount) ∈ call.updates) (outcome : Proxy.Outcome) :
    (state.now outcome).Leads
      ⟨(Function.update state.counters counter
          (state.counters counter + .ofNat amount) (.request outcome)).toNat,
        noted state.recorded counter outcome⟩ := by
  by_cases here : counter = .request outcome
  · subst here
    rw [amount_of_request update, Function.update_self, noted,
      Function.update_self, UInt64.toNat_add]
    refine ⟨Nat.le_succ _, ?_⟩
    have small := (state.counters (.request outcome)).toNat_lt
    have one : (UInt64.ofNat 1).toNat = 1 := rfl
    dsimp only [Scraping.now]
    rw [one]
    -- The counter goes on by one, or starts again behind its greatest value.
    omega
  · rw [Function.update_of_ne (Ne.symm here), noted_of_ne here]
    exact Reading.Leads.refl _

/-- What a reply holds: an outcome's own count, at most once. -/
theorem pending_reply
    {seconds : Nat → Text} (decimal : Decimal seconds) (build : Build)
    {fresh : Proxy.Outcome → Int → Prop} {loaded : Counter → UInt64}
    (ready : ∀ outcome, fresh outcome (loaded (.request outcome)).toNat)
    (ts : Int) :
    (Stage.received ts (render build seconds loaded)).Pending fresh := by
  cases written : render build seconds loaded with
  | none => trivial
  | some page =>
      rw [Stage.received, parseRequestsTotal_render decimal written]
      refine ⟨?_, fun count member outcome named => ?_⟩
      · rw [List.map_map]
        exact (nodup_all.filter _).map label_injective
      · obtain ⟨other, -, rfl⟩ := List.mem_map.mp member
        rw [← label_injective named]
        exact ready other

/-- The rows after the statement of one decision. -/
theorem row_of_upsert
    {table next : Table} {node : Text} {ts : Int}
    {count : DecisionCount}
    (written : upsertMetricRow table node ts count = some next)
    (outcome : Proxy.Outcome) :
    next.get (node, outcome.label) =
      if count.decision = outcome.label then
        some (.following (table.get (node, outcome.label)) count.count ts)
      else table.get (node, outcome.label) := by
  rw [upsertRow_eq written, HashMap.get_insert]
  by_cases named : count.decision = outcome.label
  · rw [if_pos named, if_pos (by rw [named]), named]
  · rw [if_neg named, if_neg fun same => named (Prod.ext_iff.mp same).2.symm]

/-- The statement of one decision leaves the other rows as they are. -/
theorem Sound.store
    {node : Text} {state : Scraping} (sound : Sound node state)
    {count : DecisionCount} {left : List DecisionCount} {ts : Int}
    (storing : state.stage = .storing (count :: left) ts)
    {table : Table}
    (written : upsertMetricRow state.table node ts count = some table) :
    Sound node { state with table := table, stage := .storing left ts } := by
  have pending := sound.pending
  rw [storing] at pending
  obtain ⟨nodup, fresh⟩ := pending
  rw [List.map_cons, List.nodup_cons] at nodup
  constructor
  · intro outcome
    show Follows (table.get (node, outcome.label)) (state.now outcome)
    rw [row_of_upsert written]
    split_ifs with named
    · exact (fresh count List.mem_cons_self outcome named).following ts
    · exact sound.follows outcome
  · refine ⟨nodup.2, fun other member outcome named => ?_⟩
    show Fresh (table.get (node, outcome.label)) (state.now outcome) _
    rw [row_of_upsert written, if_neg]
    · exact fresh other (List.mem_cons_of_mem _ member) outcome named
    · intro same
      refine nodup.1 ?_
      rw [same, ← named]
      exact List.mem_map_of_mem member

theorem Sound.step
    {build : Build} {seconds : Nat → Text}
    (decimal : Decimal seconds) {node : Text}
    {state next : Scraping} {action : Action} (sound : Sound node state)
    (taken : step build seconds node state action = some next) :
    Sound node next := by
  cases action with
  | update call index =>
      rw [MetricTotals.step, Option.bind_eq_bind,
        Option.bind_eq_some_iff] at taken
      obtain ⟨⟨counter, amount⟩, listed, same⟩ := taken
      cases same
      exact sound.of_leads (fun _ => rfl)
        (leads_update state (List.mem_of_getElem? listed)) (.inl rfl)
  | restart =>
      cases taken
      refine sound.of_leads (fun _ => rfl)
        (fun outcome => (Reading.Leads.refl _).reset) ?_
      cases state.stage with
      | idle => exact .inl rfl
      | rendering left loaded => exact .inr rfl
      | storing left ts => exact .inl rfl
  | get =>
      rw [MetricTotals.step] at taken
      split at taken
      · cases taken
        exact ⟨sound.follows, fun outcome done =>
          absurd (request_mem_renderLoads outcome) done⟩
      · cases taken
  | load =>
      rw [MetricTotals.step] at taken
      split at taken
      · rename_i counter left loaded rendering
        cases taken
        have pending := sound.pending
        rw [rendering] at pending
        refine ⟨sound.follows, pending.load ?_⟩
        rintro outcome rfl
        exact ⟨state.now outcome, rfl, sound.follows outcome,
          Reading.Leads.refl _⟩
      · cases taken
  | reply ts =>
      rw [MetricTotals.step] at taken
      split at taken
      · rename_i loaded rendering
        cases taken
        have pending := sound.pending
        rw [rendering] at pending
        exact ⟨sound.follows, pending_reply decimal build
          (fun outcome => pending outcome List.not_mem_nil) ts⟩
      · cases taken
  | store =>
      rw [MetricTotals.step] at taken
      split at taken
      · rename_i count left ts storing
        split at taken
        · cases taken
          exact ⟨sound.follows, trivial⟩
        · rename_i table written
          cases taken
          exact sound.store storing written
      · cases taken
  | finish =>
      rw [MetricTotals.step] at taken
      split at taken
      · cases taken
        exact ⟨sound.follows, trivial⟩
      · cases taken
  | fail =>
      cases taken
      exact ⟨sound.follows, trivial⟩
  | elsewhere key row =>
      rw [MetricTotals.step] at taken
      split_ifs at taken with own
      cases taken
      refine sound.of_leads (fun outcome => ?_)
        (fun outcome => Reading.Leads.refl _) (.inl rfl)
      exact HashMap.get_insert_of_ne _ _ fun same =>
        own (Prod.ext_iff.mp same).1.symm

/-! ## Whole runs -/

/-- A step leaves a row alone, or writes it from the count that is next. -/
theorem row_of_step
    {build : Build} {seconds : Nat → Text}
    {node : Text} {state next : Scraping}
    {action : Action}
    (taken : step build seconds node state action = some next)
    (outcome : Proxy.Outcome) :
    next.row node outcome = state.row node outcome ∨
      ∃ count left ts, state.stage = .storing (count :: left) ts ∧
        count.decision = outcome.label ∧
        next.row node outcome =
          some (.following (state.row node outcome) count.count ts) := by
  cases action with
  | update call index =>
      rw [step, Option.bind_eq_bind, Option.bind_eq_some_iff] at taken
      obtain ⟨⟨counter, amount⟩, -, same⟩ := taken
      cases same
      exact .inl rfl
  | restart =>
      cases taken
      exact .inl rfl
  | store =>
      rw [step] at taken
      split at taken
      · rename_i count left ts storing
        split at taken
        · cases taken
          exact .inl rfl
        · rename_i table written
          cases taken
          have rows := row_of_upsert written outcome
          split_ifs at rows with named
          · exact .inr ⟨count, left, ts, storing, named, rows⟩
          · exact .inl rows
      · cases taken
  | elsewhere key row =>
      rw [step] at taken
      split_ifs at taken with own
      cases taken
      exact .inl (HashMap.get_insert_of_ne _ _ fun same =>
        own (Prod.ext_iff.mp same).1.symm)
  | fail =>
      cases taken
      exact .inl rfl
  | get | load | reply ts | finish =>
      rw [step] at taken
      split at taken <;> cases taken
      exact .inl rfl

/-- No row is lost, and no total is smaller than before. -/
def Grown (node : Text) (before after : Scraping) : Prop :=
  ∀ outcome row, before.row node outcome = some row →
    ∃ later, after.row node outcome = some later ∧
      row.cumulative ≤ later.cumulative

theorem Grown.step
    {build : Build} {seconds : Nat → Text}
    {node : Text} {before state next : Scraping}
    {action : Action} (grown : Grown node before state)
    (sound : Sound node state)
    (taken : step build seconds node state action = some next) :
    Grown node before next := by
  intro outcome row present
  obtain ⟨kept, stored, most⟩ := grown outcome row present
  rcases row_of_step taken outcome with
    same | ⟨count, left, ts, storing, named, written⟩
  · exact ⟨kept, same.trans stored, most⟩
  · have pending := sound.pending
    rw [storing] at pending
    obtain ⟨reading, shown, -, -⟩ :=
      pending.2 count List.mem_cons_self outcome named
    rw [stored] at written
    refine ⟨_, written, most.trans ?_⟩
    have gained : 0 ≤ kept.gain count.count :=
      LatencyRow.gain_nonneg (by rw [shown]; exact Int.natCast_nonneg _)
    exact le_add_of_nonneg_right gained

theorem Sound.start
    {node : Text} {table : Table}
    (unknown : ∀ outcome : Proxy.Outcome,
      table.get (node, outcome.label) = none) :
    Sound node (start table) where
  follows := by
    intro outcome
    show Follows (table.get (node, outcome.label)) ⟨0, 0⟩
    rw [unknown]
    exact Reading.Leads.refl _
  pending := trivial

/--
Whatever requests are recorded while a node is scraped, whenever it is
restarted and wherever a scrape fails: no total is ever lost or reduced, and
none ever exceeds the number of requests that were recorded.
-/
theorem totals_between
    {build : Build} {seconds : Nat → Text}
    (decimal : Decimal seconds) {node : Text}
    {table : Table}
    (unknown : ∀ outcome : Proxy.Outcome,
      table.get (node, outcome.label) = none)
    {earlier later : List Action} {middle final : Scraping}
    (before : earlier.foldlM (step build seconds node) (start table) =
      some middle)
    (after : later.foldlM (step build seconds node) middle = some final)
    {outcome : Proxy.Outcome} {row : LatencyRow}
    (present : middle.row node outcome = some row) :
    ∃ kept, final.row node outcome = some kept ∧ 0 ≤ row.cumulative ∧
      row.cumulative ≤ kept.cumulative ∧
      kept.cumulative ≤ final.recorded outcome := by
  have reached : Sound node middle :=
    Machine.invariant_of_run
      (fun _ _ _ sound taken => sound.step decimal taken)
      (Sound.start unknown) before
  have reachedLater : Sound node final ∧ Grown node middle final :=
    @Machine.invariant_of_run _ _ (step build seconds node)
      (fun state => Sound node state ∧ Grown node middle state)
      (fun _ _ _ ⟨sound, grown⟩ taken =>
        ⟨sound.step decimal taken, grown.step sound taken⟩)
      _ _ _ ⟨reached, fun _ row present => ⟨row, present, le_rfl⟩⟩ after
  obtain ⟨kept, stored, most⟩ := reachedLater.2 outcome row present
  have follows := reached.follows outcome
  have followsLater := reachedLater.1.follows outcome
  rw [present] at follows
  rw [stored] at followsLater
  obtain ⟨-, -, low, -⟩ := follows
  obtain ⟨seen, -, -, high, leads⟩ := followsLater
  exact ⟨kept, stored, low, most,
    high.trans (Int.ofNat_le.mpr leads.later)⟩

/-! ## Without restarts -/

/-- A count loaded between two numbers of requests, after a row was written. -/
def Between (row : Option LatencyRow) (begun recorded : Nat) (count : Int) :
    Prop :=
  begun ≤ count ∧ count ≤ recorded ∧
    ∀ stored, row = some stored → stored.lastRaw ≤ count

/--
What holds of an outcome whose counter was never set back: its row has all of
the count it was written from, and what is on its way was loaded since the
scrape began.
-/
structure Exact (node : Text) (outcome : Proxy.Outcome) (state : Scraping) :
    Prop where
  counted : (state.counters (.request outcome)).toNat = state.recorded outcome
  begun : state.begun outcome ≤ state.recorded outcome
  row : ∀ row, state.row node outcome = some row →
    row.cumulative = row.lastRaw ∧ row.lastRaw ≤ state.recorded outcome
  pending : state.stage.Pending fun other count => other = outcome →
    Between (state.row node outcome) (state.begun outcome)
      (state.recorded outcome) count
  stored : ∀ left ts, state.stage = .storing left ts →
    (∃ count ∈ left, count.decision = outcome.label) ∨
      ∃ row, state.row node outcome = some row ∧
        state.begun outcome ≤ row.cumulative

section Exact

variable {node : Text} {outcome : Proxy.Outcome} {state next : Scraping}

/-- The rows stay as they are, and there are only more requests. -/
theorem Exact.of_recorded
    (exact : Exact node outcome state)
    (counted : (next.counters (.request outcome)).toNat =
      next.recorded outcome)
    (row : next.row node outcome = state.row node outcome)
    (begun : next.begun = state.begun)
    (more : state.recorded outcome ≤ next.recorded outcome)
    (stage : next.stage = state.stage ∨ next.stage = .idle) :
    Exact node outcome next where
  counted := counted
  begun := by
    rw [begun]
    exact exact.begun.trans more
  row := by
    intro stored present
    rw [row] at present
    obtain ⟨whole, fewer⟩ := exact.row stored present
    exact ⟨whole, fewer.trans (Int.ofNat_le.mpr more)⟩
  pending := by
    rw [row, begun]
    rcases stage with same | idle
    · rw [same]
      refine exact.pending.imp fun other count loaded own => ?_
      obtain ⟨low, high, later⟩ := loaded own
      exact ⟨low, high.trans (Int.ofNat_le.mpr more), later⟩
    · rw [idle]
      trivial
  stored := by
    intro left ts storing
    rw [row, begun]
    rcases stage with same | idle
    · exact exact.stored left ts (same ▸ storing)
    · rw [idle] at storing
      cases storing

/-- A row that is written from a later count has all of it. -/
theorem Between.following
    {row : Option LatencyRow} {begun recorded : Nat} {count : Int}
    (between : Between row begun recorded count)
    (whole : ∀ stored, row = some stored →
      stored.cumulative = stored.lastRaw) (ts : Int) :
    LatencyRow.following row count ts = ⟨count, count, ts⟩ := by
  cases row with
  | none => rfl
  | some row =>
      have grown := between.2.2 row rfl
      rw [LatencyRow.following, LatencyRow.gain, if_pos grown, whole row rfl]
      congr 1
      omega

theorem Exact.store
    (exact : Exact node outcome state)
    {count : DecisionCount} {left : List DecisionCount} {ts : Int}
    (storing : state.stage = .storing (count :: left) ts) {table : Table}
    (written : upsertMetricRow state.table node ts count = some table) :
    Exact node outcome
      { state with table := table, stage := .storing left ts } := by
  have pending := exact.pending
  rw [storing] at pending
  obtain ⟨nodup, between⟩ := pending
  rw [List.map_cons, List.nodup_cons] at nodup
  have rows := row_of_upsert written outcome
  split_ifs at rows with named
  · obtain ⟨low, high, later⟩ :=
      between count List.mem_cons_self outcome named rfl
    have written : (table.get (node, outcome.label)) =
        some ⟨count.count, count.count, ts⟩ := by
      rw [rows]
      exact congrArg some (Between.following ⟨low, high, later⟩
        (fun stored present => (exact.row stored present).1) ts)
    refine ⟨exact.counted, exact.begun, ?_, ?_, ?_⟩
    · intro row present
      cases (Eq.symm written).trans present
      exact ⟨rfl, high⟩
    · refine ⟨nodup.2, fun other member same others equal => ?_⟩
      -- No other count on its way is of this outcome.
      subst equal
      refine absurd ?_ nodup.1
      rw [named, ← others]
      exact List.mem_map_of_mem member
    · intro _ _ _
      exact .inr ⟨_, written, low⟩
  · refine ⟨exact.counted, exact.begun, ?_, ?_, ?_⟩
    · intro row present
      exact exact.row row ((Eq.symm rows).trans present)
    · refine ⟨nodup.2, fun other member same others equal => ?_⟩
      show Between (table.get (node, outcome.label)) _ _ _
      rw [rows]
      exact between other (List.mem_cons_of_mem _ member) same others equal
    · rintro _ _ ⟨⟩
      rcases exact.stored _ _ storing with ⟨other, member, same⟩ | before
      · rcases List.mem_cons.mp member with rfl | later
        · exact absurd same named
        · exact .inl ⟨other, later, same⟩
      · obtain ⟨row, present, most⟩ := before
        exact .inr ⟨row, rows.trans present, most⟩

/-- A reply holds the count of an outcome, if it is in range. -/
theorem mem_reply
    {build : Build} {seconds : Nat → Text} (decimal : Decimal seconds)
    {loaded : Counter → UInt64}
    (small : (loaded (.request outcome)).toNat < 2 ^ 63) {page : Text}
    (written : render build seconds loaded = some page) :
    ∃ count ∈ parseRequestsTotal page, count.decision = outcome.label := by
  rw [parseRequestsTotal_render decimal written]
  refine ⟨⟨outcome.label, (loaded (.request outcome)).toNat⟩, ?_, rfl⟩
  refine List.mem_map.mpr ⟨outcome, ?_, rfl⟩
  exact List.mem_filter.mpr ⟨mem_all outcome, decide_eq_true small⟩

theorem recorded_le_of_step
    {build : Build} {seconds : Nat → Text} {action : Action}
    (taken : step build seconds node state action = some next) :
    state.recorded outcome ≤ next.recorded outcome := by
  cases action with
  | update call index =>
      rw [step, Option.bind_eq_bind, Option.bind_eq_some_iff] at taken
      obtain ⟨⟨counter, amount⟩, listed, same⟩ := taken
      cases same
      exact (leads_update state (List.mem_of_getElem? listed) outcome).later
  | restart | fail =>
      cases taken
      exact le_rfl
  | store =>
      rw [step] at taken
      split at taken
      · split at taken <;> cases taken <;> exact le_rfl
      · cases taken
  | elsewhere key row =>
      rw [step] at taken
      split_ifs at taken
      cases taken
      exact le_rfl
  | get | load | reply ts | finish =>
      rw [step] at taken
      split at taken <;> cases taken
      exact le_rfl

/-- A counter that is not set back and does not run over counts every request. -/
theorem counted_update
    (counted : (state.counters (.request outcome)).toNat =
      state.recorded outcome)
    {call : Call} {counter : Counter} {amount : Nat}
    (update : (counter, amount) ∈ call.updates)
    (small : noted state.recorded counter outcome < 2 ^ 63) :
    (Function.update state.counters counter
      (state.counters counter + .ofNat amount) (.request outcome)).toNat =
      noted state.recorded counter outcome := by
  by_cases here : counter = .request outcome
  · subst here
    rw [noted, Function.update_self] at small
    have one : (UInt64.ofNat 1).toNat = 1 := rfl
    rw [amount_of_request update, Function.update_self, noted,
      Function.update_self, UInt64.toNat_add, counted, one]
    omega
  · rw [Function.update_of_ne (Ne.symm here), noted_of_ne here, counted]

theorem Exact.step
    {build : Build} {seconds : Nat → Text}
    (decimal : Decimal seconds) {action : Action}
    (exact : Exact node outcome state) (kept : action ≠ .restart)
    (small : next.recorded outcome < 2 ^ 63)
    (taken : step build seconds node state action = some next) :
    Exact node outcome next := by
  cases action with
  | update call index =>
      have more := @recorded_le_of_step node outcome _ _ _ _ _ taken
      rw [MetricTotals.step, Option.bind_eq_bind,
        Option.bind_eq_some_iff] at taken
      obtain ⟨⟨counter, amount⟩, listed, same⟩ := taken
      cases same
      exact exact.of_recorded
        (counted_update exact.counted (List.mem_of_getElem? listed) small)
        rfl rfl more (.inl rfl)
  | restart => exact absurd rfl kept
  | get =>
      rw [MetricTotals.step] at taken
      split at taken
      · cases taken
        refine ⟨exact.counted, le_rfl, exact.row, ?_, nofun⟩
        exact fun other done => absurd (request_mem_renderLoads other) done
      · cases taken
  | load =>
      rw [MetricTotals.step] at taken
      split at taken
      · rename_i counter left loaded rendering
        cases taken
        have pending := exact.pending
        rw [rendering] at pending
        refine ⟨exact.counted, exact.begun, exact.row, pending.load ?_, nofun⟩
        rintro other rfl rfl
        rw [exact.counted]
        exact ⟨Int.ofNat_le.mpr exact.begun, le_rfl,
          fun row present => (exact.row row present).2⟩
      · cases taken
  | reply ts =>
      rw [MetricTotals.step] at taken
      split at taken
      · rename_i loaded rendering
        cases taken
        have pending := exact.pending
        rw [rendering] at pending
        have ready := fun other => pending other List.not_mem_nil
        refine ⟨exact.counted, exact.begun, exact.row,
          pending_reply decimal build ready ts, ?_⟩
        intro left other same
        cases written : render build seconds loaded with
        | none =>
            rw [written] at same
            cases same
        | some page =>
            rw [written, Stage.received, Stage.storing.injEq] at same
            rw [← same.1]
            have high := (ready outcome rfl).2.1
            exact .inl (mem_reply decimal
              (lt_of_le_of_lt (Int.ofNat_le.mp high) small) written)
      · cases taken
  | store =>
      rw [MetricTotals.step] at taken
      split at taken
      · rename_i count left ts storing
        split at taken
        · cases taken
          exact exact.of_recorded exact.counted rfl rfl le_rfl (.inr rfl)
        · rename_i table written
          cases taken
          exact exact.store storing written
      · cases taken
  | finish =>
      rw [MetricTotals.step] at taken
      split at taken
      · cases taken
        exact exact.of_recorded exact.counted rfl rfl le_rfl (.inr rfl)
      · cases taken
  | fail =>
      cases taken
      exact exact.of_recorded exact.counted rfl rfl le_rfl (.inr rfl)
  | elsewhere key row =>
      rw [MetricTotals.step] at taken
      split_ifs at taken with own
      cases taken
      refine exact.of_recorded exact.counted ?_ rfl le_rfl (.inl rfl)
      exact HashMap.get_insert_of_ne _ _ fun same =>
        own (Prod.ext_iff.mp same).1.symm

theorem Exact.start
    {table : Table} (unknown : table.get (node, outcome.label) = none) :
    Exact node outcome (start table) where
  counted := rfl
  begun := le_rfl
  row := by
    intro row present
    cases unknown.symm.trans present
  pending := trivial
  stored := nofun

/-- A run without a restart keeps the totals exact. -/
theorem Exact.of_run
    {build : Build} {seconds : Nat → Text}
    (decimal : Decimal seconds) {table : Table}
    (unknown : table.get (node, outcome.label) = none)
    {actions : List Action}
    (ran : actions.foldlM (MetricTotals.step build seconds node)
      (MetricTotals.start table) = some state)
    (kept : .restart ∉ actions) (small : state.recorded outcome < 2 ^ 63) :
    Exact node outcome state := by
  have throughout : Machine.Throughout (MetricTotals.step build seconds node)
      (fun _ action => action ≠ .restart) (MetricTotals.start table) actions :=
    Machine.Throughout.of_forall_mem fun action member same =>
      kept (same ▸ member)
  exact @Machine.Throughout.invariant_of_run _ _
    (MetricTotals.step build seconds node) _
    (fun state => state.recorded outcome < 2 ^ 63 → Exact node outcome state)
    _ _ _ throughout
    (fun state action next exact other taken small =>
      (exact (lt_of_le_of_lt (recorded_le_of_step taken) small)).step
        decimal other small taken)
    (fun _ => Exact.start unknown) ran small

end Exact

/--
A scrape that is carried through without the node ever having been restarted
leaves every total, however many scrapes have failed before and wherever,
between the number of requests recorded when it began and the one at its end.
-/
theorem totals_of_finished
    {build : Build} {seconds : Nat → Text}
    (decimal : Decimal seconds) {node : Text}
    {table : Table} {outcome : Proxy.Outcome}
    (unknown : table.get (node, outcome.label) = none)
    {actions : List Action} {final : Scraping}
    (ran : (actions ++ [Action.finish]).foldlM (step build seconds node)
      (start table) = some final)
    (kept : .restart ∉ actions) (small : final.recorded outcome < 2 ^ 63) :
    ∃ row, final.row node outcome = some row ∧
      final.begun outcome ≤ row.cumulative ∧
      row.cumulative ≤ final.recorded outcome := by
  rw [List.foldlM_append, Option.bind_eq_bind,
    Option.bind_eq_some_iff] at ran
  obtain ⟨last, before, finished⟩ := ran
  rw [List.foldlM_cons, Option.bind_eq_bind,
    Option.bind_eq_some_iff] at finished
  obtain ⟨next, taken, same⟩ := finished
  cases same
  rw [step] at taken
  split at taken
  · rename_i ts storing
    cases taken
    have exact := Exact.of_run decimal unknown before kept small
    rcases exact.stored [] ts storing with
      ⟨count, member, -⟩ | ⟨row, present, most⟩
    · exact absurd member List.not_mem_nil
    · obtain ⟨whole, fewer⟩ := exact.row row present
      exact ⟨row, present, most, whole.trans_le fewer⟩
  · cases taken

/-! ## A scrape that nothing disturbs -/

/-- The statements for decisions that are new to the table all succeed. -/
theorem run_stores
    (build : Build) (seconds : Nat → Text) (node : Text)
    {counts : List DecisionCount}
    {ts : Int} {state : Scraping} (storing : state.stage = .storing counts ts)
    (nodup : (counts.map DecisionCount.decision).Nodup)
    (unknown : ∀ count ∈ counts,
      state.table.get (node, count.decision) = none) :
    ∃ final, (List.replicate counts.length Action.store).foldlM
        (step build seconds node) state = some final ∧
      final.stage = .storing [] ts ∧ final.recorded = state.recorded := by
  induction counts generalizing state with
  | nil => exact ⟨state, rfl, storing, rfl⟩
  | cons count counts induction =>
      rw [List.map_cons, List.nodup_cons] at nodup
      have written : step build seconds node state .store = some { state with
          table := state.table.insert (node, count.decision)
            ⟨count.count, count.count, ts⟩
          stage := .storing counts ts } := by
        rw [step, storing]
        simp only [upsertMetricRow, upsertRow,
          unknown count List.mem_cons_self]
      obtain ⟨final, ran, done, same⟩ := @induction
        { state with
          table := state.table.insert (node, count.decision)
            ⟨count.count, count.count, ts⟩
          stage := .storing counts ts } rfl nodup.2 (by
        intro other member
        rw [HashMap.get_insert_of_ne]
        · exact unknown other (List.mem_cons_of_mem _ member)
        · intro equal
          have same : other.decision = count.decision :=
            (Prod.ext_iff.mp equal).2
          rw [← same] at nodup
          exact nodup.1 (List.mem_map_of_mem member))
      refine ⟨final, ?_, done, same⟩
      rw [List.length_cons, List.replicate_succ, List.foldlM_cons, written]
      exact ran

/-- A request that is allowed is recorded, and the node renders its counters. -/
def renderedOnce : List Action :=
  (List.range 4).map (.update ⟨.allowed, 1000000⟩) ++
    .get :: List.replicate 22 .load

/-- The reply is stored as a whole. -/
def scrapedOnce : List Action :=
  renderedOnce ++ .reply 0 :: List.replicate 6 .store

def edge : Text := ['e', 'd', 'g', 'e']

theorem decimal_wholeSeconds : Decimal wholeSeconds :=
  fun _ _ member => .inl (isDigit_of_mem_toDigits member)

theorem exists_scrapedOnce :
    ∃ final, scrapedOnce.foldlM (step ⟨true⟩ wholeSeconds edge)
        (start HashMap.empty) = some final ∧
      (∃ ts, final.stage = .storing [] ts) ∧
      final.recorded .allowed = 1 := by
  obtain ⟨state, loaded, ran, rendering, table, recorded, counts, few⟩ :
      ∃ state loaded, renderedOnce.foldlM (step ⟨true⟩ wholeSeconds edge)
          (start HashMap.empty) = some state ∧
        state.stage = .rendering [] loaded ∧
        state.table = HashMap.empty ∧ state.recorded .allowed = 1 ∧
        Outcome.all.filter (fun outcome =>
          (loaded (.request outcome)).toNat < 2 ^ 63) = Outcome.all ∧
        ((loadedBuckets loaded).map UInt64.toNat).sum < 2 ^ 64 := by
    refine ⟨_, _, rfl, rfl, rfl, rfl, ?_, ?_⟩
    · decide
    · decide
  obtain ⟨page, written⟩ : ∃ page,
      render ⟨true⟩ wholeSeconds loaded = some page := by
    rw [← Option.ne_none_iff_exists', Ne, render_eq_none_iff]
    exact fun overflow => absurd overflow.2 (not_le.mpr few)
  have parsed := parseRequestsTotal_render decimal_wholeSeconds written
  rw [counts] at parsed
  have replied : step ⟨true⟩ wholeSeconds edge state (.reply 0) =
      some { state with
        stage := .storing (Outcome.all.map fun outcome =>
          ⟨outcome.label, (loaded (.request outcome)).toNat⟩) 0 } := by
    rw [step, rendering]
    dsimp only
    rw [written, Stage.received, parsed]
  obtain ⟨final, stored, done, same⟩ := @run_stores ⟨true⟩ wholeSeconds edge
    (Outcome.all.map fun outcome =>
      ⟨outcome.label, (loaded (.request outcome)).toNat⟩) 0
    { state with
      stage := .storing (Outcome.all.map fun outcome =>
        ⟨outcome.label, (loaded (.request outcome)).toNat⟩) 0 } rfl
    (by
      rw [List.map_map]
      exact nodup_all.map label_injective)
    (by
      intro count _
      rw [table]
      rfl)
  refine ⟨final, ?_, ⟨0, done⟩, (congrFun same .allowed).trans recorded⟩
  rw [scrapedOnce, List.foldlM_append, ran, Option.bind_eq_bind,
    Option.bind_some, List.foldlM_cons, replied]
  exact stored

theorem restart_not_mem_scrapedOnce : .restart ∉ scrapedOnce := by
  simp [scrapedOnce, renderedOnce]

/-- The row of a scrape that was carried through. -/
theorem exists_row_scrapedOnce :
    ∃ middle row, scrapedOnce.foldlM (step ⟨true⟩ wholeSeconds edge)
        (start HashMap.empty) = some middle ∧
      middle.row edge .allowed = some row := by
  obtain ⟨middle, ran, ⟨ts, storing⟩, recorded⟩ := exists_scrapedOnce
  have exact : Exact edge .allowed middle :=
    Exact.of_run decimal_wholeSeconds rfl ran restart_not_mem_scrapedOnce
      (by rw [recorded]; decide)
  rcases exact.stored [] ts storing with
    ⟨count, member, -⟩ | ⟨row, present, -⟩
  · exact absurd member List.not_mem_nil
  · exact ⟨middle, row, ran, present⟩

theorem totals_between_scrapedOnce :
    ∃ middle final row kept,
      scrapedOnce.foldlM (step ⟨true⟩ wholeSeconds edge) (start HashMap.empty) =
        some middle ∧
      [Action.restart].foldlM (step ⟨true⟩ wholeSeconds edge) middle = some final ∧
      middle.row edge .allowed = some row ∧
      final.row edge .allowed = some kept ∧
      row.cumulative ≤ kept.cumulative ∧
      kept.cumulative ≤ final.recorded .allowed := by
  obtain ⟨middle, row, before, present⟩ := exists_row_scrapedOnce
  obtain ⟨kept, stored, -, most, fewer⟩ :=
    @totals_between ⟨true⟩ _ decimal_wholeSeconds _ _ (fun _ => rfl) _ [.restart] _ _
      before rfl _ _ present
  exact ⟨middle, _, row, kept, before, rfl, present, stored, most, fewer⟩

theorem totals_of_finished_scrapedOnce :
    ∃ final row,
      (scrapedOnce ++ [Action.finish]).foldlM (step ⟨true⟩ wholeSeconds edge)
        (start HashMap.empty) = some final ∧
      final.row edge .allowed = some row ∧
      final.begun .allowed ≤ row.cumulative ∧
      row.cumulative ≤ final.recorded .allowed := by
  obtain ⟨middle, before, ⟨ts, storing⟩, recorded⟩ := exists_scrapedOnce
  have ran : (scrapedOnce ++ [Action.finish]).foldlM (step ⟨true⟩ wholeSeconds edge)
      (start HashMap.empty) = some { middle with stage := .idle } := by
    rw [List.foldlM_append, before, Option.bind_eq_bind, Option.bind_some,
      List.foldlM_cons, step, storing]
    rfl
  obtain ⟨row, present, least, most⟩ :=
    @totals_of_finished ⟨true⟩ _ decimal_wholeSeconds _ _ .allowed rfl _ _ ran
      restart_not_mem_scrapedOnce (by rw [recorded]; decide)
  exact ⟨_, row, ran, present, least, most⟩

end LightWaf.ControlPlane.MetricTotals
