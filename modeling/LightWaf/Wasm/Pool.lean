import LightWaf.Theory.Session
import LightWaf.Wasm.Runtime

/-!
# Instances shared by requests

The instances of a plugin live as long as the plugin.  A request takes one
from the pool, runs on it and puts it back, whatever became of the run.  The
context a request opens in the guest is therefore closed for the next request
on the same instance only if no callback trapped.
-/

namespace LightWaf.Wasm

open LightWaf.Rust
open LightWaf.Core
open LightWaf.Theory.Session

variable {σ : Type}

/-! ## The pool -/

/-- `WasmModule`; `pool` has the instance pushed last in front. -/
structure WasmModule (σ : Type) where
  guest : Guest σ
  name : String
  fuel : Nat
  pool : List (Pooled σ)
  busy : List (Pooled σ)

/-- `WasmModule::from_bytes`, from the instantiated guests on. -/
def fromBytes (guest : Guest σ) (instantiated : Nat → σ) (name : String)
    (config : Bytes) (fuel poolSize : Nat) :
    Except WasmError (WasmModule σ) := do
  let pool ← (List.range (max poolSize 1)).mapM fun index => do
    let run ← buildInstance guest (instantiated index) config fuel
    return (⟨run.store, run.events, []⟩ : Pooled σ)
  return ⟨guest, name, fuel, pool.reverse, []⟩

/-- `checkout`; the pool is empty when the timeout ends the wait. -/
def WasmModule.checkout (module : WasmModule σ) :
    Option (Pooled σ) × WasmModule σ :=
  match module.pool with
  | [] => (none, module)
  | pooled :: rest => (some pooled, { module with pool := rest })

/-- A request takes an instance and runs on it. -/
def WasmModule.beginInspect (module : WasmModule σ) (ctx : RequestContext) :
    WasmModule σ :=
  let (slot, module) := module.checkout
  let inspected := inspect module.guest module.fuel module.name slot ctx
  { module with busy := inspected.pooled.toList ++ module.busy }

/--
What requests do to the pool, in any order: one of them runs on an instance,
or one of them returns its instance.
-/
inductive Step : WasmModule σ → WasmModule σ → Prop
  | inspect (module : WasmModule σ) (ctx : RequestContext) :
      Step module (module.beginInspect ctx)
  | checkin (module : WasmModule σ) (before after : List (Pooled σ))
      (pooled : Pooled σ)
      (taken : module.busy = before ++ pooled :: after) :
      Step module
        { module with pool := pooled :: module.pool, busy := before ++ after }

/-- The states a module is in while requests are inspected. -/
def Reachable (start module : WasmModule σ) : Prop :=
  Relation.ReflTransGen Step start module

/-- The instances of the module. -/
def WasmModule.instances (module : WasmModule σ) : List (Pooled σ) :=
  module.pool ++ module.busy

/-- All the calls made on an instance, in order. -/
def Pooled.trace (pooled : Pooled σ) : List Event :=
  pooled.built ++ (pooled.runs.map Run.events).flatten

/-! ## Contexts -/

/-- The guest is called to create the context. -/
def CreatesContext (context : UInt32) (event : Event) : Prop :=
  event.call.callback = .contextCreate ∧
    event.call.args.head? = some context

/-- The guest is called to delete the context, and returns. -/
def DeletesContext (context : UInt32) (event : Event) : Prop :=
  event.call.callback = .delete ∧ event.call.args.head? = some context ∧
    event.returned = true

instance (context : UInt32) : DecidablePred (CreatesContext context) :=
  fun _ => inferInstanceAs (Decidable (_ ∧ _))

instance (context : UInt32) : DecidablePred (DeletesContext context) :=
  fun _ => inferInstanceAs (Decidable (_ ∧ _ ∧ _))

/--
The context of requests is not created a second time before the guest has
completed its deletion.
-/
def ContextsClosed (trace : List Event) : Prop :=
  Separated (CreatesContext httpCtx) (DeletesContext httpCtx) trace

instance : DecidablePred ContextsClosed :=
  decidableSeparated

/-! ## The calls of a request -/

/-- Only calls that were to be made are recorded. -/
theorem call_mem_of_mem_events
    (guest : Guest σ)
    (calls : List Call)
    (store : Store σ)
    (event : Event)
    (recorded : event ∈ (playCalls guest calls store).events) :
    event.call ∈ calls := by
  have returned : ∀ made : List Call,
      event ∈ made.filterMap (returnedEvent guest) → event.call ∈ made := by
    intro made inside
    obtain ⟨call, member, event_eq⟩ := List.mem_filterMap.mp inside
    obtain ⟨count, _, rfl⟩ := Option.map_eq_some_iff.mp event_eq
    exact member
  rcases playCalls_cases guest calls store with
    ⟨_, events⟩ | ⟨_, made, call, rest, count, rfl, _, events⟩
  · rw [events] at recorded
    exact returned calls recorded
  · rw [events, List.mem_append, List.mem_singleton] at recorded
    rcases recorded with inside | rfl
    · exact List.mem_append_left _ (returned made inside)
    · simp

/-- An exported callback that is called first is recorded first. -/
theorem playCalls_cons_events
    (guest : Guest σ)
    (call : Call)
    (rest : List Call)
    (store : Store σ)
    (exported : (guest.arity call.callback).isSome) :
    ∃ first later, (playCalls guest (call :: rest) store).events =
      first :: later ∧ first.call = call ∧
        ∀ event ∈ later, event.call ∈ rest := by
  obtain ⟨count, arity⟩ := Option.isSome_iff_exists.mp exported
  have returned : (returnedEvent guest call).toList =
      [⟨call, fitArgs call.args count, true⟩] := by
    rw [returnedEvent, arity]
    rfl
  rw [playCalls]
  rcases callOpt_cases guest store call with
    ⟨error, other, trapped, _, recorded⟩ | ⟨untrapped, recorded⟩
  · rw [trapped]
    exact ⟨_, [], recorded, rfl, by simp⟩
  · dsimp only
    split
    · rename_i error trapped
      exact absurd trapped (untrapped error)
    · refine ⟨⟨call, fitArgs call.args count, true⟩,
        (playCalls guest rest (callOpt guest store call).store).events,
        ?_, rfl, ?_⟩
      · rw [recorded, returned]
        rfl
      · intro event inside
        exact call_mem_of_mem_events guest rest _ event inside

/-- A request creates its context first, and only then. -/
theorem isSession_runCallbacks
    (guest : Guest σ)
    (store : Store σ)
    (creates : (guest.arity .contextCreate).isSome) :
    IsSession (CreatesContext httpCtx) (runCallbacks guest store).events := by
  rw [runCallbacks_eq, requestCalls]
  obtain ⟨first, later, events, called, others⟩ :=
    playCalls_cons_events guest createCall _ store creates
  refine ⟨first, later, events, ?_, ?_⟩
  · rw [CreatesContext, called]
    exact ⟨rfl, rfl⟩
  · rintro event inside ⟨create, _⟩
    have other := others event inside
    revert create
    generalize event.call = call at other
    simp only [closingCalls, List.mem_cons, List.mem_append,
      List.not_mem_nil, or_false] at other
    rcases other with rfl | other | rfl | rfl
    · nofun
    · split at other
      · cases List.mem_singleton.mp other
        nofun
      · cases other
    · nofun
    · nofun

/-- Only the last call of a request deletes. -/
theorem not_delete_of_mem_dropLast
    (action : UInt32)
    (view : RequestView)
    (call : Call)
    (early : call ∈ (requestCalls action view).dropLast) :
    call.callback ≠ .delete := by
  unfold requestCalls closingCalls at early
  split at early
  · simp only [List.cons_append, List.nil_append, List.dropLast_cons_cons,
      List.dropLast_singleton, List.mem_cons, List.not_mem_nil,
      or_false] at early
    rcases early with rfl | rfl | rfl | rfl <;> nofun
  · simp only [List.nil_append, List.dropLast_cons_cons,
      List.dropLast_singleton, List.mem_cons, List.not_mem_nil,
      or_false] at early
    rcases early with rfl | rfl | rfl <;> nofun

/-- The context of a request is deleted exactly when no call trapped. -/
theorem deletes_runCallbacks_iff
    (guest : Guest σ)
    (store : Store σ)
    (deletes : (guest.arity .delete).isSome) :
    (∃ event ∈ (runCallbacks guest store).events,
      DeletesContext httpCtx event) ↔
      ∀ event ∈ (runCallbacks guest store).events,
        event.returned = true := by
  rw [runCallbacks_eq]
  rcases playCalls_cases guest
      (requestCalls (headersAction guest store) store.host.req) store with
    ⟨_, events⟩ | ⟨_, made, call, rest, count, split, _, events⟩
  · rw [events]
    obtain ⟨count, arity⟩ := Option.isSome_iff_exists.mp deletes
    constructor
    · intro _ event inside
      obtain ⟨call, _, event_eq⟩ := List.mem_filterMap.mp inside
      obtain ⟨count, _, rfl⟩ := Option.map_eq_some_iff.mp event_eq
      rfl
    · intro _
      refine ⟨⟨⟨.delete, [httpCtx]⟩, fitArgs [httpCtx] count, true⟩, ?_,
        rfl, rfl, rfl⟩
      rw [List.mem_filterMap]
      refine ⟨⟨.delete, [httpCtx]⟩, ?_, ?_⟩
      · simp [requestCalls, closingCalls]
      · exact Option.map_eq_some_iff.mpr ⟨count, arity, rfl⟩
  · rw [events]
    constructor
    · rintro ⟨event, inside, delete, _, returned⟩
      rw [List.mem_append, List.mem_singleton] at inside
      rcases inside with inside | rfl
      · obtain ⟨earlier, member, event_eq⟩ := List.mem_filterMap.mp inside
        obtain ⟨_, _, rfl⟩ := Option.map_eq_some_iff.mp event_eq
        have early : earlier ∈ (requestCalls (headersAction guest store)
            store.host.req).dropLast := by
          rw [split, List.dropLast_append_of_ne_nil (List.cons_ne_nil _ _)]
          exact List.mem_append_left _ member
        exact absurd delete (not_delete_of_mem_dropLast _ _ _ early)
      · cases returned
    · intro returned
      exact absurd (returned _ (List.mem_append_right _
        (List.mem_singleton_self _))) (by simp)

/-! ## The calls of a construction -/

/-- A call that is made is recorded as itself. -/
theorem call_eq_of_mem_callOpt
    (guest : Guest σ)
    (store : Store σ)
    (call : Call)
    (event : Event)
    (recorded : event ∈ (callOpt guest store call).events) :
    event.call = call := by
  rcases callOpt_cases guest store call with
    ⟨_, _, _, _, events⟩ | ⟨_, events⟩
  · rw [events] at recorded
    rw [List.mem_singleton.mp recorded]
  · rw [events, Option.mem_toList] at recorded
    obtain ⟨count, _, rfl⟩ := Option.map_eq_some_iff.mp recorded
    rfl

/-- No record of the run creates the context of requests. -/
def Quiet (run : Run σ) : Prop :=
  ∀ event ∈ run.events, ¬ CreatesContext httpCtx event

/-- A lifecycle call for another context creates none for requests. -/
theorem quiet_startCall
    {guest : Guest σ}
    {run started : Run σ}
    {call : Call}
    {value : Option UInt32}
    (quiet : Quiet run)
    (other : ¬ (call.callback = .contextCreate ∧
      call.args.head? = some httpCtx))
    (returned : startCall guest run call = .ok (started, value)) :
    Quiet started := by
  have events : started.events =
      run.events ++ (callOpt guest run.store call).events := by
    unfold startCall at returned
    dsimp only at returned
    split at returned
    · cases returned
    · cases returned
      rfl
    · cases returned
      rfl
  intro event recorded creates
  rw [events, List.mem_append] at recorded
  rcases recorded with earlier | now
  · exact quiet event earlier creates
  · rw [CreatesContext, call_eq_of_mem_callOpt guest _ _ event now] at creates
    exact other creates

theorem quiet_checkedCall
    {guest : Guest σ}
    {run started : Run σ}
    {call : Call}
    (quiet : Quiet run)
    (other : ¬ (call.callback = .contextCreate ∧
      call.args.head? = some httpCtx))
    (returned : checkedCall guest run call = .ok started) :
    Quiet started := by
  obtain ⟨⟨later, value⟩, called, returned⟩ := ok_of_bind_ok returned
  dsimp only at returned
  split at returned
  · cases returned
  · cases returned
    exact quiet_startCall quiet other called

theorem quiet_initializeGuest
    {guest : Guest σ}
    {run started : Run σ}
    (quiet : Quiet run)
    (returned : initializeGuest guest run = .ok started) :
    Quiet started := by
  unfold initializeGuest at returned
  split at returned
  · cases returned
    exact quiet
  · rename_i callback found
    split at returned
    · rename_i later value called
      cases returned
      exact quiet_startCall quiet (by simp) called
    · cases returned

/-- The context of requests is not created while an instance is built. -/
theorem quiet_buildInstance
    {guest : Guest σ}
    {state : σ}
    {config : Bytes}
    {fuel : Nat}
    {run : Run σ}
    (built : buildInstance guest state config fuel = .ok run) :
    Quiet run := by
  have unopened : Quiet
      (⟨⟨(guest.setFuel fuel state).getD state, { config := config }⟩, [],
        true⟩ : Run σ) := by
    intro event recorded
    cases recorded
  unfold buildInstance at built
  obtain ⟨initialized, initializing, built⟩ := ok_of_bind_ok built
  obtain ⟨⟨rooted, value⟩, rooting, built⟩ := ok_of_bind_ok built
  obtain ⟨started, starting, configuring⟩ := ok_of_bind_ok built
  have quietInitialized := quiet_initializeGuest unopened initializing
  have quietRooted := quiet_startCall quietInitialized (by decide) rooting
  have quietStarted := quiet_checkedCall quietRooted (by simp) starting
  exact quiet_checkedCall quietStarted (by simp) configuring

/-! ## Every order of requests -/

/-- The record of an instance: its construction, then whole requests. -/
structure Recorded (guest : Guest σ) (pooled : Pooled σ) : Prop where
  built : ∀ event ∈ pooled.built, ¬ CreatesContext httpCtx event
  ran : ∀ run ∈ pooled.runs, ∃ store, run = runCallbacks guest store

/-- The module keeps its guest, and the record of each of its instances. -/
def Sound (guest : Guest σ) (module : WasmModule σ) : Prop :=
  module.guest = guest ∧
    ∀ pooled ∈ module.instances, Recorded guest pooled

theorem sound_fromBytes
    {guest : Guest σ}
    {instantiated : Nat → σ}
    {name : String}
    {config : Bytes}
    {fuel poolSize : Nat}
    {module : WasmModule σ}
    (created : fromBytes guest instantiated name config fuel poolSize =
      .ok module) :
    Sound guest module := by
  obtain ⟨pool, built, created⟩ := ok_of_bind_ok created
  cases created
  refine ⟨rfl, ?_⟩
  intro pooled inside
  have member : pooled ∈ pool := by
    simpa [WasmModule.instances] using inside
  obtain ⟨index, _, building⟩ := mem_of_mapM_ok built member
  obtain ⟨run, finished, building⟩ := ok_of_bind_ok building
  cases building
  refine ⟨quiet_buildInstance finished, ?_⟩
  intro run inside
  cases inside

/-- A request adds at most one whole run to the record of its instance. -/
theorem recorded_inspect
    {guest : Guest σ}
    {fuel : Nat}
    {name : String}
    {pooled served : Pooled σ}
    {ctx : RequestContext}
    (recorded : Recorded guest pooled)
    (left : (inspect guest fuel name (some pooled) ctx).pooled =
      some served) :
    Recorded guest served := by
  cases left
  refine ⟨recorded.built, ?_⟩
  intro run inside
  rcases List.mem_append.mp inside with earlier | now
  · exact recorded.ran run earlier
  · unfold runRequest at now
    dsimp only at now
    split at now
    · cases now
    · cases List.mem_singleton.mp now
      exact ⟨_, rfl⟩

/-- A request finds the pool exhausted, or takes the instance on top. -/
theorem beginInspect_cases
    (module : WasmModule σ)
    (ctx : RequestContext) :
    (module.pool = [] ∧ module.beginInspect ctx = module) ∨
    ∃ pooled rest served, module.pool = pooled :: rest ∧
      (inspect module.guest module.fuel module.name (some pooled)
        ctx).pooled = some served ∧
      module.beginInspect ctx =
        { module with pool := rest, busy := served :: module.busy } := by
  cases pool : module.pool with
  | nil =>
      left
      refine ⟨rfl, ?_⟩
      simp only [WasmModule.beginInspect, WasmModule.checkout, pool, inspect,
        Option.toList_none, List.nil_append]
      rw [← pool]
  | cons pooled rest =>
      right
      refine ⟨pooled, rest, _, rfl, rfl, ?_⟩
      simp [WasmModule.beginInspect, WasmModule.checkout, pool, inspect]

theorem sound_step
    {guest : Guest σ}
    {module later : WasmModule σ}
    (sound : Sound guest module)
    (step : Step module later) :
    Sound guest later := by
  obtain ⟨same, recorded⟩ := sound
  cases step with
  | inspect ctx =>
      rcases beginInspect_cases module ctx with
        ⟨_, unchanged⟩ | ⟨pooled, rest, served, top, left, changed⟩
      · rw [unchanged]
        exact ⟨same, recorded⟩
      · rw [changed]
        refine ⟨same, ?_⟩
        intro other inside
        simp only [WasmModule.instances, top, List.mem_append,
          List.mem_cons] at inside recorded
        rcases inside with resting | rfl | running
        · exact recorded other (Or.inl (Or.inr resting))
        · subst same
          apply recorded_inspect _ left
          exact recorded pooled (Or.inl (Or.inl rfl))
        · exact recorded other (Or.inr running)
  | checkin before after pooled taken =>
      refine ⟨same, ?_⟩
      intro other inside
      apply recorded other
      rw [WasmModule.instances, taken]
      simp only [WasmModule.instances, List.mem_append,
        List.mem_cons] at inside ⊢
      tauto

theorem sound_of_reachable
    {guest : Guest σ}
    {start module : WasmModule σ}
    (sound : Sound guest start)
    (reached : Reachable start module) :
    Sound guest module := by
  induction reached with
  | refl => exact sound
  | tail _ step induction => exact sound_step induction step

/--
However many requests share the instances, and whatever traps: the contexts
of an instance are closed exactly when every request that started on it,
except the last, returned from all of its calls.
-/
theorem contexts_closed_iff
    (guest : Guest σ)
    (creates : (guest.arity .contextCreate).isSome)
    (deletes : (guest.arity .delete).isSome)
    (instantiated : Nat → σ)
    (name : String)
    (config : Bytes)
    (fuel poolSize : Nat)
    (start module : WasmModule σ)
    (created : fromBytes guest instantiated name config fuel poolSize =
      .ok start)
    (reached : Reachable start module)
    (pooled : Pooled σ)
    (member : pooled ∈ module.instances) :
    ContextsClosed pooled.trace ↔
      ∀ run ∈ pooled.runs.dropLast, ∀ event ∈ run.events,
        event.returned = true := by
  have recorded : Recorded guest pooled :=
    (sound_of_reachable (sound_fromBytes created) reached).2 pooled member
  have sessions : ∀ segment ∈ pooled.runs.map Run.events,
      IsSession (CreatesContext httpCtx) segment := by
    intro segment inside
    obtain ⟨run, ran, rfl⟩ := List.mem_map.mp inside
    obtain ⟨store, rfl⟩ := recorded.ran run ran
    exact isSession_runCallbacks guest store creates
  have exclusive : ∀ event, CreatesContext httpCtx event →
      ¬ DeletesContext httpCtx event := by
    rintro event ⟨create, _⟩ ⟨delete, _⟩
    rw [create] at delete
    cases delete
  rw [ContextsClosed, Pooled.trace,
    separated_append_of_quiet _ _ recorded.built,
    separated_flatten_iff exclusive _ sessions, ← List.map_dropLast]
  rw [List.forall_mem_map]
  apply forall₂_congr
  intro run inside
  obtain ⟨store, rfl⟩ := recorded.ran run (List.mem_of_mem_dropLast inside)
  exact deletes_runCallbacks_iff guest store deletes

/-- A guest with every callback, which traps on the headers of a request. -/
def trappingGuest : Guest Unit where
  arity _ := some 3
  setFuel _ state := some state
  call _ _ callback _ :=
    if callback = .requestHeaders then ⟨(), [], .error "trap".toList⟩
    else ⟨(), [], .ok 1⟩

/-- One instance of the trapping guest, as it was built. -/
def trappingInstance : Pooled Unit where
  store := ⟨(), {}⟩
  built :=
    [⟨⟨.init, []⟩, [0, 0, 0], true⟩,
      ⟨⟨.contextCreate, [rootCtx, 0]⟩, [1, 0, 0], true⟩,
      ⟨⟨.vmStart, [rootCtx, 0]⟩, [1, 0, 0], true⟩,
      ⟨⟨.configure, [rootCtx, 0]⟩, [1, 0, 0], true⟩]
  runs := []

/-- A module with the trapping instance in its pool. -/
def trappingModule : WasmModule Unit :=
  ⟨trappingGuest, "plugin", 100, [trappingInstance], []⟩

/-- The module while a request runs on its instance. -/
def trappingServing : WasmModule Unit :=
  trappingModule.beginInspect emptyRequest

/-- The module when its instances are given back. -/
def WasmModule.givenBack {σ : Type} (module : WasmModule σ) : WasmModule σ :=
  { module with pool := module.busy, busy := [] }

/-- The module after the first request. -/
def trappingServed : WasmModule Unit :=
  trappingServing.givenBack

theorem fromBytes_trappingGuest :
    fromBytes trappingGuest (fun _ => ()) "plugin" [] 100 1 =
      .ok trappingModule :=
  rfl

theorem reachable_trappingServed :
    Reachable trappingModule trappingServed :=
  .tail (.tail .refl (.inspect trappingModule emptyRequest))
    (.checkin trappingServing [] [] _ rfl)

/-- A guest that serves its first request and traps on the headers of others. -/
def wearyGuest : Guest Bool where
  arity _ := some 3
  setFuel _ state := some state
  call tired _ callback _ :=
    if callback = .requestHeaders then
      ⟨true, [], if tired then .error "trap".toList else .ok 0⟩
    else ⟨tired, [], .ok 1⟩

/-- A module with one instance of it. -/
def wearyModule : WasmModule Bool :=
  ⟨wearyGuest, "plugin", 100,
    [⟨⟨false, {}⟩, trappingInstance.built, []⟩], []⟩

/-- The module after two requests, of which the second one trapped. -/
def wearyServed : WasmModule Bool :=
  ((wearyModule.beginInspect emptyRequest).givenBack.beginInspect
    emptyRequest).givenBack

theorem fromBytes_wearyGuest :
    fromBytes wearyGuest (fun _ => false) "plugin" [] 100 1 =
      .ok wearyModule :=
  rfl

theorem reachable_wearyServed : Reachable wearyModule wearyServed :=
  .tail (.tail (.tail (.tail .refl (.inspect wearyModule emptyRequest))
    (.checkin (wearyModule.beginInspect emptyRequest) [] [] _ rfl))
    (.inspect (wearyModule.beginInspect emptyRequest).givenBack emptyRequest))
    (.checkin ((wearyModule.beginInspect emptyRequest).givenBack.beginInspect
      emptyRequest) [] [] _ rfl)

/-- The first of two requests returned, so nothing was opened twice. -/
theorem contexts_closed_wearyServed :
    ∃ pooled ∈ wearyServed.instances,
      pooled.runs.map (fun run => run.events.all Event.returned) =
        [true, false] ∧
      ContextsClosed pooled.trace := by
  refine ⟨_, List.mem_cons_self, rfl, ?_⟩
  exact (contexts_closed_iff wearyGuest rfl rfl (fun _ => false) "plugin" []
    100 1 wearyModule wearyServed fromBytes_wearyGuest reachable_wearyServed _
    List.mem_cons_self).mpr (by decide)

/-- The second request meets the context the first one left open. -/
theorem not_contextsClosed_trapping :
    fromBytes trappingGuest (fun _ => ()) "plugin" [] 100 1 =
      .ok trappingModule ∧
    ∃ module pooled, Reachable trappingModule module ∧
      pooled ∈ module.instances ∧ ¬ ContextsClosed pooled.trace := by
  refine ⟨fromBytes_trappingGuest,
    trappingServed.beginInspect emptyRequest, _,
    .tail reachable_trappingServed (.inspect trappingServed emptyRequest),
    List.mem_cons_self, ?_⟩
  decide

end LightWaf.Wasm
