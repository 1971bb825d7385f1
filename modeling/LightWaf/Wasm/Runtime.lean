import LightWaf.Core.Request

/-!
# Driving a plugin through a request

The embedding of `waf-wasm/src/runtime.rs` and of the host state it keeps.
A guest with the engine that runs it is a parameter: which callbacks it
exports, and for every call what becomes of its memory, which local responses
it sends and whether it returns or traps.  Every call of the host into the
guest is recorded.
-/

namespace LightWaf.Wasm

open LightWaf.Rust
open LightWaf.Core

/-! ## Host state -/

/-- `LocalResponse`. -/
structure LocalResponse where
  status : Nat
  detail : Text
  body : Bytes
deriving DecidableEq

/-- `RequestView`. -/
structure RequestView where
  method : Text := []
  path : Text := []
  urlPath : Text := []
  protocol : Text := []
  scheme : Text := []
  host : Text := []
  sourceAddr : Text := []
  headers : List (Text × Text) := []
  body : Bytes := []
deriving DecidableEq

/-- `HostState`, as far as a request reads or writes it. -/
structure HostState where
  config : Bytes := []
  req : RequestView := {}
  captured : Option LocalResponse := none
  requestId : Text := []
deriving DecidableEq

/-- `HostState::reset_for`. -/
def HostState.resetFor (host : HostState) (req : RequestView)
    (requestId : Text) : HostState :=
  { host with req := req, captured := none, requestId := requestId }

/-- The arguments of `proxy_send_local_response` that the host keeps. -/
structure Sent where
  status : Int
  detail : Bytes
  body : Bytes

/-- `proxy_send_local_response`: the last one sent is the one captured. -/
def HostState.sendLocalResponse (host : HostState) (sent : Sent) :
    HostState :=
  { host with
    captured := some
      { status := (max 0 (min sent.status 65535)).toNat
        detail := fromUtf8Lossy sent.detail
        body := sent.body } }

/-- `view_from`. -/
def viewFrom (ctx : RequestContext) : RequestView :=
  let real := ctx.headers.map fun header =>
    (toAsciiLowercase header.1, header.2)
  let host := (real.lookup "host".toList).getD []
  let path :=
    match ctx.query with
    | some query => ctx.path ++ '?' :: query
    | none => ctx.path
  { method := ctx.method
    path := path
    urlPath := ctx.path
    protocol := ctx.httpVersion
    scheme := "http".toList
    host := host
    sourceAddr := ctx.clientIp.toText
    headers :=
      [(":method".toList, ctx.method), (":path".toList, path),
        (":authority".toList, host), (":scheme".toList, "http".toList)] ++
      real
    body := ctx.body }

/-! ## Guests -/

/-- The exports the host calls. -/
inductive Callback
  | init
  | start
  | contextCreate
  | vmStart
  | configure
  | requestHeaders
  | requestBody
  | done
  | delete
deriving DecidableEq

/-- The name of the export. -/
def Callback.exportName : Callback → String
  | .init => "_initialize"
  | .start => "_start"
  | .contextCreate => "proxy_on_context_create"
  | .vmStart => "proxy_on_vm_start"
  | .configure => "proxy_on_configure"
  | .requestHeaders => "proxy_on_request_headers"
  | .requestBody => "proxy_on_request_body"
  | .done => "proxy_on_done"
  | .delete => "proxy_on_delete"

/-- What a call does to the guest, and its first result or the error. -/
structure Outcome (σ : Type) where
  state : σ
  sent : List Sent
  result : Except Text UInt32

/--
A guest module in its engine.  `arity` is the number of parameters of an
export; a call traps when the guest does, when its fuel or memory is spent
and when a parameter has another type.
-/
structure Guest (σ : Type) where
  arity : Callback → Option Nat
  setFuel : Nat → σ → Option σ
  call : σ → HostState → Callback → List UInt32 → Outcome σ

/-- The store of an instance. -/
structure Store (σ : Type) where
  guest : σ
  host : HostState

/-- A call the host means to make. -/
structure Call where
  callback : Callback
  args : List UInt32
deriving DecidableEq

/-- A call that was made: the arguments passed, and whether it returned. -/
structure Event where
  call : Call
  passed : List UInt32
  returned : Bool
deriving DecidableEq

/-- The result of `call_opt`. -/
inductive CallResult
  | absent
  | trapped (error : Text)
  | returned (value : UInt32)
deriving DecidableEq

/-- The action a callback asks for; an absent one continues. -/
def CallResult.action : CallResult → UInt32
  | .returned value => value
  | _ => 0

/-- A call with its effects. -/
structure Called (σ : Type) where
  store : Store σ
  events : List Event
  result : CallResult

variable {σ : Type}

/-- The arguments padded or truncated to the parameters of the export. -/
def fitArgs (args : List UInt32) (count : Nat) : List UInt32 :=
  (List.range count).map fun index => args[index]?.getD 0

/-- `call_opt`. -/
def callOpt (guest : Guest σ) (store : Store σ) (call : Call) : Called σ :=
  match guest.arity call.callback with
  | none => ⟨store, [], .absent⟩
  | some count =>
      let passed := fitArgs call.args count
      let outcome := guest.call store.guest store.host call.callback passed
      let host :=
        outcome.sent.foldl HostState.sendLocalResponse store.host
      match outcome.result with
      | .error error =>
          ⟨⟨outcome.state, host⟩, [⟨call, passed, false⟩], .trapped error⟩
      | .ok value =>
          ⟨⟨outcome.state, host⟩, [⟨call, passed, true⟩], .returned value⟩

/-- `ROOT_CTX`. -/
def rootCtx : UInt32 := 1

/-- `HTTP_CTX`. -/
def httpCtx : UInt32 := 2

/-! ## One request -/

/-- A sequence of calls: its effects, and whether it ran to the end. -/
structure Run (σ : Type) where
  store : Store σ
  events : List Event
  completed : Bool

/-- Calls made one after the other, up to the first that traps. -/
def playCalls (guest : Guest σ) : List Call → Store σ → Run σ
  | [], store => ⟨store, [], true⟩
  | call :: rest, store =>
      let called := callOpt guest store call
      match called.result with
      | .trapped _ => ⟨called.store, called.events, false⟩
      | _ =>
          let later := playCalls guest rest called.store
          ⟨later.store, called.events ++ later.events, later.completed⟩

/-- The call that opens the request context. -/
def createCall : Call := ⟨.contextCreate, [httpCtx, rootCtx]⟩

/-- The call with the headers; a length is passed in 32 bits. -/
def headersCall (view : RequestView) : Call :=
  ⟨.requestHeaders, [httpCtx, UInt32.ofNat view.headers.length, 1]⟩

/-- The call with the body. -/
def bodyCall (view : RequestView) : Call :=
  ⟨.requestBody, [httpCtx, UInt32.ofNat view.body.length, 1]⟩

/-- The calls that close the request context. -/
def closingCalls : List Call :=
  [⟨.done, [httpCtx]⟩, ⟨.delete, [httpCtx]⟩]

/-- `run_callbacks`. -/
def runCallbacks (guest : Guest σ) (store : Store σ) : Run σ :=
  let view := store.host.req
  let created := callOpt guest store createCall
  match created.result with
  | .trapped _ => ⟨created.store, created.events, false⟩
  | _ =>
      let headers := callOpt guest created.store (headersCall view)
      match headers.result with
      | .trapped _ =>
          ⟨headers.store, created.events ++ headers.events, false⟩
      | result =>
          -- The body callback is reached only with action `Continue`.
          let rest := playCalls guest
            ((if result.action = 0 then [bodyCall view] else []) ++
              closingCalls)
            headers.store
          ⟨rest.store, created.events ++ (headers.events ++ rest.events),
            rest.completed⟩

/-- `map_decision`. -/
def mapDecision (captured : Option LocalResponse) (name : String) :
    Decision :=
  match captured with
  | none => .allow
  | some response =>
      let ruleId := "wasm-" ++ name
      let reason :=
        if response.detail.isEmpty then "wasm plugin local response"
        else String.ofList response.detail
      if response.status = 403 then .block ruleId reason
      else .reject ruleId reason response.status none

/-- `reject_500`. -/
def reject500 (name : String) : Decision :=
  .reject ("wasm-" ++ name) "wasm runtime error (fail-closed)" 500 none

/-- A request served on an instance; `run` is absent if it never started. -/
structure Served (σ : Type) where
  store : Store σ
  run : Option (Run σ)
  decision : Decision

/-- `run_request`. -/
def runRequest (guest : Guest σ) (store : Store σ) (view : RequestView)
    (requestId : Text) (fuel : Nat) (name : String) : Served σ :=
  let store := { store with host := store.host.resetFor view requestId }
  match guest.setFuel fuel store.guest with
  | none => ⟨store, none, reject500 name⟩
  | some state =>
      let run := runCallbacks guest { store with guest := state }
      ⟨run.store, some run,
        if run.completed then mapDecision run.store.host.captured name
        else reject500 name⟩

/--
An instance of the pool.  The calls made on it are recorded: those of its
construction, and those of every request that started on it.
-/
structure Pooled (σ : Type) where
  store : Store σ
  built : List Event
  runs : List (Run σ)

/-- What an inspection leaves to be checked in, its run and its decision. -/
structure Inspected (σ : Type) where
  pooled : Option (Pooled σ)
  run : Option (Run σ)
  decision : Decision

/--
`WasmModule::inspect` between `checkout` and `checkin`; without an instance
the pool was exhausted within the timeout.
-/
def inspect (guest : Guest σ) (fuel : Nat) (name : String)
    (slot : Option (Pooled σ)) (ctx : RequestContext) : Inspected σ :=
  match slot with
  | none => ⟨none, none, reject500 name⟩
  | some pooled =>
      let served := runRequest guest pooled.store (viewFrom ctx)
        ctx.requestId fuel name
      ⟨some ⟨served.store, pooled.built, pooled.runs ++ served.run.toList⟩,
        served.run, served.decision⟩

/-! ## Building an instance -/

/-- `WasmError`, as far as the lifecycle raises it. -/
inductive WasmError
  | vmStart (error : Text)
deriving DecidableEq

/-- A call of the lifecycle of a virtual machine, which must not trap. -/
def startCall (guest : Guest σ) (run : Run σ) (call : Call) :
    Except WasmError (Run σ × Option UInt32) :=
  let called := callOpt guest run.store call
  let run := ⟨called.store, run.events ++ called.events, true⟩
  match called.result with
  | .trapped error => .error (.vmStart error)
  | .absent => .ok (run, none)
  | .returned value => .ok (run, some value)

/-- A lifecycle call that reports failure by returning zero. -/
def checkedCall (guest : Guest σ) (run : Run σ) (call : Call) :
    Except WasmError (Run σ) := do
  let (run, result) ← startCall guest run call
  if result = some 0 then
    .error (.vmStart (call.callback.exportName.toList ++
      " returned failure".toList))
  else .ok run

/-- The initializer of the guest, where it exports one. -/
def initializer (guest : Guest σ) : Option Callback :=
  [.init, .start].find? fun callback =>
    (guest.arity callback).isSome

/-- The error of an initializer names it. -/
def initializeGuest (guest : Guest σ) (run : Run σ) :
    Except WasmError (Run σ) :=
  match initializer guest with
  | none => .ok run
  | some callback =>
      match startCall guest run ⟨callback, []⟩ with
      | .ok (run, _) => .ok run
      | .error (.vmStart error) =>
          .error (.vmStart (callback.exportName.toList ++
            (": ".toList ++ error)))

/-- `build_instance`, from the instantiated guest on. -/
def buildInstance (guest : Guest σ) (state : σ) (config : Bytes)
    (fuel : Nat) : Except WasmError (Run σ) := do
  let state := (guest.setFuel fuel state).getD state
  let run ← initializeGuest guest
    ⟨⟨state, { config := config }⟩, [], true⟩
  let (run, _) ← startCall guest run ⟨.contextCreate, [rootCtx, 0]⟩
  let run ← checkedCall guest run ⟨.vmStart, [rootCtx, 0]⟩
  checkedCall guest run
    ⟨.configure, [rootCtx, UInt32.ofNat config.length]⟩

/-! ## What is recorded -/

/-- The record of a call that returns, where the callback is exported. -/
def returnedEvent (guest : Guest σ) (call : Call) : Option Event :=
  (guest.arity call.callback).map fun count =>
    ⟨call, fitArgs call.args count, true⟩

/-- A call traps on an exported callback, or returns and is recorded so. -/
theorem callOpt_cases
    (guest : Guest σ)
    (store : Store σ)
    (call : Call) :
    (∃ error count, (callOpt guest store call).result = .trapped error ∧
      guest.arity call.callback = some count ∧
      (callOpt guest store call).events =
        [⟨call, fitArgs call.args count, false⟩]) ∨
    ((∀ error, (callOpt guest store call).result ≠ .trapped error) ∧
      (callOpt guest store call).events =
        (returnedEvent guest call).toList) := by
  unfold callOpt returnedEvent
  cases exported : guest.arity call.callback with
  | none =>
      right
      simp
  | some count =>
      dsimp only
      split
      · rename_i error _
        left
        exact ⟨error, count, rfl, rfl, rfl⟩
      · right
        simp

/--
A sequence of calls records every one that is exported; if it stops short,
the last record is of the call that trapped.
-/
theorem playCalls_cases
    (guest : Guest σ)
    (calls : List Call)
    (store : Store σ) :
    ((playCalls guest calls store).completed = true ∧
      (playCalls guest calls store).events =
        calls.filterMap (returnedEvent guest)) ∨
    ((playCalls guest calls store).completed = false ∧
      ∃ made call rest count, calls = made ++ call :: rest ∧
        guest.arity call.callback = some count ∧
        (playCalls guest calls store).events =
          made.filterMap (returnedEvent guest) ++
            [⟨call, fitArgs call.args count, false⟩]) := by
  induction calls generalizing store with
  | nil =>
      left
      exact ⟨rfl, rfl⟩
  | cons call rest induction =>
      rcases callOpt_cases guest store call with
        ⟨error, count, trapped, exported, recorded⟩ | ⟨returned, recorded⟩
      · right
        rw [playCalls, trapped]
        exact ⟨rfl, [], call, rest, count, rfl, exported, recorded⟩
      · have played : playCalls guest (call :: rest) store =
            let called := callOpt guest store call
            let later := playCalls guest rest called.store
            ⟨later.store, called.events ++ later.events,
              later.completed⟩ := by
          rw [playCalls]
          split
          · rename_i error trapped
            exact absurd trapped (returned error)
          · rfl
        have first : (call :: rest).filterMap (returnedEvent guest) =
            (returnedEvent guest call).toList ++
              rest.filterMap (returnedEvent guest) := by
          cases event : returnedEvent guest call <;> simp [event]
        rw [played, first]
        dsimp only
        rw [recorded]
        rcases induction (callOpt guest store call).store with
          ⟨completed, events⟩ |
          ⟨stopped, made, trap, after, count, split, exported, events⟩
        · left
          exact ⟨completed, by rw [events]⟩
        · right
          refine ⟨stopped, call :: made, trap, after, count, ?_, exported,
            ?_⟩
          · rw [split]
            rfl
          · rw [events]
            cases event : returnedEvent guest call <;> simp [event]

/-- The calls of a request whose headers asked for the given action. -/
def requestCalls (action : UInt32) (view : RequestView) : List Call :=
  createCall :: headersCall view ::
    ((if action = 0 then [bodyCall view] else []) ++ closingCalls)

/-- The action the guest answers the headers of the request with. -/
def headersAction (guest : Guest σ) (store : Store σ) : UInt32 :=
  (callOpt guest (callOpt guest store createCall).store
    (headersCall store.host.req)).result.action

/-- A request is the sequence of calls its headers callback asks for. -/
theorem runCallbacks_eq
    (guest : Guest σ)
    (store : Store σ) :
    runCallbacks guest store =
      playCalls guest
        (requestCalls (headersAction guest store) store.host.req) store := by
  unfold runCallbacks requestCalls headersAction
  rw [playCalls]
  dsimp only
  split
  · rfl
  · rw [playCalls]
    dsimp only
    split
    · rfl
    · rfl

end LightWaf.Wasm
