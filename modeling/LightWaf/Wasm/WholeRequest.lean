import LightWaf.Wasm.Runtime

/-!
# A plugin that allows a request has seen it

An allowed request ran through every callback without a trap and without a
local response.  Whether the body was among what the guest saw depends on the
action its headers callback returned: with anything but `Continue` the body
callback is skipped, although a pause is to be treated as a continuation.
-/

namespace LightWaf.Wasm

open LightWaf.Rust
open LightWaf.Core

variable {σ : Type}

/-- The guest was shown the request to its end, and let it pass. -/
structure SawWholeRequest
    (guest : Guest σ) (run : Run σ) (ctx : RequestContext) : Prop where
  returned : ∀ event ∈ run.events, event.returned = true
  silent : run.store.host.captured = none
  body : (guest.arity .requestBody).isSome →
    ∃ event ∈ run.events, event.call.callback = .requestBody ∧
      ∃ length, event.passed[1]? = some length ∧
        length.toNat = ctx.body.length

/-- A request is allowed only after the guest saw the whole of it. -/
def AllowsOnlySeen
    (guest : Guest σ) (inspected : Inspected σ) (ctx : RequestContext) :
    Prop :=
  inspected.decision = .allow →
    ∃ run, inspected.run = some run ∧ SawWholeRequest guest run ctx

/-- The store a request starts in. -/
def startingStore (pooled : Pooled σ) (state : σ) (ctx : RequestContext) :
    Store σ :=
  ⟨state, pooled.store.host.resetFor (viewFrom ctx) ctx.requestId⟩

/--
The guest exports a body callback that the request does not reach, or that
cannot be told the length of its body.
-/
def MissesBody (guest : Guest σ) (start : Store σ) : Prop :=
  ∃ count, guest.arity .requestBody = some count ∧
    (headersAction guest start ≠ 0 ∨ count < 2 ∨
      2 ^ 32 ≤ start.host.req.body.length)

/-- The guest returns from each of the calls and sends no response. -/
def LetsPass (guest : Guest σ) (calls : List Call) (start : Store σ) :
    Prop :=
  (playCalls guest calls start).completed = true ∧
    (playCalls guest calls start).store.host.captured = none

/-! ## When a request is allowed -/

theorem reject500_ne_allow (name : String) : reject500 name ≠ .allow := by
  intro allowed
  cases allowed

@[simp]
theorem mapDecision_eq_allow
    (captured : Option LocalResponse)
    (name : String) :
    mapDecision captured name = .allow ↔ captured = none := by
  cases captured with
  | none => simp [mapDecision]
  | some response =>
      unfold mapDecision
      dsimp only
      split <;> simp

/-- An inspection allows after a silent run, and after nothing else. -/
theorem inspect_eq_allow
    (guest : Guest σ)
    (fuel : Nat)
    (name : String)
    (slot : Option (Pooled σ))
    (ctx : RequestContext) :
    (inspect guest fuel name slot ctx).decision = .allow ↔
      ∃ pooled state, slot = some pooled ∧
        guest.setFuel fuel pooled.store.guest = some state ∧
        (inspect guest fuel name slot ctx).run =
          some (runCallbacks guest (startingStore pooled state ctx)) ∧
        LetsPass guest
          (requestCalls
            (headersAction guest (startingStore pooled state ctx))
            (viewFrom ctx))
          (startingStore pooled state ctx) := by
  cases slot with
  | none => simp [inspect, reject500]
  | some pooled =>
      cases fueled : guest.setFuel fuel pooled.store.guest with
      | none => simp [inspect, runRequest, fueled, reject500]
      | some state =>
          have ran : runCallbacks guest (startingStore pooled state ctx) =
              playCalls guest
                (requestCalls
                  (headersAction guest (startingStore pooled state ctx))
                  (viewFrom ctx))
                (startingStore pooled state ctx) :=
            runCallbacks_eq guest (startingStore pooled state ctx)
          have served : runRequest guest pooled.store (viewFrom ctx)
              ctx.requestId fuel name =
                let run := runCallbacks guest (startingStore pooled state ctx)
                ⟨run.store, some run,
                  if run.completed then
                    mapDecision run.store.host.captured name
                  else reject500 name⟩ := by
            simp only [runRequest, fueled]
            rfl
          simp only [inspect, served]
          constructor
          · intro allowed
            refine ⟨pooled, state, rfl, fueled, rfl, ?_⟩
            split at allowed
            · rename_i completed
              rw [LetsPass, ← ran]
              exact ⟨completed, (mapDecision_eq_allow _ _).mp allowed⟩
            · exact absurd allowed (reject500_ne_allow name)
          · rintro ⟨other, otherState, same, otherFueled, _, passed⟩
            cases same
            cases fueled.symm.trans otherFueled
            rw [LetsPass, ← ran] at passed
            rw [if_pos passed.1]
            exact (mapDecision_eq_allow _ _).mpr passed.2

/-! ## What a silent run shows the guest -/

/-- The second argument of the body call reaches the guest in 32 bits. -/
theorem fitArgs_bodyCall
    (view : RequestView)
    (count : Nat)
    (length : UInt32) :
    (fitArgs (bodyCall view).args count)[1]? = some length ↔
      2 ≤ count ∧ length = UInt32.ofNat view.body.length := by
  unfold fitArgs
  by_cases enough : 2 ≤ count
  · have inside : 1 < count := enough
    simp [bodyCall, inside, enough, eq_comm]
  · have outside : ¬ 1 < count := enough
    simp [outside, enough]

/-- The body call is recorded exactly when the headers let it be made. -/
theorem mem_requestCalls_requestBody
    (guest : Guest σ)
    (action : UInt32)
    (view : RequestView)
    (event : Event)
    (recorded : event ∈
      (requestCalls action view).filterMap (returnedEvent guest)) :
    event.call.callback = .requestBody ↔
      action = 0 ∧ event.call = bodyCall view := by
  obtain ⟨call, made, returned⟩ := List.mem_filterMap.mp recorded
  obtain ⟨count, _, rfl⟩ := Option.map_eq_some_iff.mp returned
  dsimp only
  simp only [requestCalls, closingCalls, List.mem_cons, List.mem_append,
    List.not_mem_nil, or_false] at made
  constructor
  · intro body
    rcases made with rfl | rfl | made | rfl | rfl
    · cases body
    · cases body
    · split at made
      · rename_i continued
        exact ⟨continued, List.mem_singleton.mp made⟩
      · cases made
    · cases body
    · cases body
  · rintro ⟨_, rfl⟩
    rfl

theorem returned_of_mem_recorded
    {guest : Guest σ}
    {calls : List Call}
    {event : Event}
    (recorded : event ∈ calls.filterMap (returnedEvent guest)) :
    event.returned = true := by
  obtain ⟨call, _, returned⟩ := List.mem_filterMap.mp recorded
  obtain ⟨count, _, rfl⟩ := Option.map_eq_some_iff.mp returned
  rfl

/-- A guest that exports a body callback is told the length of the body. -/
theorem bodyShown_iff
    {guest : Guest σ}
    {count : Nat}
    (exported : guest.arity .requestBody = some count)
    (action : UInt32)
    (view : RequestView) :
    (∃ event ∈ (requestCalls action view).filterMap (returnedEvent guest),
      event.call.callback = .requestBody ∧
        ∃ length, event.passed[1]? = some length ∧
          length.toNat = view.body.length) ↔
      action = 0 ∧ 2 ≤ count ∧ view.body.length < 2 ^ 32 := by
  constructor
  · rintro ⟨event, made, body, length, shown, whole⟩
    obtain ⟨continued, call⟩ :=
      (mem_requestCalls_requestBody guest _ _ event made).mp body
    obtain ⟨_, _, returned⟩ := List.mem_filterMap.mp made
    obtain ⟨other, otherExported, rfl⟩ := Option.map_eq_some_iff.mp returned
    dsimp only at call shown
    subst call
    cases exported.symm.trans otherExported
    obtain ⟨enough, rfl⟩ := (fitArgs_bodyCall _ _ _).mp shown
    rw [UInt32.toNat_ofNat'] at whole
    refine ⟨continued, enough, ?_⟩
    rw [← whole]
    exact Nat.mod_lt _ (by decide)
  · rintro ⟨continued, enough, short⟩
    refine ⟨⟨bodyCall view, fitArgs (bodyCall view).args count, true⟩, ?_,
      rfl, UInt32.ofNat view.body.length,
      (fitArgs_bodyCall _ _ _).mpr ⟨enough, rfl⟩, ?_⟩
    · rw [List.mem_filterMap]
      refine ⟨bodyCall view, ?_, ?_⟩
      · simp [requestCalls, continued]
      · exact Option.map_eq_some_iff.mpr ⟨count, exported, rfl⟩
    · rw [UInt32.toNat_ofNat']
      exact Nat.mod_eq_of_lt short

/-- A run that the guest lets pass records a return of every call. -/
theorem events_of_letsPass
    {guest : Guest σ}
    {start : Store σ}
    (passed : LetsPass guest
      (requestCalls (headersAction guest start) start.host.req) start) :
    (runCallbacks guest start).events =
      (requestCalls (headersAction guest start)
        start.host.req).filterMap (returnedEvent guest) := by
  rw [runCallbacks_eq]
  rcases playCalls_cases guest
    (requestCalls (headersAction guest start) start.host.req) start with
    ⟨_, events⟩ | ⟨stopped, _⟩
  · exact events
  · rw [passed.1] at stopped
    cases stopped

/--
After a silent run the guest saw the whole request unless it exports a body
callback that was missed.
-/
theorem sawWholeRequest_iff
    (guest : Guest σ)
    (start : Store σ)
    (ctx : RequestContext)
    (viewed : start.host.req = viewFrom ctx)
    (passed : LetsPass guest
      (requestCalls (headersAction guest start) start.host.req) start) :
    SawWholeRequest guest (runCallbacks guest start) ctx ↔
      ¬ MissesBody guest start := by
  have sameBody : ctx.body.length = start.host.req.body.length := by
    rw [viewed]
    rfl
  have recorded := events_of_letsPass passed
  constructor
  · rintro saw ⟨count, exported, missed⟩
    have shown := saw.body (by rw [exported]; rfl)
    rw [recorded, sameBody, bodyShown_iff exported] at shown
    rcases missed with skipped | few | long
    · exact skipped shown.1
    · exact absurd shown.2.1 (Nat.not_le.mpr few)
    · exact absurd shown.2.2 (Nat.not_lt.mpr long)
  · intro unmissed
    refine ⟨fun event made => ?_, ?_, fun isExported => ?_⟩
    · rw [recorded] at made
      exact returned_of_mem_recorded made
    · rw [runCallbacks_eq]
      exact passed.2
    · obtain ⟨count, exported⟩ := Option.isSome_iff_exists.mp isExported
      rw [recorded, sameBody, bodyShown_iff exported]
      by_contra missed
      apply unmissed
      refine ⟨count, exported, ?_⟩
      by_cases continued : headersAction guest start = 0
      · right
        simp only [continued, true_and] at missed
        omega
      · exact Or.inl continued

/--
An inspection allows only what the guest saw whole, exactly when the guest
does not let pass a request whose body it missed.
-/
theorem allows_only_seen_iff
    (guest : Guest σ)
    (fuel : Nat)
    (name : String)
    (slot : Option (Pooled σ))
    (ctx : RequestContext) :
    AllowsOnlySeen guest (inspect guest fuel name slot ctx) ctx ↔
      ∀ pooled state, slot = some pooled →
        guest.setFuel fuel pooled.store.guest = some state →
        MissesBody guest (startingStore pooled state ctx) →
        ¬ LetsPass guest
          (requestCalls
            (headersAction guest (startingStore pooled state ctx))
            (viewFrom ctx))
          (startingStore pooled state ctx) := by
  unfold AllowsOnlySeen
  rw [inspect_eq_allow]
  constructor
  · intro seen pooled state taken fueled missed passed
    have ran : (inspect guest fuel name slot ctx).run =
        some (runCallbacks guest (startingStore pooled state ctx)) := by
      subst taken
      simp only [inspect, runRequest, fueled]
      rfl
    obtain ⟨run, found, saw⟩ :=
      seen ⟨pooled, state, taken, fueled, ran, passed⟩
    cases ran.symm.trans found
    exact (sawWholeRequest_iff guest _ ctx rfl passed).mp saw missed
  · rintro unmissed ⟨pooled, state, taken, fueled, ran, passed⟩
    refine ⟨_, ran, (sawWholeRequest_iff guest _ ctx rfl passed).mpr ?_⟩
    intro missed
    exact unmissed pooled state taken fueled missed passed

/-- A guest with every callback, which answers each call with a pause. -/
def pausingGuest : Guest Unit where
  arity _ := some 3
  setFuel _ state := some state
  call _ _ _ _ := ⟨(), [], .ok 1⟩

/-- An instance of the pausing guest. -/
def pausingInstance : Pooled Unit := ⟨⟨(), {}⟩, [], []⟩

/-- A request with a body of one byte. -/
def smallRequest : RequestContext :=
  { emptyRequest with body := [0x41] }

/-- The pausing guest is built, and allows a body it was never shown. -/
theorem not_allowsOnlySeen_pausing :
    (∃ run, buildInstance pausingGuest () [] 100 = .ok run ∧
      run.store = pausingInstance.store) ∧
    ¬ AllowsOnlySeen pausingGuest
      (inspect pausingGuest 100 "plugin" (some pausingInstance)
        smallRequest)
      smallRequest := by
  constructor
  · exact ⟨_, rfl, rfl⟩
  · intro seen
    obtain ⟨run, ran, saw⟩ := seen rfl
    cases ran
    obtain ⟨event, made, body, _⟩ := saw.body rfl
    revert event
    decide

end LightWaf.Wasm
