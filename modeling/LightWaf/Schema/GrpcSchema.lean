import LightWaf.Normalizer.GrpcWire
import LightWaf.Rust.Search

/-!
# Enforcing a protobuf schema

The embedding of `waf-schema-enforcement/src/grpc.rs`.  The path of a gRPC
request selects the type of its messages; each uncompressed message is decoded
against it.  The descriptors and the decoder come from `prost-reflect` and are
parameters.

A compressed message is passed over.  If all are, the module returns before it
looks at the path: an unknown method is reported unless every message of the
request is compressed.
-/

namespace LightWaf.Schema

open LightWaf.Rust
open LightWaf.Core
open LightWaf.Normalizer

/-! ## Descriptors -/

/-- `MessageDescriptor`: its field numbers, and the bytes that decode as it. -/
structure MessageDescriptor where
  fields : List Nat
  decodes : Bytes → Bool

/-- `MethodDescriptor`. -/
structure MethodDescriptor where
  name : Text
  input : MessageDescriptor

/-- `ServiceDescriptor`. -/
structure ServiceDescriptor where
  fullName : Text
  methods : List MethodDescriptor
  distinct : (methods.map MethodDescriptor.name).Nodup

/-- `DescriptorPool`; the full names of services are dotted identifiers. -/
structure DescriptorPool where
  services : List ServiceDescriptor
  distinct : (services.map ServiceDescriptor.fullName).Nodup
  unslashed : ∀ service ∈ services, '/' ∉ service.fullName

/-- `get_service_by_name`. -/
def DescriptorPool.getServiceByName (pool : DescriptorPool) (name : Text) :
    Option ServiceDescriptor :=
  pool.services.find? fun service => service.fullName = name

/-! ## Messages -/

/-- `resolve_input`. -/
def resolveInput (pool : DescriptorPool) (path : Text) :
    Option MessageDescriptor := do
  let name ← stripPrefix ['/'] path
  let (service, method) ← findSplit ['/'] name
  let service ← pool.getServiceByName service
  let method ← service.methods.find? fun other => other.name = method
  some method.input

/--
Past the value of a field, by its wire type.  A message that decodes has no
length beyond its end, so that the cursor of the source does not wrap.
-/
def skipValue (wire : Nat) (rest : Bytes) : Option Bytes :=
  match wire with
  | 0 => (readVarint rest).map Prod.snd
  | 1 => if rest.length < 8 then none else some (rest.drop 8)
  | 2 =>
      match readVarint rest with
      | none => none
      | some (length, rest) =>
          if rest.length < length then none else some (rest.drop length)
  | 5 => if rest.length < 4 then none else some (rest.drop 4)
  | _ => none

/-- The loop of `has_unknown_field`; a field takes at least its tag. -/
def unknownFieldFrom (known : List Nat) : (fuel : Nat) → Bytes → Bool
  | 0, _ => false
  | fuel + 1, msg =>
      if msg = [] then false
      else
        match readVarint msg with
        | none => false
        | some (tag, rest) =>
            let field := tag / 8 % 2 ^ 32
            if field ≠ 0 ∧ !known.contains field then true
            else
              match skipValue (tag % 8) rest with
              | none => false
              | some rest => unknownFieldFrom known fuel rest

/-- `has_unknown_field`. -/
def hasUnknownField (known : List Nat) (msg : Bytes) : Bool :=
  unknownFieldFrom known (msg.length + 1) msg

/-- `GrpcValidity`. -/
inductive GrpcValidity
  | valid
  | unknownMethod
  | decodeError
  | unknownField
deriving DecidableEq

/-- `validate_message`. -/
def validateMessage (pool : DescriptorPool) (path : Text) (msg : Bytes)
    (flagUnknown : Bool) : GrpcValidity :=
  match resolveInput pool path with
  | none => .unknownMethod
  | some input =>
      if !input.decodes msg then .decodeError
      else if flagUnknown && hasUnknownField input.fields msg then
        .unknownField
      else .valid

/-- The loop of `frames`; a frame takes at least five bytes. -/
def framesFrom : (fuel : Nat) → Bytes → List Bytes
  | 0, _ => []
  | fuel + 1, body =>
      match readFrame body with
      | .frame flag message rest =>
          if flag = 0 then message :: framesFrom fuel rest
          else framesFrom fuel rest
      | _ => []

/-- `frames`: the messages that are not compressed. -/
def frames (body : Bytes) : List Bytes :=
  framesFrom (body.length + 1) body

/-! ## The module -/

/-- `GrpcSchemaModule`. -/
structure GrpcSchemaModule where
  pool : DescriptorPool
  enabled : Bool
  flagUnknownFields : Bool
  unknownMethodSeverity : Severity
  decodeErrorSeverity : Severity
  unknownFieldSeverity : Severity

/-- `content_type`. -/
def contentType (ctx : RequestContext) : Text :=
  ((ctx.normalized.headers.find? fun header =>
    header.1 = "content-type".toList).map Prod.snd).getD []

/-- The items for the kinds of findings among the messages. -/
def GrpcSchemaModule.items (module : GrpcSchemaModule)
    (found : List GrpcValidity) : List ScoreItem :=
  (if found.contains .unknownMethod then
    [⟨"schema-grpc-unknown-method", module.unknownMethodSeverity⟩]
    else []) ++
  (if found.contains .decodeError then
    [⟨"schema-grpc-decode-error", module.decodeErrorSeverity⟩] else []) ++
  (if found.contains .unknownField then
    [⟨"schema-grpc-unknown-field", module.unknownFieldSeverity⟩] else [])

/-- `GrpcSchemaModule::inspect`. -/
def GrpcSchemaModule.inspect (module : GrpcSchemaModule)
    (ctx : RequestContext) : Decision :=
  if !module.enabled then .allow
  else if !"application/grpc".toList.isPrefixOf
      (trimStart (contentType ctx)) then .allow
  else
    match ctx.normalized.body with
    | .raw body =>
        let msgs := frames body
        if msgs.isEmpty then .allow
        else
          let items := module.items (msgs.map fun msg =>
            validateMessage module.pool ctx.path msg
              module.flagUnknownFields)
          if items.isEmpty then .allow else .scores items
    | _ => .allow

/-! ## What the signals say -/

/-- A path names a method of the pool with a type of messages. -/
def NamesMethod (pool : DescriptorPool) (path : Text)
    (input : MessageDescriptor) : Prop :=
  ∃ service ∈ pool.services, ∃ method ∈ service.methods,
    path = '/' :: (service.fullName ++ '/' :: method.name) ∧
      method.input = input

/-- Each signal says what it says whatever the other frames contain. -/
structure Independent (module : GrpcSchemaModule) (ctx : RequestContext)
    (sent : List Frame) : Prop where
  unknownMethod :
    Contributes (module.inspect ctx) "schema-grpc-unknown-method" ↔
      ¬ ∃ input, NamesMethod module.pool ctx.path input
  decodeError : ∀ input, NamesMethod module.pool ctx.path input →
    (Contributes (module.inspect ctx) "schema-grpc-decode-error" ↔
      ∃ frame ∈ sent, frame.flag = 0 ∧ input.decodes frame.message = false)
  unknownField : module.flagUnknownFields = true →
    ∀ input, NamesMethod module.pool ctx.path input →
    (Contributes (module.inspect ctx) "schema-grpc-unknown-field" ↔
      ∃ frame ∈ sent, frame.flag = 0 ∧ input.decodes frame.message = true ∧
        hasUnknownField input.fields frame.message = true)

/-! ## Paths -/

theorem find?_eq_some_of_nodup
    {α β : Type} [DecidableEq β] {key : α → β} {items : List α}
    (nodup : (items.map key).Nodup) {item : α} (member : item ∈ items) :
    items.find? (fun other => key other = key item) = some item := by
  induction items with
  | nil => cases member
  | cons head rest induction =>
      rw [List.map_cons, List.nodup_cons] at nodup
      rcases List.mem_cons.mp member with rfl | member
      · exact List.find?_cons_of_pos (decide_eq_true rfl)
      · rw [List.find?_cons_of_neg, induction nodup.2 member]
        intro same
        rw [of_decide_eq_true same] at nodup
        exact nodup.1 (List.mem_map_of_mem member)

/-- A path resolves to the messages of the method that it names. -/
theorem resolveInput_eq_some_iff
    {pool : DescriptorPool} {path : Text} {input : MessageDescriptor} :
    resolveInput pool path = some input ↔ NamesMethod pool path input := by
  constructor
  · intro resolved
    simp only [resolveInput, Option.bind_eq_bind,
      Option.bind_eq_some_iff] at resolved
    obtain ⟨name, stripped, ⟨before, after⟩, split, service, found, method,
      chosen, result⟩ := resolved
    rw [stripPrefix] at stripped
    split_ifs at stripped with slash
    cases stripped
    have leading := List.prefix_append_drop
      (List.isPrefixOf_iff_prefix.mp slash)
    have parts := eq_of_findSplit split
    have served : service.fullName = before := by
      simpa using List.find?_some found
    have called : method.name = after := by
      simpa using List.find?_some chosen
    refine ⟨service, List.mem_of_find?_eq_some found, method,
      List.mem_of_find?_eq_some chosen, ?_, Option.some.inj result⟩
    rw [served, called]
    exact leading.trans (congrArg ('/' :: ·) parts)
  · rintro ⟨service, offered, method, declared, rfl, rfl⟩
    have stripped : stripPrefix ['/']
        ('/' :: (service.fullName ++ '/' :: method.name)) =
          some (service.fullName ++ '/' :: method.name) := by
      simp [stripPrefix]
    have found : pool.getServiceByName service.fullName = some service :=
      find?_eq_some_of_nodup pool.distinct offered
    have chosen : service.methods.find? (fun other =>
        other.name = method.name) = some method :=
      find?_eq_some_of_nodup service.distinct declared
    rw [resolveInput, stripped]
    simp only [Option.bind_eq_bind, Option.bind_some]
    rw [findSplit_single (pool.unslashed service offered)]
    simp only [Option.bind_some]
    rw [found, Option.bind_some, chosen, Option.bind_some]

/-! ## Frames -/

theorem framesFrom_encode
    (sent : List Frame) {fuel : Nat} (enough : sent.length < fuel) :
    framesFrom fuel (sent.flatMap Frame.encode) =
      (sent.filter fun frame => frame.flag = 0).map Frame.message := by
  induction sent generalizing fuel with
  | nil =>
      cases fuel with
      | zero => cases enough
      | succ fuel => rfl
  | cons frame sent induction =>
      obtain ⟨fuel, rfl⟩ := Nat.exists_eq_add_of_lt enough
      have later : sent.length < (frame :: sent).length + fuel := by
        rw [List.length_cons]
        omega
      rw [List.flatMap_cons, framesFrom, readFrame_complete]
      dsimp only
      rw [induction later]
      rw [List.filter_cons]
      split_ifs with plain listed listed
      · rfl
      · exact absurd (decide_eq_true plain) listed
      · exact absurd (of_decide_eq_true listed) plain
      · rfl

/-- Of complete frames the messages that are not compressed are read. -/
theorem frames_encode (sent : List Frame) :
    frames (sent.flatMap Frame.encode) =
      (sent.filter fun frame => frame.flag = 0).map Frame.message := by
  apply framesFrom_encode
  apply Nat.lt_succ_of_le
  rw [List.length_flatMap]
  induction sent with
  | nil => exact Nat.zero_le _
  | cons frame sent induction =>
      rw [List.map_cons, List.sum_cons, List.length_cons, Frame.encode,
        List.length_cons]
      omega

/-! ## Signals -/

section Inspect

variable (module : GrpcSchemaModule)

theorem mem_items (found : List GrpcValidity) :
    ((∃ item ∈ module.items found,
        item.ruleId = "schema-grpc-unknown-method") ↔
      .unknownMethod ∈ found) ∧
    ((∃ item ∈ module.items found,
        item.ruleId = "schema-grpc-decode-error") ↔
      .decodeError ∈ found) ∧
    ((∃ item ∈ module.items found,
        item.ruleId = "schema-grpc-unknown-field") ↔
      .unknownField ∈ found) := by
  rw [GrpcSchemaModule.items]
  split_ifs with first second third <;> simp_all

/-- A request contributes what its messages are found to be. -/
theorem contributes_inspect
    {ctx : RequestContext} {body : Bytes} (enabled : module.enabled = true)
    (grpc : "application/grpc".toList.isPrefixOf
      (trimStart (contentType ctx)) = true)
    (raw : ctx.normalized.body = .raw body) (ruleId : String) :
    Contributes (module.inspect ctx) ruleId ↔
      ∃ item ∈ module.items ((frames body).map fun msg =>
        validateMessage module.pool ctx.path msg module.flagUnknownFields),
        item.ruleId = ruleId := by
  rw [GrpcSchemaModule.inspect, enabled, grpc, raw]
  dsimp only
  cases frames body with
  | nil => simp [Contributes, GrpcSchemaModule.items]
  | cons msg msgs =>
      simp only [Bool.not_true, Bool.false_eq_true, if_false,
        List.isEmpty_cons]
      split_ifs with none
      · rw [List.isEmpty_iff.mp none]
        simp [Contributes]
      · rfl

/-- An unknown method is what every message is found to be, or none. -/
theorem unknownMethod_mem_iff
    {path : Text} {flagUnknown : Bool} {msgs : List Bytes} :
    .unknownMethod ∈ msgs.map (fun msg =>
        validateMessage module.pool path msg flagUnknown) ↔
      msgs ≠ [] ∧ resolveInput module.pool path = none := by
  cases resolved : resolveInput module.pool path with
  | none =>
      simp only [validateMessage, resolved, and_true]
      cases msgs <;> simp
  | some input =>
      simp only [List.mem_map, reduceCtorEq, and_false, iff_false]
      rintro ⟨msg, -, found⟩
      simp only [validateMessage, resolved] at found
      split_ifs at found

/-- What is found of a message whose method is known. -/
theorem validateMessage_eq_iff
    {path : Text} {input : MessageDescriptor}
    (resolved : resolveInput module.pool path = some input)
    (flagUnknown : Bool) (msg : Bytes) :
    (validateMessage module.pool path msg flagUnknown = .decodeError ↔
      input.decodes msg = false) ∧
    (validateMessage module.pool path msg flagUnknown = .unknownField ↔
      flagUnknown = true ∧ input.decodes msg = true ∧
        hasUnknownField input.fields msg = true) := by
  simp only [validateMessage, resolved]
  cases input.decodes msg <;> cases flagUnknown <;>
    cases hasUnknownField input.fields msg <;> simp

end Inspect

section Frames

variable
  (module : GrpcSchemaModule) (ctx : RequestContext) (sent : List Frame)
  (enabled : module.enabled = true)
  (grpc : "application/grpc".toList.isPrefixOf
    (trimStart (contentType ctx)) = true)
  (raw : ctx.normalized.body = .raw (sent.flatMap Frame.encode))

include enabled grpc raw

/-- An unknown method is reported if some frame is not compressed. -/
theorem contributes_unknownMethod_iff :
    Contributes (module.inspect ctx) "schema-grpc-unknown-method" ↔
      (∃ frame ∈ sent, frame.flag = 0) ∧
        ¬ ∃ input, NamesMethod module.pool ctx.path input := by
  have named : (∃ input, NamesMethod module.pool ctx.path input) ↔
      resolveInput module.pool ctx.path ≠ none := by
    simp only [← resolveInput_eq_some_iff, ← Option.isSome_iff_exists,
      Option.isSome_iff_ne_none]
  have read : frames (sent.flatMap Frame.encode) ≠ [] ↔
      ∃ frame ∈ sent, frame.flag = 0 := by
    rw [frames_encode]
    simp
  rw [contributes_inspect module enabled grpc raw, (mem_items module _).1,
    unknownMethod_mem_iff, read, named, not_not]

/-- What is reported of the messages of a known method. -/
theorem contributes_found_iff
    {input : MessageDescriptor}
    (named : NamesMethod module.pool ctx.path input) :
    (Contributes (module.inspect ctx) "schema-grpc-decode-error" ↔
      ∃ frame ∈ sent, frame.flag = 0 ∧
        input.decodes frame.message = false) ∧
    (Contributes (module.inspect ctx) "schema-grpc-unknown-field" ↔
      ∃ frame ∈ sent, frame.flag = 0 ∧ module.flagUnknownFields = true ∧
        input.decodes frame.message = true ∧
        hasUnknownField input.fields frame.message = true) := by
  have found := validateMessage_eq_iff module
    (resolveInput_eq_some_iff.mpr named) module.flagUnknownFields
  have among : ∀ validity, validity ∈
      (frames (sent.flatMap Frame.encode)).map (fun msg => validateMessage
        module.pool ctx.path msg module.flagUnknownFields) ↔
      ∃ frame ∈ sent, frame.flag = 0 ∧ validateMessage module.pool ctx.path
        frame.message module.flagUnknownFields = validity := by
    intro validity
    rw [frames_encode, List.map_map]
    simp only [List.mem_map, List.mem_filter, decide_eq_true_eq, and_assoc,
      Function.comp_apply]
  rw [contributes_inspect module enabled grpc raw,
    contributes_inspect module enabled grpc raw, (mem_items module _).2.1,
    (mem_items module _).2.2, among, among]
  simp only [(found _).1, (found _).2, and_self]

/--
No signal depends on what other frames contain exactly when the path names a
method or some frame is not compressed.
-/
theorem independent_iff :
    Independent module ctx sent ↔
      (∃ input, NamesMethod module.pool ctx.path input) ∨
        ∃ frame ∈ sent, frame.flag = 0 := by
  have unknown := contributes_unknownMethod_iff module ctx sent enabled grpc
    raw
  have reported := @contributes_found_iff module ctx sent enabled grpc raw
  constructor
  · intro independent
    rw [or_iff_not_imp_left]
    intro unnamed
    exact (unknown.mp (independent.unknownMethod.mpr unnamed)).1
  · intro reached
    refine ⟨?_, fun input named => (reported named).1,
      fun flagged input named => ?_⟩
    · rw [unknown, and_iff_right_iff_imp]
      exact reached.resolve_left
    · rw [(reported named).2]
      simp only [flagged, true_and]

end Frames

/-- A pool with one service, whose one method takes the empty message. -/
def pingPool : DescriptorPool where
  services :=
    [{ fullName := "p.Health".toList
       methods := [⟨"Ping".toList, ⟨[], fun msg => msg.isEmpty⟩⟩]
       distinct := by decide }]
  distinct := by decide
  unslashed := by
    intro service member
    rw [List.mem_singleton.mp member]
    decide

/-- The module with unknown fields flagged. -/
def pingModule : GrpcSchemaModule :=
  ⟨pingPool, true, true, .critical, .warning, .notice⟩

/-- A call of a method that the pool does not have. -/
def unknownCall (sent : List Frame) : RequestContext :=
  { emptyRequest with
    path := "/p.Health/Dump".toList
    normalized :=
      { headers := [("content-type".toList, "application/grpc".toList)]
        body := .raw (sent.flatMap Frame.encode) } }

/-- A compressed message. -/
def compressedFrame : Frame := ⟨1, [0x78], by decide⟩

/-- An empty message that is not compressed. -/
def emptyFrame : Frame := ⟨0, [], by decide⟩

theorem independent_mixed :
    Independent pingModule (unknownCall [compressedFrame, emptyFrame])
      [compressedFrame, emptyFrame] :=
  (independent_iff pingModule (unknownCall [compressedFrame, emptyFrame])
    [compressedFrame, emptyFrame] rfl (by decide) rfl).mpr
      (.inr ⟨emptyFrame, by simp, rfl⟩)

/-- An unknown method goes unreported if the one message is compressed. -/
theorem not_independent_compressed :
    ¬ Independent pingModule (unknownCall [compressedFrame])
      [compressedFrame] := by
  intro independent
  have allowed : pingModule.inspect (unknownCall [compressedFrame]) =
      .allow := by decide
  have unnamed : ¬ ∃ input, NamesMethod pingModule.pool
      (unknownCall [compressedFrame]).path input := by
    rintro ⟨input, named⟩
    have resolved := resolveInput_eq_some_iff.mpr named
    exact Option.some_ne_none input (resolved.symm.trans (by decide))
  have reported := independent.unknownMethod.mpr unnamed
  rw [allowed] at reported
  exact reported

end LightWaf.Schema
