import LightWaf.Rust.Search
import LightWaf.Schema.UnknownRoutes

/-!
# Requests that conform to a specification

A request conforms when the most specific template that its path spells
declares the method and its path parameters satisfy their schemas.  The
module judges the lowercased path instead, so a conforming request is
accepted exactly when its lowercased path conforms as well.
-/

namespace LightWaf.Schema

open LightWaf.Rust
open LightWaf.Core
open LightWaf.Normalizer

/-! ## Conformance -/

/-- The most specific route that the segments spell. -/
def mostSpecific (doc : Json) (segments : List Text) : Option Route :=
  firstMatch segments (buildRouter doc)

section Library

variable (library : SchemaLibrary)

/-- The path parameters of an operation have values that satisfy them. -/
def SatisfiesPathParams (op : CompiledOp) (pathParams : List (Text × Text)) :
    Prop :=
  ∀ param ∈ op.params, param.location = .path →
    ∃ value, findParam pathParams param.name false = some value ∧
      param.accepts library value = true

/--
The segments with the method conform to the document: the most specific
template declares the method, and the values in the place of its parameters
satisfy the declared schemas.
-/
def Conforms (doc : Json) (compiled : CompiledSpec) (segments : List Text)
    (method : Text) : Prop :=
  ∃ route pathParams, mostSpecific doc segments = some route ∧
    matchPath route.segments segments = some pathParams ∧
    toAsciiLowercase method ∈ route.methods ∧
    ∀ op, compiled.op route.template method = some op →
      SatisfiesPathParams library op pathParams

/--
The decision reports the route, the method, or a parameter in the path of the
operation that the request resolves to.
-/
inductive PathViolation (module : ApiSchemaModule) (ctx : RequestContext) :
    Prop
  | unknownRoute
      (reported : Contributes (module.inspect library ctx)
        "schema-api-unknown-route")
  | methodNotAllowed
      (reported : Contributes (module.inspect library ctx)
        "schema-api-method-not-allowed")
  | pathParam
      {template : Text} {pathParams : List (Text × Text)} {op : CompiledOp}
      {param : CompiledParam} {violation : Violation}
      (resolved : resolve module.compiled.router ctx.normalized.path
        ctx.method = .matched template pathParams)
      (operation : module.compiled.op template ctx.method = some op)
      (declared : param ∈ op.params) (place : param.location = .path)
      (violates : paramViolation library param
        (requestParts ctx pathParams) = some violation)
      (reported : Contributes (module.inspect library ctx) violation.ruleId)

/-- The rules that a decision on a guarded path contributes. -/
theorem contributes_apiSchema_iff
    {module : ApiSchemaModule} {ctx : RequestContext}
    (enabled : module.enabled = true)
    (guarded : module.guards ctx.normalized.path = true) (ruleId : String) :
    Contributes (module.inspect library ctx) ruleId ↔
      match resolve module.compiled.router ctx.normalized.path
        ctx.method with
      | .unknownRoute => ruleId = "schema-api-unknown-route"
      | .methodNotAllowed => ruleId = "schema-api-method-not-allowed"
      | .matched template pathParams =>
          ∃ violation ∈ module.compiled.validate library template ctx.method
              (requestParts ctx pathParams), violation.ruleId = ruleId := by
  rw [ApiSchemaModule.inspect, enabled, guarded, Bool.not_true,
    if_neg Bool.false_ne_true, if_neg Bool.false_ne_true]
  cases resolve module.compiled.router ctx.normalized.path ctx.method with
  | unknownRoute => simp [Contributes, eq_comm]
  | methodNotAllowed => simp [Contributes, eq_comm]
  | matched template pathParams =>
      dsimp only
      split_ifs with none
      · rw [List.isEmpty_iff.mp none]
        simp [Contributes]
      · simp [Contributes]

/-- A disabled module reports nothing. -/
theorem not_pathViolation_of_disabled
    {module : ApiSchemaModule} (disabled : module.enabled = false)
    (ctx : RequestContext) : ¬ PathViolation library module ctx := by
  have silent : ∀ ruleId, ¬ Contributes (module.inspect library ctx) ruleId := by
    intro ruleId
    rw [ApiSchemaModule.inspect, disabled]
    exact id
  rintro (reported | reported | ⟨_, _, _, _, _, reported⟩)
  · exact silent _ reported
  · exact silent _ reported
  · exact silent _ reported

theorem ruleId_ne_methodNotAllowed (violation : Violation) :
    violation.ruleId ≠ "schema-api-method-not-allowed" := by
  cases violation <;> decide

/-- A parameter that violates its schema is reported by `validate`. -/
theorem mem_validate
    {compiled : CompiledSpec} {template method : Text} {op : CompiledOp}
    {param : CompiledParam} {parts : RequestParts} {violation : Violation}
    (operation : compiled.op template method = some op)
    (declared : param ∈ op.params)
    (violates : paramViolation library param parts = some violation) :
    violation ∈ compiled.validate library template method parts := by
  rw [CompiledSpec.validate, operation]
  refine List.mem_filter.mpr ⟨by cases violation <;> decide, ?_⟩
  apply List.contains_iff_mem.mpr
  apply List.mem_append_left
  apply List.mem_append_left
  exact List.mem_filterMap.mpr ⟨param, declared, violates⟩

/-- A declared path parameter violates nothing when its value satisfies it. -/
theorem paramViolation_path
    {param : CompiledParam} {parts : RequestParts}
    (place : param.location = .path) (required : param.required = true) :
    paramViolation library param parts = none ↔
      ∃ value, findParam parts.pathParams param.name false = some value ∧
        param.accepts library value = true := by
  rw [paramViolation, CompiledParam.observed, place]
  dsimp only
  cases findParam parts.pathParams param.name false with
  | none =>
      rw [required]
      constructor
      · intro none
        cases none
      · rintro ⟨_, same, _⟩
        cases same
  | some value =>
      dsimp only
      cases accepted : param.accepts library value with
      | true => exact ⟨fun _ => ⟨value, rfl, accepted⟩, fun _ => rfl⟩
      | false =>
          refine ⟨fun none => (nomatch none), ?_⟩
          rintro ⟨other, same, accepts⟩
          cases same
          rw [accepted] at accepts
          cases accepts

/-! ## Compiled parameters -/

/-- Path parameters are always required. -/
theorem compileParams_required
    {doc : Json} {is30 : Bool} {raws : List Json}
    {seen : List (Text × ParamIn)} {params : List CompiledParam}
    (compiles : compileParams library doc is30 seen raws = .ok params) :
    ∀ param ∈ params, param.location = .path → param.required = true := by
  induction raws generalizing seen params with
  | nil =>
      cases compiles
      exact fun _ member => nomatch member
  | cons raw rest induction =>
      rw [compileParams] at compiles
      split at compiles
      · split_ifs at compiles
        · exact induction compiles
        · obtain ⟨schema, _, compiles⟩ := ok_of_bind_ok compiles
          obtain ⟨others, later, compiles⟩ := ok_of_bind_ok compiles
          cases compiles
          intro param member place
          rcases List.mem_cons.mp member with rfl | tail
          · dsimp only at place ⊢
            rw [place]
            rfl
          · exact induction later param tail place
      · exact induction compiles

theorem mem_of_lookup
    {α β : Type} [BEq α] [LawfulBEq α] {pairs : List (α × β)} {key : α}
    {value : β} (found : pairs.lookup key = some value) :
    (key, value) ∈ pairs := by
  obtain ⟨before, after, rfl, _⟩ := List.lookup_eq_some_iff.mp found
  exact List.mem_append_right _ List.mem_cons_self

theorem compile_required
    {doc : Json} {config : ApiSchemaEnforcementConfig}
    {compiled : CompiledSpec}
    (compiles : compile library doc config = .ok compiled)
    {template method : Text} {op : CompiledOp}
    (operation : compiled.op template method = some op) :
    ∀ param ∈ op.params, param.location = .path → param.required = true := by
  obtain ⟨ops, items, filled⟩ := ok_of_bind_ok compiles
  cases filled
  have member := mem_of_lookup operation
  obtain ⟨group, groupMember, inside⟩ := List.mem_flatten.mp member
  obtain ⟨entry, _, itemCompiles⟩ := mem_of_mapM_ok items groupMember
  rw [compileItem] at itemCompiles
  split at itemCompiles
  · cases itemCompiles
    cases inside
  · obtain ⟨name, _, opCompiles⟩ := mem_of_mapM_ok itemCompiles inside
    split at opCompiles
    · rename_i compiledOp made
      cases opCompiles
      obtain ⟨params, paramsCompile, made⟩ := ok_of_bind_ok made
      obtain ⟨body, _, made⟩ := ok_of_bind_ok made
      cases made
      exact compileParams_required library paramsCompile
    · cases opCompiles

/-! ## What the module judges -/

/-- Conformance is judged on the most specific route. -/
theorem conforms_iff_of_mostSpecific
    {doc : Json} {segments : List Text} {route : Route}
    {pathParams : List (Text × Text)}
    (specific : mostSpecific doc segments = some route)
    (matched : matchPath route.segments segments = some pathParams)
    (compiled : CompiledSpec) (method : Text) :
    Conforms library doc compiled segments method ↔
      toAsciiLowercase method ∈ route.methods ∧
        ∀ op, compiled.op route.template method = some op →
          SatisfiesPathParams library op pathParams := by
  constructor
  · rintro ⟨other, params, same, otherMatched, declared, satisfies⟩
    cases specific.symm.trans same
    cases matched.symm.trans otherMatched
    exact ⟨declared, satisfies⟩
  · rintro ⟨declared, satisfies⟩
    exact ⟨route, pathParams, specific, matched, declared, satisfies⟩

/-- A request that resolves to an operation is reported for its parameters. -/
theorem not_pathViolation_of_matched
    {module : ApiSchemaModule} {ctx : RequestContext}
    (enabled : module.enabled = true)
    (guarded : module.guards ctx.normalized.path = true)
    {template : Text} {pathParams : List (Text × Text)}
    (resolved : resolve module.compiled.router ctx.normalized.path
      ctx.method = .matched template pathParams)
    (required : ∀ op, module.compiled.op template ctx.method = some op →
      ∀ param ∈ op.params, param.location = .path → param.required = true) :
    ¬ PathViolation library module ctx ↔
      ∀ op, module.compiled.op template ctx.method = some op →
        SatisfiesPathParams library op pathParams := by
  have contributes := contributes_apiSchema_iff library enabled guarded
  simp only [resolved] at contributes
  constructor
  · intro silent op operation param declared place
    refine (@paramViolation_path library param (requestParts ctx pathParams)
      place (required op operation param declared place)).mp ?_
    cases violates : paramViolation library param
        (requestParts ctx pathParams) with
    | none => rfl
    | some violation =>
        refine absurd (PathViolation.pathParam resolved operation declared
          place violates ?_) silent
        exact (contributes _).mpr
          ⟨violation, mem_validate library operation declared violates, rfl⟩
  · rintro satisfies (reported | reported |
      ⟨same, operation, declared, place, violates, _⟩)
    · obtain ⟨violation, _, named⟩ := (contributes _).mp reported
      exact ruleId_ne_unknownRoute violation named
    · obtain ⟨violation, _, named⟩ := (contributes _).mp reported
      exact ruleId_ne_methodNotAllowed violation named
    · cases resolved.symm.trans same
      have accepted := (@paramViolation_path library _
        (requestParts ctx pathParams) place
        (required _ operation _ declared place)).mpr
          (satisfies _ operation _ declared place)
      cases accepted.symm.trans violates

/-- Nothing is reported exactly when the judged segments conform. -/
theorem not_pathViolation_iff
    {doc : Json} {config : ApiSchemaEnforcementConfig}
    {module : ApiSchemaModule}
    (built : buildModule library doc config = .ok module)
    {ctx : RequestContext}
    (guarded : module.guards ctx.normalized.path = true) :
    ¬ PathViolation library module ctx ↔
      (config.enabled = true →
        Conforms library doc module.compiled
          (splitSegments ctx.normalized.path) ctx.method) := by
  obtain ⟨compiles, router, enabled, _⟩ := buildModule_ok built
  cases on : config.enabled with
  | false =>
      rw [on] at enabled
      exact iff_of_true (not_pathViolation_of_disabled library enabled ctx)
        nofun
  | true =>
      rw [on] at enabled
      have contributes := contributes_apiSchema_iff library enabled guarded
      simp only [forall_const]
      cases first : firstMatch (splitSegments ctx.normalized.path)
          (buildRouter doc) with
      | none =>
          have unknown : resolve module.compiled.router ctx.normalized.path
              ctx.method = .unknownRoute := by
            rw [resolve, router]
            apply (resolveRoutes_unknown _ _ _).mpr
            intro route member
            rw [← Option.not_isSome_iff_eq_none]
            exact List.find?_eq_none.mp first route member
          simp only [unknown] at contributes
          refine iff_of_false ?_ ?_
          · exact not_not.mpr (.unknownRoute ((contributes _).mpr rfl))
          · rintro ⟨route, _, specific, _⟩
            cases first.symm.trans specific
      | some route =>
          obtain ⟨pathParams, matched, resolved⟩ :=
            resolveRoutes_of_firstMatch first (toAsciiLowercase ctx.method)
          rw [conforms_iff_of_mostSpecific library first matched]
          rw [← router, ← resolve] at resolved
          by_cases declared : toAsciiLowercase ctx.method ∈ route.methods
          · rw [if_pos (List.contains_iff_mem.mpr declared)] at resolved
            rw [not_pathViolation_of_matched library enabled guarded resolved
              fun op operation => compile_required library compiles operation]
            exact ⟨fun satisfies => ⟨declared, satisfies⟩, And.right⟩
          · rw [if_neg (declared ∘ List.contains_iff_mem.mp)] at resolved
            simp only [resolved] at contributes
            refine iff_of_false ?_ fun conforms => declared conforms.1
            exact not_not.mpr (.methodNotAllowed ((contributes _).mpr rfl))

end Library

/-! ## Plain paths -/

/-- A character that a path carries as it is. -/
def isUnreserved (char : Char) : Bool :=
  char.isAlphanum || char == '-' || char == '.' || char == '_' || char == '~'

/-- Unreserved characters between slashes, and no dot segment. -/
def PlainPath (path : Text) : Prop :=
  (∀ char ∈ path, char = '/' ∨ isUnreserved char = true) ∧
    ∀ segment ∈ slashSegments path, segment ≠ ['.'] ∧ segment ≠ ['.', '.']

theorem isUnreserved_ascii {char : Char} (plain : isUnreserved char = true) :
    isAscii char = true := by
  apply decide_eq_true
  simp only [isUnreserved, Bool.or_eq_true, beq_iff_eq] at plain
  rcases plain with (((letter | rfl) | rfl) | rfl) | rfl
  · show char.val.toNat < 0x80
    rw [Char.isAlphanum, isAlpha_eq, Bool.or_eq_true, Bool.or_eq_true]
      at letter
    rcases letter with (upper | lower) | digit
    · have := isUpper_iff.mp upper
      omega
    · have := isLower_iff.mp lower
      omega
    · have bounded : char.val ≤ '9'.val :=
        of_decide_eq_true (Bool.and_eq_true _ _ ▸ digit).2
      exact (UInt32.le_iff_toNat_le.mp bounded).trans_lt (by decide)
  all_goals decide

theorem slashSegments_append_slash (left right : Text) :
    slashSegments (left ++ '/' :: right) =
      slashSegments left ++ slashSegments right := by
  rw [slashSegments, List.splitOn_append_cons_self, List.filter_append]
  rfl

theorem slashSegments_flatMap
    {segments : List Text}
    (plain : ∀ segment ∈ segments, segment ≠ [] ∧ '/' ∉ segment) :
    slashSegments (segments.flatMap ('/' :: ·)) = segments := by
  induction segments with
  | nil => rfl
  | cons segment segments induction =>
      obtain ⟨nonempty, single⟩ := plain segment List.mem_cons_self
      have later := induction fun other member =>
        plain other (List.mem_cons_of_mem segment member)
      have alone : slashSegments segment = [segment] := by
        rw [slashSegments, List.splitOn_eq_singleton single]
        exact List.filter_cons_of_pos (by simpa using nonempty)
      have first := slashSegments_append_slash []
        (segment ++ segments.flatMap ('/' :: ·))
      refine first.trans ?_
      cases segments with
      | nil =>
          rw [List.flatMap_nil, List.append_nil, alone]
          rfl
      | cons next others =>
          rw [List.flatMap_cons, List.cons_append,
            slashSegments_append_slash segment, alone]
          have rest := (slashSegments_append_slash []
            (next ++ others.flatMap ('/' :: ·))).symm.trans later
          exact congrArg (segment :: ·) rest

theorem resolvePath_plain {path : Text} (plain : PlainPath path) :
    resolvePath path =
      if slashSegments path = [] then ['/']
      else (slashSegments path).flatMap ('/' :: ·) := by
  have segments : resolveSegments (path.splitOn '/') =
      slashSegments path := by
    apply resolveSegments_eq_filter
    intro segment member
    cases segment with
    | nil => exact ⟨List.cons_ne_nil _ _ |>.symm, List.cons_ne_nil _ _ |>.symm⟩
    | cons char rest =>
        exact plain.2 _ (List.mem_filter.mpr ⟨member, rfl⟩)
  rw [resolvePath, segments]
  cases slashSegments path with
  | nil => rfl
  | cons segment others => rfl

/-- A plain path keeps its segments. -/
theorem slashSegments_resolvePath
    {path : Text} (plain : PlainPath path) :
    slashSegments (resolvePath path) = slashSegments path := by
  rw [resolvePath_plain plain]
  split_ifs with empty
  · rw [empty]
    rfl
  · apply slashSegments_flatMap
    intro segment member
    obtain ⟨piece, nonempty⟩ := List.mem_filter.mp member
    exact ⟨by simpa using nonempty, not_mem_of_mem_splitOn piece⟩

theorem unreserved_resolvePath
    {path : Text} (plain : PlainPath path) {char : Char}
    (member : char ∈ resolvePath path) :
    char = '/' ∨ isUnreserved char = true := by
  rw [resolvePath_plain plain] at member
  split_ifs at member
  · exact .inl (List.mem_singleton.mp member)
  · obtain ⟨segment, inside, here⟩ := List.mem_flatMap.mp member
    rcases List.mem_cons.mp here with rfl | charMember
    · exact .inl rfl
    · exact plain.1 char
        (subset_of_mem_splitOn (List.mem_filter.mp inside).1 charMember)

section Requests

variable {unicode : UnicodeTables} (lawful : unicode.Lawful)
include lawful

/-- The normalized form of a plain path is its lowercase. -/
theorem normalizePath_plain {path : Text} (plain : PlainPath path) :
    (normalizePath unicode path).1 =
      unicode.toLowercase (resolvePath path) := by
  have ascii : ∀ char ∈ path, isAscii char = true ∧ char ≠ '%' := by
    intro char member
    rcases plain.1 char member with rfl | unreserved
    · decide
    · refine ⟨isUnreserved_ascii unreserved, ?_⟩
      rintro rfl
      exact absurd unreserved (by decide)
  have whole : unicode.nfkc (fromUtf8Lossy (asBytes path)) = path := by
    rw [fromUtf8Lossy_asBytes]
    exact lawful.nfkc_ascii path fun char member => (ascii char member).1
  have nulFree : path.filter (· != '\x00') = path := by
    apply List.filter_eq_self.mpr
    intro char member
    rw [bne_iff_ne]
    rintro rfl
    rcases plain.1 _ member with slash | unreserved
    · exact absurd slash (by decide)
    · exact absurd unreserved (by decide)
  rw [normalizePath_of_decodesTo lawful (decodesTo_undecoded ascii), whole,
    nulFree]

/-- The module judges the lowercased segments. -/
theorem splitSegments_normalizePath {path : Text} (plain : PlainPath path) :
    splitSegments (normalizePath unicode path).1 =
      (slashSegments path).map unicode.toLowercase := by
  have absent : ∀ char, isAscii char = true → char.isAlpha = false →
      char ≠ '/' → isUnreserved char = false →
      char ∉ unicode.toLowercase (resolvePath path) := by
    intro char ascii letter slash reserved
    apply UnicodeTables.not_mem_toLowercase lawful ascii letter
    intro member
    rcases unreserved_resolvePath plain member with same | unreserved
    · exact slash same
    · rw [reserved] at unreserved
      cases unreserved
  rw [splitSegments, normalizePath_plain lawful plain, beforeQuery_eq_self
      (absent '?' (by decide) (by decide) (by decide) (by decide))
      (absent '#' (by decide) (by decide) (by decide) (by decide)),
    slashSegments_toLowercase lawful, slashSegments_resolvePath plain]

/-- A plain path stays under a lowercase prefix. -/
theorem prefix_normalizePath
    {path lead : Text} (plain : PlainPath path)
    (lowercase : unicode.toLowercase lead = lead)
    (under : lead <+: resolvePath path) :
    lead <+: (normalizePath unicode path).1 := by
  obtain ⟨rest, split⟩ := under
  have ascii : ∀ char ∈ lead, isAscii char = true := by
    intro char member
    rcases unreserved_resolvePath plain
        (split ▸ List.mem_append_left rest member) with rfl | unreserved
    · decide
    · exact isUnreserved_ascii unreserved
  have alone := unicode.toLowercase_ascii_append lead [] [] ascii
  rw [List.append_nil] at alone
  have letters : lead.map Char.toLower = lead :=
    (List.append_nil _).symm.trans (alone.symm.trans lowercase)
  rw [normalizePath_plain lawful plain, ← split, UnicodeTables.toLowercase,
    unicode.toLowercase_ascii_append lead rest [] ascii, letters]
  exact List.prefix_append _ _

/--
The module reports neither the route nor the method nor a path parameter of a
plain request under a lowercase prefix if and only if its lowercased segments
conform, unless it is disabled; in particular a request that conforms and has
no capital letter is accepted.
-/
theorem conforming_accepted_iff
    {serde : SerdeJson} {library : SchemaLibrary} {doc : Json}
    {config : ApiSchemaEnforcementConfig} {module : ApiSchemaModule}
    {limits : LimitsConfig} {ctx : RequestContext} {normalized : Normalized}
    (built : buildModule library doc config = .ok module)
    (lowercase : ∀ lead ∈ config.paths, unicode.toLowercase lead = lead)
    (plain : PlainPath ctx.rawPath)
    (under : ∃ lead ∈ config.paths, lead <+: resolvePath ctx.rawPath)
    (normalizes : normalize unicode serde limits ctx = .ok normalized) :
    (¬ PathViolation library module { ctx with normalized := normalized } ↔
        (config.enabled = true →
          Conforms library doc module.compiled
            ((slashSegments ctx.rawPath).map unicode.toLowercase)
            ctx.method)) ∧
      (Conforms library doc module.compiled (slashSegments ctx.rawPath)
          ctx.method →
        (∀ segment ∈ slashSegments ctx.rawPath,
          unicode.toLowercase segment = segment) →
        ¬ PathViolation library module
          { ctx with normalized := normalized }) := by
  have path := normalize_path normalizes
  obtain ⟨_, _, _, paths⟩ := buildModule_ok built
  have guarded : module.guards normalized.path = true := by
    obtain ⟨lead, member, starts⟩ := under
    rw [ApiSchemaModule.guards, List.any_eq_true, paths, path]
    exact ⟨lead, member, List.isPrefixOf_iff_prefix.mpr
      (prefix_normalizePath lawful plain (lowercase lead member) starts)⟩
  have judged : ¬ PathViolation library module
      { ctx with normalized := normalized } ↔
      (config.enabled = true → Conforms library doc module.compiled
        (splitSegments normalized.path) ctx.method) :=
    not_pathViolation_iff library built guarded
  rw [path, splitSegments_normalizePath lawful plain] at judged
  refine ⟨judged, fun conforms settled => judged.mpr fun _ => ?_⟩
  have kept : (slashSegments ctx.rawPath).map unicode.toLowercase =
      slashSegments ctx.rawPath :=
    (List.map_congr_left settled).trans (List.map_id _)
  rw [kept]
  exact conforms

end Requests

/-! ## Samples -/

/-- The path parameters of an operation are those of its template. -/
def ExactPathParams (compiled : CompiledSpec) : Prop :=
  ∀ entry ∈ compiled.ops, ∀ name,
    (∃ param ∈ entry.2.params, param.location = .path ∧ param.name = name) ↔
      .param name ∈ parseTemplate entry.1.1

theorem buildRouter_single (template : String) :
    buildRouter (singleDoc template) =
      [⟨template.toList, parseTemplate template.toList, ["get".toList]⟩] :=
  List.mergeSort_singleton _

/-- A request that spells the template conforms. -/
theorem conforms_single
    {template : String} {segments : List Text}
    (spelled : matchPath (parseTemplate template.toList) segments =
      some []) :
    Conforms emptyLibrary (singleDoc template)
      (singleModule template).compiled segments "GET".toList := by
  refine ⟨⟨template.toList, parseTemplate template.toList,
    ["get".toList]⟩, [], ?_, spelled, List.mem_singleton_self _, ?_⟩
  · rw [mostSpecific, firstMatch, buildRouter_single]
    exact List.find?_cons_of_pos (by rw [spelled]; rfl)
  · intro op operation param member
    have only := List.mem_singleton.mp (mem_of_lookup operation)
    rw [(Prod.mk.inj only).2] at member
    cases member

theorem conforming_accepted_users :
    ∃ normalized, normalize .asciiOnly .rejectAll {}
        (pathRequest "/api/users") = .ok normalized ∧
      ¬ PathViolation emptyLibrary (singleModule "/api/users")
        { pathRequest "/api/users" with normalized := normalized } :=
  ⟨_, rfl, (conforming_accepted_iff UnicodeTables.lawful_asciiOnly
    (buildModule_single "/api/users") (by decide +kernel)
    (by unfold PlainPath; decide +kernel)
    ⟨"/api".toList, by decide +kernel, by decide +kernel⟩
    (rfl : normalize .asciiOnly .rejectAll {} (pathRequest "/api/users") =
      .ok _)).2
    (conforms_single (by decide +kernel)) (by decide +kernel)⟩

/-- A capital letter in a template makes its own requests unknown. -/
theorem conforming_rejected_capital :
    ¬ ∀ (unicode : UnicodeTables) (serde : SerdeJson)
      (library : SchemaLibrary) (doc : Json)
      (config : ApiSchemaEnforcementConfig) (module : ApiSchemaModule)
      (limits : LimitsConfig) (ctx : RequestContext)
      (normalized : Normalized) (entry : Text × Json),
      unicode.Lawful → buildModule library doc config = .ok module →
      ExactPathParams module.compiled →
      (∀ lead ∈ config.paths, unicode.toLowercase lead = lead) →
      entry ∈ pathItems doc →
      List.Forall₂ (Seg.Admits Eq) (parseTemplate entry.1)
        (slashSegments ctx.rawPath) →
      PlainPath ctx.rawPath →
      (∃ lead ∈ config.paths, lead <+: resolvePath ctx.rawPath) →
      Conforms library doc module.compiled (slashSegments ctx.rawPath)
        ctx.method →
      normalize unicode serde limits ctx = .ok normalized →
      ¬ PathViolation library module
        { ctx with normalized := normalized } := by
  intro claimed
  obtain ⟨normalized, normalizes⟩ : ∃ normalized,
      normalize .asciiOnly .rejectAll {} (pathRequest "/api/Users") =
        .ok normalized := ⟨_, rfl⟩
  have built := buildModule_single "/api/Users"
  have plain : PlainPath (pathRequest "/api/Users").rawPath := by
    unfold PlainPath
    decide +kernel
  have parsed : parseTemplate "/api/Users".toList =
      [.static "api".toList, .static "Users".toList] := by decide +kernel
  have exactly : ExactPathParams (singleModule "/api/Users").compiled := by
    intro entry member name
    rw [List.mem_singleton.mp member, parsed]
    constructor
    · rintro ⟨param, inside, _⟩
      cases inside
    · intro inside
      rcases List.mem_cons.mp inside with same | later
      · cases same
      · cases List.mem_singleton.mp later
  have accepted := claimed .asciiOnly .rejectAll emptyLibrary
    (singleDoc "/api/Users") guardedConfig (singleModule "/api/Users") {}
    (pathRequest "/api/Users") normalized _ UnicodeTables.lawful_asciiOnly
    built exactly (by decide +kernel) List.mem_cons_self (by decide +kernel)
    plain ⟨"/api".toList, by decide +kernel, by decide +kernel⟩
    (conforms_single (by decide +kernel)) normalizes
  have path : normalized.path = "/api/users".toList := by
    rw [normalize_path normalizes]
    decide +kernel
  have guarded : (singleModule "/api/Users").guards normalized.path =
      true := by
    rw [path]
    decide +kernel
  obtain ⟨route, _, specific, _⟩ :=
    (not_pathViolation_iff emptyLibrary built guarded).mp accepted rfl
  have none : mostSpecific (singleDoc "/api/Users")
      (splitSegments normalized.path) = none := by
    rw [mostSpecific, firstMatch, buildRouter_single, path]
    decide +kernel
  cases none.symm.trans specific

end LightWaf.Schema
