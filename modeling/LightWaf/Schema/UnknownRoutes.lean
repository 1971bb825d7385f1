import LightWaf.Normalizer.Path
import LightWaf.Schema.ApiSchema

/-!
# Requests outside the declared routes

The module routes the normalized path.  It reports an undeclared route exactly
when the lowercased path starts with a guarded prefix as it is configured and
its part before the first `?` or `#` spells no template as it is written.
-/

namespace LightWaf.Schema

open LightWaf.Rust
open LightWaf.Core
open LightWaf.Normalizer

/-! ## Declared routes -/

/-- The methods with an operation in a path item. -/
def operations (item : Json) : List Text :=
  ((asObject item).map declaredMethods).getD []

/--
The segments instantiate a template that has an operation: as many segments,
literals that compare equal and any non-empty segment for a parameter.
-/
def Instantiates (same : Text → Text → Prop) (doc : Json)
    (segments : List Text) : Prop :=
  ∃ entry ∈ pathItems doc, operations entry.2 ≠ [] ∧
    List.Forall₂ (Seg.Admits same)
      ((slashSegments entry.1).map parseSegment) segments

instance (same : Text → Text → Prop) [DecidableRel same] :
    ∀ segment value, Decidable (Seg.Admits same segment value)
  | .static text, value => inferInstanceAs (Decidable (same text value))
  | .param _, value => inferInstanceAs (Decidable (value ≠ []))

instance (same : Text → Text → Prop) [DecidableRel same] (doc : Json)
    (segments : List Text) : Decidable (Instantiates same doc segments) :=
  inferInstanceAs (Decidable (∃ entry ∈ pathItems doc, _ ∧ _))

/-- No template of the document has a query or a fragment. -/
def PlainTemplates (doc : Json) : Prop :=
  ∀ entry ∈ pathItems doc, '?' ∉ entry.1 ∧ '#' ∉ entry.1

theorem beforeQuery_eq_self
    {path : Text} (query : '?' ∉ path) (fragment : '#' ∉ path) :
    beforeQuery path = path := by
  apply List.takeWhile_eq_self_iff.mpr
  intro char member
  rw [Bool.and_eq_true, bne_iff_ne, bne_iff_ne]
  constructor
  · rintro rfl
    exact query member
  · rintro rfl
    exact fragment member

theorem routeOf_eq_some {entry : Text × Json} {route : Route} :
    routeOf entry = some route ↔
      operations entry.2 ≠ [] ∧
        route = ⟨entry.1, parseTemplate entry.1, operations entry.2⟩ := by
  rw [routeOf, operations]
  cases asObject entry.2 with
  | none =>
      exact ⟨fun made => (nomatch made), fun both => absurd rfl both.1⟩
  | some item =>
      show (if (declaredMethods item).isEmpty then none else _) = _ ↔ _
      split_ifs with empty
      · exact ⟨fun made => (nomatch made),
          fun both => absurd (List.isEmpty_iff.mp empty) both.1⟩
      · exact ⟨fun made => ⟨fun none => empty (List.isEmpty_iff.mpr none),
          (Option.some.inj made).symm⟩, fun both => congrArg some both.2.symm⟩

/-- A route matches exactly when a template is spelled as it is written. -/
theorem exists_match_iff
    {doc : Json} (plain : PlainTemplates doc) (segments : List Text) :
    (∃ route ∈ buildRouter doc,
        (matchPath route.segments segments).isSome = true) ↔
      Instantiates Eq doc segments := by
  constructor
  · rintro ⟨route, member, matched⟩
    obtain ⟨entry, entryMember, made⟩ := mem_buildRouter.mp member
    obtain ⟨some, rfl⟩ := routeOf_eq_some.mp made
    refine ⟨entry, entryMember, some, ?_⟩
    have unreserved := plain entry entryMember
    rw [← beforeQuery_eq_self unreserved.1 unreserved.2]
    exact (matchPath_isSome _ _).mp matched
  · rintro ⟨entry, entryMember, some, spelled⟩
    have unreserved := plain entry entryMember
    refine ⟨_, mem_buildRouter.mpr ⟨entry, entryMember,
      routeOf_eq_some.mpr ⟨some, rfl⟩⟩, ?_⟩
    rw [← beforeQuery_eq_self unreserved.1 unreserved.2] at spelled
    exact (matchPath_isSome _ _).mpr spelled

/-! ## The decision -/

/-- The decision contributes the unknown-route rule. -/
def YieldsUnknownRoute (decision : Decision) : Prop :=
  ∃ items, decision = .scores items ∧
    ∃ item ∈ items, item.ruleId = "schema-api-unknown-route"

theorem ruleId_ne_unknownRoute (violation : Violation) :
    violation.ruleId ≠ "schema-api-unknown-route" := by
  cases violation <;> decide

theorem buildModule_ok
    {library : SchemaLibrary} {doc : Json}
    {config : ApiSchemaEnforcementConfig} {module : ApiSchemaModule}
    (built : buildModule library doc config = .ok module) :
    compile library doc config = .ok module.compiled ∧
      module.compiled.router = buildRouter doc ∧
      module.enabled = config.enabled ∧ module.paths = config.paths := by
  obtain ⟨compiled, compiles, made⟩ := ok_of_bind_ok built
  cases made
  refine ⟨compiles, ?_, rfl, rfl⟩
  obtain ⟨ops, _, filled⟩ := ok_of_bind_ok compiles
  cases filled
  rfl

theorem not_yieldsUnknownRoute_allow : ¬ YieldsUnknownRoute .allow := by
  rintro ⟨items, same, _⟩
  cases same

/-- An enabled module contributes the rule for a guarded, unmatched path. -/
theorem yieldsUnknownRoute_iff
    (library : SchemaLibrary) {module : ApiSchemaModule}
    (enabled : module.enabled = true) (ctx : RequestContext) :
    YieldsUnknownRoute (module.inspect library ctx) ↔
      module.guards ctx.normalized.path = true ∧
        ¬ ∃ route ∈ module.compiled.router,
          (matchPath route.segments
            (splitSegments ctx.normalized.path)).isSome = true := by
  have unknown : resolve module.compiled.router ctx.normalized.path
      ctx.method = .unknownRoute ↔
      ¬ ∃ route ∈ module.compiled.router,
        (matchPath route.segments
          (splitSegments ctx.normalized.path)).isSome = true := by
    refine (resolveRoutes_unknown _ _ _).trans ?_
    simp only [not_exists, not_and, Option.not_isSome_iff_eq_none]
  rw [← unknown, ApiSchemaModule.inspect, enabled]
  cases module.guards ctx.normalized.path with
  | false =>
      exact ⟨fun yields => absurd yields not_yieldsUnknownRoute_allow,
        fun both => absurd both.1 Bool.false_ne_true⟩
  | true =>
      dsimp only [Bool.not_true, Bool.false_eq_true, if_false]
      cases resolve module.compiled.router ctx.normalized.path ctx.method with
      | unknownRoute =>
          exact ⟨fun _ => ⟨rfl, rfl⟩,
            fun _ => ⟨_, rfl, _, List.mem_singleton_self _, rfl⟩⟩
      | methodNotAllowed =>
          refine ⟨?_, fun both => nomatch both.2⟩
          rintro ⟨items, same, item, member, named⟩
          cases same
          cases List.mem_singleton.mp member
          have other : "schema-api-method-not-allowed" ≠
              "schema-api-unknown-route" := by decide
          exact absurd named other
      | matched template pathParams =>
          refine ⟨?_, fun both => nomatch both.2⟩
          rintro ⟨items, same, item, member, named⟩
          dsimp only at same
          split_ifs at same
          cases same
          obtain ⟨violation, _, rfl⟩ := List.mem_map.mp member
          exact absurd named (ruleId_ne_unknownRoute violation)

/-! ## Every path -/

section Paths

variable (unicode : UnicodeTables)

/-- The path after decoding and compatibility normalization. -/
def decodedPath (decoded : Bytes) : Text :=
  unicode.nfkc (fromUtf8Lossy decoded)

/-- The decoded path without dot segments, with letter case kept. -/
def canonicalPath (decoded : Bytes) : Text :=
  resolvePath (decodedPath unicode decoded)

/-- The same after the removal of NUL characters. -/
def strippedPath (decoded : Bytes) : Text :=
  resolvePath ((decodedPath unicode decoded).filter (· != '\x00'))

/-- Equality up to letter case. -/
def SameLetters (left right : Text) : Prop :=
  unicode.toLowercase left = unicode.toLowercase right

instance : DecidableRel (SameLetters unicode) :=
  fun _ _ => inferInstanceAs (Decidable (_ = _))

/-- No character is dropped by the normalizer or ignored by the router. -/
def KeepsAll (decoded : Bytes) : Prop :=
  '\x00' ∉ decodedPath unicode decoded ∧
    '?' ∉ canonicalPath unicode decoded ∧
    '#' ∉ canonicalPath unicode decoded

variable {unicode} (lawful : unicode.Lawful)
include lawful

theorem slashSegments_toLowercase (path : Text) :
    slashSegments (unicode.toLowercase path) =
      (slashSegments path).map unicode.toLowercase := by
  rw [slashSegments, slashSegments, UnicodeTables.splitOn_toLowercase lawful,
    List.filter_map]
  congr 1
  apply List.filter_congr
  intro segment _
  have empty : unicode.toLowercase segment = [] ↔ segment = [] :=
    UnicodeTables.toLowercase_eq_nil lawful
  rw [← List.isEmpty_iff, ← List.isEmpty_iff, ← Bool.eq_iff_iff] at empty
  exact congrArg not empty

/-- A template spelled by the lowercased segments fits up to letter case. -/
theorem Instantiates.sameLetters
    {doc : Json} {segments : List Text}
    (spelled : Instantiates Eq doc (segments.map unicode.toLowercase)) :
    Instantiates (SameLetters unicode) doc segments := by
  obtain ⟨entry, member, declared, admits⟩ := spelled
  refine ⟨entry, member, declared, ?_⟩
  rw [List.forall₂_map_right_iff] at admits
  refine admits.imp ?_
  intro segment value admitted
  cases segment with
  | static text =>
      have same : text = unicode.toLowercase value := admitted
      rw [Seg.Admits, SameLetters, same,
        UnicodeTables.toLowercase_toLowercase lawful]
  | param name =>
      intro empty
      exact admitted ((UnicodeTables.toLowercase_eq_nil lawful).mpr empty)

omit lawful in
theorem strippedPath_eq_canonicalPath
    {decoded : Bytes} (nulFree : '\x00' ∉ decodedPath unicode decoded) :
    strippedPath unicode decoded = canonicalPath unicode decoded := by
  rw [strippedPath, canonicalPath]
  congr 1
  apply List.filter_eq_self.mpr
  intro char member
  rw [bne_iff_ne]
  rintro rfl
  exact nulFree member

/-- A path that keeps all its characters is matched as a whole. -/
theorem not_instantiates_of_keepsAll
    {doc : Json} {decoded : Bytes}
    (keeps : KeepsAll unicode decoded)
    (undeclared : ¬ Instantiates (SameLetters unicode) doc
      (slashSegments (canonicalPath unicode decoded))) :
    ¬ Instantiates Eq doc (slashSegments (beforeQuery
      (unicode.toLowercase (strippedPath unicode decoded)))) := by
  obtain ⟨nulFree, query, fragment⟩ := keeps
  rw [strippedPath_eq_canonicalPath nulFree, beforeQuery_eq_self
      (UnicodeTables.not_mem_toLowercase lawful (by decide) (by decide) query)
      (UnicodeTables.not_mem_toLowercase lawful (by decide) (by decide)
        fragment),
    slashSegments_toLowercase lawful]
  exact fun spelled => undeclared (spelled.sameLetters lawful)

end Paths

/-- The path of a normalized request. -/
theorem normalize_path
    {unicode : UnicodeTables} {serde : SerdeJson} {limits : LimitsConfig}
    {ctx : RequestContext} {normalized : Normalized}
    (done : normalize unicode serde limits ctx = .ok normalized) :
    normalized.path = (normalizePath unicode ctx.rawPath).1 := by
  obtain ⟨_, -, afterLimits⟩ := ok_of_bind_ok done
  obtain ⟨cookies, -, afterCookies⟩ := ok_of_bind_ok afterLimits
  obtain ⟨query, -, afterQuery⟩ := ok_of_bind_ok afterCookies
  obtain ⟨body, -, filled⟩ := ok_of_bind_ok afterQuery
  cases filled
  rfl

/-- What the module decides about a request whose path decodes. -/
theorem yieldsUnknownRoute_normalized
    {unicode : UnicodeTables} (lawful : unicode.Lawful)
    {serde : SerdeJson} {library : SchemaLibrary} {doc : Json}
    {config : ApiSchemaEnforcementConfig} {module : ApiSchemaModule}
    {limits : LimitsConfig} {ctx : RequestContext} {normalized : Normalized}
    {decoded : Bytes}
    (built : buildModule library doc config = .ok module)
    (enabled : config.enabled = true)
    (templates : PlainTemplates doc)
    (decodes : DecodesTo (asBytes ctx.rawPath) decoded)
    (normalizes : normalize unicode serde limits ctx = .ok normalized) :
    YieldsUnknownRoute
        (module.inspect library { ctx with normalized := normalized }) ↔
      (∃ lead ∈ config.paths,
          lead <+: unicode.toLowercase (strippedPath unicode decoded)) ∧
        ¬ Instantiates Eq doc (slashSegments (beforeQuery
          (unicode.toLowercase (strippedPath unicode decoded)))) := by
  obtain ⟨_, router, moduleEnabled, paths⟩ := buildModule_ok built
  have path : normalized.path =
      unicode.toLowercase (strippedPath unicode decoded) :=
    (normalize_path normalizes).trans
      (normalizePath_of_decodesTo lawful decodes)
  rw [yieldsUnknownRoute_iff library (moduleEnabled.trans enabled), router,
    exists_match_iff templates]
  refine and_congr ?_ ?_
  · rw [ApiSchemaModule.guards, paths, List.any_eq_true]
    simp only [List.isPrefixOf_iff_prefix, path]
  · simp only [path, splitSegments]

/--
A request that instantiates no declared template is reported if and only if
its lowercased path starts with a prefix as the operator spelled it, and
either it has no NUL, `?` or `#` after decoding or what precedes the first
`?` or `#` in lowercase spells no template as it is written.
-/
theorem undeclared_reported_iff
    {unicode : UnicodeTables} (lawful : unicode.Lawful)
    {serde : SerdeJson} {library : SchemaLibrary} {doc : Json}
    {config : ApiSchemaEnforcementConfig} {module : ApiSchemaModule}
    {limits : LimitsConfig} {ctx : RequestContext} {normalized : Normalized}
    {decoded : Bytes}
    (built : buildModule library doc config = .ok module)
    (enabled : config.enabled = true)
    (templates : PlainTemplates doc)
    (decodes : DecodesTo (asBytes ctx.rawPath) decoded)
    (normalizes : normalize unicode serde limits ctx = .ok normalized)
    (undeclared : ¬ Instantiates (SameLetters unicode) doc
      (slashSegments (canonicalPath unicode decoded))) :
    YieldsUnknownRoute
        (module.inspect library { ctx with normalized := normalized }) ↔
      (∃ lead ∈ config.paths,
          lead <+: unicode.toLowercase (strippedPath unicode decoded)) ∧
        (KeepsAll unicode decoded ∨
          ¬ Instantiates Eq doc (slashSegments (beforeQuery
            (unicode.toLowercase (strippedPath unicode decoded))))) := by
  rw [yieldsUnknownRoute_normalized lawful built enabled templates decodes
    normalizes]
  refine and_congr_right fun _ => ⟨.inr, ?_⟩
  rintro (keeps | spells)
  · exact not_instantiates_of_keepsAll lawful keeps undeclared
  · exact spells

/-! ## Samples -/

/-- A document with one operation, under one template. -/
def singleDoc (template : String) : Json :=
  .object [("paths".toList, .object
    [(template.toList, .object [("get".toList, .object [])])])]

/-- The module guards `/api`. -/
def guardedConfig : ApiSchemaEnforcementConfig :=
  { enabled := true }

/-- The module of such a document. -/
def singleModule (template : String) : ApiSchemaModule :=
  ⟨⟨buildRouter (singleDoc template), true,
    [((template.toList, "get".toList), ⟨[], none⟩)]⟩, true,
    ["/api".toList], .critical, .warning⟩

/-- A library without schemas, numbers or bodies. -/
def emptyLibrary : SchemaLibrary where
  validatorFor := fun _ => .error "unsupported".toList
  numberFromF64 := fun _ => none
  fromSlice := fun _ => none

theorem buildModule_single (template : String) :
    buildModule emptyLibrary (singleDoc template) guardedConfig =
      .ok (singleModule template) := rfl

/-- A request for a path. -/
def pathRequest (path : String) : RequestContext :=
  { emptyRequest with path := path.toList, rawPath := path.toList }

theorem undeclared_reported_admin :
    ∃ normalized, normalize .asciiOnly .rejectAll {}
        (pathRequest "/api/admin") = .ok normalized ∧
      YieldsUnknownRoute ((singleModule "/api/users").inspect emptyLibrary
        { pathRequest "/api/admin" with normalized := normalized }) :=
  ⟨_, rfl, (undeclared_reported_iff UnicodeTables.lawful_asciiOnly
    (buildModule_single "/api/users") rfl
    (by unfold PlainTemplates; decide +kernel)
    ⟨0, Nat.zero_le _, rfl, by decide +kernel⟩
    (rfl : normalize .asciiOnly .rejectAll {} (pathRequest "/api/admin") =
      .ok _)
    (by decide +kernel)).mpr
      ⟨⟨"/api".toList, by decide +kernel, by decide +kernel⟩,
        .inl (by unfold KeepsAll; decide +kernel)⟩⟩

/--
An encoded question mark hides the rest of the segment: the undeclared path
`/api/users?x` is taken for `/api/users`.
-/
theorem undeclared_hidden_by_query :
    ¬ ∀ (unicode : UnicodeTables) (serde : SerdeJson)
      (library : SchemaLibrary) (doc : Json)
      (config : ApiSchemaEnforcementConfig) (module : ApiSchemaModule)
      (limits : LimitsConfig) (ctx : RequestContext)
      (normalized : Normalized) (decoded : Bytes),
      unicode.Lawful → buildModule library doc config = .ok module →
      config.enabled = true → PlainTemplates doc → '\x00' ∉ ctx.rawPath →
      DecodesTo (asBytes ctx.rawPath) decoded →
      normalize unicode serde limits ctx = .ok normalized →
      (∃ lead ∈ config.paths, lead <+: canonicalPath unicode decoded) →
      ¬ Instantiates (SameLetters unicode) doc
        (slashSegments (canonicalPath unicode decoded)) →
      YieldsUnknownRoute
        (module.inspect library { ctx with normalized := normalized }) := by
  intro claimed
  have decodes : DecodesTo
      (asBytes (pathRequest "/api/users%3Fx").rawPath)
      (asBytes "/api/users?x".toList) :=
    ⟨1, by decide, by decide +kernel, by decide +kernel⟩
  have plain : PlainTemplates (singleDoc "/api/users") := by
    unfold PlainTemplates
    decide +kernel
  have built := buildModule_single "/api/users"
  obtain ⟨normalized, normalizes⟩ : ∃ normalized,
      normalize .asciiOnly .rejectAll {} (pathRequest "/api/users%3Fx") =
        .ok normalized := ⟨_, rfl⟩
  have yields := claimed .asciiOnly .rejectAll emptyLibrary
    (singleDoc "/api/users") guardedConfig (singleModule "/api/users") {}
    (pathRequest "/api/users%3Fx") normalized _
    UnicodeTables.lawful_asciiOnly built rfl plain (by decide +kernel)
    decodes normalizes ⟨"/api".toList, by decide +kernel, by decide +kernel⟩
    (by decide +kernel)
  have spells := ((yieldsUnknownRoute_normalized
    UnicodeTables.lawful_asciiOnly built rfl plain decodes
      normalizes).mp yields).2
  exact spells (by decide +kernel)

end LightWaf.Schema
