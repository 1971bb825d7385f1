import LightWaf.Schema.Occurrences

/-!
# Media types of a request body

A content map has a schema for each of its media types, but the compiled body
keeps the schema of the first JSON one, and holds every JSON body against it.
A body is validated against the schema of its own media type exactly when the
first schema finds the same kinds of violations; and the declared media types
are compared as texts, so that a range such as `text/*` covers nothing.
-/

namespace LightWaf.Schema

open LightWaf.Rust
open LightWaf.Normalizer

/-! ## The content map -/

/-- The content map of an operation that declares a request body. -/
def contentMap (doc : Json) (template method : Text) :
    Option (List (Text × Json)) :=
  (field "requestBody" (operationOf doc template method)).map fun body =>
    ((field "content" (resolveRef doc body)).bind asObject).getD []

/-- A range `type/*` of the type of a media type. -/
def InRange (key mediaType : Text) : Prop :=
  ∃ type subtype, '/' ∉ type ∧ key = type ++ "/*".toList ∧
    mediaType = type ++ '/' :: subtype

/-- A key of a content map covers a media type. -/
def CoversType (key mediaType : Text) : Prop :=
  key = mediaType ∨ key = "*/*".toList ∨ InRange key mediaType

/-- The schema of a JSON media type. -/
def jsonSchema (entry : Text × Json) : Option Json :=
  if isJsonMediaType (mediaTypeKey entry.1) then field "schema" entry.2
  else none

/-- The first schema of a JSON media type. -/
def firstJsonSchema (content : List (Text × Json)) : Option Json :=
  content.findSome? jsonSchema

section Library

variable (library : SchemaLibrary)

/-- What a schema finds in a body. -/
def schemaFindings (validator : Validator) (bytes : Bytes) :
    List Violation :=
  match library.fromSlice bytes with
  | none => [.bodyParseError]
  | some instance_ => (validator.iterErrors instance_).map classify

/-- What is reported of the parameters: the violations without a body. -/
def CompiledSpec.parameterViolations (compiled : CompiledSpec)
    (template method : Text) (parts : RequestParts) : List Violation :=
  CompiledSpec.validate library
    { compiled with
      ops := compiled.ops.map fun entry =>
        (entry.1, { entry.2 with body := none }) }
    template method parts

/-- The compiled schema of a JSON media type of the map. -/
def OwnValidator (doc : Json) (strictBody : Bool)
    (content : List (Text × Json)) (mediaType : Text)
    (validator : Validator) : Prop :=
  isJsonMediaType mediaType = true ∧ ∃ entry ∈ content,
    mediaTypeKey entry.1 = mediaType ∧ ∃ schema,
      field "schema" entry.2 = some schema ∧
      compileValidator library doc (resolveRef doc schema) (is30 doc)
        strictBody = .ok validator

/-- The first JSON schema of the map, compiled. -/
def FirstValidator (doc : Json) (strictBody : Bool)
    (content : List (Text × Json)) (validator : Validator) : Prop :=
  ∃ schema, firstJsonSchema content = some schema ∧
    compileValidator library doc (resolveRef doc schema) (is30 doc)
      strictBody = .ok validator

/--
The body is held against the schema of its own media type and no other, and
its media type is reported when nothing covers it.
-/
structure ValidatesOwn (doc : Json) (strictBody : Bool)
    (content : List (Text × Json)) (mediaType : Text) (bytes : Bytes)
    (parameters violations : List Violation) : Prop where
  schema : ∀ validator,
    OwnValidator library doc strictBody content mediaType validator →
    ∀ violation, violation ≠ .contentType →
      (violation ∈ violations ↔ violation ∈ parameters ∨
        violation ∈ schemaFindings library validator bytes)
  contentType : .contentType ∈ violations ↔
    ∀ entry ∈ content, ¬ CoversType (mediaTypeKey entry.1) mediaType

/--
The map declares a media type, a range that covers the media type is not the
only key to do so, and the first JSON schema finds the same kinds of
violations as that of the media type, but for those of the parameters.
-/
structure FirstServes (doc : Json) (strictBody : Bool)
    (content : List (Text × Json)) (mediaType : Text) (bytes : Bytes)
    (parameters : List Violation) : Prop where
  declares : content ≠ []
  ranges : ∀ entry ∈ content, InRange (mediaTypeKey entry.1) mediaType →
    ∃ other ∈ content, mediaTypeKey other.1 = mediaType ∨
      mediaTypeKey other.1 = "*/*".toList
  first : ∀ own first,
    OwnValidator library doc strictBody content mediaType own →
    FirstValidator library doc strictBody content first →
    ∀ violation, violation ≠ .contentType → violation ∉ parameters →
      (violation ∈ schemaFindings library first bytes ↔
        violation ∈ schemaFindings library own bytes)

/-! ## The compiled body -/

/--
An entry of the map adds its key; its schema is compiled if it is that of a
JSON media type and none was compiled before.
-/
theorem compileContent_cons
    {doc : Json} {strictBody : Bool} {entry : Text × Json}
    {rest : List (Text × Json)} {given json : Option Validator}
    {keys : List Text}
    (compiles : compileContent library doc (is30 doc) strictBody given
      (entry :: rest) = .ok (keys, json)) :
    ∃ next others, keys = mediaTypeKey entry.1 :: others ∧
      compileContent library doc (is30 doc) strictBody next rest =
        .ok (others, json) ∧
      (next = given ∧ (given = none → jsonSchema entry = none) ∨
        given = none ∧ ∃ schema validator, next = some validator ∧
          jsonSchema entry = some schema ∧
          compileValidator library doc (resolveRef doc schema) (is30 doc)
            strictBody = .ok validator) := by
  obtain ⟨mediaType, media⟩ := entry
  unfold compileContent at compiles
  dsimp only at compiles
  rw [jsonSchema]
  split at compiles
  · rename_i schema json found
    obtain ⟨validator, made, compiles⟩ := ok_of_bind_ok compiles
    obtain ⟨next, same, compiles⟩ := ok_of_bind_ok compiles
    obtain ⟨⟨others, last⟩, later, filled⟩ := ok_of_bind_ok compiles
    cases same
    cases filled
    refine ⟨some validator, others, rfl, later,
      .inr ⟨rfl, schema, validator, rfl, ?_, made⟩⟩
    rw [json, if_pos rfl]
    exact found
  · rename_i unmatched
    obtain ⟨next, same, compiles⟩ := ok_of_bind_ok compiles
    obtain ⟨⟨others, last⟩, later, filled⟩ := ok_of_bind_ok compiles
    cases same
    cases filled
    refine ⟨_, others, rfl, later, .inl ⟨rfl, fun absent => ?_⟩⟩
    cases json : isJsonMediaType (mediaTypeKey mediaType) with
    | false => simp
    | true =>
        cases found : field "schema" media with
        | none => simp
        | some schema => exact absurd found (unmatched schema absent json)

theorem compileContent_keys
    {doc : Json} {strictBody : Bool} {content : List (Text × Json)}
    {given json : Option Validator} {keys : List Text}
    (compiles : compileContent library doc (is30 doc) strictBody given
      content = .ok (keys, json)) :
    keys = content.map fun entry => mediaTypeKey entry.1 := by
  induction content generalizing given keys with
  | nil =>
      cases compiles
      rfl
  | cons entry rest induction =>
      obtain ⟨next, others, rfl, compiles, -⟩ :=
        compileContent_cons library compiles
      rw [induction compiles, List.map_cons]

theorem compileContent_some
    {doc : Json} {strictBody : Bool} {content : List (Text × Json)}
    {validator : Validator} {json : Option Validator} {keys : List Text}
    (compiles : compileContent library doc (is30 doc) strictBody
      (some validator) content = .ok (keys, json)) :
    json = some validator := by
  induction content generalizing keys with
  | nil =>
      cases compiles
      rfl
  | cons entry rest induction =>
      obtain ⟨next, others, -, compiles, ⟨rfl, -⟩ | ⟨absent, -⟩⟩ :=
        compileContent_cons library compiles
      · exact induction compiles
      · cases absent

/-- The validator of a compiled body is that of the first JSON schema. -/
theorem compileContent_json
    {doc : Json} {strictBody : Bool} {content : List (Text × Json)}
    {json : Option Validator} {keys : List Text}
    (compiles : compileContent library doc (is30 doc) strictBody none
      content = .ok (keys, json)) :
    (json = none → firstJsonSchema content = none) ∧
      ∀ validator, json = some validator →
        FirstValidator library doc strictBody content validator := by
  induction content generalizing keys with
  | nil =>
      cases compiles
      exact ⟨fun _ => rfl, fun _ found => by cases found⟩
  | cons entry rest induction =>
      simp only [FirstValidator, firstJsonSchema, List.findSome?_cons]
      obtain ⟨next, others, -, compiles, ⟨rfl, unscoped⟩ |
        ⟨-, schema, validator, rfl, found, made⟩⟩ :=
          compileContent_cons library compiles
      · rw [unscoped rfl]
        exact induction compiles
      · have kept := compileContent_some library compiles
        subst kept
        rw [found]
        constructor
        · intro absent
          cases absent
        · rintro other ⟨⟩
          exact ⟨schema, rfl, made⟩

/-! ## The reported violations -/

/-- An operation without its body. -/
theorem op_withoutBody
    {compiled : CompiledSpec} {template method : Text} {op : CompiledOp}
    (operation : compiled.op template method = some op) :
    CompiledSpec.op { compiled with
      ops := compiled.ops.map fun entry =>
        (entry.1, { entry.2 with body := none }) } template method =
      some { op with body := none } := by
  rw [CompiledSpec.op] at operation ⊢
  exact (HashMap.lookup_map_value (fun op : CompiledOp => { op with body := none })
    compiled.ops _).trans (by rw [operation, Option.map_some])

/-- A violation is one of the parameters or one of the body. -/
theorem mem_validate_iff_body
    {compiled : CompiledSpec} {template method : Text} {op : CompiledOp}
    (operation : compiled.op template method = some op)
    (parts : RequestParts) (violation : Violation) :
    violation ∈ compiled.validate library template method parts ↔
      violation ∈ compiled.parameterViolations library template method
        parts ∨
      violation ∈ (op.body.map (bodyViolations library · parts)).getD [] := by
  rw [CompiledSpec.parameterViolations, mem_validate_iff library operation,
    mem_validate_iff library (op_withoutBody operation)]
  simp [or_assoc]

theorem contentType_notMem_parameterViolations
    {compiled : CompiledSpec} {template method : Text} {op : CompiledOp}
    (operation : compiled.op template method = some op)
    (parts : RequestParts) :
    .contentType ∉ compiled.parameterViolations library template method
      parts := by
  rw [CompiledSpec.parameterViolations,
    mem_validate_iff library (op_withoutBody operation)]
  rintro (⟨param, -, violates⟩ | ⟨same, -⟩ | member)
  · rcases paramViolation_cases library violates with same | same <;>
      cases same
  · cases same
  · cases member

/-- No schema finds a violation of the media type. -/
theorem contentType_notMem_schemaFindings
    (validator : Validator) (bytes : Bytes) :
    .contentType ∉ schemaFindings library validator bytes := by
  rw [schemaFindings]
  split
  · simp
  · intro member
    obtain ⟨kind, -, same⟩ := List.mem_map.mp member
    cases kind <;> cases same

/-- What is found in a body that is there. -/
theorem mem_bodyViolations_iff
    {body : CompiledBody} {parts : RequestParts} {bytes : Bytes}
    {contentType : Text} (present : parts.body = some bytes)
    (nonempty : bytes ≠ []) (typed : parts.contentType = some contentType)
    (violation : Violation) :
    violation ∈ bodyViolations library body parts ↔
      (violation = .contentType ∧ body.mediaTypes ≠ [] ∧
        ∀ declared ∈ body.mediaTypes,
          ¬ (declared = mediaTypeKey contentType ∨
            declared = "*/*".toList)) ∨
      isJsonMediaType (mediaTypeKey contentType) = true ∧
        ∃ validator, body.json = some validator ∧
          violation ∈ schemaFindings library validator bytes := by
  have kept : parts.body.filter (fun bytes => !bytes.isEmpty) =
      some bytes := by
    rw [present]
    simp [nonempty]
  rw [bodyViolations, kept, typed]
  dsimp only [Option.map_some, Option.getD_some]
  rw [List.mem_append]
  apply or_congr
  · split_ifs with undeclared
    · simp only [Bool.and_eq_true, Bool.not_eq_true', List.isEmpty_eq_false_iff,
        List.any_eq_false, Bool.or_eq_true, decide_eq_true_eq] at undeclared
      simpa using fun _ => undeclared
    · simp only [Bool.and_eq_true, Bool.not_eq_true', List.isEmpty_eq_false_iff,
        List.any_eq_false, Bool.or_eq_true, decide_eq_true_eq] at undeclared
      simpa using fun _ => undeclared
  · cases isJsonMediaType (mediaTypeKey contentType) with
    | false => simp
    | true =>
        cases body.json with
        | none => simp
        | some validator =>
            constructor
            · intro member
              exact ⟨rfl, validator, rfl, member⟩
            · rintro ⟨-, _, ⟨⟩, member⟩
              exact member

/-- The body of a matched operation is compiled from its content map. -/
theorem body_of_matched
    {doc : Json} {config : ApiSchemaEnforcementConfig}
    {compiled : CompiledSpec} (distinct : DistinctTemplates doc)
    (built : compile library doc config = .ok compiled)
    {path method template : Text} {pathParams : List (Text × Text)}
    (matched : resolve compiled.router path method =
      .matched template pathParams)
    {content : List (Text × Json)}
    (mapped : contentMap doc template method = some content) :
    ∃ op body, compiled.op template method = some op ∧
      op.body = some body ∧
      body.mediaTypes = content.map (fun entry => mediaTypeKey entry.1) ∧
      (body.json = none → firstJsonSchema content = none) ∧
      ∀ validator, body.json = some validator →
        FirstValidator library doc config.strictBody content validator := by
  obtain ⟨op, operation, opMade⟩ :=
    compileOp_of_matched library distinct built matched
  obtain ⟨params, -, opMade⟩ := ok_of_bind_ok opMade
  obtain ⟨body, bodyMade, opMade⟩ := ok_of_bind_ok opMade
  cases opMade
  obtain ⟨raw, declared, same⟩ := Option.map_eq_some_iff.mp mapped
  rw [compileRequestBody, declared] at bodyMade
  dsimp only at bodyMade
  cases made : compileBody library doc (resolveRef doc raw) (is30 doc)
      config.strictBody with
  | error reason =>
      rw [made] at bodyMade
      cases bodyMade
  | ok kept =>
      rw [made] at bodyMade
      cases bodyMade
      obtain ⟨⟨keys, json⟩, compiles, filled⟩ := ok_of_bind_ok made
      cases filled
      rw [same] at compiles
      obtain ⟨absent, first⟩ := compileContent_json library compiles
      exact ⟨_, _, operation, rfl, compileContent_keys library compiles,
        absent, first⟩

/-- A media type with a schema of its own is not without a first one. -/
theorem firstJsonSchema_ne_none
    {doc : Json} {strictBody : Bool} {content : List (Text × Json)}
    {mediaType : Text} {validator : Validator}
    (own : OwnValidator library doc strictBody content mediaType
      validator) :
    firstJsonSchema content ≠ none := by
  obtain ⟨json, entry, member, same, schema, found, -⟩ := own
  intro absent
  have none_here := List.findSome?_eq_none_iff.mp absent entry member
  rw [jsonSchema, same, json, if_pos rfl, found] at none_here
  cases none_here

/--
Comparing texts finds what covers a media type unless the map is empty or only
ranges cover it.
-/
theorem covers_iff_compared
    (content : List (Text × Json)) (mediaType : Text) :
    ((content ≠ [] ∧ ∀ entry ∈ content,
        ¬ (mediaTypeKey entry.1 = mediaType ∨
          mediaTypeKey entry.1 = "*/*".toList)) ↔
      ∀ entry ∈ content, ¬ CoversType (mediaTypeKey entry.1) mediaType) ↔
    content ≠ [] ∧ ∀ entry ∈ content,
      InRange (mediaTypeKey entry.1) mediaType →
      ∃ other ∈ content, mediaTypeKey other.1 = mediaType ∨
        mediaTypeKey other.1 = "*/*".toList := by
  constructor
  · intro same
    have nonempty : content ≠ [] := by
      rintro rfl
      exact (same.mpr fun entry member => absurd member List.not_mem_nil).1
        rfl
    refine ⟨nonempty, fun entry member ranged => ?_⟩
    by_contra nothing
    have uncovered := same.mp ⟨nonempty, fun other listed equal =>
      nothing ⟨other, listed, equal⟩⟩
    exact uncovered entry member (.inr (.inr ranged))
  · rintro ⟨nonempty, ranges⟩
    constructor
    · rintro ⟨-, differ⟩ entry member (equal | equal | ranged)
      · exact differ entry member (.inl equal)
      · exact differ entry member (.inr equal)
      · obtain ⟨other, listed, equal⟩ := ranges entry member ranged
        exact differ other listed equal
    · intro uncovered
      refine ⟨nonempty, fun entry member equal => uncovered entry member ?_⟩
      exact equal.imp id .inl

section Reported

variable {compiled : CompiledSpec} {template method : Text}
  {op : CompiledOp} {body : CompiledBody} {parts : RequestParts}
  {bytes : Bytes} {contentType : Text}

theorem contentType_mem_validate_iff
    (operation : compiled.op template method = some op)
    (hasBody : op.body = some body) (present : parts.body = some bytes)
    (nonempty : bytes ≠ []) (typed : parts.contentType = some contentType) :
    .contentType ∈ compiled.validate library template method parts ↔
      body.mediaTypes ≠ [] ∧ ∀ declared ∈ body.mediaTypes,
        ¬ (declared = mediaTypeKey contentType ∨
          declared = "*/*".toList) := by
  rw [mem_validate_iff_body library operation, hasBody, Option.map_some,
    Option.getD_some, mem_bodyViolations_iff library present nonempty typed]
  constructor
  · rintro (member | ⟨-, undeclared⟩ | ⟨-, validator, -, member⟩)
    · exact absurd member (contentType_notMem_parameterViolations library
        operation parts)
    · exact undeclared
    · exact absurd member (contentType_notMem_schemaFindings library
        validator bytes)
  · exact fun undeclared => .inr (.inl ⟨rfl, undeclared⟩)

theorem mem_validate_iff_schema
    (operation : compiled.op template method = some op)
    (hasBody : op.body = some body) (present : parts.body = some bytes)
    (nonempty : bytes ≠ []) (typed : parts.contentType = some contentType)
    {violation : Violation} (other : violation ≠ .contentType) :
    violation ∈ compiled.validate library template method parts ↔
      violation ∈ compiled.parameterViolations library template method
        parts ∨
      isJsonMediaType (mediaTypeKey contentType) = true ∧
        ∃ validator, body.json = some validator ∧
          violation ∈ schemaFindings library validator bytes := by
  rw [mem_validate_iff_body library operation, hasBody, Option.map_some,
    Option.getD_some, mem_bodyViolations_iff library present nonempty typed]
  refine or_congr Iff.rfl ⟨?_, .inr⟩
  rintro (⟨same, -⟩ | found)
  · exact absurd same other
  · exact found

end Reported

theorem FirstValidator.unique
    {doc : Json} {strictBody : Bool} {content : List (Text × Json)}
    {left right : Validator}
    (isLeft : FirstValidator library doc strictBody content left)
    (isRight : FirstValidator library doc strictBody content right) :
    left = right := by
  obtain ⟨schema, found, made⟩ := isLeft
  obtain ⟨other, same, alsoMade⟩ := isRight
  cases found.symm.trans same
  exact Except.ok.inj (made.symm.trans alsoMade)

/-- Two alternatives with one in common agree where that one fails. -/
theorem or_iff_or_iff {common left right : Prop} :
    (common ∨ left ↔ common ∨ right) ↔ (¬ common → (left ↔ right)) := by
  by_cases holds : common
  · simp [holds]
  · simp [holds]

/--
A body is validated against the schema of its own media type exactly when the
first JSON schema of the content map serves for it.
-/
theorem validatesOwn_iff
    {doc : Json} {config : ApiSchemaEnforcementConfig}
    {compiled : CompiledSpec} (distinct : DistinctTemplates doc)
    (built : compile library doc config = .ok compiled)
    {path method template : Text} {pathParams : List (Text × Text)}
    (matched : resolve compiled.router path method =
      .matched template pathParams)
    {content : List (Text × Json)}
    (mapped : contentMap doc template method = some content)
    {parts : RequestParts} {bytes : Bytes} {contentType : Text}
    (present : parts.body = some bytes) (nonempty : bytes ≠ [])
    (typed : parts.contentType = some contentType) :
    ValidatesOwn library doc config.strictBody content
        (mediaTypeKey contentType) bytes
        (compiled.parameterViolations library template method parts)
        (compiled.validate library template method parts) ↔
      FirstServes library doc config.strictBody content
        (mediaTypeKey contentType) bytes
        (compiled.parameterViolations library template method parts) := by
  obtain ⟨op, body, operation, hasBody, keys, absent, first⟩ :=
    body_of_matched library distinct built matched mapped
  have reported := contentType_mem_validate_iff library operation hasBody
    present nonempty typed
  rw [keys, Ne, List.map_eq_nil_iff, List.forall_mem_map] at reported
  have compared := covers_iff_compared content (mediaTypeKey contentType)
  rw [← reported] at compared
  -- a media type with a schema of its own is held against the first one
  have held : ∀ own, OwnValidator library doc config.strictBody content
      (mediaTypeKey contentType) own → ∀ violation,
      violation ≠ .contentType →
      ∃ validator, FirstValidator library doc config.strictBody content
          validator ∧
        (violation ∈ compiled.validate library template method parts ↔
          violation ∈ compiled.parameterViolations library template method
            parts ∨ violation ∈ schemaFindings library validator bytes) := by
    intro own isOwn violation other
    cases json : body.json with
    | none => exact absurd (absent json) (firstJsonSchema_ne_none library isOwn)
    | some validator =>
        refine ⟨validator, first validator json, ?_⟩
        rw [mem_validate_iff_schema library operation hasBody present
          nonempty typed other, json]
        simp [isOwn.1]
  constructor
  · intro validates
    obtain ⟨declares, ranges⟩ := compared.mp validates.contentType
    refine ⟨declares, ranges, ?_⟩
    intro own validator isOwn isFirst violation other unmentioned
    obtain ⟨kept, isKept, against⟩ := held own isOwn violation other
    cases isKept.unique library isFirst
    rw [validates.schema own isOwn violation other] at against
    exact (or_iff_or_iff.mp against unmentioned).symm
  · intro serves
    refine ⟨fun own isOwn violation other => ?_,
      compared.mpr ⟨serves.declares, serves.ranges⟩⟩
    obtain ⟨kept, isKept, against⟩ := held own isOwn violation other
    rw [against]
    exact or_iff_or_iff.mpr
      (serves.first own kept isOwn isKept violation other)

end Library

/-! ## Samples -/

/-- The names that a schema requires. -/
def requiredNames (schema : Json) : List Text :=
  (((field "required" schema).bind asArray).getD []).filterMap asStr

/-- A library for schemas that only require properties, and empty objects. -/
def requiringLibrary : SchemaLibrary where
  validatorFor := fun schema => .ok
    { isValid := fun value => (requiredNames schema).all fun name =>
        ((asObject value).getD []).any fun entry => entry.1 = name
      iterErrors := fun value => ((requiredNames schema).filter fun name =>
        !((asObject value).getD []).any fun entry => entry.1 = name).map
          fun _ => .required }
  numberFromF64 := fun _ => none
  fromSlice := fun bytes =>
    if bytes = [123, 125] then some (.object []) else none

/-- A document of one operation with a content map. -/
def contentDoc (content : List (Text × Json)) : Json :=
  .object
    [("openapi".toList, .string "3.1.0".toList),
      ("info".toList, .object
        [("title".toList, .string "t".toList),
          ("version".toList, .string "1".toList)]),
      ("paths".toList, .object
        [("/a".toList, .object
          [("patch".toList, .object
            [("requestBody".toList, .object
              [("content".toList, .object content)])])])])]

/-- A patch may leave out what a replacement has to name. -/
def patchContent : List (Text × Json) :=
  [("application/json".toList, .object [("schema".toList, .object
      [("required".toList, .array [.string "name".toList])])]),
    ("application/merge-patch+json".toList, .object [("schema".toList,
      .object [("required".toList, .array [])])])]

/-- A request with an empty object of some media type. -/
def emptyObject (contentType : String) : RequestParts where
  pathParams := []
  queryParams := []
  headers := []
  contentType := some contentType.toList
  body := some [123, 125]

theorem resolve_contentDoc (content : List (Text × Json)) :
    resolve (buildRouter (contentDoc content)) "/a".toList "PATCH".toList =
      .matched "/a".toList [] := by
  have single : buildRouter (contentDoc content) =
      [⟨"/a".toList, parseTemplate "/a".toList, ["patch".toList]⟩] :=
    List.mergeSort_singleton _
  rw [single]
  decide

theorem validatesOwn_replacement :
    ∃ compiled, compile requiringLibrary (contentDoc patchContent) {} =
        .ok compiled ∧
      .missingRequired ∈ compiled.validate requiringLibrary "/a".toList
        "PATCH".toList (emptyObject "Application/JSON; charset=utf-8") ∧
      ValidatesOwn requiringLibrary (contentDoc patchContent) true
        patchContent
        (mediaTypeKey "Application/JSON; charset=utf-8".toList) [123, 125]
        (compiled.parameterViolations requiringLibrary "/a".toList
          "PATCH".toList (emptyObject "Application/JSON; charset=utf-8"))
        (compiled.validate requiringLibrary "/a".toList "PATCH".toList
          (emptyObject "Application/JSON; charset=utf-8")) := by
  have distinct : DistinctTemplates (contentDoc patchContent) := by
    rw [DistinctTemplates]
    decide
  obtain ⟨compiled, built, router, missing⟩ : ∃ compiled,
      compile requiringLibrary (contentDoc patchContent) {} = .ok compiled ∧
      compiled.router = buildRouter (contentDoc patchContent) ∧
      .missingRequired ∈ compiled.validate requiringLibrary "/a".toList
        "PATCH".toList (emptyObject "Application/JSON; charset=utf-8") :=
    ⟨_, rfl, rfl, by decide⟩
  have matched : resolve compiled.router "/a".toList "PATCH".toList =
      .matched "/a".toList [] := by
    rw [router]
    exact resolve_contentDoc patchContent
  have mapped : contentMap (contentDoc patchContent) "/a".toList
      "PATCH".toList = some patchContent := rfl
  refine ⟨compiled, built, missing, (validatesOwn_iff requiringLibrary
    distinct built matched mapped rfl (List.cons_ne_nil _ _) rfl).mpr ?_⟩
  constructor
  · exact List.cons_ne_nil _ _
  · intro entry member ranged
    exact ⟨_, List.mem_cons_self, .inl (by decide)⟩
  · rintro own first ⟨-, entry, member, key, schema, found, made⟩ isFirst
    have isOwn : FirstValidator requiringLibrary (contentDoc patchContent)
        true patchContent own := by
      rcases List.mem_cons.mp member with rfl | member
      · exact ⟨schema, found, made⟩
      · cases List.mem_singleton.mp member
        exact absurd key (by decide)
    cases isOwn.unique requiringLibrary isFirst
    intro violation _ _
    exact Iff.rfl

theorem not_validatesOwn_patch :
    ∃ compiled, compile requiringLibrary (contentDoc patchContent) {} =
        .ok compiled ∧
      resolve compiled.router "/a".toList "PATCH".toList =
        .matched "/a".toList [] ∧
      contentMap (contentDoc patchContent) "/a".toList "PATCH".toList =
        some patchContent ∧
      ¬ ValidatesOwn requiringLibrary (contentDoc patchContent) true
        patchContent "application/merge-patch+json".toList [123, 125]
        (compiled.parameterViolations requiringLibrary "/a".toList
          "PATCH".toList (emptyObject "application/merge-patch+json"))
        (compiled.validate requiringLibrary "/a".toList "PATCH".toList
          (emptyObject "application/merge-patch+json")) := by
  refine ⟨_, rfl, resolve_contentDoc patchContent, rfl, fun validates => ?_⟩
  have own := validates.schema _ ⟨by decide, _,
    List.mem_cons_of_mem _ List.mem_cons_self, by decide, _, rfl, rfl⟩
    .missingRequired (by decide)
  revert own
  decide

end LightWaf.Schema
