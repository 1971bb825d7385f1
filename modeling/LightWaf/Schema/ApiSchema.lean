import LightWaf.Normalizer.Normalize
import LightWaf.Schema.Router

/-!
# Enforcing an interface description

The embedding of the compiled specification and of the module of
`waf-schema-enforcement/src/api_schema.rs`.  The `jsonschema` validators, the
JSON reader of bodies and floating-point numbers are parameters.
-/

namespace LightWaf.Schema

open LightWaf.Rust
open LightWaf.Core
open LightWaf.Normalizer

/-! ## What other crates provide -/

/-- The kinds of schema errors, as far as they are told apart. -/
inductive ErrorKind
  | additionalProperties
  | unevaluatedProperties
  | required
  | other
deriving DecidableEq

/-- A compiled schema. -/
structure Validator where
  isValid : Json → Bool
  iterErrors : Json → List ErrorKind

/--
The library calls: compiling a schema, the finite number a text denotes as
its JSON number prints, and reading a body.
-/
structure SchemaLibrary where
  validatorFor : Json → Except Text Validator
  numberFromF64 : Text → Option Text
  fromSlice : Bytes → Option Json

/-! ## Schema objects -/

/-- `Map::insert`. -/
def insertField (name : String) (value : Json)
    (fields : List (Text × Json)) : List (Text × Json) :=
  if (fields.lookup name.toList).isSome then
    fields.map fun entry =>
      if entry.1 = name.toList then (entry.1, value) else entry
  else fields ++ [(name.toList, value)]

/-- `Map::remove`. -/
def removeField (name : String) (fields : List (Text × Json)) :
    List (Text × Json) :=
  fields.filter fun entry => entry.1 ≠ name.toList

/-- `add_null_to_type`. -/
def addNullToType : Json → Json
  | .string text => .array [.string text, .string "null".toList]
  | .array items =>
      if items.any fun item => asStr item = some "null".toList then
        .array items
      else .array (items ++ [.string "null".toList])
  | other => other

/-- `fix_exclusive_bound`. -/
def fixExclusiveBound (exclusive bound : String)
    (fields : List (Text × Json)) : List (Text × Json) :=
  match fields.lookup exclusive.toList with
  | some (.bool isExclusive) =>
      let fields := removeField exclusive fields
      if isExclusive then
        match fields.lookup bound.toList with
        | some value =>
            insertField exclusive value (removeField bound fields)
        | none => fields
      else fields
  | _ => fields

/-- The rewriting of one object by `normalize_schema_3_0`. -/
def normalizeObject (fields : List (Text × Json)) : List (Text × Json) :=
  let fields :=
    match fields.lookup "nullable".toList, fields.lookup "type".toList with
    | some (.bool true), some type =>
        insertField "type" (addNullToType type) fields
    | _, _ => fields
  fixExclusiveBound "exclusiveMaximum" "maximum"
    (fixExclusiveBound "exclusiveMinimum" "minimum"
      (removeField "nullable" fields))

mutual

/--
`normalize_schema_3_0`.  The members are normalized before the object is
rewritten: the rewriting looks at flags and strings only, which no member
normalizes to or from.
-/
def normalizeSchema30 : Json → Json
  | .object fields => .object (normalizeObject (normalizeFields30 fields))
  | .array items => .array (normalizeItems30 items)
  | other => other

/-- The members of an object. -/
def normalizeFields30 : List (Text × Json) → List (Text × Json)
  | [] => []
  | (name, value) :: rest =>
      (name, normalizeSchema30 value) :: normalizeFields30 rest

/-- The items of an array. -/
def normalizeItems30 : List Json → List Json
  | [] => []
  | value :: rest => normalizeSchema30 value :: normalizeItems30 rest

end

/-- `enforce_additional_properties`. -/
def enforceAdditionalProperties : Json → Json
  | .object fields =>
      let has (name : String) : Bool := (fields.lookup name.toList).isSome
      let composed := ["allOf", "anyOf", "oneOf", "$ref", "not"].any has
      let isObject :=
        (field "type" (.object fields)).bind asStr = some "object".toList ∨
          has "properties"
      if isObject && !composed && !has "additionalProperties" then
        .object (insertField "additionalProperties" (.bool false) fields)
      else .object fields
  | other => other

/-! ## References -/

/-- The escapes of a pointer token: `~1` and then `~0`. -/
def unescapeToken (token : Text) : Text :=
  let rec replace (escape char : Char) : Text → Text
    | '~' :: next :: rest =>
        if next = escape then char :: replace escape char rest
        else '~' :: replace escape char (next :: rest)
    | next :: rest => next :: replace escape char rest
    | [] => []
  replace '0' '~' (replace '1' '/' token)

/-- The index a pointer token denotes. -/
def parseIndex (token : Text) : Option Nat :=
  match token with
  | '+' :: _ => none
  | '0' :: _ :: _ => none
  | digits => fromStrRadix 10 (2 ^ 64) digits

/-- One token of a pointer. -/
def pointerStep (target : Json) (token : Text) : Option Json :=
  match target with
  | .object fields => fields.lookup token
  | .array items => (parseIndex token).bind fun index => items[index]?
  | _ => none

/-- `Value::pointer`. -/
def pointer (doc : Json) : Text → Option Json
  | [] => some doc
  | '/' :: tokens =>
      (tokens.splitOn '/').foldlM
        (fun target token => pointerStep target (unescapeToken token)) doc
  | _ => none

/-- The loop of `resolve_ref`. -/
def followRefs (doc : Json) : Nat → Json → Json
  | 0, node => node
  | turns + 1, node =>
      match (field "$ref" node).bind asStr with
      | some reference =>
          match (stripPrefix ['#'] reference).bind (pointer doc) with
          | some target => followRefs doc turns target
          | none => node
      | none => node

/-- `resolve_ref`. -/
def resolveRef (doc node : Json) : Json :=
  followRefs doc 32 node

/-! ## Compiled operations -/

/-- `ParamIn`. -/
inductive ParamIn
  | path
  | query
  | header
deriving DecidableEq

/-- `ScalarType`. -/
inductive ScalarType
  | integer
  | number
  | boolean
  | string
deriving DecidableEq

/-- `CompiledParam`. -/
structure CompiledParam where
  name : Text
  location : ParamIn
  required : Bool
  scalar : Option ScalarType
  validator : Option Validator

/-- `CompiledBody`. -/
structure CompiledBody where
  required : Bool
  mediaTypes : List Text
  json : Option Validator

/-- `CompiledOp`. -/
structure CompiledOp where
  params : List CompiledParam
  body : Option CompiledBody

/-- The place a parameter is looked for, where it is in scope. -/
def paramIn (location : Text) : Option ParamIn :=
  if location = "path".toList then some .path
  else if location = "query".toList then some .query
  else if location = "header".toList then some .header
  else none

/-- `scalar_type`. -/
def scalarType (schema : Json) : Option ScalarType :=
  match (field "type" schema).bind asStr with
  | some name =>
      if name = "integer".toList then some .integer
      else if name = "number".toList then some .number
      else if name = "boolean".toList then some .boolean
      else if name = "string".toList then some .string
      else none
  | none => none

/-- `media_type_key`. -/
def mediaTypeKey (contentType : Text) : Text :=
  toAsciiLowercase (trim (contentType.takeWhile (· != ';')))

/-- `is_json_media_type`. -/
def isJsonMediaType (mediaType : Text) : Bool :=
  mediaType = "application/json".toList ||
    "+json".toList.isSuffixOf mediaType

section Library

variable (library : SchemaLibrary)

/-- `compile_validator`. -/
def compileValidator (doc schema : Json) (is30 strictObject : Bool) :
    Except Text Validator :=
  let schema :=
    if strictObject then enforceAdditionalProperties schema else schema
  let schema :=
    match schema, field "components" doc with
    | .object fields, some components =>
        if (fields.lookup "components".toList).isSome then .object fields
        else .object (insertField "components" components fields)
    | other, _ => other
  let schema := if is30 then normalizeSchema30 schema else schema
  match library.validatorFor schema with
  | .ok validator => .ok validator
  | .error reason => .error ("schema does not compile: ".toList ++ reason)

/-- The scalar type of a parameter and its validator. -/
def compileParamSchema (doc : Json) (is30 : Bool) (param : Json) :
    Except Text (Option ScalarType × Option Validator) :=
  match field "schema" param with
  | none => .ok (none, none)
  | some schema =>
      match scalarType (resolveRef doc schema) with
      | none => .ok (none, none)
      | some scalar => do
          let validator ← compileValidator library doc
            (resolveRef doc schema) is30 false
          .ok (some scalar, some validator)

/--
The parameter loop of `compile_op`.  Of two parameters with one name in one
place the first counts.
-/
def compileParams (doc : Json) (is30 : Bool) :
    (seen : List (Text × ParamIn)) → List Json →
      Except Text (List CompiledParam)
  | _, [] => .ok []
  | seen, raw :: rest =>
      let param := resolveRef doc raw
      match (field "name" param).bind asStr,
          ((field "in" param).bind asStr).bind paramIn with
      | some name, some location =>
          if seen.contains (name, location) then
            compileParams doc is30 seen rest
          else do
            let (scalar, validator) ←
              compileParamSchema library doc is30 param
            let others ← compileParams doc is30 ((name, location) :: seen) rest
            let required := decide (location = .path) ||
              ((field "required" param).bind asBool).getD false
            .ok (⟨name, location, required, scalar, validator⟩ :: others)
      | _, _ => compileParams doc is30 seen rest

/-- The media types of a body, and the validator of the first JSON one. -/
def compileContent (doc : Json) (is30 strictBody : Bool) :
    (json : Option Validator) → List (Text × Json) →
      Except Text (List Text × Option Validator)
  | json, [] => .ok ([], json)
  | json, (mediaType, media) :: rest => do
      let key := mediaTypeKey mediaType
      let json ←
        match json, isJsonMediaType key, field "schema" media with
        | none, true, some schema => do
            let validator ← compileValidator library doc
              (resolveRef doc schema) is30 strictBody
            .ok (some validator)
        | json, _, _ => .ok json
      let (keys, json) ← compileContent doc is30 strictBody json rest
      .ok (key :: keys, json)

/-- `compile_body`. -/
def compileBody (doc body : Json) (is30 strictBody : Bool) :
    Except Text CompiledBody := do
  let (mediaTypes, json) ← compileContent library doc is30 strictBody none
    (((field "content" body).bind asObject).getD [])
  let required := ((field "required" body).bind asBool).getD false
  .ok ⟨required, mediaTypes, json⟩

/-- The request body of an operation, where it declares one. -/
def compileRequestBody (doc op : Json) (is30 strictBody : Bool) :
    Except Text (Option CompiledBody) :=
  match field "requestBody" op with
  | some body =>
      (compileBody library doc (resolveRef doc body) is30 strictBody).map
        some
  | none => .ok none

/-- `compile_op`. -/
def compileOp (doc op : Json) (shared : Option Json)
    (is30 strictBody : Bool) : Except Text CompiledOp := do
  let params ← compileParams library doc is30 []
    (((field "parameters" op).bind asArray).getD [] ++
      (shared.bind asArray).getD [])
  let body ← compileRequestBody library doc op is30 strictBody
  .ok ⟨params, body⟩

end Library

/-! ## Validation -/

/-- `Violation`, in the order of the set. -/
inductive Violation
  | unknownParam
  | missingRequired
  | typeViolation
  | unknownProperty
  | contentType
  | bodyParseError
deriving DecidableEq

/-- The violations in their order. -/
def Violation.all : List Violation :=
  [.unknownParam, .missingRequired, .typeViolation, .unknownProperty,
    .contentType, .bodyParseError]

/-- The rule a violation emits. -/
def Violation.ruleId : Violation → String
  | .unknownParam => "schema-api-unknown-param"
  | .missingRequired => "schema-api-missing-required"
  | .typeViolation => "schema-api-type-violation"
  | .unknownProperty => "schema-api-unknown-property"
  | .contentType => "schema-api-content-type"
  | .bodyParseError => "schema-api-body-parse-error"

/-- `RequestParts`. -/
structure RequestParts where
  pathParams : List (Text × Text)
  queryParams : List (Text × Text)
  headers : List (Text × Text)
  contentType : Option Text
  body : Option Bytes

/-- `find`. -/
def findParam (pairs : List (Text × Text)) (name : Text)
    (ignoreCase : Bool) : Option Text :=
  (pairs.find? fun pair =>
    if ignoreCase then eqIgnoreAsciiCase pair.1 name
    else pair.1 == name).map Prod.snd

/-- `classify`. -/
def classify : ErrorKind → Violation
  | .additionalProperties => .unknownProperty
  | .unevaluatedProperties => .unknownProperty
  | .required => .missingRequired
  | .other => .typeViolation

/-- `i64::from_str`. -/
def parseI64 (text : Text) : Option Int :=
  match text with
  | ['-'] => none
  | '-' :: digits =>
      (parseDigits 10 (2 ^ 63 + 1) digits).map fun value => -(value : Int)
  | digits => (fromStrRadix 10 (2 ^ 63) digits).map Int.ofNat

section Library

variable (library : SchemaLibrary)

/-- `coerce`. -/
def coerce (value : Text) : ScalarType → Json
  | .string => .string value
  | .boolean =>
      if value = "true".toList then .bool true
      else if value = "false".toList then .bool false
      else .string value
  | .integer =>
      match parseI64 value with
      | some number => .number (toString number).toList
      | none => .string value
  | .number =>
      match library.numberFromF64 value with
      | some number => .number number
      | none => .string value

/-- The observed value of a declared parameter. -/
def CompiledParam.observed (param : CompiledParam) (parts : RequestParts) :
    Option Text :=
  match param.location with
  | .path => findParam parts.pathParams param.name false
  | .query => findParam parts.queryParams param.name false
  | .header => findParam parts.headers param.name true

/-- The declared schema of a parameter accepts a value. -/
def CompiledParam.accepts (param : CompiledParam) (value : Text) : Bool :=
  match param.scalar, param.validator with
  | some scalar, some validator => validator.isValid (coerce library value scalar)
  | _, _ => true

/-- The body of the parameter loop of `validate`. -/
def paramViolation (param : CompiledParam) (parts : RequestParts) :
    Option Violation :=
  match param.observed parts with
  | none => if param.required then some .missingRequired else none
  | some value =>
      if param.accepts library value then none else some .typeViolation

/-- What `validate` finds in the body. -/
def bodyViolations (body : CompiledBody) (parts : RequestParts) :
    List Violation :=
  match parts.body.filter fun bytes => !bytes.isEmpty with
  | none => if body.required then [.missingRequired] else []
  | some bytes =>
      let mediaType := (parts.contentType.map mediaTypeKey).getD []
      (if !body.mediaTypes.isEmpty && !body.mediaTypes.any (fun declared =>
          declared = mediaType || declared = "*/*".toList) then
        [.contentType] else []) ++
      (match isJsonMediaType mediaType, body.json with
        | true, some validator =>
            match library.fromSlice bytes with
            | none => [.bodyParseError]
            | some instance_ => (validator.iterErrors instance_).map classify
        | _, _ => [])

/-- `CompiledSpec`. -/
structure CompiledSpec where
  router : List Route
  strictParams : Bool
  ops : List ((Text × Text) × CompiledOp)

/-- The compiled operation of a template and a method. -/
def CompiledSpec.op (compiled : CompiledSpec) (template method : Text) :
    Option CompiledOp :=
  compiled.ops.lookup (template, toAsciiLowercase method)

/-- `CompiledSpec::validate`: a set, in the order of the violations. -/
def CompiledSpec.validate (compiled : CompiledSpec) (template method : Text)
    (parts : RequestParts) : List Violation :=
  match compiled.op template method with
  | none => []
  | some op =>
      let declared := (op.params.filter fun param =>
        param.location = .query).map CompiledParam.name
      let unknown := compiled.strictParams &&
        parts.queryParams.any fun pair => !declared.contains pair.1
      let found :=
        op.params.filterMap (paramViolation library · parts) ++
          (if unknown then [.unknownParam] else []) ++
          (op.body.map (bodyViolations library · parts)).getD []
      Violation.all.filter fun violation => found.contains violation

end Library

/-! ## Compiling a document -/

/-- `ApiSchemaEnforcementConfig`, without the path of the document. -/
structure ApiSchemaEnforcementConfig where
  enabled : Bool := false
  paths : List Text := ["/api".toList]
  unknownRouteSeverity : Severity := .critical
  violationSeverity : Severity := .warning
  strictParams : Bool := true
  strictBody : Bool := true

section Library

variable (library : SchemaLibrary)

/-- Whether the document declares version 3.0. -/
def is30 (doc : Json) : Bool :=
  ((field "openapi" doc).bind asStr).any fun version =>
    "3.0".toList.isPrefixOf version

/-- The operations of a path item. -/
def compileItem (doc : Json) (strictBody : Bool) (template : Text)
    (item : Json) : Except Text (List ((Text × Text) × CompiledOp)) :=
  match asObject item with
  | none => .ok []
  | some fields =>
      (declaredMethods fields).mapM fun method =>
        match compileOp library doc ((fields.lookup method).getD .null)
            (fields.lookup "parameters".toList) (is30 doc) strictBody with
        | .ok op => .ok ((template, method), op)
        | .error reason =>
            .error (method.map Char.toUpper ++ ' ' :: (template ++
              (": ".toList ++ reason)))

/-- `CompiledSpec::compile`, over the router of `parse_spec`. -/
def compile (doc : Json) (config : ApiSchemaEnforcementConfig) :
    Except Text CompiledSpec := do
  let ops ← (pathItems doc).mapM fun entry =>
    compileItem library doc config.strictBody entry.1 entry.2
  .ok ⟨buildRouter doc, config.strictParams, ops.flatten⟩

/-! ## The module -/

/-- `ApiSchemaModule`. -/
structure ApiSchemaModule where
  compiled : CompiledSpec
  enabled : Bool
  paths : List Text
  unknownRouteSeverity : Severity
  violationSeverity : Severity

/-- `ApiSchemaModule::build`. -/
def buildModule (doc : Json) (config : ApiSchemaEnforcementConfig) :
    Except Text ApiSchemaModule := do
  let compiled ← compile library doc config
  .ok ⟨compiled, config.enabled, config.paths, config.unknownRouteSeverity,
    config.violationSeverity⟩

/-- `ApiSchemaModule::guards`. -/
def ApiSchemaModule.guards (module : ApiSchemaModule) (path : Text) : Bool :=
  module.paths.any fun guarded => guarded.isPrefixOf path

/-- The request parts the module validates. -/
def requestParts (ctx : RequestContext) (pathParams : List (Text × Text)) :
    RequestParts where
  pathParams := pathParams
  queryParams := ctx.normalized.queryParams
  headers := ctx.normalized.headers
  contentType :=
    (ctx.normalized.headers.find? fun header =>
      header.1 = "content-type".toList).map Prod.snd
  body := if ctx.body.isEmpty then none else some ctx.body

/-- `ApiSchemaModule::inspect`. -/
def ApiSchemaModule.inspect (module : ApiSchemaModule)
    (ctx : RequestContext) : Decision :=
  if !module.enabled then .allow
  else if !module.guards ctx.normalized.path then .allow
  else
    match resolve module.compiled.router ctx.normalized.path ctx.method with
    | .unknownRoute =>
        .scores [⟨"schema-api-unknown-route", module.unknownRouteSeverity⟩]
    | .methodNotAllowed =>
        .scores
          [⟨"schema-api-method-not-allowed", module.unknownRouteSeverity⟩]
    | .matched template pathParams =>
        let violations := module.compiled.validate library template ctx.method
          (requestParts ctx pathParams)
        if violations.isEmpty then .allow
        else
          .scores (violations.map fun violation =>
            ⟨violation.ruleId, module.violationSeverity⟩)

end Library

end LightWaf.Schema
