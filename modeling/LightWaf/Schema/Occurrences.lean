import LightWaf.Rust.HashMap
import LightWaf.Schema.ConformingRequests
import LightWaf.Schema.Resolution

/-!
# Repeated parameters

`CompiledSpec::validate` looks each declared parameter up once.  A request
that violates nothing has all required parameters and no undeclared ones, but
of a parameter that it repeats only the first value was held against the
schema: all of them satisfy it exactly when the later ones do.
-/

namespace LightWaf.Schema

open LightWaf.Rust
open LightWaf.Normalizer

/-! ## The parameters of an operation -/

/-- The name and the place of a declared parameter, where it is in scope. -/
def paramKey (doc raw : Json) : Option (Text × ParamIn) :=
  match (field "name" (resolveRef doc raw)).bind asStr,
      ((field "in" (resolveRef doc raw)).bind asStr).bind paramIn with
  | some name, some location => some (name, location)
  | _, _ => none

/-- The members of a path item. -/
def itemFields (doc : Json) (template : Text) : List (Text × Json) :=
  (((pathItems doc).lookup template).bind asObject).getD []

/-- The parameters that the operation declares itself. -/
def ownParameters (doc : Json) (template method : Text) : List Json :=
  ((field "parameters" (((itemFields doc template).lookup
    (toAsciiLowercase method)).getD .null)).bind asArray).getD []

/-- The parameters that its path item declares. -/
def sharedParameters (doc : Json) (template : Text) : List Json :=
  (((itemFields doc template).lookup "parameters".toList).bind asArray).getD
    []

/--
The declaration in force for a name and a place: one of the operation
overrides one of the path item.
-/
def effectiveParam (doc : Json) (template method : Text)
    (key : Text × ParamIn) : Option Json :=
  ((ownParameters doc template method).find? fun raw =>
      decide (paramKey doc raw = some key)).or
    ((sharedParameters doc template).find? fun raw =>
      decide (paramKey doc raw = some key))

/-- A path parameter is required, another one where it says so. -/
def isRequired (doc raw : Json) (location : ParamIn) : Bool :=
  decide (location = .path) ||
    ((field "required" (resolveRef doc raw)).bind asBool).getD false

/-- A schema as it is compiled: with the components of the document. -/
def validatedSchema (doc schema : Json) : Json :=
  let schema :=
    match schema, field "components" doc with
    | .object fields, some components =>
        if (fields.lookup "components".toList).isSome then .object fields
        else .object (insertField "components" components fields)
    | other, _ => other
  if is30 doc then normalizeSchema30 schema else schema

/-- The schema of a scalar parameter with its type. -/
def scalarSchema (doc raw : Json) : Option (ScalarType × Json) :=
  (field "schema" (resolveRef doc raw)).bind fun schema =>
    (scalarType (resolveRef doc schema)).map fun scalar =>
      (scalar, validatedSchema doc (resolveRef doc schema))

/-! ## The values of a request -/

/-- All values under a name. -/
def valuesOf (pairs : List (Text × Text)) (name : Text)
    (ignoreCase : Bool) : List Text :=
  (pairs.filter fun pair =>
    if ignoreCase then eqIgnoreAsciiCase pair.1 name
    else pair.1 == name).map Prod.snd

theorem findParam_eq_head?
    (pairs : List (Text × Text)) (name : Text) (ignoreCase : Bool) :
    findParam pairs name ignoreCase =
      (valuesOf pairs name ignoreCase).head? := by
  rw [findParam, valuesOf, List.head?_map, List.head?_filter]

theorem length_valuesOf_le
    (pairs : List (Text × Text)) (name : Text) (ignoreCase : Bool) :
    (valuesOf pairs name ignoreCase).length ≤ pairs.length := by
  rw [valuesOf, List.length_map]
  exact List.length_filter_le _ _

/-- All values that a request has for a parameter. -/
def occurrences (parts : RequestParts) (key : Text × ParamIn) : List Text :=
  match key.2 with
  | .path => valuesOf parts.pathParams key.1 false
  | .query => valuesOf parts.queryParams key.1 false
  | .header => valuesOf parts.headers key.1 true

/-- The lookup finds the first of them. -/
theorem observed_eq_head? (param : CompiledParam) (parts : RequestParts) :
    param.observed parts =
      (occurrences parts (param.name, param.location)).head? := by
  rw [CompiledParam.observed, occurrences]
  cases param.location with
  | path => exact findParam_eq_head? _ _ _
  | query => exact findParam_eq_head? _ _ _
  | header => exact findParam_eq_head? _ _ _

section Library

variable (library : SchemaLibrary) (Valid : Json → Json → Prop)

/-- The compiled validators decide the validity of values. -/
def DecidesValidity : Prop :=
  ∀ schema validator, library.validatorFor schema = .ok validator →
    ∀ value, validator.isValid value = true ↔ Valid schema value

/-- The value of a parameter satisfies its schema, if that is a scalar one. -/
def Satisfies (doc raw : Json) (value : Text) : Prop :=
  ∀ scalar schema, scalarSchema doc raw = some (scalar, schema) →
    Valid schema (coerce library value scalar)

/-- What a request owes to the parameters of the operation. -/
structure Covers (doc : Json) (template method : Text)
    (parts : RequestParts) : Prop where
  required : ∀ key raw, effectiveParam doc template method key = some raw →
    isRequired doc raw key.2 = true → occurrences parts key ≠ []
  satisfied : ∀ key raw, effectiveParam doc template method key = some raw →
    ∀ value ∈ occurrences parts key, Satisfies library Valid doc raw value
  declared : ∀ pair ∈ parts.queryParams, ∃ raw,
    effectiveParam doc template method (pair.1, .query) = some raw

/-! ## Compiled parameters -/

/-- A compiled parameter comes from a declaration. -/
structure CompiledFrom (doc raw : Json) (param : CompiledParam) : Prop where
  required : param.required = isRequired doc raw param.location
  schema : compileParamSchema library doc (is30 doc) (resolveRef doc raw) =
    .ok (param.scalar, param.validator)

/--
A declaration is passed over when it is out of scope or its key was seen;
otherwise it gives the first of the compiled parameters.
-/
theorem compileParams_cons
    {doc raw : Json} {rest : List Json} {seen : List (Text × ParamIn)}
    {params : List CompiledParam}
    (compiles : compileParams library doc (is30 doc) seen (raw :: rest) =
      .ok params) :
    ((∀ key ∉ seen, paramKey doc raw ≠ some key) ∧
      compileParams library doc (is30 doc) seen rest = .ok params) ∨
    ∃ param others, params = param :: others ∧
      paramKey doc raw = some (param.name, param.location) ∧
      (param.name, param.location) ∉ seen ∧
      CompiledFrom library doc raw param ∧
      compileParams library doc (is30 doc)
        ((param.name, param.location) :: seen) rest = .ok others := by
  rw [compileParams] at compiles
  dsimp only at compiles
  split at compiles
  · rename_i name location named placed
    have keyed : paramKey doc raw = some (name, location) := by
      rw [paramKey, named, placed]
    rw [keyed]
    split_ifs at compiles with again
    · refine .inl ⟨?_, compiles⟩
      rintro _ fresh ⟨rfl⟩
      exact fresh (List.contains_iff_mem.mp again)
    · obtain ⟨⟨scalar, validator⟩, schema, compiles⟩ :=
        ok_of_bind_ok compiles
      obtain ⟨others, later, compiles⟩ := ok_of_bind_ok compiles
      cases compiles
      exact .inr ⟨_, others, rfl, rfl,
        fun seen => again (List.contains_iff_mem.mpr seen),
        ⟨rfl, schema⟩, later⟩
  · rename_i unscoped
    refine .inl ⟨?_, compiles⟩
    intro key fresh keyed
    rw [paramKey] at keyed
    split at keyed
    · exact unscoped _ _ (by assumption) (by assumption)
    · cases keyed

theorem find?_paramKey_self
    {doc raw : Json} (rest : List Json) {key : Text × ParamIn}
    (keyed : paramKey doc raw = some key) :
    (raw :: rest).find? (fun raw => decide (paramKey doc raw = some key)) =
      some raw :=
  List.find?_cons_of_pos (decide_eq_true keyed)

theorem find?_paramKey_cons
    {doc raw : Json} (rest : List Json) {key : Text × ParamIn}
    (other : paramKey doc raw ≠ some key) :
    (raw :: rest).find? (fun raw => decide (paramKey doc raw = some key)) =
      rest.find? fun raw => decide (paramKey doc raw = some key) :=
  List.find?_cons_of_neg fun same => other (of_decide_eq_true same)

/-- A compiled parameter comes from the first declaration of its key. -/
theorem compileParams_sound
    {doc : Json} {raws : List Json} {seen : List (Text × ParamIn)}
    {params : List CompiledParam}
    (compiles : compileParams library doc (is30 doc) seen raws =
      .ok params) :
    ∀ param ∈ params, (param.name, param.location) ∉ seen ∧ ∃ raw,
      raws.find? (fun raw => decide
        (paramKey doc raw = some (param.name, param.location))) =
          some raw := by
  induction raws generalizing seen params with
  | nil =>
      cases compiles
      intro param member
      cases member
  | cons head rest induction =>
      intro param member
      rcases compileParams_cons library compiles with
        ⟨passed, compiles⟩ | ⟨first, others, rfl, keyed, fresh, -, later⟩
      · obtain ⟨unseen, raw, found⟩ := induction compiles param member
        rw [find?_paramKey_cons rest (passed _ unseen)]
        exact ⟨unseen, raw, found⟩
      · rcases List.mem_cons.mp member with rfl | member
        · exact ⟨fresh, head, find?_paramKey_self rest keyed⟩
        · obtain ⟨unseen, raw, found⟩ := induction later param member
          refine ⟨List.not_mem_of_not_mem_cons unseen, raw, ?_⟩
          rw [find?_paramKey_cons rest]
          · exact found
          · rw [keyed]
            exact fun same => List.ne_of_not_mem_cons unseen
              (Option.some.inj same).symm

/-- The first declaration of a key is compiled. -/
theorem compileParams_complete
    {doc : Json} {raws : List Json} {seen : List (Text × ParamIn)}
    {params : List CompiledParam}
    (compiles : compileParams library doc (is30 doc) seen raws =
      .ok params)
    {key : Text × ParamIn} (unseen : key ∉ seen) {raw : Json}
    (found : raws.find? (fun raw => decide (paramKey doc raw = some key)) =
      some raw) :
    ∃ param ∈ params, (param.name, param.location) = key ∧
      CompiledFrom library doc raw param := by
  induction raws generalizing seen params with
  | nil => cases found
  | cons head rest induction =>
      rcases compileParams_cons library compiles with
        ⟨passed, compiles⟩ | ⟨first, others, rfl, keyed, -, made, later⟩
      · rw [find?_paramKey_cons rest (passed key unseen)] at found
        exact induction compiles unseen found
      · by_cases same : key = (first.name, first.location)
        · subst same
          rw [find?_paramKey_self rest keyed] at found
          cases found
          exact ⟨first, List.mem_cons_self, rfl, made⟩
        · rw [find?_paramKey_cons rest] at found
          · obtain ⟨param, member, isKey, made⟩ := induction later
              (List.not_mem_cons_of_ne_of_not_mem same unseen) found
            exact ⟨param, List.mem_cons_of_mem _ member, isKey, made⟩
          · rw [keyed]
            exact fun equal => same (Option.some.inj equal).symm

/-! ## The matched operation -/

/-- A match declares the operation. -/
theorem declares_of_matched
    {doc : Json} {path method template : Text}
    {pathParams : List (Text × Text)}
    (matched : resolve (buildRouter doc) path method =
      .matched template pathParams) :
    Declares doc template (toAsciiLowercase method) := by
  rw [resolve] at matched
  cases first : firstMatch (splitSegments path) (buildRouter doc) with
  | none =>
      have unknown : resolveRoutes (splitSegments path)
          (toAsciiLowercase method) (buildRouter doc) = .unknownRoute := by
        rw [resolveRoutes_unknown]
        intro route member
        exact Option.not_isSome_iff_eq_none.mp
          (List.find?_eq_none.mp first route member)
      rw [unknown] at matched
      cases matched
  | some route =>
      obtain ⟨found, -, resolved⟩ :=
        resolveRoutes_of_firstMatch first (toAsciiLowercase method)
      rw [resolved] at matched
      split_ifs at matched with declared
      cases matched
      obtain ⟨item, listed, -, -, methods⟩ :=
        mem_buildRouter_iff.mp (List.mem_of_find?_eq_some first)
      rw [methods] at declared
      exact ⟨item, listed, List.contains_iff_mem.mp declared⟩

/-- The compiled operation of a path item. -/
theorem mem_compileItem
    {doc : Json} {strictBody : Bool} {template : Text} {item : Json}
    {group : List ((Text × Text) × CompiledOp)}
    (compiles : compileItem library doc strictBody template item =
      .ok group) :
    (∀ method ∈ operations item, ∃ op, ((template, method), op) ∈ group) ∧
    ∀ key op, (key, op) ∈ group → ∃ fields, asObject item = some fields ∧
      key.1 = template ∧
      compileOp library doc ((fields.lookup key.2).getD .null)
        (fields.lookup "parameters".toList) (is30 doc) strictBody =
          .ok op := by
  rw [compileItem] at compiles
  rw [operations]
  cases object : asObject item with
  | none =>
      rw [object] at compiles
      cases compiles
      constructor
      · intro method member
        cases member
      · intro key op member
        cases member
  | some fields =>
      rw [object] at compiles
      constructor
      · intro method member
        obtain ⟨entry, inside, made⟩ := exists_of_mapM_ok compiles member
        split at made
        · cases made
          exact ⟨_, inside⟩
        · cases made
      · intro key op member
        obtain ⟨method, -, made⟩ := mem_of_mapM_ok compiles member
        split at made
        · rename_i compiledOp opMade
          cases made
          exact ⟨fields, rfl, rfl, opMade⟩
        · cases made

/-- The declaration of an operation. -/
def operationOf (doc : Json) (template method : Text) : Json :=
  ((itemFields doc template).lookup (toAsciiLowercase method)).getD .null

/-- A matched operation is compiled from its declaration. -/
theorem compileOp_of_matched
    {doc : Json} {config : ApiSchemaEnforcementConfig}
    {compiled : CompiledSpec} (distinct : DistinctTemplates doc)
    (built : compile library doc config = .ok compiled)
    {path method template : Text} {pathParams : List (Text × Text)}
    (matched : resolve compiled.router path method =
      .matched template pathParams) :
    ∃ op, compiled.op template method = some op ∧
      compileOp library doc (operationOf doc template method)
        ((itemFields doc template).lookup "parameters".toList) (is30 doc)
        config.strictBody = .ok op := by
  obtain ⟨groups, items, filled⟩ := ok_of_bind_ok built
  cases filled
  obtain ⟨item, listed, declared⟩ := declares_of_matched matched
  have known : ∃ op, groups.flatten.lookup
      (template, toAsciiLowercase method) = some op := by
    obtain ⟨group, inside, made⟩ := exists_of_mapM_ok items listed
    obtain ⟨op, member⟩ := (mem_compileItem library made).1 _ declared
    apply Option.isSome_iff_exists.mp
    rw [List.lookup_isSome_iff]
    exact ⟨_, List.mem_flatten.mpr ⟨group, inside, member⟩, beq_self_eq_true _⟩
  obtain ⟨op, found⟩ := known
  refine ⟨op, found, ?_⟩
  obtain ⟨group, inside, member⟩ :=
    List.mem_flatten.mp (mem_of_lookup found)
  obtain ⟨⟨other, otherItem⟩, otherListed, made⟩ :=
    mem_of_mapM_ok items inside
  obtain ⟨fields, object, same, opMade⟩ :=
    (mem_compileItem library made).2 _ _ member
  dsimp only at same
  subst same
  have item : itemFields doc template = fields := by
    rw [itemFields, (HashMap.lookup_eq_some_iff_mem distinct).mpr otherListed,
      Option.bind_some, object, Option.getD_some]
  rw [operationOf, item]
  exact opMade

/-- The parameters of a matched operation are compiled from its own ones. -/
theorem op_of_matched
    {doc : Json} {config : ApiSchemaEnforcementConfig}
    {compiled : CompiledSpec} (distinct : DistinctTemplates doc)
    (built : compile library doc config = .ok compiled)
    {path method template : Text} {pathParams : List (Text × Text)}
    (matched : resolve compiled.router path method =
      .matched template pathParams) :
    ∃ op, compiled.op template method = some op ∧
      compileParams library doc (is30 doc) []
        (ownParameters doc template method ++
          sharedParameters doc template) = .ok op.params := by
  obtain ⟨op, found, opMade⟩ :=
    compileOp_of_matched library distinct built matched
  obtain ⟨params, paramsMade, opMade⟩ := ok_of_bind_ok opMade
  obtain ⟨body, -, opMade⟩ := ok_of_bind_ok opMade
  cases opMade
  exact ⟨_, found, paramsMade⟩

/-! ## What an unreported request owes -/

/-- No violation of a parameter is reported. -/
structure Unreported (violations : List Violation) : Prop where
  unknownParam : .unknownParam ∉ violations
  missingRequired : .missingRequired ∉ violations
  typeViolation : .typeViolation ∉ violations

/-- A reported violation is one of those that the checks find. -/
theorem mem_validate_iff
    {compiled : CompiledSpec} {template method : Text} {op : CompiledOp}
    (operation : compiled.op template method = some op)
    (parts : RequestParts) (violation : Violation) :
    violation ∈ compiled.validate library template method parts ↔
      (∃ param ∈ op.params,
        paramViolation library param parts = some violation) ∨
      (violation = .unknownParam ∧ compiled.strictParams = true ∧
        ∃ pair ∈ parts.queryParams, ¬ ∃ param ∈ op.params,
          param.location = .query ∧ param.name = pair.1) ∨
      violation ∈ (op.body.map (bodyViolations library · parts)).getD [] := by
  have listed : violation ∈ Violation.all := by
    cases violation <;> decide
  rw [CompiledSpec.validate, operation]
  simp only [List.mem_filter, listed, true_and, List.contains_iff_mem,
    List.mem_append, List.mem_filterMap, or_assoc]
  refine or_congr Iff.rfl (or_congr ?_ Iff.rfl)
  split_ifs with unknown
  · simpa using fun (_ : violation = .unknownParam) => unknown
  · simpa using fun (_ : violation = .unknownParam) => unknown

/-- A parameter violates nothing when its first value satisfies it. -/
theorem paramViolation_eq_none_iff
    {param : CompiledParam} {parts : RequestParts} :
    paramViolation library param parts = none ↔
      (param.required = true →
        occurrences parts (param.name, param.location) ≠ []) ∧
      ∀ value ∈ (occurrences parts (param.name, param.location)).head?,
        param.accepts library value = true := by
  rw [paramViolation, observed_eq_head?]
  cases occurrences parts (param.name, param.location) with
  | nil => simp
  | cons first later => simp

/-- The check of a parameter reports two kinds of violations. -/
theorem paramViolation_cases
    {param : CompiledParam} {parts : RequestParts} {violation : Violation}
    (violates : paramViolation library param parts = some violation) :
    violation = .missingRequired ∨ violation = .typeViolation := by
  rw [paramViolation] at violates
  split at violates
  · split_ifs at violates
    cases violates
    exact .inl rfl
  · split_ifs at violates
    cases violates
    exact .inr rfl

variable {library Valid}

theorem compileValidator_ok
    {doc schema : Json} {validator : Validator}
    (compiles : compileValidator library doc schema (is30 doc) false =
      .ok validator) :
    library.validatorFor (validatedSchema doc schema) = .ok validator := by
  rw [compileValidator] at compiles
  split at compiles
  · rename_i made
    cases compiles
    exact made
  · cases compiles

/-- The compiled parameter accepts the values that satisfy its schema. -/
theorem accepts_iff
    (decides : DecidesValidity library Valid) {doc raw : Json}
    {param : CompiledParam} (made : CompiledFrom library doc raw param)
    (value : Text) :
    param.accepts library value = true ↔
      Satisfies library Valid doc raw value := by
  have schema := made.schema
  rw [compileParamSchema] at schema
  rw [CompiledParam.accepts, Satisfies, scalarSchema]
  cases given : field "schema" (resolveRef doc raw) with
  | none =>
      rw [given] at schema
      rw [← (Prod.mk.inj (Except.ok.inj schema)).1]
      simp
  | some shape =>
      rw [given] at schema
      dsimp only at schema
      cases typed : scalarType (resolveRef doc shape) with
      | none =>
          rw [typed] at schema
          rw [← (Prod.mk.inj (Except.ok.inj schema)).1]
          simp [typed]
      | some scalar =>
          rw [typed] at schema
          obtain ⟨validator, compiles, schema⟩ := ok_of_bind_ok schema
          obtain ⟨scalars, validators⟩ := Prod.mk.inj (Except.ok.inj schema)
          rw [← scalars, ← validators]
          simp only [Option.bind_some, typed, Option.map_some,
            Option.some.injEq, Prod.mk.injEq, and_imp]
          rw [decides _ _ (compileValidator_ok compiles)]
          constructor
          · rintro valid _ _ rfl rfl
            exact valid
          · intro valid
            exact valid _ _ rfl rfl

theorem effectiveParam_eq_find?
    (doc : Json) (template method : Text) (key : Text × ParamIn) :
    effectiveParam doc template method key =
      (ownParameters doc template method ++
        sharedParameters doc template).find?
          fun raw => decide (paramKey doc raw = some key) := by
  rw [List.find?_append, effectiveParam]

section Unreported

variable {compiled : CompiledSpec} {template method : Text}
variable {op : CompiledOp} {parts : RequestParts}

/-- Without a report no parameter violates anything. -/
theorem paramViolation_of_unreported
    (operation : compiled.op template method = some op)
    (unreported : Unreported
      (compiled.validate library template method parts)) :
    ∀ param ∈ op.params, paramViolation library param parts = none := by
  intro param member
  cases violates : paramViolation library param parts with
  | none => rfl
  | some violation =>
      have reported := (mem_validate_iff library operation parts
        violation).mpr (.inl ⟨param, member, violates⟩)
      rcases paramViolation_cases library violates with rfl | rfl
      · exact absurd reported unreported.missingRequired
      · exact absurd reported unreported.typeViolation

/-- Without a report the first value of every parameter satisfies it. -/
theorem first_of_unreported
    (decides : DecidesValidity library Valid) {doc : Json}
    (operation : compiled.op template method = some op)
    (params : compileParams library doc (is30 doc) []
      (ownParameters doc template method ++
        sharedParameters doc template) = .ok op.params)
    (unreported : Unreported
      (compiled.validate library template method parts))
    {key : Text × ParamIn} {raw : Json}
    (counts : effectiveParam doc template method key = some raw) :
    (isRequired doc raw key.2 = true → occurrences parts key ≠ []) ∧
      ∀ value ∈ (occurrences parts key).head?,
        Satisfies library Valid doc raw value := by
  rw [effectiveParam_eq_find?] at counts
  obtain ⟨param, member, rfl, made⟩ :=
    compileParams_complete library params List.not_mem_nil counts
  obtain ⟨required, accepted⟩ := (paramViolation_eq_none_iff library).mp
    (paramViolation_of_unreported operation unreported param member)
  rw [made.required] at required
  exact ⟨required, fun value first =>
    (accepts_iff decides made value).mp (accepted value first)⟩

/-- Without a report the names in the query are declared. -/
theorem declared_of_unreported
    {doc : Json} (strict : compiled.strictParams = true)
    (operation : compiled.op template method = some op)
    (params : compileParams library doc (is30 doc) []
      (ownParameters doc template method ++
        sharedParameters doc template) = .ok op.params)
    (unreported : Unreported
      (compiled.validate library template method parts)) :
    ∀ pair ∈ parts.queryParams, ∃ raw,
      effectiveParam doc template method (pair.1, .query) = some raw := by
  intro pair member
  by_contra undeclared
  apply unreported.unknownParam
  refine (mem_validate_iff library operation parts _).mpr
    (.inr (.inl ⟨rfl, strict, pair, member, ?_⟩))
  rintro ⟨param, listed, place, name⟩
  obtain ⟨-, raw, counts⟩ := compileParams_sound library params param listed
  rw [← effectiveParam_eq_find?, place, name] at counts
  exact undeclared ⟨raw, counts⟩

end Unreported

/--
A request of a matched operation for which no violation of a parameter is
reported has the required parameters and no undeclared one in the query; all
its values satisfy the declared schemas if and only if those after the first
of each parameter do.
-/
theorem validate_covers_iff
    (decides : DecidesValidity library Valid) {doc : Json}
    {config : ApiSchemaEnforcementConfig} {compiled : CompiledSpec}
    (distinct : DistinctTemplates doc)
    (built : compile library doc config = .ok compiled)
    (strict : config.strictParams = true)
    {path method template : Text} {pathParams : List (Text × Text)}
    (matched : resolve compiled.router path method =
      .matched template pathParams)
    {parts : RequestParts}
    (unreported : Unreported
      (compiled.validate library template method parts)) :
    Covers library Valid doc template method parts ↔
      ∀ key raw, effectiveParam doc template method key = some raw →
        ∀ value ∈ (occurrences parts key).tail,
          Satisfies library Valid doc raw value := by
  obtain ⟨op, operation, params⟩ :=
    op_of_matched library distinct built matched
  have strictly : compiled.strictParams = true := by
    obtain ⟨groups, -, filled⟩ := ok_of_bind_ok built
    cases filled
    exact strict
  constructor
  · intro covers key raw counts value later
    exact covers.satisfied key raw counts value (List.mem_of_mem_tail later)
  · intro later
    constructor
    · intro key raw counts
      exact (first_of_unreported decides operation params unreported
        counts).1
    · intro key raw counts value member
      have first := (first_of_unreported decides operation params unreported
        counts).2
      have others := later key raw counts
      cases split : occurrences parts key with
      | nil =>
          rw [split] at member
          cases member
      | cons head rest =>
          rw [split] at first others member
          rcases List.mem_cons.mp member with rfl | member
          · exact first value rfl
          · exact others value member
    · exact declared_of_unreported strictly operation params unreported

end Library

/-! ## Samples -/

/-- Whether a value has the scalar type that a schema names. -/
def hasNamedType (schema value : Json) : Bool :=
  match scalarType schema, value with
  | some .integer, .number _ => true
  | some .number, .number _ => true
  | some .boolean, .bool _ => true
  | some .string, .string _ => true
  | some _, _ => false
  | none, _ => true

/-- A library for schemas that only name a type. -/
def typeLibrary : SchemaLibrary where
  validatorFor := fun schema => .ok
    { isValid := hasNamedType schema
      iterErrors := fun value =>
        if hasNamedType schema value then [] else [.other] }
  numberFromF64 := fun _ => none
  fromSlice := fun _ => none

theorem typeLibrary_decides :
    DecidesValidity typeLibrary
      fun schema value => hasNamedType schema value = true := by
  intro schema validator made value
  cases made
  exact Iff.rfl

/-- A parameter of the query that is to be an integer. -/
def integerParam : Json :=
  .object [("name".toList, .string "id".toList),
    ("in".toList, .string "query".toList),
    ("schema".toList, .object [("type".toList, .string "integer".toList)])]

/-- A document with one operation that declares it. -/
def integerDoc : Json :=
  .object
    [("openapi".toList, .string "3.1.0".toList),
      ("info".toList, .object
        [("title".toList, .string "t".toList),
          ("version".toList, .string "1".toList)]),
      ("paths".toList, .object
        [("/a".toList, .object
          [("get".toList, .object
            [("parameters".toList, .array [integerParam])])])])]

/-- A request with values of the parameter. -/
def integerParts (values : List String) : RequestParts where
  pathParams := []
  queryParams := values.map fun value => ("id".toList, value.toList)
  headers := []
  contentType := none
  body := none

/-- The compiled document. -/
def integerSpec : CompiledSpec where
  router := buildRouter integerDoc
  strictParams := true
  ops := [(("/a".toList, "get".toList),
    ⟨[⟨"id".toList, .query, false, some .integer,
      some
        { isValid := hasNamedType
            (.object [("type".toList, .string "integer".toList)])
          iterErrors := fun value =>
            if hasNamedType
              (.object [("type".toList, .string "integer".toList)])
              value then [] else [.other] }⟩], none⟩)]

theorem compile_integerDoc :
    compile typeLibrary integerDoc {} = .ok integerSpec := by
  rfl

theorem resolve_integerDoc :
    resolve integerSpec.router "/a".toList "GET".toList =
      .matched "/a".toList [] := by
  have single : integerSpec.router =
      [⟨"/a".toList, parseTemplate "/a".toList, ["get".toList]⟩] :=
    List.mergeSort_singleton _
  rw [single]
  decide

theorem validate_misses_repeated :
    compile typeLibrary integerDoc {} = .ok integerSpec ∧
      resolve integerSpec.router "/a".toList "GET".toList =
        .matched "/a".toList [] ∧
      integerSpec.validate typeLibrary "/a".toList "GET".toList
        (integerParts ["1", "abc"]) = [] ∧
      ¬ Covers typeLibrary
        (fun schema value => hasNamedType schema value = true) integerDoc
        "/a".toList "GET".toList (integerParts ["1", "abc"]) := by
  refine ⟨compile_integerDoc, resolve_integerDoc, by decide, ?_⟩
  intro covers
  have valid := covers.satisfied ("id".toList, .query) integerParam rfl
    "abc".toList (by decide) .integer
    (.object [("type".toList, .string "integer".toList)]) rfl
  cases valid

theorem validate_covers_single :
    DistinctTemplates integerDoc ∧
      compile typeLibrary integerDoc {} = .ok integerSpec ∧
      resolve integerSpec.router "/a".toList "GET".toList =
        .matched "/a".toList [] ∧
      Unreported (integerSpec.validate typeLibrary "/a".toList
        "GET".toList (integerParts ["1"])) ∧
      Covers typeLibrary
        (fun schema value => hasNamedType schema value = true) integerDoc
        "/a".toList "GET".toList (integerParts ["1"]) := by
  have distinct : DistinctTemplates integerDoc := by
    rw [DistinctTemplates]
    decide
  have unreported : Unreported (integerSpec.validate typeLibrary
      "/a".toList "GET".toList (integerParts ["1"])) := by
    constructor <;> decide
  refine ⟨distinct, compile_integerDoc, resolve_integerDoc, unreported, ?_⟩
  apply (validate_covers_iff typeLibrary_decides distinct compile_integerDoc
    rfl resolve_integerDoc unreported).mpr
  intro key raw counts value later
  have single : (occurrences (integerParts ["1"]) key).length ≤ 1 := by
    rw [occurrences]
    cases key.2 with
    | path => exact Nat.zero_le 1
    | query =>
        exact length_valuesOf_le (integerParts ["1"]).queryParams key.1 false
    | header => exact Nat.zero_le 1
  have none : (occurrences (integerParts ["1"]) key).tail = [] := by
    apply List.eq_nil_of_length_eq_zero
    rw [List.length_tail]
    exact Nat.sub_eq_zero_of_le single
  rw [none] at later
  cases later

end LightWaf.Schema
