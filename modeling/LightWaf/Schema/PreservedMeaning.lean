import LightWaf.Schema.NormalizedSchemas

/-!
# Schemas that keep their meaning

Over a set of property names and a set of listed data, what
`normalize_schema_3_0` keeps of every schema object built from them.
-/

namespace LightWaf.Schema

open LightWaf.Rust
open LightWaf.Normalizer

variable {numbers : Numbers} {dialect : Dialect} {names : Set Text}
  {data : Set Json} {fields : List (Text × Json)}

/-! ## The arguments of a schema object -/

/-- Keywords with a schema, or schemas, for an argument. -/
def Keyword.holdsSchemas : Keyword → Bool
  | .properties => true
  | .additionalProperties => true
  | .items => true
  | _ => false

theorem argument_eq_some_iff_mem
    (nodup : (fields.map Prod.fst).Nodup) {keyword : Keyword}
    {value : Json} :
    argument fields keyword = some value ↔ (keyword.text, value) ∈ fields :=
  HashMap.lookup_eq_some_iff_mem nodup

/-- What a schema object gives a keyword is an argument of it. -/
theorem IsSchema.fits
    (schema : IsSchema dialect names data (.object fields))
    {keyword : Keyword} {value : Json}
    (found : argument fields keyword = some value) :
    Argument dialect names data keyword value := by
  cases schema with
  | object nodup arguments properties additional items =>
      obtain ⟨same, equal, fits⟩ := arguments keyword.text value
        ((argument_eq_some_iff_mem nodup).mp found)
      rw [Keyword.text_injective equal]
      exact fits

/-- The names and the data normalization does not rewrite. -/
structure LeavesAlone (names : Set Text) (data : Set Json) : Prop where
  names : Keyword.nullable.text ∉ names
  data : ∀ datum ∈ data, Distinct datum → Untouched datum

theorem untouched_strings {α : Type} (text : α → Text) (list : List α) :
    Untouched (.array (list.map fun item => .string (text item))) := by
  refine .array fun item member => ?_
  obtain ⟨inner, -, rfl⟩ := List.mem_map.mp member
  exact .string _

theorem Argument.untouched
    (leaves : LeavesAlone names data) {keyword : Keyword} {value : Json}
    (fits : Argument dialect names data keyword value)
    (leaf : keyword.holdsSchemas = false) :
    Untouched value := by
  cases fits with
  | type type named => exact .string _
  | types types newer => exact untouched_strings JsonType.text types
  | nullable flag older => exact .bool flag
  | properties nodup named => cases leaf
  | required listed => exact untouched_strings id listed
  | additionalFlag flag => cases leaf
  | additionalSchema fields => cases leaf
  | items fields => cases leaf
  | enum listed =>
      exact .array fun value member =>
        leaves.data value (listed value member).1 (listed value member).2
  | bound side literal => exact .number literal
  | exclusiveFlag side flag older => exact .bool flag
  | exclusiveBound side literal newer => exact .number literal

/-- The argument of a keyword without schemas stays as it is. -/
theorem IsSchema.leaf_normalizeFields30
    (leaves : LeavesAlone names data)
    (schema : IsSchema dialect names data (.object fields))
    {keyword : Keyword} (leaf : keyword.holdsSchemas = false) :
    argument (normalizeFields30 fields) keyword =
      argument fields keyword := by
  rw [argument_normalizeFields30]
  cases found : argument fields keyword with
  | none => rfl
  | some value =>
      rw [Option.map_some,
        ((schema.fits found).untouched leaves
          leaf).normalizeSchema30_eq_self]

/-- The map of the properties has no member to lose. -/
theorem IsSchema.plain_properties
    (leaves : LeavesAlone names data)
    (schema : IsSchema dialect names data (.object fields))
    {declared : List (Text × Json)}
    (found : argument fields .properties = some (.object declared)) :
    Plain declared := by
  have named : ∀ entry ∈ declared, entry.1 ∈ names := by
    cases schema.fits found with
    | properties nodup named => exact named
  constructor
  · rw [argument, List.lookup_eq_none_iff]
    intro entry member
    have differs : Keyword.nullable.text ≠ entry.1 := fun same =>
      leaves.names (same ▸ named entry member)
    simpa using differs
  · intro side flag flagged
    cases schema with
    | object nodup arguments properties additional items =>
        have inner : propertySchema fields (Keyword.exclusive side).text =
            some (.bool flag) := by
          rw [propertySchema, found]
          exact flagged
        cases properties _ _ inner

theorem IsSchema.propertySchema_normalize
    (leaves : LeavesAlone names data)
    (schema : IsSchema dialect names data (.object fields)) (name : Text) :
    propertySchema (normalizeObject (normalizeFields30 fields)) name =
      (propertySchema fields name).map normalizeSchema30 := by
  rw [propertySchema, propertySchema, argument_normalizeObject]
  dsimp only
  rw [argument_normalizeFields30]
  cases found : argument fields .properties with
  | none => rfl
  | some value =>
      cases schema.fits found with
      | properties nodup named =>
          rename_i declared
          have plain := schema.plain_properties leaves found
          rw [Option.map_some, normalizeSchema30_object,
            (plain_normalizeFields30_iff.mpr plain).normalizeObject_eq_self]
          exact lookup_normalizeFields30 declared name

/-! ## Assertions -/

/-- The types a normalized schema admits. -/
theorem IsSchema.admitsType_normalize
    (leaves : LeavesAlone names data)
    (schema : IsSchema .openApi30 names data (.object fields))
    (typed : argument fields .type ≠ none) (type : JsonType) :
    AdmitsType (normalizeObject (normalizeFields30 fields)) type
        .draft202012 ↔
      AdmitsType fields type .openApi30 := by
  obtain ⟨value, found⟩ := Option.ne_none_iff_exists'.mp typed
  cases schema.fits found with
  | types types newer => cases newer
  | type named notNull =>
      rw [AdmitsType, AdmitsType, argument_normalizeObject]
      dsimp only
      by_cases nullable : argument fields .nullable = some (.bool true)
      · rw [argument_widenType_of_nullable
            ((schema.leaf_normalizeFields30 leaves rfl).trans nullable),
          schema.leaf_normalizeFields30 leaves rfl, found, nullable]
        have null : "null".toList = JsonType.null.text := rfl
        simp [addNullToType, null, JsonType.text_injective.eq_iff, eq_comm]
      · rw [widenType_of_not_nullable (by
            rw [schema.leaf_normalizeFields30 leaves rfl]
            exact nullable),
          schema.leaf_normalizeFields30 leaves rfl, found]
        simp [nullable]

theorem IsSchema.type_normalize_eq_none_iff
    (leaves : LeavesAlone names data)
    (schema : IsSchema .openApi30 names data (.object fields)) :
    argument (normalizeObject (normalizeFields30 fields)) .type = none ↔
      argument fields .type = none := by
  rw [argument_normalizeObject]
  dsimp only
  by_cases nullable : argument fields .nullable = some (.bool true)
  · rw [argument_widenType_of_nullable
        ((schema.leaf_normalizeFields30 leaves rfl).trans nullable),
      schema.leaf_normalizeFields30 leaves rfl, Option.map_eq_none_iff]
  · rw [widenType_of_not_nullable (by
        rw [schema.leaf_normalizeFields30 leaves rfl]
        exact nullable),
      schema.leaf_normalizeFields30 leaves rfl]

/-- The flag of a bound becomes a bound of its own. -/
theorem IsSchema.boundHolds_normalize
    (leaves : LeavesAlone names data)
    (schema : IsSchema .openApi30 names data (.object fields))
    (side : Side) (number : ℚ) :
    BoundHolds numbers (normalizeObject (normalizeFields30 fields)) side
        number .draft202012 ↔
      BoundHolds numbers fields side number .openApi30 := by
  rw [BoundHolds, BoundHolds, argument_normalizeObject,
    argument_normalizeObject]
  dsimp only
  rw [schema.leaf_normalizeFields30 leaves rfl,
    schema.leaf_normalizeFields30 leaves rfl]
  cases found : argument fields (.exclusive side) with
  | none => simp [resolvedBound, resolvedExclusive]
  | some value =>
      cases schema.fits found with
      | exclusiveBound side literal newer => cases newer
      | exclusiveFlag side flag older =>
          cases flag with
          | true => simp [resolvedBound, resolvedExclusive]
          | false => simp [resolvedBound, resolvedExclusive]

theorem IsSchema.asserts_normalize_iff
    (leaves : LeavesAlone names data)
    (schema : IsSchema .openApi30 names data (.object fields))
    (value : Json) :
    Asserts numbers .draft202012
        (normalizeObject (normalizeFields30 fields)) value ↔
      Asserts numbers .openApi30 fields value := by
  have required : argument (normalizeObject (normalizeFields30 fields))
      .required = argument fields .required :=
    (argument_normalizeObject _ _).trans
      (schema.leaf_normalizeFields30 leaves rfl)
  have enum : argument (normalizeObject (normalizeFields30 fields)) .enum =
      argument fields .enum :=
    (argument_normalizeObject _ _).trans
      (schema.leaf_normalizeFields30 leaves rfl)
  rw [asserts_iff, asserts_iff, required, enum, Ne, Ne,
    schema.type_normalize_eq_none_iff leaves]
  refine and_congr ?_ (and_congr ?_ Iff.rfl)
  · refine forall_congr' fun typed => exists_congr fun type => ?_
    exact and_congr_left' (schema.admitsType_normalize leaves typed type)
  · exact forall₃_congr fun side literal _ =>
      schema.boundHolds_normalize leaves side (numbers.value literal)

/-! ## Meaning -/

theorem valid_bool_iff {flag : Bool} {value : Json} :
    Valid numbers dialect (.bool flag) value ↔ flag = true := by
  constructor
  · intro valid
    cases valid
    rfl
  · rintro rfl
    exact .always value

/-- Validity for a schema object, part by part. -/
theorem valid_object_iff {value : Json} :
    Valid numbers dialect (.object fields) value ↔
      Asserts numbers dialect fields value ∧
      (∀ name schema, propertySchema fields name = some schema →
        ∀ inner, member name value = some inner →
          Valid numbers dialect schema inner) ∧
      (∀ schema, argument fields .additionalProperties = some schema →
        ∀ name inner, propertySchema fields name = none →
          member name value = some inner →
            Valid numbers dialect schema inner) ∧
      ∀ schema, argument fields .items = some schema →
        ∀ element ∈ elements value,
          Valid numbers dialect schema element := by
  constructor
  · intro valid
    cases valid with
    | object asserts properties additional items =>
        exact ⟨asserts,
          fun name schema found inner => properties name schema inner found,
          fun schema found name inner => additional schema name inner found,
          fun schema found element => items schema element found⟩
  · rintro ⟨asserts, properties, additional, items⟩
    exact .object asserts
      (fun name schema inner found => properties name schema found inner)
      (fun schema name inner found => additional schema found name inner)
      (fun schema element found => items schema found element)

theorem forall_map_some_congr
    {α β : Type} {map : α → β} {option : Option α} {after : β → Prop}
    {before : α → Prop}
    (same : ∀ item, option = some item → (after (map item) ↔ before item)) :
    (∀ item, option.map map = some item → after item) ↔
      ∀ item, option = some item → before item := by
  cases option with
  | none => simp
  | some item => simpa using same item rfl

/-- Every schema keeps its meaning where names and data are left alone. -/
theorem IsSchema.valid_normalize_iff
    (leaves : LeavesAlone names data) {schema : Json}
    (isSchema : IsSchema .openApi30 names data schema) (value : Json) :
    Valid numbers .draft202012 (normalizeSchema30 schema) value ↔
      Valid numbers .openApi30 schema value := by
  -- The schemas inside a schema object say the same of every inner value.
  induction isSchema generalizing value with
  | object nodup arguments properties additional items sameProperties
      sameAdditional sameItems =>
      rename_i fields
      have whole : IsSchema .openApi30 names data (.object fields) :=
        .object nodup arguments properties additional items
      have sameRest : ∀ schema,
          argument fields .additionalProperties = some schema →
            ∀ inner,
              Valid numbers .draft202012 (normalizeSchema30 schema) inner ↔
                Valid numbers .openApi30 schema inner := by
        intro schema found inner
        cases whole.fits found with
        | additionalFlag flag =>
            rw [normalizeSchema30_eq_bool_iff.mpr rfl, valid_bool_iff,
              valid_bool_iff]
        | additionalSchema rest => exact sameAdditional rest found inner
      rw [normalizeSchema30_object, valid_object_iff, valid_object_iff,
        whole.asserts_normalize_iff leaves, argument_normalizeObject,
        argument_normalizeObject]
      dsimp only
      rw [argument_normalizeFields30, argument_normalizeFields30]
      refine and_congr Iff.rfl (and_congr ?_ (and_congr ?_ ?_))
      · refine forall_congr' fun name => ?_
        rw [whole.propertySchema_normalize leaves]
        exact forall_map_some_congr fun schema found =>
          forall₂_congr fun inner _ =>
            sameProperties name schema found inner
      · refine forall_map_some_congr fun schema found => ?_
        refine forall₂_congr fun name inner => ?_
        rw [whole.propertySchema_normalize leaves, Option.map_eq_none_iff]
        exact forall₂_congr fun _ _ => sameRest schema found inner
      · exact forall_map_some_congr fun schema found =>
          forall₂_congr fun element _ =>
            sameItems schema found element

/-! ## Schemas left as they are -/

theorem Untouched.addNullToType {value : Json} (untouched : Untouched value) :
    Untouched (addNullToType value) := by
  cases untouched with
  | string text =>
      refine .array fun item member => ?_
      rcases List.mem_pair.mp member with rfl | rfl
      · exact .string _
      · exact .string _
  | array inner =>
      rw [Schema.addNullToType]
      split_ifs
      · exact .array inner
      · refine .array fun item member => ?_
        rcases List.mem_append.mp member with before | added
        · exact inner item before
        · rw [List.mem_singleton.mp added]
          exact .string _
  | null => exact .null
  | bool flag => exact .bool flag
  | number text => exact .number text
  | object plain inner => exact .object plain inner

theorem forall_removeField
    {motive : Json → Prop} (name : String)
    (holds : ∀ entry ∈ fields, motive entry.2) :
    ∀ entry ∈ removeField name fields, motive entry.2 :=
  fun entry member => holds entry (List.mem_filter.mp member).1

theorem forall_insertField
    {motive : Json → Prop} {name : String} {value : Json}
    (holds : ∀ entry ∈ fields, motive entry.2) (added : motive value) :
    ∀ entry ∈ insertField name value fields, motive entry.2 := by
  intro entry member
  rw [insertField] at member
  split_ifs at member
  · obtain ⟨before, inside, rfl⟩ := List.mem_map.mp member
    split_ifs
    · exact added
    · exact holds before inside
  · rcases List.mem_append.mp member with inside | last
    · exact holds entry inside
    · rw [List.mem_singleton.mp last]
      exact added

theorem motive_of_lookup
    {motive : Json → Prop} (holds : ∀ entry ∈ fields, motive entry.2)
    {name : Text} {value : Json} (found : fields.lookup name = some value) :
    motive value := by
  obtain ⟨before, after, rfl, -⟩ := List.lookup_eq_some_iff.mp found
  exact holds (name, value) (List.mem_append_right _ List.mem_cons_self)

theorem forall_fixBound
    {motive : Json → Prop} (side : Side)
    (holds : ∀ entry ∈ fields, motive entry.2) :
    ∀ entry ∈ fixBound side fields, motive entry.2 := by
  rw [fixBound, fixExclusiveBound]
  split
  · dsimp only
    have fewer := forall_removeField (Keyword.exclusive side).name holds
    split
    · split
      · rename_i limit found
        exact forall_insertField (forall_removeField _ fewer)
          (motive_of_lookup fewer found)
      · exact fewer
    · exact fewer
  · exact holds

/-- What holds of the members holds of those the rewriting leaves. -/
theorem forall_normalizeObject
    {motive : Json → Prop}
    (widens : ∀ value, motive value → motive (addNullToType value))
    (holds : ∀ entry ∈ fields, motive entry.2) :
    ∀ entry ∈ normalizeObject fields, motive entry.2 := by
  have widened : ∀ entry ∈ widenType fields, motive entry.2 := by
    rw [widenType]
    split
    · rename_i type _ found
      exact forall_insertField holds
        (widens type (motive_of_lookup holds found))
    · exact holds
  rw [normalizeObject_eq]
  exact forall_fixBound .upper (forall_fixBound .lower
    (forall_removeField _ widened))

theorem IsSchema.propertySchema_of_mem
    (whole : IsSchema dialect names data (.object fields))
    {declared : List (Text × Json)}
    (found : argument fields .properties = some (.object declared))
    {name : Text} {schema : Json} (inside : (name, schema) ∈ declared) :
    propertySchema fields name = some schema := by
  cases whole.fits found with
  | properties nodup named =>
      rw [propertySchema, found]
      exact (HashMap.lookup_eq_some_iff_mem nodup).mpr inside

/-- The members of a schema object are arguments of its keywords. -/
theorem IsSchema.argument_of_mem
    (whole : IsSchema dialect names data (.object fields))
    {name : Text} {value : Json} (inside : (name, value) ∈ fields) :
    ∃ keyword : Keyword, argument fields keyword = some value := by
  cases whole with
  | object nodup arguments properties additional items =>
      obtain ⟨keyword, rfl, -⟩ := arguments name value inside
      exact ⟨keyword, (argument_eq_some_iff_mem nodup).mpr inside⟩

/-- A schema without the keywords of the older dialect stays as it is. -/
theorem IsSchema.untouched
    (leaves : LeavesAlone names data) {schema : Json}
    (isSchema : IsSchema .draft202012 names data schema) :
    Untouched schema := by
  induction isSchema with
  | object nodup arguments properties additional items ofProperties
      ofAdditional ofItems =>
      rename_i fields
      have whole : IsSchema .draft202012 names data (.object fields) :=
        .object nodup arguments properties additional items
      refine .object ⟨?_, ?_⟩ ?_
      · by_contra present
        obtain ⟨value, found⟩ := Option.ne_none_iff_exists'.mp present
        cases whole.fits found with
        | nullable flag older => cases older
      · intro side flag found
        cases whole.fits found with
        | exclusiveFlag side flag older => cases older
      · intro name value inside
        obtain ⟨keyword, found⟩ := whole.argument_of_mem inside
        have fits := whole.fits found
        cases leaf : keyword.holdsSchemas with
        | false => exact fits.untouched leaves leaf
        | true =>
            cases fits with
            | properties distinct named =>
                exact .object (whole.plain_properties leaves found)
                  fun inner schema declared => ofProperties inner schema
                    (whole.propertySchema_of_mem found declared)
            | additionalFlag flag => exact .bool flag
            | additionalSchema rest => exact ofAdditional rest found
            | items rest => exact ofItems _ found
            | _ => cases leaf

/-- Normalized bounds are numbers. -/
theorem IsSchema.plain_normalize
    (leaves : LeavesAlone names data)
    (schema : IsSchema .openApi30 names data (.object fields)) :
    Plain (normalizeObject (normalizeFields30 fields)) := by
  refine ⟨argument_normalizeObject _ .nullable, fun side flag => ?_⟩
  rw [argument_normalizeObject]
  dsimp only
  rw [schema.leaf_normalizeFields30 leaves rfl,
    schema.leaf_normalizeFields30 leaves rfl]
  cases found : argument fields (.exclusive side) with
  | none => nofun
  | some value =>
      cases schema.fits found with
      | exclusiveBound side literal newer => cases newer
      | exclusiveFlag side set older =>
          cases set with
          | false => nofun
          | true =>
              intro (flagged : argument fields (.bound side) = _)
              cases schema.fits flagged

/-- The map of the properties keeps its members, each normalized. -/
theorem IsSchema.untouched_normalize_properties
    (leaves : LeavesAlone names data)
    (schema : IsSchema dialect names data (.object fields))
    {declared : List (Text × Json)}
    (found : argument fields .properties = some (.object declared))
    (normalized : ∀ name inner, propertySchema fields name = some inner →
      Untouched (normalizeSchema30 inner)) :
    Untouched (normalizeSchema30 (.object declared)) := by
  have plain := plain_normalizeFields30_iff.mpr
    (schema.plain_properties leaves found)
  rw [normalizeSchema30_object, plain.normalizeObject_eq_self]
  refine .object plain fun name value inside => ?_
  rw [normalizeFields30_eq_map] at inside
  obtain ⟨entry, before, same⟩ := List.mem_map.mp inside
  cases same
  exact normalized entry.1 entry.2
    (schema.propertySchema_of_mem found before)

/-- A normalized schema is left as it is. -/
theorem IsSchema.untouched_normalize
    (leaves : LeavesAlone names data) {schema : Json}
    (isSchema : IsSchema .openApi30 names data schema) :
    Untouched (normalizeSchema30 schema) := by
  induction isSchema with
  | object nodup arguments properties additional items ofProperties
      ofAdditional ofItems =>
      rename_i fields
      have whole : IsSchema .openApi30 names data (.object fields) :=
        .object nodup arguments properties additional items
      have members : ∀ entry ∈ normalizeFields30 fields,
          Untouched entry.2 := by
        rw [normalizeFields30_eq_map, List.forall_mem_map]
        rintro ⟨name, value⟩ inside
        obtain ⟨keyword, found⟩ := whole.argument_of_mem inside
        have fits := whole.fits found
        cases leaf : keyword.holdsSchemas with
        | false =>
            have untouched := fits.untouched leaves leaf
            exact untouched.normalizeSchema30_eq_self.symm ▸ untouched
        | true =>
            cases fits with
            | properties distinct named =>
                exact whole.untouched_normalize_properties leaves found
                  ofProperties
            | additionalFlag flag =>
                exact (normalizeSchema30_eq_bool_iff.mpr rfl).symm ▸
                  Untouched.bool flag
            | additionalSchema rest => exact ofAdditional rest found
            | items rest => exact ofItems _ found
            | _ => cases leaf
      have rewritten : ∀ entry ∈ normalizeObject (normalizeFields30 fields),
          Untouched entry.2 :=
        forall_normalizeObject
          (fun _ untouched => untouched.addNullToType) members
      rw [normalizeSchema30_object]
      exact .object (whole.plain_normalize leaves)
        fun name value inside => rewritten (name, value) inside

/-! ## What names and data take away -/

/-- A schema object with one keyword. -/
def single (keyword : Keyword) (value : Json) : Json :=
  .object [(keyword.text, value)]

theorem argument_single (keyword other : Keyword) (value : Json) :
    argument [(keyword.text, value)] other =
      if other = keyword then some value else none := by
  rw [argument, List.lookup_cons, List.lookup_nil]
  by_cases same : other = keyword
  · rw [if_pos same, same, beq_self_eq_true]
  · rw [if_neg same, beq_false_of_ne (Keyword.text_injective.ne same)]

theorem valid_single_enum_iff {datum value : Json} :
    Valid numbers dialect (single .enum (.array [datum])) value ↔
      Same numbers value datum := by
  rw [single, valid_object_iff]
  constructor
  · rintro ⟨asserts, -⟩
    obtain ⟨listed, member, same⟩ := asserts.enum [datum]
      (by rw [argument_single, if_pos rfl])
    rw [List.mem_singleton.mp member] at same
    exact same
  · intro same
    refine ⟨⟨?_, ?_, ?_, ?_⟩, ?_⟩
    · simp [argument_single]
    · cases dialect <;> simp [BoundHolds, argument_single]
    · simp [argument_single]
    · intro values found
      rw [argument_single, if_pos rfl] at found
      cases found
      exact ⟨datum, List.mem_singleton_self datum, same⟩
    · simp [argument_single, propertySchema]

theorem valid_single_properties_iff
    {declared : List (Text × Json)} {value : Json} :
    Valid numbers dialect (single .properties (.object declared)) value ↔
      ∀ name schema, declared.lookup name = some schema →
        ∀ inner, member name value = some inner →
          Valid numbers dialect schema inner := by
  have found : ∀ name, propertySchema
      [(Keyword.properties.text, .object declared)] name =
        declared.lookup name := by
    intro name
    rw [propertySchema, argument_single, if_pos rfl]
    rfl
  rw [single, valid_object_iff]
  simp only [found]
  constructor
  · rintro ⟨-, properties, -⟩
    exact properties
  · intro properties
    refine ⟨⟨?_, ?_, ?_, ?_⟩, properties, ?_⟩
    · simp [argument_single]
    · cases dialect <;> simp [BoundHolds, argument_single]
    · simp [argument_single]
    · simp [argument_single]
    · simp [argument_single]

theorem isSchema_single_enum
    {datum : Json} (known : datum ∈ data) (distinct : Distinct datum) :
    IsSchema dialect names data (single .enum (.array [datum])) := by
  refine .object (List.nodup_singleton _) ?_ ?_ ?_ ?_
  · intro name value inside
    cases List.mem_singleton.mp inside
    refine ⟨.enum, rfl, .enum fun value member => ?_⟩
    rw [List.mem_singleton.mp member]
    exact ⟨known, distinct⟩
  · simp [propertySchema, argument_single]
  · simp [argument_single]
  · simp [argument_single]

/-- The schema of strings. -/
def stringSchema : Json :=
  single .type (.string JsonType.string.text)

theorem isSchema_stringSchema : IsSchema dialect names data stringSchema := by
  refine .object (List.nodup_singleton _) ?_ ?_ ?_ ?_
  · intro name value inside
    cases List.mem_singleton.mp inside
    exact ⟨.type, rfl, .type .string fun _ => nofun⟩
  · simp [propertySchema, argument_single]
  · simp [argument_single]
  · simp [argument_single]

theorem not_valid_stringSchema (flag : Bool) :
    ¬ Valid numbers dialect stringSchema (.bool flag) := by
  rw [stringSchema, single, valid_object_iff]
  rintro ⟨asserts, -⟩
  obtain ⟨type, admits, has⟩ := asserts.type
    (by simp [argument_single])
  have isString : type = .string := by
    cases dialect with
    | openApi30 =>
        simpa [AdmitsType, argument_single,
          JsonType.text_injective.eq_iff, eq_comm] using admits
    | draft202012 =>
        simpa [AdmitsType, argument_single,
          JsonType.text_injective.eq_iff, eq_comm] using admits
  rw [isString] at has
  exact has

/-- The schema with one string property. -/
def stringProperty (name : Text) : Json :=
  single .properties (.object [(name, stringSchema)])

theorem isSchema_stringProperty {name : Text} (known : name ∈ names) :
    IsSchema dialect names data (stringProperty name) := by
  refine .object (List.nodup_singleton _) ?_ ?_ ?_ ?_
  · intro other value inside
    cases List.mem_singleton.mp inside
    refine ⟨.properties, rfl, .properties (List.nodup_singleton _) ?_⟩
    intro entry member
    rw [List.mem_singleton.mp member]
    exact known
  · intro other schema found
    rw [propertySchema, argument_single, if_pos rfl] at found
    obtain ⟨before, after, split, -⟩ := List.lookup_eq_some_iff.mp
      (show [(name, stringSchema)].lookup other = some schema from found)
    have inside : (other, schema) ∈ [(name, stringSchema)] :=
      split ▸ List.mem_append_right _ List.mem_cons_self
    cases List.mem_singleton.mp inside
    exact isSchema_stringSchema
  · simp [argument_single]
  · simp [argument_single]

theorem normalizeSchema30_single_enum (datum : Json) :
    normalizeSchema30 (single .enum (.array [datum])) =
      single .enum (.array [normalizeSchema30 datum]) := by
  have plain : Plain
      [(Keyword.enum.text, Json.array [normalizeSchema30 datum])] := by
    constructor
    · simp [argument_single]
    · simp [argument_single]
  rw [single, normalizeSchema30_object, normalizeFields30_eq_map,
    List.map_singleton, normalizeSchema30_array, List.map_singleton,
    plain.normalizeObject_eq_self]
  rfl

/-- A property named as the keyword is dropped. -/
theorem normalizeSchema30_stringProperty_nullable :
    normalizeSchema30 (stringProperty Keyword.nullable.text) =
      single .properties (.object []) := by
  have dropped : normalizeObject (normalizeFields30
      [(Keyword.nullable.text, stringSchema)]) = [] := by
    rw [normalizeFields30_eq_map, List.map_singleton]
    rfl
  have plain : Plain [(Keyword.properties.text, Json.object [])] := by
    constructor
    · simp [argument_single]
    · simp [argument_single]
  rw [stringProperty, single, normalizeSchema30_object,
    normalizeFields30_eq_map, List.map_singleton, normalizeSchema30_object,
    dropped, plain.normalizeObject_eq_self]
  rfl

/-- An object whose property of that name is a flag. -/
def flaggedValue : Json :=
  .object [(Keyword.nullable.text, .bool true)]

theorem valid_dropped :
    Valid numbers dialect (single .properties (.object [])) flaggedValue :=
  valid_single_properties_iff.mpr fun _ _ found => nomatch found

theorem not_valid_stringProperty :
    ¬ Valid numbers dialect (stringProperty Keyword.nullable.text)
      flaggedValue := by
  intro valid
  exact not_valid_stringSchema true
    (valid_single_properties_iff.mp valid Keyword.nullable.text
      stringSchema rfl (.bool true) rfl)

/-! ## Preservation -/

/--
What normalization is documented to do to the schema objects over some
property names and some listed data: the meaning of those of the older
dialect is that of their normalized form in the newer one, normalizing once
more changes nothing, and those without the keywords of the older dialect
alone stay as they are.
-/
structure Preserves (numbers : Numbers) (names : Set Text)
    (data : Set Json) : Prop where
  meaning : ∀ schema, IsSchema .openApi30 names data schema →
    ∀ value, Valid numbers .draft202012 (normalizeSchema30 schema) value ↔
      Valid numbers .openApi30 schema value
  idempotent : ∀ schema, IsSchema .openApi30 names data schema →
    normalizeSchema30 (normalizeSchema30 schema) = normalizeSchema30 schema
  unchanged : ∀ schema, IsSchema .draft202012 names data schema →
    normalizeSchema30 schema = schema

theorem LeavesAlone.preserves (leaves : LeavesAlone names data) :
    Preserves numbers names data where
  meaning := fun _ isSchema value =>
    isSchema.valid_normalize_iff leaves value
  idempotent := fun _ isSchema =>
    (isSchema.untouched_normalize leaves).normalizeSchema30_eq_self
  unchanged := fun _ isSchema =>
    (isSchema.untouched leaves).normalizeSchema30_eq_self

/-- A change of meaning shows in every name and every datum rewritten. -/
theorem Preserves.leavesAlone (preserves : Preserves numbers names data) :
    LeavesAlone names data where
  names := by
    intro known
    have same := preserves.meaning _ (isSchema_stringProperty known)
      flaggedValue
    rw [normalizeSchema30_stringProperty_nullable] at same
    exact not_valid_stringProperty (same.mp valid_dropped)
  data := by
    intro datum known distinct
    have same := preserves.meaning _ (isSchema_single_enum known distinct)
      datum
    rw [normalizeSchema30_single_enum, valid_single_enum_iff,
      valid_single_enum_iff] at same
    exact untouched_of_same distinct (same.mpr (same_refl distinct))

/--
Normalization does what is documented for the schemas over some names and
data exactly where no property is named `nullable` and no object in the data
has that member or a flag for a bound.
-/
theorem preserves_iff
    (numbers : Numbers) (names : Set Text) (data : Set Json) :
    Preserves numbers names data ↔
      Keyword.nullable.text ∉ names ∧
        ∀ datum ∈ data, Distinct datum → Untouched datum := by
  constructor
  · intro preserves
    exact ⟨preserves.leavesAlone.names, preserves.leavesAlone.data⟩
  · rintro ⟨named, listed⟩
    exact LeavesAlone.preserves ⟨named, listed⟩

/-- Literals read as natural numbers. -/
def naturalNumbers : Numbers where
  value := fun text => ((fromStrRadix 10 (2 ^ 64) text).getD 0 : ℕ)
  IsInteger := fun _ => True

/-- A property named `nullable` admits, once normalized, a flag for a string. -/
theorem not_preserves_nullable :
    IsSchema .openApi30 Set.univ Set.univ
        (stringProperty "nullable".toList) ∧
      Valid naturalNumbers .draft202012
        (normalizeSchema30 (stringProperty "nullable".toList))
        flaggedValue ∧
      ¬ Valid naturalNumbers .openApi30
        (stringProperty "nullable".toList) flaggedValue ∧
      IsSchema .draft202012 Set.univ Set.univ
        (stringProperty "nullable".toList) ∧
      normalizeSchema30 (stringProperty "nullable".toList) ≠
        stringProperty "nullable".toList := by
  have dropped := normalizeSchema30_stringProperty_nullable
  refine ⟨isSchema_stringProperty trivial, ?_, not_valid_stringProperty,
    isSchema_stringProperty trivial, ?_⟩
  · exact dropped ▸ valid_dropped
  · intro same
    cases dropped.symm.trans same

end LightWaf.Schema
