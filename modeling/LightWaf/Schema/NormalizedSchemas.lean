import LightWaf.Rust.HashMap
import LightWaf.Schema.Validity

/-!
# What normalization keeps of a schema

`normalize_schema_3_0` walks every object and every array of a document, be
it a schema, a map of property names or listed data.
-/

namespace LightWaf.Schema

open LightWaf.Rust
open LightWaf.Normalizer

/-! ## Members of a rewritten object -/

theorem lookup_removeField
    (name : String) (fields : List (Text × Json)) (other : Text) :
    (removeField name fields).lookup other =
      if other = name.toList then none else fields.lookup other := by
  induction fields with
  | nil => simp [removeField]
  | cons entry rest induction =>
      obtain ⟨key, value⟩ := entry
      rw [removeField] at induction ⊢
      by_cases named : key = name.toList
      · rw [List.filter_cons_of_neg (by simpa using named), induction]
        by_cases same : other = name.toList
        · rw [if_pos same, if_pos same]
        · rw [if_neg same, if_neg same, List.lookup_cons,
            beq_false_of_ne (named ▸ same)]
      · rw [List.filter_cons_of_pos (by simpa using named),
          List.lookup_cons, List.lookup_cons, induction]
        by_cases same : other = key
        · subst same
          rw [if_neg named, if_neg named]
        · rw [beq_false_of_ne same]

/-- A replaced value in a list of members. -/
theorem lookup_replace
    (name : Text) (value : Json) (fields : List (Text × Json))
    (other : Text) :
    (fields.map fun entry =>
      if entry.1 = name then (entry.1, value) else entry).lookup other =
      if other = name then (fields.lookup other).map fun _ => value
      else fields.lookup other := by
  induction fields with
  | nil => simp
  | cons entry rest induction =>
      obtain ⟨key, before⟩ := entry
      rw [List.map_cons, List.lookup_cons, induction, List.lookup_cons]
      by_cases same : other = key
      · subst same
        by_cases named : other = name
        · simp [named]
        · simp [named]
      · have kept : (if key = name then (key, value) else (key, before)).1 =
            key := by
          split_ifs <;> rfl
        rw [kept, beq_false_of_ne same]

theorem lookup_insertField
    (name : String) (value : Json) (fields : List (Text × Json))
    (other : Text) :
    (insertField name value fields).lookup other =
      if other = name.toList then some value else fields.lookup other := by
  rw [insertField]
  cases found : fields.lookup name.toList with
  | some before =>
      rw [Option.isSome_some, if_pos rfl, lookup_replace]
      by_cases same : other = name.toList
      · rw [if_pos same, if_pos same, same, found, Option.map_some]
      · rw [if_neg same, if_neg same]
  | none =>
      rw [Option.isSome_none, if_neg Bool.false_ne_true, List.lookup_append,
        List.lookup_cons]
      by_cases same : other = name.toList
      · rw [if_pos same, same, found, beq_self_eq_true, Option.none_or]
      · rw [if_neg same, beq_false_of_ne same, List.lookup_nil,
          Option.or_none]

theorem argument_removeField
    (removed : Keyword) (fields : List (Text × Json)) (keyword : Keyword) :
    argument (removeField removed.name fields) keyword =
      if keyword = removed then none else argument fields keyword := by
  rw [argument, lookup_removeField]
  exact if_congr Keyword.text_inj rfl rfl

theorem argument_insertField
    (set : Keyword) (value : Json) (fields : List (Text × Json))
    (keyword : Keyword) :
    argument (insertField set.name value fields) keyword =
      if keyword = set then some value else argument fields keyword := by
  rw [argument, lookup_insertField]
  exact if_congr Keyword.text_inj rfl rfl

/-- `fix_exclusive_bound` for the keywords of a side. -/
def fixBound (side : Side) (fields : List (Text × Json)) :
    List (Text × Json) :=
  fixExclusiveBound (Keyword.exclusive side).name (Keyword.bound side).name
    fields

/-- The admission of `null` to the types. -/
def widenType (fields : List (Text × Json)) : List (Text × Json) :=
  match argument fields .nullable, argument fields .type with
  | some (.bool true), some type =>
      insertField "type" (addNullToType type) fields
  | _, _ => fields

/-- The rewriting of an object, step by step. -/
theorem normalizeObject_eq (fields : List (Text × Json)) :
    normalizeObject fields =
      fixBound .upper (fixBound .lower
        (removeField Keyword.nullable.name (widenType fields))) :=
  rfl

/-- Without a flag the bounds stay as they are. -/
theorem fixBound_of_no_flag
    {side : Side} {fields : List (Text × Json)}
    (noFlag : ∀ flag, argument fields (.exclusive side) ≠
      some (.bool flag)) :
    fixBound side fields = fields := by
  rw [fixBound, fixExclusiveBound]
  split
  · rename_i flag found
    exact absurd found (noFlag flag)
  · rfl

/-- A flag that is set turns the bound into the exclusive one. -/
theorem argument_fixBound_of_set
    {side : Side} {fields : List (Text × Json)}
    (isSet : argument fields (.exclusive side) = some (.bool true))
    (keyword : Keyword) :
    argument (fixBound side fields) keyword =
      if keyword = .exclusive side then argument fields (.bound side)
      else if keyword = .bound side then none
      else argument fields keyword := by
  have differ : Keyword.bound side ≠ .exclusive side := nofun
  have bound : (removeField (Keyword.exclusive side).name fields).lookup
      (Keyword.bound side).text = argument fields (.bound side) :=
    (argument_removeField (.exclusive side) fields (.bound side)).trans
      (if_neg differ)
  rw [argument, Keyword.text] at isSet
  rw [fixBound, fixExclusiveBound, isSet]
  dsimp only
  rw [if_pos rfl]
  rw [Keyword.text] at bound
  rw [bound]
  cases found : argument fields (.bound side) with
  | some limit =>
      dsimp only
      rw [argument_insertField, argument_removeField, argument_removeField]
      split_ifs <;> rfl
  | none =>
      dsimp only
      rw [argument_removeField]
      split_ifs with first second
      · rfl
      · rw [second, found]
      · rfl

/-- A flag that is not set is dropped. -/
theorem argument_fixBound_of_unset
    {side : Side} {fields : List (Text × Json)}
    (unset : argument fields (.exclusive side) = some (.bool false))
    (keyword : Keyword) :
    argument (fixBound side fields) keyword =
      if keyword = .exclusive side then none
      else argument fields keyword := by
  rw [← argument_removeField, fixBound, fixExclusiveBound]
  rw [argument, Keyword.text] at unset
  rw [unset]
  rfl

/-- The exclusive bound of a side after its flag is resolved. -/
def resolvedExclusive : Option Json → Option Json → Option Json
  | some (.bool true), bound => bound
  | some (.bool false), _ => none
  | flag, _ => flag

/-- The bound of a side after its flag is resolved. -/
def resolvedBound : Option Json → Option Json → Option Json
  | some (.bool true), _ => none
  | _, bound => bound

theorem resolvedExclusive_of_no_flag
    {flag bound : Option Json} (noFlag : ∀ set, flag ≠ some (.bool set)) :
    resolvedExclusive flag bound = flag := by
  unfold resolvedExclusive
  split
  · exact absurd rfl (noFlag true)
  · exact absurd rfl (noFlag false)
  · rfl

theorem resolvedBound_of_no_flag
    {flag bound : Option Json} (noFlag : ∀ set, flag ≠ some (.bool set)) :
    resolvedBound flag bound = bound := by
  unfold resolvedBound
  split
  · exact absurd rfl (noFlag true)
  · rfl

/-- What `fix_exclusive_bound` leaves, keyword by keyword. -/
theorem argument_fixBound
    (side : Side) (fields : List (Text × Json)) (keyword : Keyword) :
    argument (fixBound side fields) keyword =
      if keyword = .exclusive side then
        resolvedExclusive (argument fields (.exclusive side))
          (argument fields (.bound side))
      else if keyword = .bound side then
        resolvedBound (argument fields (.exclusive side))
          (argument fields (.bound side))
      else argument fields keyword := by
  by_cases flagged : ∃ flag,
      argument fields (.exclusive side) = some (.bool flag)
  · obtain ⟨flag, found⟩ := flagged
    cases flag with
    | true =>
        rw [argument_fixBound_of_set found, found]
        rfl
    | false =>
        rw [argument_fixBound_of_unset found, found]
        split_ifs with first second
        · rfl
        · rw [second]
          rfl
        · rfl
  · have noFlag : ∀ flag, argument fields (.exclusive side) ≠
        some (.bool flag) := fun flag found => flagged ⟨flag, found⟩
    rw [fixBound_of_no_flag noFlag, resolvedExclusive_of_no_flag noFlag,
      resolvedBound_of_no_flag noFlag]
    split_ifs with first second
    · rw [first]
    · rw [second]
    · rfl

theorem argument_widenType_of_ne
    (fields : List (Text × Json)) {keyword : Keyword}
    (differs : keyword ≠ .type) :
    argument (widenType fields) keyword = argument fields keyword := by
  rw [widenType]
  split
  · exact (argument_insertField .type _ fields keyword).trans
      (if_neg differs)
  · rfl

theorem argument_widenType_of_nullable
    {fields : List (Text × Json)}
    (nullable : argument fields .nullable = some (.bool true)) :
    argument (widenType fields) .type =
      (argument fields .type).map addNullToType := by
  rw [widenType, nullable]
  cases found : argument fields .type with
  | some type =>
      exact (argument_insertField .type _ fields .type).trans (if_pos rfl)
  | none => exact found

theorem widenType_of_not_nullable
    {fields : List (Text × Json)}
    (plain : argument fields .nullable ≠ some (.bool true)) :
    widenType fields = fields := by
  rw [widenType]
  split
  · rename_i found _
    exact absurd found plain
  · rfl

/-- The rewriting of an object, keyword by keyword. -/
theorem argument_normalizeObject
    (fields : List (Text × Json)) (keyword : Keyword) :
    argument (normalizeObject fields) keyword =
      match keyword with
      | .type => argument (widenType fields) .type
      | .nullable => none
      | .bound side =>
          resolvedBound (argument fields (.exclusive side))
            (argument fields (.bound side))
      | .exclusive side =>
          resolvedExclusive (argument fields (.exclusive side))
            (argument fields (.bound side))
      | other => argument fields other := by
  rw [normalizeObject_eq]
  cases keyword with
  | bound side =>
      cases side <;>
        simp [argument_fixBound, argument_removeField,
          argument_widenType_of_ne]
  | exclusive side =>
      cases side <;>
        simp [argument_fixBound, argument_removeField,
          argument_widenType_of_ne]
  | _ =>
      simp [argument_fixBound, argument_removeField,
        argument_widenType_of_ne]

/-! ## Members and items -/

theorem normalizeFields30_eq_map (fields : List (Text × Json)) :
    normalizeFields30 fields =
      fields.map fun entry => (entry.1, normalizeSchema30 entry.2) := by
  induction fields with
  | nil => rw [normalizeFields30, List.map_nil]
  | cons entry rest induction =>
      rw [normalizeFields30, induction, List.map_cons]

theorem normalizeItems30_eq_map (items : List Json) :
    normalizeItems30 items = items.map normalizeSchema30 := by
  induction items with
  | nil => rw [normalizeItems30, List.map_nil]
  | cons item rest induction =>
      rw [normalizeItems30, induction, List.map_cons]

theorem normalizeSchema30_object (fields : List (Text × Json)) :
    normalizeSchema30 (.object fields) =
      .object (normalizeObject (normalizeFields30 fields)) := by
  rw [normalizeSchema30]

theorem normalizeSchema30_array (items : List Json) :
    normalizeSchema30 (.array items) =
      .array (items.map normalizeSchema30) := by
  rw [normalizeSchema30, normalizeItems30_eq_map]

theorem normalizeSchema30_eq_bool_iff {value : Json} {flag : Bool} :
    normalizeSchema30 value = .bool flag ↔ value = .bool flag := by
  cases value <;> simp [normalizeSchema30]

theorem lookup_normalizeFields30
    (fields : List (Text × Json)) (name : Text) :
    (normalizeFields30 fields).lookup name =
      (fields.lookup name).map normalizeSchema30 := by
  rw [normalizeFields30_eq_map]
  exact HashMap.lookup_map_value normalizeSchema30 fields name

theorem argument_normalizeFields30
    (fields : List (Text × Json)) (keyword : Keyword) :
    argument (normalizeFields30 fields) keyword =
      (argument fields keyword).map normalizeSchema30 :=
  lookup_normalizeFields30 fields keyword.text

theorem argument_normalizeFields30_eq_flag_iff
    {fields : List (Text × Json)} {keyword : Keyword} {flag : Bool} :
    argument (normalizeFields30 fields) keyword = some (.bool flag) ↔
      argument fields keyword = some (.bool flag) := by
  rw [argument_normalizeFields30, Option.map_eq_some_iff]
  constructor
  · rintro ⟨value, found, isFlag⟩
    rw [found, normalizeSchema30_eq_bool_iff.mp isFlag]
  · intro found
    exact ⟨.bool flag, found, normalizeSchema30_eq_bool_iff.mpr rfl⟩

/-! ## The order of the walk -/

theorem removeField_normalizeFields30
    (name : String) (fields : List (Text × Json)) :
    removeField name (normalizeFields30 fields) =
      normalizeFields30 (removeField name fields) := by
  rw [normalizeFields30_eq_map, normalizeFields30_eq_map, removeField,
    removeField, List.filter_map]
  rfl

theorem insertField_normalizeFields30
    (name : String) (value : Json) (fields : List (Text × Json)) :
    insertField name (normalizeSchema30 value) (normalizeFields30 fields) =
      normalizeFields30 (insertField name value fields) := by
  rw [insertField, insertField, lookup_normalizeFields30,
    Option.isSome_map]
  split_ifs
  · rw [normalizeFields30_eq_map, normalizeFields30_eq_map, List.map_map,
      List.map_map]
    refine List.map_congr_left fun entry _ => ?_
    rw [Function.comp_apply, Function.comp_apply]
    dsimp only
    split_ifs <;> rfl
  · rw [normalizeFields30_eq_map, normalizeFields30_eq_map,
      List.map_append, List.map_singleton]

theorem asStr_normalizeSchema30 (value : Json) :
    asStr (normalizeSchema30 value) = asStr value := by
  cases value <;> simp [normalizeSchema30, asStr]

theorem addNullToType_normalizeSchema30 (type : Json) :
    addNullToType (normalizeSchema30 type) =
      normalizeSchema30 (addNullToType type) := by
  cases type with
  | array items =>
      rw [normalizeSchema30_array, addNullToType, addNullToType,
        List.any_map]
      simp only [Function.comp_def, asStr_normalizeSchema30]
      split_ifs
      · rw [normalizeSchema30_array]
      · rw [normalizeSchema30_array, List.map_append, List.map_singleton]
        simp only [normalizeSchema30]
  | string text =>
      simp only [normalizeSchema30, normalizeItems30, addNullToType]
  | _ => simp only [normalizeSchema30, addNullToType]

theorem widenType_normalizeFields30 (fields : List (Text × Json)) :
    widenType (normalizeFields30 fields) =
      normalizeFields30 (widenType fields) := by
  by_cases nullable : argument fields .nullable = some (.bool true)
  · rw [widenType, widenType, nullable,
      argument_normalizeFields30_eq_flag_iff.mpr nullable,
      argument_normalizeFields30]
    cases argument fields .type with
    | none => rfl
    | some type =>
        dsimp only [Option.map_some]
        rw [addNullToType_normalizeSchema30, insertField_normalizeFields30]
  · rw [widenType_of_not_nullable nullable, widenType_of_not_nullable
      (argument_normalizeFields30_eq_flag_iff.not.mpr nullable)]

theorem fixBound_normalizeFields30
    (side : Side) (fields : List (Text × Json)) :
    fixBound side (normalizeFields30 fields) =
      normalizeFields30 (fixBound side fields) := by
  by_cases flagged : ∃ flag,
      argument fields (.exclusive side) = some (.bool flag)
  · obtain ⟨flag, found⟩ := flagged
    have still := argument_normalizeFields30_eq_flag_iff.mpr found
    rw [argument, Keyword.text] at found still
    rw [fixBound, fixBound, fixExclusiveBound, fixExclusiveBound, found,
      still]
    dsimp only
    rw [removeField_normalizeFields30, lookup_normalizeFields30]
    cases flag with
    | false => rfl
    | true =>
        rw [if_pos rfl, if_pos rfl]
        cases (removeField (Keyword.exclusive side).name fields).lookup
            (Keyword.bound side).name.toList with
        | none => rfl
        | some limit =>
            dsimp only [Option.map_some]
            rw [removeField_normalizeFields30,
              insertField_normalizeFields30]
  · have noFlag : ∀ flag, argument fields (.exclusive side) ≠
        some (.bool flag) := fun flag found => flagged ⟨flag, found⟩
    rw [fixBound_of_no_flag noFlag, fixBound_of_no_flag fun flag =>
      argument_normalizeFields30_eq_flag_iff.not.mpr (noFlag flag)]

/-- The source rewrites an object before it walks through its members. -/
theorem normalizeSchema30_eq_outside_in (fields : List (Text × Json)) :
    normalizeSchema30 (.object fields) =
      .object (normalizeFields30 (normalizeObject fields)) := by
  rw [normalizeSchema30_object, normalizeObject_eq, normalizeObject_eq,
    widenType_normalizeFields30, removeField_normalizeFields30,
    fixBound_normalizeFields30, fixBound_normalizeFields30]

/-! ## Values left as they are -/

/-- An object without the keywords of the older dialect alone. -/
structure Plain (fields : List (Text × Json)) : Prop where
  noNullable : argument fields .nullable = none
  noFlag : ∀ side flag, argument fields (.exclusive side) ≠
    some (.bool flag)

/-- A value no object of which has those keywords as members. -/
inductive Untouched : Json → Prop
  | null : Untouched .null
  | bool (flag : Bool) : Untouched (.bool flag)
  | number (text : Text) : Untouched (.number text)
  | string (text : Text) : Untouched (.string text)
  | array {items : List Json} (inner : ∀ item ∈ items, Untouched item) :
      Untouched (.array items)
  | object {fields : List (Text × Json)} (plain : Plain fields)
      (inner : ∀ name value, (name, value) ∈ fields → Untouched value) :
      Untouched (.object fields)

theorem removeField_of_absent
    {name : String} {fields : List (Text × Json)}
    (absent : fields.lookup name.toList = none) :
    removeField name fields = fields := by
  rw [removeField, List.filter_eq_self]
  intro entry member
  have differs := List.lookup_eq_none_iff.mp absent entry member
  rw [decide_eq_true_iff]
  intro same
  rw [same] at differs
  simp at differs

theorem Plain.normalizeObject_eq_self
    {fields : List (Text × Json)} (plain : Plain fields) :
    normalizeObject fields = fields := by
  have notNullable : argument fields .nullable ≠ some (.bool true) := by
    rw [plain.noNullable]
    nofun
  rw [normalizeObject_eq, widenType_of_not_nullable notNullable,
    removeField_of_absent plain.noNullable,
    fixBound_of_no_flag (plain.noFlag .lower),
    fixBound_of_no_flag (plain.noFlag .upper)]

/-- Normalization leaves an untouched value as it is. -/
theorem Untouched.normalizeSchema30_eq_self
    {value : Json} (untouched : Untouched value) :
    normalizeSchema30 value = value := by
  induction untouched with
  | null => simp only [normalizeSchema30]
  | bool flag => simp only [normalizeSchema30]
  | number text => simp only [normalizeSchema30]
  | string text => simp only [normalizeSchema30]
  | array inner induction =>
      rw [normalizeSchema30_array]
      rw [List.map_congr_left induction, List.map_id']
  | object plain inner induction =>
      rename_i fields
      have members : normalizeFields30 fields = fields := by
        have same : ∀ entry ∈ fields,
            (entry.1, normalizeSchema30 entry.2) = entry :=
          fun entry member =>
            Prod.ext rfl (induction entry.1 entry.2 member)
        rw [normalizeFields30_eq_map, List.map_congr_left same,
          List.map_id']
      rw [normalizeSchema30_object, members, plain.normalizeObject_eq_self]

/-! ## Members lost -/

theorem length_removeField_le
    (name : String) (fields : List (Text × Json)) :
    (removeField name fields).length ≤ fields.length :=
  List.length_filter_le _ fields

theorem length_removeField_lt
    {keyword : Keyword} {fields : List (Text × Json)} {value : Json}
    (found : argument fields keyword = some value) :
    (removeField keyword.name fields).length < fields.length := by
  rw [removeField, List.length_filter_lt_length_iff_exists]
  obtain ⟨before, after, split, -⟩ := List.lookup_eq_some_iff.mp found
  refine ⟨(keyword.text, value), ?_, ?_⟩
  · rw [split]
    exact List.mem_append_right _ List.mem_cons_self
  · simp [Keyword.text]

theorem length_insertField_le
    (name : String) (value : Json) (fields : List (Text × Json)) :
    (insertField name value fields).length ≤ fields.length + 1 := by
  rw [insertField]
  split_ifs
  · rw [List.length_map]
    exact Nat.le_succ _
  · rw [List.length_append, List.length_singleton]

theorem length_widenType (fields : List (Text × Json)) :
    (widenType fields).length = fields.length := by
  rw [widenType]
  split
  · rename_i found
    rw [argument] at found
    change fields.lookup "type".toList = _ at found
    rw [insertField, found, Option.isSome_some, if_pos rfl, List.length_map]
  · rfl

/-- A flag takes a member with it. -/
theorem length_fixBound_lt
    {side : Side} {fields : List (Text × Json)} {flag : Bool}
    (flagged : argument fields (.exclusive side) = some (.bool flag)) :
    (fixBound side fields).length < fields.length := by
  have fewer := length_removeField_lt flagged
  rw [argument, Keyword.text] at flagged
  rw [fixBound, fixExclusiveBound, flagged]
  dsimp only
  split
  · split
    · rename_i limit found
      have fewest := length_removeField_lt
        (show argument _ (.bound side) = some limit from found)
      have added := length_insertField_le (Keyword.exclusive side).name
        limit (removeField (Keyword.bound side).name
          (removeField (Keyword.exclusive side).name fields))
      omega
    · exact fewer
  · exact fewer

theorem length_fixBound_le
    (side : Side) (fields : List (Text × Json)) :
    (fixBound side fields).length ≤ fields.length := by
  by_cases flagged : ∃ flag,
      argument fields (.exclusive side) = some (.bool flag)
  · obtain ⟨flag, found⟩ := flagged
    exact (length_fixBound_lt found).le
  · exact (congrArg List.length (fixBound_of_no_flag fun flag found =>
      flagged ⟨flag, found⟩)).le

/-- An object that keeps its number of members has none to lose. -/
theorem plain_of_length_normalizeObject
    {fields : List (Text × Json)}
    (length : (normalizeObject fields).length = fields.length) :
    Plain fields := by
  have widened := length_widenType fields
  have removed := length_removeField_le Keyword.nullable.name
    (widenType fields)
  have lower := length_fixBound_le .lower
    (removeField Keyword.nullable.name (widenType fields))
  have upper := length_fixBound_le .upper
    (fixBound .lower (removeField Keyword.nullable.name (widenType fields)))
  rw [normalizeObject_eq] at length
  constructor
  · by_contra present
    obtain ⟨value, found⟩ := Option.ne_none_iff_exists'.mp present
    have kept : argument (widenType fields) .nullable = some value := by
      rw [argument_widenType_of_ne fields (by decide), found]
    have fewer := length_removeField_lt kept
    omega
  · intro side flag flagged
    have kept : argument (removeField Keyword.nullable.name
        (widenType fields)) (.exclusive side) = some (.bool flag) := by
      have differs : Keyword.exclusive side ≠ .type := nofun
      rw [argument_removeField, if_neg nofun,
        argument_widenType_of_ne fields differs, flagged]
    cases side with
    | lower =>
        have fewer := length_fixBound_lt kept
        omega
    | upper =>
        have still : argument (fixBound .lower
            (removeField Keyword.nullable.name (widenType fields)))
            (.exclusive .upper) = some (.bool flag) := by
          rw [argument_fixBound, if_neg (by decide), if_neg nofun, kept]
        have fewer := length_fixBound_lt still
        omega

theorem plain_normalizeFields30_iff {fields : List (Text × Json)} :
    Plain (normalizeFields30 fields) ↔ Plain fields := by
  constructor
  · intro plain
    constructor
    · have absent := plain.noNullable
      rw [argument_normalizeFields30, Option.map_eq_none_iff] at absent
      exact absent
    · intro side flag found
      exact plain.noFlag side flag
        (argument_normalizeFields30_eq_flag_iff.mpr found)
  · intro plain
    constructor
    · rw [argument_normalizeFields30, plain.noNullable, Option.map_none]
    · intro side flag found
      exact plain.noFlag side flag
        (argument_normalizeFields30_eq_flag_iff.mp found)

section Meaning

variable {numbers : Numbers}

theorem same_refl {value : Json} (distinct : Distinct value) :
    Same numbers value value := by
  induction distinct with
  | null => exact .null
  | bool flag => exact .bool flag
  | number text => exact .number rfl
  | string text => exact .string text
  | array inner induction =>
      refine .array rfl fun index first second found again => ?_
      cases found.symm.trans again
      exact induction first (List.mem_of_getElem? found)
  | object nodup inner induction =>
      refine .object rfl (fun name first found => ⟨first, found⟩) ?_
      intro name first second found again
      cases found.symm.trans again
      exact induction name first
        ((HashMap.lookup_eq_some_iff_mem nodup).mp found)

/-- A value equal to its normalized form is untouched. -/
theorem untouched_of_same
    {value : Json} (distinct : Distinct value)
    (same : Same numbers value (normalizeSchema30 value)) :
    Untouched value := by
  induction distinct with
  | null => exact .null
  | bool flag => exact .bool flag
  | number text => exact .number text
  | string text => exact .string text
  | array inner induction =>
      rw [normalizeSchema30_array] at same
      cases same with
      | array length inside =>
          refine .array fun item member => induction item member ?_
          obtain ⟨index, found⟩ := List.mem_iff_getElem?.mp member
          refine inside index item _ found ?_
          rw [List.getElem?_map, found, Option.map_some]
  | object nodup inner induction =>
      rename_i fields
      rw [normalizeSchema30_object] at same
      cases same with
      | object length named inside =>
          have members : (normalizeFields30 fields).length =
              fields.length := by
            rw [normalizeFields30_eq_map, List.length_map]
          have plain : Plain (normalizeFields30 fields) :=
            plain_of_length_normalizeObject (length.symm.trans members.symm)
          refine .object (plain_normalizeFields30_iff.mp plain) ?_
          intro name value member
          have found :=
            (HashMap.lookup_eq_some_iff_mem nodup).mpr member
          refine induction name value member
            (inside name value _ found ?_)
          rw [plain.normalizeObject_eq_self, lookup_normalizeFields30,
            found, Option.map_some]

end Meaning

end LightWaf.Schema
