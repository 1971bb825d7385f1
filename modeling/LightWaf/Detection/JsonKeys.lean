import LightWaf.Detection.Content
import LightWaf.Normalizer.JsonTree

/-!
# The keys of a JSON body

The key scans read the dotted paths of flattened JSON.  A path is emitted for
each scalar, so a key is seen through the scalars below it.  A member that
holds no scalar, only empty containers, is not seen, and neither is an empty
key in front of the first nonempty one.
-/

namespace LightWaf.Detection

open LightWaf.Rust
open LightWaf.Core
open LightWaf.Normalizer

/-! ## The key scan -/

/-- The body is flattened JSON and the key scan reads every member's key. -/
def KeysCovered
    (value : Json) (parsed : Except NormalizationError ParsedBody) : Prop :=
  ∃ pairs, parsed = .ok (.jsonFlattened pairs) ∧
    ∀ key ∈ value.memberKeys,
      ∃ text ∈ bodyKeyStrings (.jsonFlattened pairs), Segment key text

/-- A shallow value is flattened to the dotted paths of its scalars. -/
theorem parseJson_paths
    (serde : SerdeJson) {body : Bytes} {limits : LimitsConfig} {text : Text}
    {value : Json} (decoded : fromUtf8 body = some text)
    (read : serde.fromStr text = .ok value)
    (shallow : value.containerDepth ≤ limits.maxJsonDepth) :
    ∃ pairs, parseJson serde body limits = .ok (.jsonFlattened pairs) ∧
      bodyKeyStrings (.jsonFlattened pairs) =
        value.scalarPaths.map dotted := by
  obtain ⟨pairs, flattened, paths⟩ := flattenJson_paths limits.maxJsonDepth
    value [] 1 (by omega)
  refine ⟨pairs, ?_, paths⟩
  simp only [parseJson, decoded, read, flattenValue, flattened]
  rfl

/--
The key scan reads every key of a shallow value exactly when each key of a
member without scalars, and the empty key if there is one, also stands in the
path of some scalar.
-/
theorem keysCovered_iff
    (serde : SerdeJson) (body : Bytes) (limits : LimitsConfig) (text : Text)
    (value : Json) (decoded : fromUtf8 body = some text)
    (read : serde.fromStr text = .ok value)
    (shallow : value.containerDepth ≤ limits.maxJsonDepth) :
    KeysCovered value (parseJson serde body limits) ↔
      ∀ key ∈ value.memberKeys, key ∈ value.barrenKeys ∨ key = [] →
        ∃ path ∈ value.scalarPaths, Segment key (dotted path) := by
  obtain ⟨pairs, parsed, strings⟩ := parseJson_paths serde decoded read shallow
  constructor
  · rintro ⟨others, same, covered⟩ key member -
    rw [parsed] at same
    cases same
    obtain ⟨string, found, segment⟩ := covered key member
    rw [strings] at found
    obtain ⟨path, source, rfl⟩ := List.mem_map.mp found
    exact ⟨path, source, segment⟩
  · intro lost
    refine ⟨pairs, parsed, fun key member => ?_⟩
    have stands : ∃ path ∈ value.scalarPaths, Segment key (dotted path) := by
      by_cases exposed : key ∈ value.barrenKeys ∨ key = []
      · exact lost key member exposed
      · rw [not_or] at exposed
        obtain ⟨path, source, inside⟩ :=
          value.key_mem_path member exposed.1
        exact ⟨path, source, segment_dotted exposed.2 inside⟩
    obtain ⟨path, source, segment⟩ := stands
    refine ⟨dotted path, ?_, segment⟩
    rw [strings]
    exact List.mem_map_of_mem source

/-- A reader of one text. -/
def readerOf (text : Text) (value : Json) : SerdeJson where
  fromStr := fun input =>
    if input = text then .ok value else .error "expected value".toList

theorem readerOf_fromStr (text : Text) (value : Json) :
    (readerOf text value).fromStr text = .ok value :=
  if_pos rfl

/-- An operator whose operand is an array with a number. -/
def operatorValue : Json :=
  .object [("age".toList, .object [("$nin".toList, .array [.number ['1']])])]

/-- Its text. -/
def operatorText : Text :=
  "\x7b\x22age\x22:\x7b\x22$nin\x22:[1]\x7d\x7d".toList

theorem keysCovered_operatorValue :
    KeysCovered operatorValue
      (parseJson (readerOf operatorText operatorValue)
        (asBytes operatorText) {}) :=
  (keysCovered_iff (readerOf operatorText operatorValue)
    (asBytes operatorText) {} operatorText operatorValue
    (by decide +kernel) rfl (by decide +kernel)).mpr (by
      intro key member exposed
      have none : operatorValue.barrenKeys = [] := by decide +kernel
      have named : [] ∉ operatorValue.memberKeys := by decide +kernel
      rcases exposed with barren | rfl
      · rw [none] at barren
        cases barren
      · exact absurd member named)

/-- An operator whose operand is an empty object. -/
def bareOperator : Json :=
  .object [("$where".toList, .object [])]

/-- Its text. -/
def bareOperatorText : Text :=
  "\x7b\x22$where\x22:\x7b\x7d\x7d".toList

/-- The operator leaves no pair, so no key scan reads it. -/
theorem keysCovered_fails_bareOperator :
    ¬ ∀ (serde : SerdeJson) (body : Bytes) (limits : LimitsConfig)
      (text : Text) (value : Json), fromUtf8 body = some text →
      serde.fromStr text = .ok value →
      value.containerDepth ≤ limits.maxJsonDepth →
      KeysCovered value (parseJson serde body limits) := by
  intro claimed
  have decoded : fromUtf8 (asBytes bareOperatorText) =
      some bareOperatorText := by
    decide +kernel
  have shallow : bareOperator.containerDepth ≤
      ({} : LimitsConfig).maxJsonDepth := by
    decide +kernel
  obtain ⟨pairs, parsed, covered⟩ :=
    claimed (readerOf bareOperatorText bareOperator)
      (asBytes bareOperatorText) {} bareOperatorText bareOperator decoded rfl
      shallow
  obtain ⟨others, same, strings⟩ :=
    parseJson_paths (readerOf bareOperatorText bareOperator) decoded rfl
      shallow
  rw [parsed] at same
  cases same
  have none : bareOperator.scalarPaths = [] := by decide +kernel
  obtain ⟨text, found, -⟩ := covered "$where".toList (by decide +kernel)
  rw [strings, none] at found
  cases found

end LightWaf.Detection
