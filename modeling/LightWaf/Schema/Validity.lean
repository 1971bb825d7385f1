import LightWaf.Schema.ApiSchema
import Mathlib.Data.Rat.Defs
import Mathlib.Data.Set.Basic
import Mathlib.Algebra.Order.Ring.Rat

/-!
# What a schema says

Validity of a JSON value for a schema, in the OpenAPI 3.0 dialect and in
JSON Schema 2020-12, for the keywords the two read differently and for those
that hold other schemas, names or data.  This is a specification: nothing
here is read off the source, which leaves validation to a library.
-/

namespace LightWaf.Schema

open LightWaf.Rust
open LightWaf.Normalizer

/-- The dialects: that of the documents, and that of the validators. -/
inductive Dialect
  | openApi30
  | draft202012
deriving DecidableEq

/--
How number literals are read, in either dialect: their value, and whether
they count as integers.
-/
structure Numbers where
  value : Text → ℚ
  IsInteger : Text → Prop

/-- The side of a value a bound is on. -/
inductive Side
  | lower
  | upper
deriving DecidableEq

/-- A number on the right side of a bound. -/
def Side.Within : Side → ℚ → ℚ → Prop
  | .lower, limit, number => limit ≤ number
  | .upper, limit, number => number ≤ limit

/-- A number on the right side of a bound and not on it. -/
def Side.StrictlyWithin : Side → ℚ → ℚ → Prop
  | .lower, limit, number => limit < number
  | .upper, limit, number => number < limit

/-! ## Keywords -/

/-- The keywords of a schema. -/
inductive Keyword
  | type
  | nullable
  | properties
  | required
  | additionalProperties
  | items
  | enum
  | bound (side : Side)
  | exclusive (side : Side)
deriving DecidableEq

/-- The name of the member that holds a keyword's argument. -/
def Keyword.name : Keyword → String
  | .type => "type"
  | .nullable => "nullable"
  | .properties => "properties"
  | .required => "required"
  | .additionalProperties => "additionalProperties"
  | .items => "items"
  | .enum => "enum"
  | .bound .lower => "minimum"
  | .bound .upper => "maximum"
  | .exclusive .lower => "exclusiveMinimum"
  | .exclusive .upper => "exclusiveMaximum"

/-- The same as text. -/
def Keyword.text (keyword : Keyword) : Text :=
  keyword.name.toList

theorem Keyword.text_injective : Function.Injective Keyword.text := by
  intro left right equal
  have named : left.name = right.name := String.toList_inj.mp equal
  revert named
  rcases left with _ | _ | _ | _ | _ | _ | _ | ⟨_ | _⟩ | ⟨_ | _⟩ <;>
    rcases right with _ | _ | _ | _ | _ | _ | _ | ⟨_ | _⟩ | ⟨_ | _⟩ <;>
    decide

@[simp]
theorem Keyword.text_inj {left right : Keyword} :
    left.text = right.text ↔ left = right :=
  Keyword.text_injective.eq_iff

/-- The argument a schema object gives to a keyword. -/
def argument (fields : List (Text × Json)) (keyword : Keyword) :
    Option Json :=
  fields.lookup keyword.text

/-- A member of an object. -/
def member (name : Text) : Json → Option Json
  | .object fields => fields.lookup name
  | _ => none

/-- The elements of an array. -/
def elements : Json → List Json
  | .array items => items
  | _ => []

/-- The schema `properties` has for a name. -/
def propertySchema (fields : List (Text × Json)) (name : Text) :
    Option Json :=
  (argument fields .properties).bind (member name)

/-! ## Assertions -/

/-- The types a schema can name. -/
inductive JsonType
  | null
  | boolean
  | integer
  | number
  | string
  | array
  | object
deriving DecidableEq

/-- How a type is named. -/
def JsonType.text : JsonType → Text
  | .null => "null".toList
  | .boolean => "boolean".toList
  | .integer => "integer".toList
  | .number => "number".toList
  | .string => "string".toList
  | .array => "array".toList
  | .object => "object".toList

theorem JsonType.text_injective : Function.Injective JsonType.text := by
  intro left right
  cases left <;> cases right <;> decide

section Meaning

variable (numbers : Numbers)

/-- A value of a type. -/
def JsonType.Has : JsonType → Json → Prop
  | .null, .null => True
  | .boolean, .bool _ => True
  | .integer, .number literal => numbers.IsInteger literal
  | .number, .number _ => True
  | .string, .string _ => True
  | .array, .array _ => True
  | .object, .object _ => True
  | _, _ => False

/--
Equality of JSON values: numbers by their value, objects without regard to
the order of their members.
-/
inductive Same : Json → Json → Prop
  | null : Same .null .null
  | bool (flag : Bool) : Same (.bool flag) (.bool flag)
  | number {left right : Text}
      (equal : numbers.value left = numbers.value right) :
      Same (.number left) (.number right)
  | string (text : Text) : Same (.string text) (.string text)
  | array {left right : List Json} (length : left.length = right.length)
      (same : ∀ (index : Nat) (first second : Json),
        left[index]? = some first → right[index]? = some second →
          Same first second) :
      Same (.array left) (.array right)
  | object {left right : List (Text × Json)}
      (length : left.length = right.length)
      (named : ∀ name first, left.lookup name = some first →
        ∃ second, right.lookup name = some second)
      (same : ∀ name first second, left.lookup name = some first →
        right.lookup name = some second → Same first second) :
      Same (.object left) (.object right)

/--
The types a schema admits.  In the older dialect `type` is one name, to
which `nullable` adds `null`; in the newer one it may be a list of names.
-/
def AdmitsType (fields : List (Text × Json)) (type : JsonType) :
    Dialect → Prop
  | .openApi30 =>
      argument fields .type = some (.string type.text) ∨
        type = .null ∧ argument fields .nullable = some (.bool true)
  | .draft202012 =>
      argument fields .type = some (.string type.text) ∨
        ∃ types, argument fields .type = some (.array types) ∧
          .string type.text ∈ types

/--
What a schema asks of a number.  In the older dialect the exclusive keyword
is a flag of the bound; in the newer one it is a bound of its own.
-/
def BoundHolds (fields : List (Text × Json)) (side : Side) (number : ℚ) :
    Dialect → Prop
  | .openApi30 =>
      ∀ limit, argument fields (.bound side) = some (.number limit) →
        (argument fields (.exclusive side) ≠ some (.bool true) →
          side.Within (numbers.value limit) number) ∧
        (argument fields (.exclusive side) = some (.bool true) →
          side.StrictlyWithin (numbers.value limit) number)
  | .draft202012 =>
      (∀ limit, argument fields (.bound side) = some (.number limit) →
        side.Within (numbers.value limit) number) ∧
      ∀ limit, argument fields (.exclusive side) = some (.number limit) →
        side.StrictlyWithin (numbers.value limit) number

/-- What the keywords that hold no schema ask of a value. -/
@[mk_iff]
structure Asserts (dialect : Dialect) (fields : List (Text × Json))
    (value : Json) : Prop where
  type : argument fields .type ≠ none →
    ∃ type, AdmitsType fields type dialect ∧ type.Has numbers value
  bounds : ∀ side literal, value = .number literal →
    BoundHolds numbers fields side (numbers.value literal) dialect
  required : ∀ listed name members,
    argument fields .required = some (.array listed) →
      .string name ∈ listed → value = .object members →
        (members.lookup name).isSome
  enum : ∀ values, argument fields .enum = some (.array values) →
    ∃ listed ∈ values, Same numbers value listed

/-- Validity of a value for a schema: the boolean one, or an object. -/
inductive Valid (dialect : Dialect) : Json → Json → Prop
  | always (value : Json) : Valid dialect (.bool true) value
  | object {fields : List (Text × Json)} {value : Json}
      (asserts : Asserts numbers dialect fields value)
      (properties : ∀ name schema inner,
        propertySchema fields name = some schema →
          member name value = some inner → Valid dialect schema inner)
      (additional : ∀ schema name inner,
        argument fields .additionalProperties = some schema →
          propertySchema fields name = none →
            member name value = some inner → Valid dialect schema inner)
      (items : ∀ schema element, argument fields .items = some schema →
        element ∈ elements value → Valid dialect schema element) :
      Valid dialect (.object fields) value

end Meaning

/-! ## Schema objects -/

/-- A value no object of which has two members of one name. -/
inductive Distinct : Json → Prop
  | null : Distinct .null
  | bool (flag : Bool) : Distinct (.bool flag)
  | number (text : Text) : Distinct (.number text)
  | string (text : Text) : Distinct (.string text)
  | array {items : List Json} (inner : ∀ item ∈ items, Distinct item) :
      Distinct (.array items)
  | object {fields : List (Text × Json)}
      (nodup : (fields.map Prod.fst).Nodup)
      (inner : ∀ name value, (name, value) ∈ fields → Distinct value) :
      Distinct (.object fields)

section Vocabulary

variable (dialect : Dialect) (names : Set Text) (data : Set Json)

/--
The arguments of the keywords in a dialect, with property names and listed
data from given sets.
-/
inductive Argument : Keyword → Json → Prop
  | type (type : JsonType) (named : dialect = .openApi30 → type ≠ .null) :
      Argument .type (.string type.text)
  | types (types : List JsonType) (newer : dialect = .draft202012) :
      Argument .type (.array (types.map fun type => .string type.text))
  | nullable (flag : Bool) (older : dialect = .openApi30) :
      Argument .nullable (.bool flag)
  | properties {declared : List (Text × Json)}
      (nodup : (declared.map Prod.fst).Nodup)
      (named : ∀ entry ∈ declared, entry.1 ∈ names) :
      Argument .properties (.object declared)
  | required (listed : List Text) :
      Argument .required (.array (listed.map .string))
  | additionalFlag (flag : Bool) :
      Argument .additionalProperties (.bool flag)
  | additionalSchema (fields : List (Text × Json)) :
      Argument .additionalProperties (.object fields)
  | items (fields : List (Text × Json)) : Argument .items (.object fields)
  | enum {values : List Json}
      (listed : ∀ value ∈ values, value ∈ data ∧ Distinct value) :
      Argument .enum (.array values)
  | bound (side : Side) (literal : Text) :
      Argument (.bound side) (.number literal)
  | exclusiveFlag (side : Side) (flag : Bool) (older : dialect = .openApi30) :
      Argument (.exclusive side) (.bool flag)
  | exclusiveBound (side : Side) (literal : Text)
      (newer : dialect = .draft202012) :
      Argument (.exclusive side) (.number literal)

/--
The schema objects of a dialect.  Those of the newer one use none of the
keywords that only the older one has.
-/
inductive IsSchema : Json → Prop
  | object {fields : List (Text × Json)}
      (nodup : (fields.map Prod.fst).Nodup)
      (arguments : ∀ name value, (name, value) ∈ fields →
        ∃ keyword : Keyword, name = keyword.text ∧
          Argument dialect names data keyword value)
      (properties : ∀ name schema,
        propertySchema fields name = some schema → IsSchema schema)
      (additional : ∀ inner,
        argument fields .additionalProperties = some (.object inner) →
          IsSchema (.object inner))
      (items : ∀ schema, argument fields .items = some schema →
        IsSchema schema) :
      IsSchema (.object fields)

end Vocabulary

end LightWaf.Schema
