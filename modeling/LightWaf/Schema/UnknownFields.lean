import Mathlib
import LightWaf.Schema.GrpcSchema

/-!
# Unknown fields of a message

`has_unknown_field` on the messages of the wire format, groups included.  The
walk stays in step with the fields until it meets a group, which it cannot
pass over: an unknown field behind a group goes unreported.
-/

namespace LightWaf.Schema

open LightWaf.Rust
open LightWaf.Normalizer

/-! ## Messages with groups -/

/-- A tag with a field number the format allows. -/
def LegalNumber (tag : Varint) : Prop :=
  tag.value / 8 ≠ 0 ∧ tag.value / 8 < 2 ^ 29

/-- A field of a message: one with a value, or a balanced group of fields. -/
inductive MessageField
  | plain (field : WireField) (legal : LegalNumber field.tag)
  | group (start : Varint) (inner : List MessageField) (finish : Varint)
      (starts : start.value % 8 = 3) (finishes : finish.value % 8 = 4)
      (same : finish.value / 8 = start.value / 8) (legal : LegalNumber start)

namespace MessageField

/-- The field number. -/
def number : MessageField → Nat
  | plain field _ => field.tag.value / 8
  | group start _ _ _ _ _ _ => start.value / 8

/-- Whether a field is a group. -/
def isGroup : MessageField → Bool
  | plain _ _ => false
  | group _ _ _ _ _ _ _ => true

mutual

/-- The bytes of a field. -/
def encode : MessageField → Bytes
  | plain field _ => field.encode
  | group start inner finish _ _ _ _ =>
      start.bytes ++ (encodeAll inner ++ finish.bytes)

/-- The bytes of fields one after the other. -/
def encodeAll : List MessageField → Bytes
  | [] => []
  | field :: rest => encode field ++ encodeAll rest

end

/-- The first group of a message, and the fields before it. -/
def throughGroup : List MessageField → List MessageField
  | [] => []
  | field :: rest =>
      if field.isGroup then [field] else field :: throughGroup rest

@[simp]
theorem throughGroup_plain
    (field : WireField) (legal : LegalNumber field.tag)
    (rest : List MessageField) :
    throughGroup (plain field legal :: rest) =
      plain field legal :: throughGroup rest :=
  rfl

@[simp]
theorem throughGroup_group
    {start finish : Varint} {inner : List MessageField}
    (starts : start.value % 8 = 3) (finishes : finish.value % 8 = 4)
    (same : finish.value / 8 = start.value / 8) (legal : LegalNumber start)
    (rest : List MessageField) :
    throughGroup (group start inner finish starts finishes same legal ::
      rest) = [group start inner finish starts finishes same legal] :=
  rfl

/-- The fields up to the first group are fields of the message. -/
theorem mem_of_mem_throughGroup
    {field : MessageField} {fields : List MessageField}
    (member : field ∈ throughGroup fields) :
    field ∈ fields := by
  induction fields with
  | nil => exact member
  | cons first rest induction =>
      rw [throughGroup] at member
      split_ifs at member with grouped
      · exact List.mem_cons.mpr (.inl (List.mem_singleton.mp member))
      · rcases List.mem_cons.mp member with same | later
        · exact List.mem_cons.mpr (.inl same)
        · exact List.mem_cons_of_mem _ (induction later)

end MessageField

/-! ## The walk -/

/-- A value is passed over, whatever follows it. -/
theorem skipValue_complete (value : FieldValue) (rest : Bytes) :
    skipValue value.wireType (value.encode ++ rest) = some rest := by
  cases value with
  | varint value =>
      rw [FieldValue.wireType, FieldValue.encode, skipValue,
        readVarint_complete]
      rfl
  | i64 bytes width =>
      rw [FieldValue.wireType, FieldValue.encode, skipValue,
        if_neg (by simp [width]), ← width, List.drop_left]
  | len length payload fits =>
      rw [FieldValue.wireType, FieldValue.encode, skipValue,
        List.append_assoc, readVarint_complete]
      dsimp only
      rw [if_neg (by simp [fits]), fits, List.drop_left]
  | i32 bytes width =>
      rw [FieldValue.wireType, FieldValue.encode, skipValue,
        if_neg (by simp [width]), ← width, List.drop_left]

/-- One turn of the loop, at the tag of a field. -/
theorem unknownFieldFrom_tag
    (known : List Nat) (fuel : Nat) {tag : Varint} (legal : LegalNumber tag)
    (rest : Bytes) :
    unknownFieldFrom known (fuel + 1) (tag.bytes ++ rest) =
      if tag.value / 8 ∈ known then
        (skipValue (tag.value % 8) rest).elim false
          (unknownFieldFrom known fuel)
      else true := by
  have nonempty : tag.bytes ++ rest ≠ [] := by
    simp [Varint.bytes]
  have small : tag.value / 8 % 2 ^ 32 = tag.value / 8 :=
    Nat.mod_eq_of_lt (legal.2.trans (by decide))
  rw [unknownFieldFrom, if_neg nonempty, readVarint_complete]
  dsimp only
  rw [small]
  by_cases listed : tag.value / 8 ∈ known
  · rw [if_neg (by simp [listed]), if_pos listed]
    cases skipValue (tag.value % 8) rest <;> rfl
  · rw [if_pos (by simp [listed, legal.1]), if_neg listed]

theorem length_encode_pos (field : MessageField) : 0 < field.encode.length := by
  cases field with
  | plain field legal =>
      simp [MessageField.encode, WireField.encode, Varint.bytes]
  | group start inner finish starts finishes same legal =>
      simp [MessageField.encode, Varint.bytes]

/-- The walk reports what it meets up to the first group. -/
theorem unknownFieldFrom_encodeAll
    (known : List Nat) {fuel : Nat} {fields : List MessageField}
    (enough : (MessageField.encodeAll fields).length < fuel) :
    unknownFieldFrom known fuel (MessageField.encodeAll fields) = true ↔
      ∃ field ∈ MessageField.throughGroup fields,
        field.number ∉ known := by
  induction fields generalizing fuel with
  | nil =>
      cases fuel <;>
        simp [unknownFieldFrom, MessageField.encodeAll,
          MessageField.throughGroup]
  | cons field rest induction =>
      obtain ⟨fuel, rfl⟩ : ∃ left, fuel = left + 1 :=
        Nat.exists_eq_succ_of_ne_zero (by omega)
      rw [MessageField.encodeAll] at enough ⊢
      rw [List.length_append] at enough
      have pos := length_encode_pos field
      cases field with
      | plain field legal =>
          rw [MessageField.encode, WireField.encode, List.append_assoc,
            unknownFieldFrom_tag known fuel legal, field.typed,
            skipValue_complete, MessageField.throughGroup_plain,
            Option.elim_some]
          by_cases listed : field.tag.value / 8 ∈ known
          · rw [if_pos listed, induction (by omega)]
            simp [MessageField.number, listed]
          · rw [if_neg listed]
            simp [MessageField.number, listed]
      | group start inner finish starts finishes same legal =>
          rw [MessageField.encode, List.append_assoc,
            unknownFieldFrom_tag known fuel legal, starts,
            MessageField.throughGroup_group]
          by_cases listed : start.value / 8 ∈ known
          · simp [skipValue, MessageField.number, listed]
          · simp [MessageField.number, listed]

/-- The check is exact: it reports a message with an unknown field, only. -/
def FindsUnknown (known : List Nat) (fields : List MessageField) : Prop :=
  hasUnknownField known (MessageField.encodeAll fields) = true ↔
    ∃ field ∈ fields, field.number ∉ known

/-- The check is exact where a group does not hide the unknown fields. -/
theorem findsUnknown_iff (known : List Nat) (fields : List MessageField) :
    FindsUnknown known fields ↔
      ((∃ field ∈ fields, field.number ∉ known) →
        ∃ field ∈ MessageField.throughGroup fields,
          field.number ∉ known) := by
  rw [FindsUnknown, hasUnknownField, unknownFieldFrom_encodeAll known
    (Nat.lt_succ_self _)]
  constructor
  · exact fun finds => finds.mpr
  · intro reported
    refine ⟨?_, reported⟩
    rintro ⟨field, member, unknown⟩
    exact ⟨field, MessageField.mem_of_mem_throughGroup member, unknown⟩

/-- A varint of one byte has none that go on. -/
theorem continued_nil : ∀ byte ∈ ([] : Bytes), 0x80 ≤ byte :=
  List.forall_mem_nil _

/-- An empty group with the number 1. -/
def emptyGroup : MessageField :=
  .group ⟨[], 0x0b, continued_nil, by decide, by decide⟩ []
    ⟨[], 0x0c, continued_nil, by decide, by decide⟩ rfl rfl rfl
    ⟨by decide, by decide⟩

/-- A number in the field 2. -/
def secondField : MessageField :=
  .plain ⟨⟨[], 0x10, continued_nil, by decide, by decide⟩,
    .varint ⟨[], 0x00, continued_nil, by decide, by decide⟩, rfl⟩
    ⟨by decide, by decide⟩

/-- A field that is not known goes unreported behind a group. -/
theorem not_findsUnknown_behindGroup :
    ¬ FindsUnknown [1] [emptyGroup, secondField] := by
  intro finds
  have missed : hasUnknownField [1]
      (MessageField.encodeAll [emptyGroup, secondField]) = false := by
    decide
  have reported := finds.mpr
    ⟨secondField, List.mem_cons_of_mem _ List.mem_cons_self, by decide⟩
  cases missed.symm.trans reported

end LightWaf.Schema
