import LightWaf.Normalizer.Grpc
import LightWaf.Rust.Encode
import LightWaf.Rust.Utf8

/-!
# The wire format behind a walk

What the schema-less walk of a gRPC body reads: varints, fields and frames.
Each reader accepts what the format allows and nothing else.  Whatever a walk
meets, it changes its extract by a few kinds of updates, from which every
bound on the extract follows.
-/

namespace LightWaf.Normalizer

open LightWaf.Rust

/-! ## Varints -/

/-- A varint as it is spelled: at most nine bytes go on, and one ends it. -/
structure Varint where
  more : Bytes
  last : UInt8
  continued : ∀ byte ∈ more, 0x80 ≤ byte
  ends : last < 0x80
  short : more.length ≤ 9

/-- Seven bits of every byte, the first ones lowest. -/
def digitsValue : (shift : Nat) → Bytes → Nat
  | _, [] => 0
  | shift, byte :: rest =>
      byte.toNat % 128 * 2 ^ shift + digitsValue (shift + 7) rest

namespace Varint

/-- The bytes of a varint. -/
def bytes (varint : Varint) : Bytes :=
  varint.more ++ [varint.last]

/-- The 64-bit value of a varint. -/
def value (varint : Varint) : Nat :=
  digitsValue 0 varint.bytes % 2 ^ 64

end Varint

theorem readVarintFrom_complete
    {more : Bytes} {last : UInt8}
    (continued : ∀ byte ∈ more, 0x80 ≤ byte) (ends : last < 0x80)
    {left : Nat} (short : more.length < left) (shift : Nat) (rest : Bytes) :
    readVarintFrom left shift (more ++ last :: rest) =
      some (digitsValue shift (more ++ [last]), rest) := by
  induction more generalizing left shift with
  | nil =>
      obtain ⟨left, rfl⟩ := Nat.exists_eq_succ_of_ne_zero short.ne_bot
      have small : last.toNat % 128 = last.toNat := by
        rw [UInt8.lt_iff_toNat_lt] at ends
        exact Nat.mod_eq_of_lt ends
      rw [List.nil_append, readVarintFrom, if_pos ends, List.nil_append,
        digitsValue, digitsValue, small, Nat.add_zero]
  | cons byte more induction =>
      obtain ⟨left, rfl⟩ :=
        Nat.exists_eq_succ_of_ne_zero (Nat.zero_lt_of_lt short).ne'
      have wide : ¬ byte < 0x80 :=
        UInt8.not_lt.mpr (continued byte List.mem_cons_self)
      rw [List.cons_append, readVarintFrom, if_neg wide,
        induction (fun item member =>
          continued item (List.mem_cons_of_mem byte member))
          (Nat.lt_of_succ_lt_succ short)]
      rfl

theorem readVarintFrom_sound
    {left shift : Nat} {bytes : Bytes} {value : Nat} {rest : Bytes}
    (read : readVarintFrom left shift bytes = some (value, rest)) :
    ∃ more last, bytes = more ++ last :: rest ∧
      (∀ byte ∈ more, 0x80 ≤ byte) ∧ last < 0x80 ∧ more.length < left := by
  induction left generalizing shift bytes value with
  | zero => cases read
  | succ left induction =>
      cases bytes with
      | nil => cases read
      | cons byte tail =>
          rw [readVarintFrom] at read
          split_ifs at read with last
          · obtain ⟨-, rfl⟩ := Prod.mk.inj (Option.some.inj read)
            exact ⟨[], byte, rfl, List.forall_mem_nil _, last,
              Nat.succ_pos left⟩
          · obtain ⟨⟨later, tailRest⟩, readTail, same⟩ :=
              Option.bind_eq_some_iff.mp read
            obtain ⟨-, rfl⟩ := Prod.mk.inj (Option.some.inj same)
            obtain ⟨more, end_, rfl, continued, ends, short⟩ :=
              induction readTail
            exact ⟨byte :: more, end_, rfl,
              List.forall_mem_cons.mpr ⟨UInt8.not_lt.mp last, continued⟩, ends,
              Nat.succ_lt_succ short⟩

/-- A varint is read, whatever follows it. -/
theorem readVarint_complete (varint : Varint) (rest : Bytes) :
    readVarint (varint.bytes ++ rest) = some (varint.value, rest) := by
  rw [readVarint, Varint.bytes, List.append_assoc, List.singleton_append,
    readVarintFrom_complete varint.continued varint.ends
      (Nat.lt_succ_of_le varint.short)]
  rfl

/-- What is read is a varint. -/
theorem readVarint_sound
    {bytes : Bytes} {value : Nat} {rest : Bytes}
    (read : readVarint bytes = some (value, rest)) :
    ∃ varint : Varint, bytes = varint.bytes ++ rest ∧
      varint.value = value := by
  obtain ⟨⟨raw, rawRest⟩, readRaw, same⟩ := Option.map_eq_some_iff.mp read
  obtain ⟨-, rfl⟩ := Prod.mk.inj same
  obtain ⟨more, last, spelled, continued, ends, short⟩ :=
    readVarintFrom_sound readRaw
  refine ⟨⟨more, last, continued, ends, Nat.le_of_lt_succ short⟩, ?_, ?_⟩
  · rw [spelled, Varint.bytes, List.append_assoc, List.singleton_append]
  · have again := readVarint_complete
      ⟨more, last, continued, ends, Nat.le_of_lt_succ short⟩ rawRest
    rw [Varint.bytes, List.append_assoc, List.singleton_append, ← spelled,
      read] at again
    exact (Prod.mk.inj (Option.some.inj again)).1.symm

/-! ## Fields -/

/-- The value of a field; a length-delimited one may hold any bytes. -/
inductive FieldValue
  | varint (value : Varint)
  | i64 (bytes : Bytes) (width : bytes.length = 8)
  | i32 (bytes : Bytes) (width : bytes.length = 4)
  | len (length : Varint) (payload : Bytes)
      (fits : length.value = payload.length)

namespace FieldValue

/-- The wire type of a value. -/
def wireType : FieldValue → Nat
  | varint _ => 0
  | i64 _ _ => 1
  | len _ _ _ => 2
  | i32 _ _ => 5

/-- The bytes of a value. -/
def encode : FieldValue → Bytes
  | varint value => value.bytes
  | i64 bytes _ => bytes
  | i32 bytes _ => bytes
  | len length payload _ => length.bytes ++ payload

/-- The payload of a length-delimited value. -/
def payloads : FieldValue → List Bytes
  | len _ payload _ => [payload]
  | _ => []

/-- What a walk does with a value it has read. -/
def step (limits : GrpcLimits) (depth : Nat) (out : GrpcExtract)
    (rest : Bytes) : FieldValue → FieldStep
  | len _ payload _ => delimitedField limits depth out payload rest
  | _ => .next out rest

end FieldValue

/-- A field: a tag with the wire type of the value behind it. -/
structure WireField where
  tag : Varint
  value : FieldValue
  typed : tag.value % 8 = value.wireType

namespace WireField

/-- The bytes of a field. -/
def encode (field : WireField) : Bytes :=
  field.tag.bytes ++ field.value.encode

end WireField

/-- The bytes of a message. -/
def encodeMessage (fields : List WireField) : Bytes :=
  fields.flatMap WireField.encode

/-- The payloads of the length-delimited fields of a message. -/
def messagePayloads (fields : List WireField) : List Bytes :=
  fields.flatMap fun field => field.value.payloads

section Fields

variable (limits : GrpcLimits) (depth : Nat) (out : GrpcExtract)

theorem skipFixed_append
    {bytes : Bytes} {count : Nat} (width : bytes.length = count)
    (rest : Bytes) :
    skipFixed count out (bytes ++ rest) = .next out rest := by
  subst width
  rw [skipFixed, if_neg (by simp), List.drop_left]

/-- A value is read, whatever follows it. -/
theorem readValue_complete (value : FieldValue) (rest : Bytes) :
    readValue limits depth value.wireType out (value.encode ++ rest) =
      value.step limits depth out rest := by
  cases value with
  | varint value =>
      rw [readValue.eq_def, FieldValue.wireType, FieldValue.encode]
      simp only [readVarint_complete]
      rfl
  | i64 bytes width =>
      rw [readValue.eq_def, FieldValue.wireType, FieldValue.encode]
      exact skipFixed_append out width rest
  | i32 bytes width =>
      rw [readValue.eq_def, FieldValue.wireType, FieldValue.encode]
      exact skipFixed_append out width rest
  | len length payload fits =>
      rw [readValue.eq_def, FieldValue.wireType, FieldValue.encode,
        List.append_assoc]
      simp only [readVarint_complete, fits]
      rw [if_neg (by simp), List.take_left, List.drop_left]
      rfl

end Fields

/-- A fixed width is there, or it is not. -/
theorem skipFixed_cases
    (count : Nat) (bytes : Bytes) :
    (∀ out, skipFixed count out bytes =
        .stop { out with malformed := true }) ∨
      ∃ fixed rest, bytes = fixed ++ rest ∧ fixed.length = count := by
  by_cases short : bytes.length < count
  · exact Or.inl fun out => if_pos short
  · right
    refine ⟨bytes.take count, bytes.drop count,
      (List.take_append_drop count bytes).symm, ?_⟩
    rw [List.length_take, Nat.min_eq_left (Nat.not_lt.mp short)]

/-- What is read is a value of the wire type; nothing else is, ever. -/
theorem readValue_cases (wireType : Nat) (bytes : Bytes) :
    (∀ limits depth out, readValue limits depth wireType out bytes =
        .stop { out with malformed := true }) ∨
      ∃ value rest, bytes = FieldValue.encode value ++ rest ∧
        wireType = value.wireType := by
  unfold readValue
  split
  · cases read : readVarint bytes with
    | none => exact Or.inl fun _ _ _ => rfl
    | some found =>
        obtain ⟨varint, rfl, -⟩ := readVarint_sound read
        exact Or.inr ⟨.varint varint, _, rfl, rfl⟩
  · rcases skipFixed_cases 8 bytes with
      stopped | ⟨fixed, rest, rfl, width⟩
    · exact Or.inl fun _ _ out => stopped out
    · exact Or.inr ⟨.i64 fixed width, rest, rfl, rfl⟩
  · rcases skipFixed_cases 4 bytes with
      stopped | ⟨fixed, rest, rfl, width⟩
    · exact Or.inl fun _ _ out => stopped out
    · exact Or.inr ⟨.i32 fixed width, rest, rfl, rfl⟩
  · cases read : readVarint bytes with
    | none => exact Or.inl fun _ _ _ => rfl
    | some found =>
        obtain ⟨length, rest⟩ := found
        by_cases short : rest.length < length
        · exact Or.inl fun _ _ _ => if_pos short
        · obtain ⟨varint, rfl, rfl⟩ := readVarint_sound read
          have fits : varint.value = (rest.take varint.value).length := by
            rw [List.length_take, Nat.min_eq_left (Nat.not_lt.mp short)]
          refine Or.inr ⟨.len varint _ fits, rest.drop varint.value, ?_, rfl⟩
          rw [FieldValue.encode, List.append_assoc, List.take_append_drop]
  · exact Or.inl fun _ _ _ => rfl

/-- The extract with one more field counted. -/
def GrpcExtract.countField (out : GrpcExtract) : GrpcExtract :=
  { out with fields := saturatingAdd 32 out.fields 1 }

/-- A field is counted and, within the cap, read. -/
theorem readField_complete
    (limits : GrpcLimits) (depth : Nat) (out : GrpcExtract)
    (field : WireField) (rest : Bytes) :
    readField limits depth out (field.encode ++ rest) =
      if limits.maxFields < out.countField.fields then
        .stop { out.countField with fieldsExceeded := true }
      else field.value.step limits depth out.countField rest := by
  rw [readField, WireField.encode, List.append_assoc]
  simp only [readVarint_complete, field.typed, readValue_complete]
  rfl

/--
What a walk can meet: no tag, a tag whose value cannot be read, or a field.
Which of them it is does not depend on the walk.
-/
theorem readField_cases (bytes : Bytes) :
    (∀ limits depth out, readField limits depth out bytes =
        .stop { out with malformed := true }) ∨
      (∀ limits depth out, readField limits depth out bytes =
        if limits.maxFields < out.countField.fields then
          .stop { out.countField with fieldsExceeded := true }
        else .stop { out.countField with malformed := true }) ∨
      ∃ (field : WireField) (rest : Bytes), bytes = field.encode ++ rest := by
  cases read : readVarint bytes with
  | none =>
      left
      intro limits depth out
      simp only [readField, read]
  | some found =>
      obtain ⟨tag, rest⟩ := found
      right
      rcases readValue_cases (tag % 8) rest with
        stopped | ⟨value, later, rfl, typed⟩
      · left
        intro limits depth out
        simp only [readField, read, stopped]
        rfl
      · right
        obtain ⟨varint, rfl, rfl⟩ := readVarint_sound read
        refine ⟨⟨varint, value, typed⟩, later, ?_⟩
        rw [WireField.encode, List.append_assoc]

/-! ## Frames -/

/-- A frame: a flag and a message whose length fits its header. -/
structure Frame where
  flag : UInt8
  message : Bytes
  fits : message.length < 2 ^ 32

/-- The bytes of a frame. -/
def Frame.encode (frame : Frame) : Bytes :=
  frame.flag :: (beBytes 4 frame.message.length ++ frame.message)

theorem beBytes_four (number : Nat) :
    beBytes 4 number =
      [UInt8.ofNat (number / 256 / 256 / 256),
        UInt8.ofNat (number / 256 / 256), UInt8.ofNat (number / 256),
        UInt8.ofNat number] :=
  rfl

theorem frameLength_beBytes {number : Nat} (small : number < 2 ^ 32) :
    frameLength (UInt8.ofNat (number / 256 / 256 / 256))
      (UInt8.ofNat (number / 256 / 256)) (UInt8.ofNat (number / 256))
      (UInt8.ofNat number) = number := by
  simp only [frameLength, UInt8.toNat_ofNat']
  omega

theorem beBytes_frameLength (b0 b1 b2 b3 : UInt8) :
    beBytes 4 (frameLength b0 b1 b2 b3) = [b0, b1, b2, b3] := by
  have bound0 := b0.toNat_lt
  have bound1 := b1.toNat_lt
  have bound2 := b2.toNat_lt
  have bound3 := b3.toNat_lt
  rw [beBytes_four]
  simp only [List.cons.injEq, and_true, ← UInt8.toNat_inj,
    UInt8.toNat_ofNat', frameLength]
  omega

/-- A frame is read, whatever follows it. -/
theorem readFrame_complete (frame : Frame) (rest : Bytes) :
    readFrame (frame.encode ++ rest) =
      .frame frame.flag frame.message rest := by
  rw [Frame.encode, beBytes_four]
  simp only [List.cons_append, List.nil_append, readFrame,
    frameLength_beBytes frame.fits]
  rw [if_neg (by simp), List.take_left, List.drop_left]

/-- What stands at the start of the remaining body. -/
theorem readFrame_cases (body : Bytes) :
    (body = [] ∧ readFrame body = .done) ∨ readFrame body = .illegal ∨
      ∃ (frame : Frame) (rest : Bytes), body = frame.encode ++ rest ∧
        readFrame body = .frame frame.flag frame.message rest := by
  unfold readFrame
  split
  next => exact Or.inl ⟨rfl, rfl⟩
  next flag b0 b1 b2 b3 rest =>
    right
    dsimp only
    split_ifs with short
    · exact Or.inl rfl
    · right
      have bound0 := b0.toNat_lt
      have bound1 := b1.toNat_lt
      have bound2 := b2.toNat_lt
      have bound3 := b3.toNat_lt
      have length : (rest.take (frameLength b0 b1 b2 b3)).length =
          frameLength b0 b1 b2 b3 := by
        rw [List.length_take, Nat.min_eq_left (Nat.not_lt.mp short)]
      refine ⟨⟨flag, rest.take (frameLength b0 b1 b2 b3), ?_⟩,
        rest.drop (frameLength b0 b1 b2 b3), ?_, rfl⟩
      · rw [length, frameLength]
        omega
      · simp only [Frame.encode, length, beBytes_frameLength,
          List.cons_append, List.nil_append, List.take_append_drop]
  next => exact Or.inr (Or.inl rfl)

/-! ## Updates -/

/-- What a walk of a message of a body can do to its extract in one go. -/
inductive Update (limits : GrpcLimits) (body : Bytes) :
    GrpcExtract → GrpcExtract → Prop
  | malformed (out : GrpcExtract) :
      Update limits body out { out with malformed := true }
  | compressed (out : GrpcExtract) :
      Update limits body out { out with compressed := true }
  | enter (out : GrpcExtract) (depth : Nat)
      (shallow : depth ≤ max 1 limits.maxDepth) :
      Update limits body out (out.enter depth)
  | field (out : GrpcExtract)
      (within : out.countField.fields ≤ limits.maxFields) :
      Update limits body out out.countField
  | fieldsExceeded (out : GrpcExtract)
      (beyond : limits.maxFields < out.countField.fields) :
      Update limits body out { out.countField with fieldsExceeded := true }
  | depthExceeded (out : GrpcExtract) :
      Update limits body out { out with depthExceeded := true }
  | leaf (out : GrpcExtract) (leaf : Text) (some : leaf ≠ [])
      (inside : asBytes leaf <:+: body)
      (room : out.leaves.length < limits.maxLeaves) :
      Update limits body out { out with leaves := out.leaves ++ [leaf] }

/-- The extract goes from one to the other by updates. -/
def Updates (limits : GrpcLimits) (body : Bytes) :
    GrpcExtract → GrpcExtract → Prop :=
  Relation.ReflTransGen (Update limits body)

section Runs

variable {limits : GrpcLimits} {body : Bytes}

/-- What every update keeps, a run of updates keeps. -/
theorem Updates.preserves
    {Holds : GrpcExtract → Prop}
    (update : ∀ before after, Holds before →
      Update limits body before after → Holds after)
    {before after : GrpcExtract} (updates : Updates limits body before after)
    (holds : Holds before) :
    Holds after := by
  induction updates with
  | refl => exact holds
  | tail _ last induction => exact update _ _ induction last

theorem pushLeaf_updates
    (out : GrpcExtract) {leaf : Text} (some : leaf ≠ [])
    (inside : asBytes leaf <:+: body) :
    Updates limits body out (out.pushLeaf limits leaf) := by
  rw [GrpcExtract.pushLeaf]
  split_ifs with room
  · exact .single (.leaf out leaf some inside room)
  · exact .refl

/-- A length-delimited field is skipped, kept, refused or entered. -/
theorem delimitedField_updates
    {depth : Nat} {out : GrpcExtract} {payload rest : Bytes}
    (inside : payload <:+: body) :
    (∃ after, delimitedField limits depth out payload rest =
        .next after rest ∧ Updates limits body out after) ∨
      (depth < limits.maxDepth ∧
        delimitedField limits depth out payload rest =
          .nest out payload rest) := by
  unfold delimitedField
  split
  next => exact Or.inl ⟨out, rfl, .refl⟩
  next leaf nonempty decoded =>
    refine Or.inl ⟨_, rfl, pushLeaf_updates out nonempty ?_⟩
    rw [asBytes_of_fromUtf8 decoded]
    exact inside
  next =>
    split_ifs with deep
    · exact Or.inl ⟨_, rfl, .single (.depthExceeded out)⟩
    · exact Or.inr ⟨Nat.not_le.mp deep, rfl⟩

/-- A payload is part of its field. -/
theorem WireField.payload_infix
    {field : WireField} {payload : Bytes}
    (member : payload ∈ field.value.payloads) (rest : Bytes) :
    payload <:+: field.encode ++ rest := by
  rw [WireField.encode]
  cases value : field.value with
  | len length own fits =>
      rw [value] at member
      cases List.mem_singleton.mp member
      refine ⟨field.tag.bytes ++ length.bytes, rest, ?_⟩
      simp only [FieldValue.encode, List.append_assoc]
  | varint _ =>
      rw [value] at member
      cases member
  | i64 _ _ =>
      rw [value] at member
      cases member
  | i32 _ _ =>
      rw [value] at member
      cases member

/-- A message is part of its frame. -/
theorem Frame.message_infix (frame : Frame) (rest : Bytes) :
    frame.message <:+: frame.encode ++ rest := by
  refine ⟨frame.flag :: beBytes 4 frame.message.length, rest, ?_⟩
  rw [Frame.encode]
  simp only [List.cons_append, List.append_assoc]

/-- A walk of a part of the body updates its extract. -/
theorem parseFields_updates
    (fuel depth : Nat) {buf : Bytes} (out : GrpcExtract)
    (inside : buf <:+: body) :
    Updates limits body out (parseFields limits fuel depth buf out) := by
  induction fuel generalizing depth buf out with
  | zero => exact .refl
  | succ fuel induction =>
      rw [parseFields]
      split_ifs with done
      · exact .refl
      · rcases readField_cases buf with
          untagged | unread | ⟨field, rest, rfl⟩
        · rw [untagged]
          exact .single (.malformed out)
        · rw [unread]
          split_ifs with beyond
          · exact .single (.fieldsExceeded out beyond)
          · exact .tail (.single (.field out (Nat.not_lt.mp beyond)))
              (.malformed _)
        · rw [readField_complete]
          by_cases beyond : limits.maxFields < out.countField.fields
          · rw [if_pos beyond]
            exact .single (.fieldsExceeded out beyond)
          rw [if_neg beyond]
          have counted : Updates limits body out out.countField :=
            .single (.field out (Nat.not_lt.mp beyond))
          have restInside : rest <:+: body :=
            (List.suffix_append _ _).isInfix.trans inside
          cases value : field.value with
          | len length payload fits =>
              have member : payload ∈ field.value.payloads := by
                rw [value]
                exact List.mem_singleton_self payload
              have payloadInside : payload <:+: body :=
                (WireField.payload_infix member rest).trans inside
              rw [FieldValue.step]
              rcases @delimitedField_updates limits body depth out.countField
                  payload rest payloadInside with
                ⟨after, next, updates⟩ | ⟨shallow, nest⟩
              · rw [next]
                exact (counted.trans updates).trans
                  (induction depth after restInside)
              · rw [nest]
                have entered : Updates limits body out.countField
                    (out.countField.enter (depth + 1)) :=
                  .single (.enter _ _ (le_max_of_le_right shallow))
                exact ((counted.trans entered).trans
                  (induction (depth + 1) _ payloadInside)).trans
                  (induction depth _ restInside)
          | varint _ => exact counted.trans (induction depth _ restInside)
          | i64 _ _ => exact counted.trans (induction depth _ restInside)
          | i32 _ _ => exact counted.trans (induction depth _ restInside)

theorem parseFrame_updates
    (flag : UInt8) {message : Bytes} (out : GrpcExtract)
    (inside : message <:+: body) :
    Updates limits body out (parseFrame limits flag message out) := by
  unfold parseFrame
  split_ifs
  · exact Relation.ReflTransGen.trans
      (.single (.enter out 1 (le_max_left _ _)))
      (parseFields_updates _ 1 _ inside)
  · exact .single (.compressed out)
  · exact .single (.malformed out)

/-- What updates and frame counts keep, a walk of the body keeps. -/
theorem parseFrames_invariant
    {Holds : GrpcExtract → Prop}
    (update : ∀ before after, Holds before →
      Update limits body before after → Holds after)
    (count : ∀ out length, Holds out → Holds (out.countFrame length))
    (fuel : Nat) {rest : Bytes} {out : GrpcExtract} (inside : rest <:+: body)
    (holds : Holds out) :
    Holds (parseFrames limits fuel rest out) := by
  induction fuel generalizing rest out with
  | zero => exact holds
  | succ fuel induction =>
      rw [parseFrames]
      rcases readFrame_cases rest with
        ⟨-, done⟩ | illegal | ⟨frame, later, rfl, read⟩
      · rw [done]
        exact holds
      · rw [illegal]
        exact update _ _ holds (.malformed out)
      · rw [read]
        have messageInside : frame.message <:+: body :=
          (frame.message_infix later).trans inside
        have laterInside : later <:+: body :=
          (List.suffix_append _ _).isInfix.trans inside
        apply induction laterInside
        exact (parseFrame_updates frame.flag _ messageInside).preserves update
          (count out _ holds)

end Runs

/-! ## A walk of frames -/

/-- What a walk does with one frame. -/
def walkFrame (limits : GrpcLimits) (out : GrpcExtract) (frame : Frame) :
    GrpcExtract :=
  parseFrame limits frame.flag frame.message
    (out.countFrame frame.message.length)

section Frames

variable (limits : GrpcLimits)

theorem parseFrames_cons
    (fuel : Nat) (frame : Frame) (rest : Bytes) (out : GrpcExtract) :
    parseFrames limits (fuel + 1) (frame.encode ++ rest) out =
      parseFrames limits fuel rest (walkFrame limits out frame) := by
  rw [parseFrames, readFrame_complete]
  rfl

/-- A sequence of frames is walked frame by frame. -/
theorem parseFrames_encode
    (frames : List Frame) {fuel : Nat} (out : GrpcExtract)
    (enough : frames.length < fuel) :
    parseFrames limits fuel (frames.flatMap Frame.encode) out =
      frames.foldl (walkFrame limits) out := by
  induction frames generalizing fuel out with
  | nil =>
      obtain ⟨fuel, rfl⟩ := Nat.exists_eq_succ_of_ne_zero enough.ne_bot
      rfl
  | cons frame frames induction =>
      obtain ⟨fuel, rfl⟩ :=
        Nat.exists_eq_succ_of_ne_zero (Nat.zero_lt_of_lt enough).ne'
      rw [List.flatMap_cons, parseFrames_cons, List.foldl_cons]
      exact induction _ (Nat.lt_of_succ_lt_succ enough)

/-- A body is a sequence of frames, or a walk of it is flagged. -/
theorem parseFrames_tiles
    {fuel : Nat} {rest : Bytes} (out : GrpcExtract)
    (enough : rest.length < fuel) :
    (parseFrames limits fuel rest out).malformed = true ∨
      ∃ frames : List Frame, rest = frames.flatMap Frame.encode ∧
        parseFrames limits fuel rest out =
          frames.foldl (walkFrame limits) out := by
  induction fuel generalizing rest out with
  | zero => exact absurd enough (Nat.not_lt_zero _)
  | succ fuel induction =>
      rcases readFrame_cases rest with
        ⟨rfl, -⟩ | illegal | ⟨frame, later, rfl, -⟩
      · exact Or.inr ⟨[], rfl, rfl⟩
      · left
        rw [parseFrames, illegal]
      · have shorter : later.length < fuel := by
          rw [Frame.encode, List.cons_append, List.length_cons,
            List.length_append] at enough
          omega
        rw [parseFrames_cons]
        rcases induction (walkFrame limits out frame) shorter with
          flagged | ⟨frames, rfl, walked⟩
        · exact Or.inl flagged
        · exact Or.inr ⟨frame :: frames, rfl, walked⟩

/-- A message adds nothing to the counts of its frame. -/
theorem Update.counts
    {body : Bytes} {before after : GrpcExtract}
    (update : Update limits body before after) :
    after.messages = before.messages ∧
      after.totalPayloadBytes = before.totalPayloadBytes := by
  cases update with
  | malformed | compressed | enter | field | fieldsExceeded | depthExceeded |
      leaf => exact ⟨rfl, rfl⟩

theorem walkFrame_counts (out : GrpcExtract) (frame : Frame) :
    (walkFrame limits out frame).messages = saturatingAdd 32 out.messages 1 ∧
      (walkFrame limits out frame).totalPayloadBytes =
        saturatingAdd 64 out.totalPayloadBytes frame.message.length := by
  have updates : Updates limits frame.message
      (out.countFrame frame.message.length) (walkFrame limits out frame) :=
    parseFrame_updates frame.flag _ (List.infix_refl frame.message)
  generalize walkFrame limits out frame = after at updates
  induction updates with
  | refl => exact ⟨rfl, rfl⟩
  | tail _ update induction =>
      rw [update.counts.1, update.counts.2]
      exact induction

theorem saturatingAdd_zero
    {width number : Nat} (fits : number < 2 ^ width) :
    saturatingAdd width number 0 = number :=
  Nat.min_eq_left (Nat.le_sub_one_of_lt fits)

theorem saturatingAdd_lt (width left right : Nat) :
    saturatingAdd width left right < 2 ^ width :=
  (min_le_right _ _).trans_lt
    (Nat.sub_one_lt_of_lt (Nat.two_pow_pos width))

theorem saturatingAdd_assoc (width first second third : Nat) :
    saturatingAdd width (saturatingAdd width first second) third =
      saturatingAdd width first (second + third) := by
  simp only [saturatingAdd]
  generalize 2 ^ width - 1 = cap
  omega

/-- A walk of frames counts them and adds up their lengths. -/
theorem walkFrames_counts
    (frames : List Frame) (out : GrpcExtract)
    (narrow : out.messages < 2 ^ 32)
    (short : out.totalPayloadBytes < 2 ^ 64) :
    (frames.foldl (walkFrame limits) out).messages =
        saturatingAdd 32 out.messages frames.length ∧
      (frames.foldl (walkFrame limits) out).totalPayloadBytes =
        saturatingAdd 64 out.totalPayloadBytes
          (frames.map fun frame => frame.message.length).sum := by
  induction frames generalizing out with
  | nil => exact ⟨(saturatingAdd_zero narrow).symm,
      (saturatingAdd_zero short).symm⟩
  | cons frame frames induction =>
      obtain ⟨messages, total⟩ := walkFrame_counts limits out frame
      have later := induction (walkFrame limits out frame)
        (messages ▸ saturatingAdd_lt 32 _ _)
        (total ▸ saturatingAdd_lt 64 _ _)
      rw [messages, total, saturatingAdd_assoc, saturatingAdd_assoc,
        Nat.add_comm 1] at later
      exact later

end Frames

end LightWaf.Normalizer
