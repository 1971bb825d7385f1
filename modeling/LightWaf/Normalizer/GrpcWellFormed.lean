import LightWaf.Normalizer.GrpcWire

/-!
# When well-formed messages are walked cleanly

The walk takes a length-delimited payload that is no text for a nested
message.  A payload of opaque bytes is legal on the wire all the same, so a
well-formed body can be flagged as malformed.  It is not flagged where every
payload is text or walks as a message itself, and where the walk hits no
limit this is also necessary.
-/

namespace LightWaf.Normalizer

open LightWaf.Rust

/-! ## What a field adds -/

/-- A payload that is text, or a message of such payloads. -/
inductive Walkable : Bytes → Prop
  | text (payload : Bytes) (leaf : Text)
      (decoded : fromUtf8 payload = some leaf) :
      Walkable payload
  | message (fields : List WireField)
      (payloads : ∀ payload ∈ messagePayloads fields, Walkable payload) :
      Walkable (encodeMessage fields)

/-- A payload that is no text is walkable only as a message. -/
theorem Walkable.fields
    {payload : Bytes} (walkable : Walkable payload)
    (noText : fromUtf8 payload = none) :
    ∃ fields, payload = encodeMessage fields ∧
      ∀ payload ∈ messagePayloads fields, Walkable payload := by
  cases walkable with
  | text _ leaf decoded =>
      rw [noText] at decoded
      cases decoded
  | message fields payloads => exact ⟨fields, rfl, payloads⟩

@[simp]
theorem encodeMessage_cons (field : WireField) (fields : List WireField) :
    encodeMessage (field :: fields) = field.encode ++ encodeMessage fields :=
  rfl

@[simp]
theorem messagePayloads_cons (field : WireField) (fields : List WireField) :
    messagePayloads (field :: fields) =
      field.value.payloads ++ messagePayloads fields :=
  rfl

section Walks

variable (limits : GrpcLimits)

/-- The extract behind a payload. -/
def afterPayload (fuel depth : Nat) (out : GrpcExtract) (payload : Bytes) :
    GrpcExtract :=
  match fromUtf8 payload with
  | some [] => out
  | some leaf => out.pushLeaf limits leaf
  | none =>
      if limits.maxDepth ≤ depth then { out with depthExceeded := true }
      else
        parseFields limits fuel (depth + 1) payload (out.enter (depth + 1))

/-- The extract behind the value of a field. -/
def afterValue (fuel depth : Nat) (out : GrpcExtract) :
    FieldValue → GrpcExtract
  | .len _ payload _ => afterPayload limits fuel depth out payload
  | _ => out

/-- A message is walked field by field. -/
theorem parseFields_cons
    (fuel depth : Nat) (field : WireField) (rest : Bytes)
    (out : GrpcExtract) :
    parseFields limits (fuel + 1) depth (field.encode ++ rest) out =
      if limits.maxFields < out.countField.fields then
        { out.countField with fieldsExceeded := true }
      else
        parseFields limits fuel depth rest
          (afterValue limits fuel depth out.countField field.value) := by
  have some : field.encode ++ rest ≠ [] := by
    rw [WireField.encode, Varint.bytes]
    simp
  rw [parseFields, if_neg some, readField_complete]
  split_ifs
  · rfl
  · cases field.value with
    | len length payload fits =>
        rw [FieldValue.step, delimitedField, afterValue, afterPayload]
        cases fromUtf8 payload with
        | none =>
            dsimp only
            split_ifs
            · rfl
            · rfl
        | some leaf =>
            cases leaf with
            | nil => rfl
            | cons _ _ => rfl
    | varint _ => rfl
    | i64 _ _ => rfl
    | i32 _ _ => rfl

/-- The walk of a message of walkable payloads is not flagged. -/
theorem parseFields_walkable
    (fuel depth : Nat) {fields : List WireField} (out : GrpcExtract)
    (walkable : ∀ payload ∈ messagePayloads fields, Walkable payload) :
    (parseFields limits fuel depth (encodeMessage fields) out).malformed =
      out.malformed := by
  induction fuel generalizing depth fields out with
  | zero => rfl
  | succ fuel induction =>
      cases fields with
      | nil => rfl
      | cons field fields =>
          rw [messagePayloads_cons, List.forall_mem_append] at walkable
          rw [encodeMessage_cons, parseFields_cons]
          split_ifs
          · rfl
          · rw [induction depth _ walkable.2]
            cases value : field.value with
            | len length payload fits =>
                have own : Walkable payload := by
                  apply walkable.1 payload
                  rw [value]
                  exact List.mem_singleton_self payload
                rw [afterValue, afterPayload]
                split
                next => rfl
                next leaf _ _ =>
                  rw [GrpcExtract.pushLeaf]
                  split_ifs
                  · rfl
                  · rfl
                next noText =>
                  split_ifs
                  · rfl
                  · obtain ⟨nested, rfl, payloads⟩ := own.fields noText
                    exact induction (depth + 1) _ payloads
            | varint _ => rfl
            | i64 _ _ => rfl
            | i32 _ _ => rfl

/-! ## What a clean walk shows -/

/-- An extract without a sign of a limit or an illegal message. -/
structure Clean (out : GrpcExtract) : Prop where
  legal : out.malformed = false
  deep : out.depthExceeded = false
  many : out.fieldsExceeded = false

variable {limits}

/-- A clean extract was clean before. -/
theorem Clean.before
    {body : Bytes} {before after : GrpcExtract} (clean : Clean after)
    (updates : Updates limits body before after) :
    Clean before := by
  induction updates with
  | refl => exact clean
  | tail _ update induction =>
      apply induction
      cases update with
      | malformed => exact Bool.noConfusion clean.legal
      | depthExceeded => exact Bool.noConfusion clean.deep
      | fieldsExceeded => exact Bool.noConfusion clean.many
      | compressed | enter | field | leaf =>
          exact ⟨clean.legal, clean.deep, clean.many⟩

/-- The bytes of a clean walk are those of a message. -/
theorem encodeMessage_of_clean
    {fuel depth : Nat} {buf : Bytes} {out : GrpcExtract}
    (enough : buf.length ≤ fuel)
    (clean : Clean (parseFields limits fuel depth buf out)) :
    ∃ fields, buf = encodeMessage fields := by
  induction fuel generalizing buf out with
  | zero =>
      exact ⟨[], List.eq_nil_of_length_eq_zero (Nat.le_zero.mp enough)⟩
  | succ fuel induction =>
      by_cases done : buf = []
      · exact ⟨[], done⟩
      · rcases readField_cases buf with
          untagged | unread | ⟨field, rest, rfl⟩
        · rw [parseFields, if_neg done, untagged] at clean
          exact Bool.noConfusion clean.legal
        · rw [parseFields, if_neg done, unread] at clean
          split_ifs at clean
          · exact Bool.noConfusion clean.many
          · exact Bool.noConfusion clean.legal
        · rw [parseFields_cons] at clean
          split_ifs at clean
          · exact Bool.noConfusion clean.many
          have shorter : rest.length ≤ fuel := by
            simp only [WireField.encode, Varint.bytes, List.length_append,
              List.length_singleton] at enough
            omega
          obtain ⟨fields, rfl⟩ := induction shorter clean
          exact ⟨field :: fields, rfl⟩

/-- The payloads of a message that is walked cleanly are walkable. -/
theorem walkable_of_clean
    {fuel depth : Nat} {fields : List WireField} {out : GrpcExtract}
    (enough : (encodeMessage fields).length ≤ fuel)
    (clean : Clean
      (parseFields limits fuel depth (encodeMessage fields) out)) :
    ∀ payload ∈ messagePayloads fields, Walkable payload := by
  induction fuel generalizing depth fields out with
  | zero =>
      cases fields with
      | nil => exact List.forall_mem_nil _
      | cons field fields =>
          simp [WireField.encode, Varint.bytes] at enough
  | succ fuel induction =>
      cases fields with
      | nil => exact List.forall_mem_nil _
      | cons field fields =>
          rw [encodeMessage_cons] at enough clean
          simp only [WireField.encode, Varint.bytes, List.length_append,
            List.length_singleton] at enough
          rw [parseFields_cons] at clean
          split_ifs at clean
          · exact Bool.noConfusion clean.many
          · rw [messagePayloads_cons, List.forall_mem_append]
            refine ⟨?_, induction (by omega) clean⟩
            have own := clean.before
              (parseFields_updates fuel depth _ (List.infix_refl _))
            cases value : field.value with
            | len length payload fits =>
                rw [value, FieldValue.encode, List.length_append] at enough
                rw [value, afterValue, afterPayload] at own
                rw [FieldValue.payloads, List.forall_mem_singleton]
                cases decoded : fromUtf8 payload with
                | some leaf => exact .text payload leaf decoded
                | none =>
                    rw [decoded] at own
                    dsimp only at own
                    split_ifs at own
                    · exact Bool.noConfusion own.deep
                    · obtain ⟨nested, rfl⟩ :=
                        encodeMessage_of_clean (by omega) own
                      exact .message nested (induction (by omega) own)
            | varint _ => exact List.forall_mem_nil _
            | i64 _ _ => exact List.forall_mem_nil _
            | i32 _ _ => exact List.forall_mem_nil _

end Walks

/-! ## Well-formed bodies -/

/-- A message of fields that fits a frame. -/
structure Message where
  fields : List WireField
  fits : (encodeMessage fields).length < 2 ^ 32

/-- The uncompressed frame of a message. -/
def Message.frame (message : Message) : Frame where
  flag := 0
  message := encodeMessage message.fields
  fits := message.fits

/-- The body that carries messages. -/
def encodeMessages (messages : List Message) : Bytes :=
  messages.flatMap fun message => message.frame.encode

/-- The lengths of the messages, added up. -/
def payloadBytes (messages : List Message) : Nat :=
  (messages.map fun message => (encodeMessage message.fields).length).sum

/-- The structural signal that well-formed messages should give. -/
def ReportedLegal (limits : GrpcLimits) (messages : List Message) : Prop :=
  (grpcExtract (encodeMessages messages) limits).malformed = false ∧
    (grpcExtract (encodeMessages messages) limits).messages =
      messages.length ∧
    (grpcExtract (encodeMessages messages) limits).totalPayloadBytes =
      payloadBytes messages

/-- Messages that can be counted and whose payloads are all walkable. -/
def AllWalkable (messages : List Message) : Prop :=
  messages.length < 2 ^ 32 ∧ payloadBytes messages < 2 ^ 64 ∧
    ∀ message ∈ messages, ∀ payload ∈ messagePayloads message.fields,
      Walkable payload

section Bodies

variable (limits : GrpcLimits)

/-- A body of messages is walked message by message. -/
theorem grpcExtract_encodeMessages (messages : List Message) :
    grpcExtract (encodeMessages messages) limits =
      (messages.map Message.frame).foldl (walkFrame limits) {} := by
  have spelled : encodeMessages messages =
      (messages.map Message.frame).flatMap Frame.encode := by
    rw [encodeMessages, List.flatMap_map]
  have enough : (messages.map Message.frame).length <
      (encodeMessages messages).length + 1 := by
    rw [encodeMessages, List.length_flatMap, List.length_map,
      ← List.length_map fun message => (Message.frame message).encode.length]
    apply Nat.lt_succ_of_le
    apply List.length_le_sum_of_one_le
    rw [List.forall_mem_map]
    intro message _
    exact Nat.succ_pos _
  rw [grpcExtract, spelled]
  rw [spelled] at enough
  exact parseFrames_encode limits _ {} enough

theorem grpcExtract_counts (messages : List Message) :
    (grpcExtract (encodeMessages messages) limits).messages =
        saturatingAdd 32 0 messages.length ∧
      (grpcExtract (encodeMessages messages) limits).totalPayloadBytes =
        saturatingAdd 64 0 (payloadBytes messages) := by
  have counts := walkFrames_counts limits (messages.map Message.frame) {}
    (Nat.two_pow_pos 32) (Nat.two_pow_pos 64)
  rw [← grpcExtract_encodeMessages, List.length_map, List.map_map] at counts
  exact counts

theorem walkFrame_message (message : Message) (out : GrpcExtract) :
    walkFrame limits out message.frame =
      parseFields limits (encodeMessage message.fields).length 1
        (encodeMessage message.fields)
        ((out.countFrame (encodeMessage message.fields).length).enter 1) :=
  rfl

theorem walkFrames_walkable
    {messages : List Message} (out : GrpcExtract)
    (walkable : ∀ message ∈ messages,
      ∀ payload ∈ messagePayloads message.fields, Walkable payload) :
    ((messages.map Message.frame).foldl (walkFrame limits) out).malformed =
      out.malformed := by
  induction messages generalizing out with
  | nil => rfl
  | cons message messages induction =>
      rw [List.forall_mem_cons] at walkable
      rw [List.map_cons, List.foldl_cons, induction _ walkable.2,
        walkFrame_message, parseFields_walkable limits _ _ _ walkable.1]
      rfl

variable {limits}

/-- A walk of messages that ends clean was clean behind each of them. -/
theorem walkFrames_clean
    {messages : List Message} {out : GrpcExtract}
    (clean : Clean ((messages.map Message.frame).foldl (walkFrame limits)
      out)) :
    Clean out ∧ ∀ message ∈ messages,
      ∀ payload ∈ messagePayloads message.fields, Walkable payload := by
  induction messages generalizing out with
  | nil => exact ⟨clean, List.forall_mem_nil _⟩
  | cons message messages induction =>
      obtain ⟨own, later⟩ := induction clean
      rw [walkFrame_message] at own
      have start := own.before
        (parseFields_updates _ 1 _ (List.infix_refl _))
      refine ⟨⟨start.legal, start.deep, start.many⟩, ?_⟩
      rw [List.forall_mem_cons]
      exact ⟨walkable_of_clean le_rfl own, later⟩

end Bodies

/--
Messages whose payloads are all walkable give the structural signal of their
frames under every limits.  Where the walk reports no limit as hit, no other
messages do.
-/
theorem grpcExtract_wellFormed
    (limits : GrpcLimits) (messages : List Message) :
    (AllWalkable messages → ReportedLegal limits messages) ∧
      ((grpcExtract (encodeMessages messages) limits).fieldsExceeded =
          false →
        (grpcExtract (encodeMessages messages) limits).depthExceeded =
          false →
        ReportedLegal limits messages → AllWalkable messages) := by
  obtain ⟨counted, added⟩ := grpcExtract_counts limits messages
  rw [saturatingAdd, Nat.zero_add] at counted added
  constructor
  · rintro ⟨few, short, walkable⟩
    refine ⟨?_, ?_, ?_⟩
    · rw [grpcExtract_encodeMessages, walkFrames_walkable limits {} walkable]
    · rw [counted]
      exact Nat.min_eq_left (Nat.le_sub_one_of_lt few)
    · rw [added]
      exact Nat.min_eq_left (Nat.le_sub_one_of_lt short)
  · rintro many deep ⟨legal, counts, total⟩
    rw [counted] at counts
    rw [added] at total
    refine ⟨?_, ?_, ?_⟩
    · have := min_eq_left_iff.mp counts
      omega
    · have := min_eq_left_iff.mp total
      omega
    · rw [grpcExtract_encodeMessages] at legal deep many
      exact (walkFrames_clean ⟨legal, deep, many⟩).2

/-- The tag of a length-delimited first field. -/
def lenTag : Varint :=
  ⟨[], 0x0A, List.forall_mem_nil _, by decide, Nat.zero_le _⟩

/-- The length of a payload of one byte. -/
def lenOne : Varint :=
  ⟨[], 1, List.forall_mem_nil _, by decide, Nat.zero_le _⟩

/-- A message whose one field holds the opaque byte `0xFF`. -/
def blobMessage : Message :=
  ⟨[⟨lenTag, .len lenOne [0xFF] rfl, rfl⟩], by decide⟩

/-- One opaque byte, far within the limits, is reported as malformed. -/
theorem grpcExtract_blob_malformed :
    (grpcExtract (encodeMessages [blobMessage]) {}).fields = 1 ∧
      (grpcExtract (encodeMessages [blobMessage]) {}).maxDepth = 2 ∧
      (grpcExtract (encodeMessages [blobMessage]) {}).fieldsExceeded =
        false ∧
      (grpcExtract (encodeMessages [blobMessage]) {}).depthExceeded =
        false ∧
      ¬ ReportedLegal {} [blobMessage] := by
  refine ⟨by decide, by decide, by decide, by decide, ?_⟩
  rintro ⟨legal, -, -⟩
  revert legal
  decide

end LightWaf.Normalizer
