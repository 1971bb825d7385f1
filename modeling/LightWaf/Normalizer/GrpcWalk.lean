import LightWaf.Normalizer.GrpcWire

/-!
# Walks under different limits

Two walks of one body under different limits agree as long as neither runs
into a limit.  Counters and flags only grow along a walk, so it is enough to
look at its end: if the flags are down and the counters within the other
limits there, no step of the walk was cut short.
-/

namespace LightWaf.Normalizer

open LightWaf.Rust

/-! ## Progress -/

namespace FieldStep

/-- The extract after a field. -/
def out : FieldStep → GrpcExtract
  | stop out => out
  | next out _ => out
  | nest out _ _ => out

/-- The bytes that are still to be walked. -/
def left : FieldStep → Nat
  | stop _ => 0
  | next _ rest => rest.length
  | nest _ field rest => field.length + rest.length

end FieldStep

/-- The flags and counters of one extract are covered by another. -/
structure Grows (before after : GrpcExtract) : Prop where
  bounded : before.fields < 2 ^ 32 → after.fields < 2 ^ 32
  fields : before.fields < 2 ^ 32 → before.fields ≤ after.fields
  maxDepth : before.maxDepth ≤ after.maxDepth
  depthExceeded : before.depthExceeded = true → after.depthExceeded = true
  fieldsExceeded : before.fieldsExceeded = true → after.fieldsExceeded = true
  leaves : before.leaves.length ≤ after.leaves.length

namespace Grows

theorem refl (out : GrpcExtract) : Grows out out :=
  ⟨id, fun _ => le_refl _, le_refl _, id, id, le_refl _⟩

theorem trans {first second third : GrpcExtract}
    (early : Grows first second) (late : Grows second third) :
    Grows first third where
  bounded := fun bound => late.bounded (early.bounded bound)
  fields := fun bound =>
    (early.fields bound).trans (late.fields (early.bounded bound))
  maxDepth := early.maxDepth.trans late.maxDepth
  depthExceeded := fun flag => late.depthExceeded (early.depthExceeded flag)
  fieldsExceeded := fun flag =>
    late.fieldsExceeded (early.fieldsExceeded flag)
  leaves := early.leaves.trans late.leaves

end Grows

theorem grows_enter (out : GrpcExtract) (depth : Nat) :
    Grows out (out.enter depth) :=
  { Grows.refl out with maxDepth := le_max_left _ _ }

theorem grows_countField (out : GrpcExtract) :
    Grows out out.countField where
  bounded := fun _ => saturatingAdd_lt 32 _ _
  fields := fun bound => by
    simp only [GrpcExtract.countField, saturatingAdd]
    omega
  maxDepth := le_refl _
  depthExceeded := id
  fieldsExceeded := id
  leaves := le_refl _

theorem Update.grows
    {limits : GrpcLimits} {body : Bytes} {before after : GrpcExtract}
    (update : Update limits body before after) : Grows before after := by
  cases update with
  | malformed | compressed => exact { Grows.refl before with }
  | enter depth => exact grows_enter before depth
  | field => exact grows_countField before
  | fieldsExceeded =>
      exact (grows_countField before).trans
        { Grows.refl _ with fieldsExceeded := fun _ => rfl }
  | depthExceeded =>
      exact { Grows.refl before with depthExceeded := fun _ => rfl }
  | leaf => exact { Grows.refl before with leaves := by simp }

/-- Counters and flags only grow along a run of updates. -/
theorem Updates.grows
    {limits : GrpcLimits} {body : Bytes} {before after : GrpcExtract}
    (updates : Updates limits body before after) : Grows before after :=
  updates.preserves (fun _ _ grown update => grown.trans update.grows)
    (Grows.refl before)

theorem step_grows
    (limits : GrpcLimits) (depth : Nat) (out : GrpcExtract) (rest : Bytes)
    (value : FieldValue) :
    Grows out (value.step limits depth out rest).out := by
  cases value with
  | len length payload fits =>
      rcases @delimitedField_updates limits payload depth out payload rest
          (List.infix_refl payload) with ⟨after, next, updates⟩ | ⟨-, nest⟩
      · rw [FieldValue.step, next]
        exact updates.grows
      · rw [FieldValue.step, nest]
        exact Grows.refl out
  | varint _ => exact Grows.refl out
  | i64 _ _ => exact Grows.refl out
  | i32 _ _ => exact Grows.refl out

theorem readField_grows
    (limits : GrpcLimits) (depth : Nat) (out : GrpcExtract) (buf : Bytes) :
    Grows out (readField limits depth out buf).out := by
  have exceeded : Grows out.countField
      { out.countField with fieldsExceeded := true } :=
    { Grows.refl _ with fieldsExceeded := fun _ => rfl }
  rcases readField_cases buf with untagged | unread | ⟨field, rest, rfl⟩
  · rw [untagged]
    exact { Grows.refl out with }
  · rw [unread]
    split_ifs
    · exact (grows_countField out).trans exceeded
    · exact (grows_countField out).trans { Grows.refl _ with }
  · rw [readField_complete]
    split_ifs
    · exact (grows_countField out).trans exceeded
    · exact (grows_countField out).trans (step_grows _ _ _ _ _)

/-- Counters and flags only grow along a message. -/
theorem parseFields_grows
    (limits : GrpcLimits) (fuel depth : Nat) (buf : Bytes)
    (out : GrpcExtract) :
    Grows out (parseFields limits fuel depth buf out) :=
  (parseFields_updates fuel depth out (List.infix_refl buf)).grows

/-! ## Leaves are paid for by bytes -/

theorem step_leaves
    (limits : GrpcLimits) (depth : Nat) (out : GrpcExtract) (rest : Bytes)
    (value : FieldValue) :
    (value.step limits depth out rest).out.leaves.length +
        (value.step limits depth out rest).left ≤
      out.leaves.length + (value.encode ++ rest).length := by
  rw [List.length_append]
  cases value with
  | len length payload fits =>
      -- The length prefix has paid for the leaf.
      have prefixed : 0 < length.bytes.length := by
        rw [Varint.bytes, List.length_append]
        exact Nat.succ_pos _
      rw [FieldValue.encode, List.length_append, FieldValue.step,
        delimitedField]
      split
      · simp only [FieldStep.out, FieldStep.left]
        omega
      · simp only [FieldStep.out, FieldStep.left, GrpcExtract.pushLeaf]
        split_ifs
        · rw [List.length_append, List.length_singleton]
          omega
        · omega
      · split_ifs
        · simp only [FieldStep.out, FieldStep.left]
          omega
        · simp only [FieldStep.out, FieldStep.left]
          omega
  | varint _ =>
      simp only [FieldValue.step, FieldStep.out, FieldStep.left]
      omega
  | i64 _ _ =>
      simp only [FieldValue.step, FieldStep.out, FieldStep.left]
      omega
  | i32 _ _ =>
      simp only [FieldValue.step, FieldStep.out, FieldStep.left]
      omega

/-- A field adds fewer leaves than it takes bytes. -/
theorem readField_leaves
    (limits : GrpcLimits) (depth : Nat) (out : GrpcExtract) (buf : Bytes)
    (more : buf ≠ []) :
    (readField limits depth out buf).out.leaves.length +
        (readField limits depth out buf).left <
      out.leaves.length + buf.length := by
  have positive : 0 < buf.length := List.length_pos_of_ne_nil more
  have stopped : ∀ after : GrpcExtract, after.leaves = out.leaves →
      (FieldStep.stop after).out.leaves.length +
          (FieldStep.stop after).left <
        out.leaves.length + buf.length := by
    intro after same
    simpa [FieldStep.out, FieldStep.left, same] using positive
  rcases readField_cases buf with untagged | unread | ⟨field, rest, rfl⟩
  · rw [untagged]
    exact stopped _ rfl
  · rw [unread]
    split_ifs
    · exact stopped _ rfl
    · exact stopped _ rfl
  · rw [readField_complete]
    split_ifs
    · exact stopped _ rfl
    · have paid := step_leaves limits depth out.countField rest field.value
      have counted : out.countField.leaves = out.leaves := rfl
      rw [counted, List.length_append] at paid
      simp only [WireField.encode, Varint.bytes, List.length_append,
        List.length_singleton]
      omega

theorem parseFields_leaves
    (limits : GrpcLimits) (fuel depth : Nat) (buf : Bytes)
    (out : GrpcExtract) :
    (parseFields limits fuel depth buf out).leaves.length ≤
      out.leaves.length + buf.length := by
  induction fuel generalizing depth buf out with
  | zero => exact Nat.le_add_right _ _
  | succ fuel induction =>
      rw [parseFields]
      split_ifs with done
      · exact Nat.le_add_right _ _
      · have step := readField_leaves limits depth out buf done
        cases read : readField limits depth out buf with
        | stop after =>
            rw [read] at step
            simp only [FieldStep.out, FieldStep.left] at step
            exact (Nat.le_of_lt step)
        | next after rest =>
            rw [read] at step
            simp only [FieldStep.out, FieldStep.left] at step
            have := induction depth rest after
            simp only
            omega
        | nest after field rest =>
            rw [read] at step
            simp only [FieldStep.out, FieldStep.left] at step
            have inner := induction (depth + 1) field
              (after.enter (depth + 1))
            have outer := induction depth rest
              (parseFields limits fuel (depth + 1) field
                (after.enter (depth + 1)))
            have entered :
                (after.enter (depth + 1)).leaves = after.leaves := rfl
            rw [entered] at inner
            simp only
            omega

/-! ## Agreement of two limits -/

/-- An extract that shows no limit hit and stays within other limits. -/
structure Within (limits : GrpcLimits) (out : GrpcExtract) : Prop where
  depth : out.depthExceeded = false
  noFieldsExceeded : out.fieldsExceeded = false
  fields : out.fields ≤ limits.maxFields
  maxDepth : out.maxDepth ≤ limits.maxDepth
  leaves : out.leaves.length ≤ limits.maxLeaves

/-- What holds at the end of a walk holds all along it. -/
theorem Within.of_grows
    {limits : GrpcLimits} {before after : GrpcExtract}
    (within : Within limits after) (grows : Grows before after)
    (bounded : before.fields < 2 ^ 32) :
    Within limits before where
  depth := by
    have := grows.depthExceeded
    cases flag : before.depthExceeded with
    | false => rfl
    | true => exact absurd (this flag) (by simp [within.depth])
  noFieldsExceeded := by
    have := grows.fieldsExceeded
    cases flag : before.fieldsExceeded with
    | false => rfl
    | true => exact absurd (this flag) (by simp [within.noFieldsExceeded])
  fields := (grows.fields bounded).trans within.fields
  maxDepth := grows.maxDepth.trans within.maxDepth
  leaves := grows.leaves.trans within.leaves

/-- A value is taken alike under limits that it does not hit. -/
theorem step_agree
    (own other : GrpcLimits) (depth : Nat) (out : GrpcExtract) (rest : Bytes)
    (value : FieldValue) (uncapped : out.leaves.length < own.maxLeaves)
    (within : Within other (value.step own depth out rest).out)
    (entered : ∀ after field following,
      value.step own depth out rest = .nest after field following →
        depth < other.maxDepth) :
    value.step other depth out rest = value.step own depth out rest := by
  cases value with
  | len length payload fits =>
      rw [FieldValue.step] at within entered ⊢
      rw [FieldValue.step]
      unfold delimitedField at within entered ⊢
      cases decoded : fromUtf8 payload with
      | some leaf =>
          rw [decoded] at within
          cases leaf with
          | nil => rfl
          | cons head tail =>
              have kept := within.leaves
              simp only [FieldStep.out, GrpcExtract.pushLeaf,
                if_pos uncapped, List.length_append,
                List.length_singleton] at kept
              have otherRoom : out.leaves.length < other.maxLeaves := by
                omega
              simp only [GrpcExtract.pushLeaf, if_pos uncapped,
                if_pos otherRoom]
      | none =>
          rw [decoded] at within entered
          dsimp only at within entered ⊢
          by_cases deep : own.maxDepth ≤ depth
          · rw [if_pos deep] at within
            exact Bool.noConfusion within.depth
          · rw [if_neg deep] at entered ⊢
            have shallow := entered _ _ _ rfl
            rw [if_neg (not_le.mpr shallow)]
  | varint _ => rfl
  | i64 _ _ => rfl
  | i32 _ _ => rfl

theorem readField_agree
    (own other : GrpcLimits) (depth : Nat) (out : GrpcExtract)
    (buf : Bytes)
    (uncapped : out.leaves.length + buf.length ≤ own.maxLeaves)
    (bounded : out.fields < 2 ^ 32)
    (within : Within other (readField own depth out buf).out)
    (entered : ∀ after field following,
      readField own depth out buf = .nest after field following →
        depth < other.maxDepth) :
    readField other depth out buf = readField own depth out buf := by
  have counted := (grows_countField out).bounded bounded
  rcases readField_cases buf with untagged | unread | ⟨field, rest, rfl⟩
  · rw [untagged, untagged]
  · rw [unread] at within
    rw [unread, unread]
    split_ifs at within with exceeded
    · exact Bool.noConfusion within.noFieldsExceeded
    · have fits : out.countField.fields ≤ other.maxFields := within.fields
      rw [if_neg exceeded, if_neg (not_lt.mpr fits)]
  · rw [readField_complete] at within entered
    rw [readField_complete, readField_complete]
    by_cases exceeded : own.maxFields < out.countField.fields
    · rw [if_pos exceeded] at within
      exact Bool.noConfusion within.noFieldsExceeded
    · rw [if_neg exceeded] at within entered ⊢
      have grown := step_grows own depth out.countField rest field.value
      have fits := (within.of_grows grown counted).fields
      have room : out.countField.leaves.length < own.maxLeaves := by
        simp only [WireField.encode, Varint.bytes, List.length_append,
          List.length_singleton] at uncapped
        simp only [GrpcExtract.countField]
        omega
      rw [if_neg (not_lt.mpr fits)]
      exact step_agree own other depth _ rest field.value room within entered

/--
A message walked under limits `own` without hitting one, whose extract stays
within the limits `other`, is walked alike under `other`.
-/
theorem parseFields_agree
    (own other : GrpcLimits) (fuel depth : Nat) (buf : Bytes)
    (out : GrpcExtract)
    (uncapped : out.leaves.length + buf.length ≤ own.maxLeaves)
    (bounded : out.fields < 2 ^ 32)
    (within : Within other (parseFields own fuel depth buf out)) :
    parseFields other fuel depth buf out =
      parseFields own fuel depth buf out := by
  induction fuel generalizing depth buf out with
  | zero => rfl
  | succ fuel induction =>
      rw [parseFields] at within ⊢
      rw [parseFields]
      split_ifs at within ⊢ with done
      · rfl
      · have step := readField_leaves own depth out buf done
        have grown := readField_grows own depth out buf
        have stepBounded := grown.bounded bounded
        cases read : readField own depth out buf with
        | stop after =>
            simp only [read] at within
            rw [readField_agree own other depth out buf uncapped bounded
              (by rw [read]; exact within) (by simp [read]), read]
        | next after rest =>
            rw [read] at step grown stepBounded
            simp only [read] at within
            simp only [FieldStep.out, FieldStep.left] at step stepBounded
            have later := parseFields_grows own fuel depth rest after
            rw [readField_agree own other depth out buf uncapped bounded
              (by rw [read]; exact within.of_grows later stepBounded)
              (by simp [read]), read]
            exact induction depth rest after (by omega) stepBounded within
        | nest after field rest =>
            rw [read] at step grown stepBounded
            simp only [read] at within
            simp only [FieldStep.out, FieldStep.left] at step stepBounded
            have nested := parseFields_grows own fuel (depth + 1) field
              (after.enter (depth + 1))
            have nestedBounded := nested.bounded stepBounded
            have later := parseFields_grows own fuel depth rest
              (parseFields own fuel (depth + 1) field
                (after.enter (depth + 1)))
            have nestedWithin := within.of_grows later nestedBounded
            have enteredWithin := nestedWithin.of_grows nested stepBounded
            have shallow : depth < other.maxDepth :=
              lt_of_lt_of_le (Nat.lt_succ_self depth)
                ((le_max_right after.maxDepth (depth + 1)).trans
                  enteredWithin.maxDepth)
            have kept := parseFields_leaves own fuel (depth + 1) field
              (after.enter (depth + 1))
            have entered :
                (after.enter (depth + 1)).leaves = after.leaves := rfl
            rw [entered] at kept
            rw [readField_agree own other depth out buf uncapped bounded
              (by
                rw [read]
                exact enteredWithin.of_grows (grows_enter after _)
                  stepBounded)
              (fun _ _ _ _ => shallow), read]
            simp only
            rw [induction (depth + 1) field (after.enter (depth + 1))
              (by rw [entered]; omega) stepBounded nestedWithin]
            exact induction depth rest _ (by omega) nestedBounded within

/-! ## Frames -/

theorem grows_countFrame (out : GrpcExtract) (length : Nat) :
    Grows out (out.countFrame length) :=
  { Grows.refl out with }

theorem parseFrame_grows
    (limits : GrpcLimits) (flag : UInt8) (message : Bytes)
    (out : GrpcExtract) :
    Grows out (parseFrame limits flag message out) :=
  (parseFrame_updates flag out (List.infix_refl message)).grows

theorem parseFrame_leaves
    (limits : GrpcLimits) (flag : UInt8) (message : Bytes)
    (out : GrpcExtract) :
    (parseFrame limits flag message out).leaves.length ≤
      out.leaves.length + message.length := by
  unfold parseFrame
  split_ifs
  · exact parseFields_leaves limits message.length 1 message (out.enter 1)
  · exact Nat.le_add_right _ _
  · exact Nat.le_add_right _ _

theorem parseFrame_agree
    (own other : GrpcLimits) (flag : UInt8) (message : Bytes)
    (out : GrpcExtract)
    (uncapped : out.leaves.length + message.length ≤ own.maxLeaves)
    (bounded : out.fields < 2 ^ 32)
    (within : Within other (parseFrame own flag message out)) :
    parseFrame other flag message out = parseFrame own flag message out := by
  unfold parseFrame at within ⊢
  split_ifs at within ⊢ with plain compressed
  · exact parseFields_agree own other message.length 1 message (out.enter 1)
      uncapped bounded within
  · rfl
  · rfl

theorem readFrame_length
    {body : Bytes} {flag : UInt8} {message rest : Bytes}
    (read : readFrame body = .frame flag message rest) :
    message.length + rest.length < body.length := by
  unfold readFrame at read
  split at read
  · cases read
  · dsimp only at read
    split_ifs at read with short
    obtain ⟨-, rfl, rfl⟩ := FrameStep.frame.inj read
    simp only [List.length_take, List.length_drop, List.length_cons]
    omega
  · cases read

theorem parseFrames_grows
    (limits : GrpcLimits) (fuel : Nat) (body : Bytes) (out : GrpcExtract) :
    Grows out (parseFrames limits fuel body out) :=
  parseFrames_invariant (fun _ _ grown update => grown.trans update.grows)
    (fun before length grown => grown.trans (grows_countFrame before length))
    fuel (List.infix_refl body) (Grows.refl out)

/-- The frames of a body are walked alike under limits that are not hit. -/
theorem parseFrames_agree
    (own other : GrpcLimits) (fuel : Nat) (body : Bytes) (out : GrpcExtract)
    (uncapped : out.leaves.length + body.length ≤ own.maxLeaves)
    (bounded : out.fields < 2 ^ 32)
    (within : Within other (parseFrames own fuel body out)) :
    parseFrames other fuel body out = parseFrames own fuel body out := by
  induction fuel generalizing body out with
  | zero => rfl
  | succ fuel induction =>
      rw [parseFrames] at within ⊢
      rw [parseFrames]
      cases read : readFrame body with
      | done => rfl
      | illegal => rfl
      | frame flag message rest =>
          simp only [read] at within ⊢
          set counted := out.countFrame message.length
          have sameLeaves : counted.leaves = out.leaves := rfl
          have shorter := readFrame_length read
          have grown := parseFrame_grows own flag message counted
          have frameBounded := grown.bounded bounded
          have later := parseFrames_grows own fuel rest
            (parseFrame own flag message counted)
          have kept := parseFrame_leaves own flag message counted
          rw [sameLeaves] at kept
          rw [parseFrame_agree own other flag message counted
            (by rw [sameLeaves]; omega) bounded
            (within.of_grows later frameBounded)]
          exact induction _ _ (by omega) frameBounded within

/-! ## The cap on leaves touches nothing else -/

/-- An extract without its leaves. -/
def GrpcExtract.shape (out : GrpcExtract) : GrpcExtract :=
  { out with leaves := [] }

/-- A step without the leaves of its extract. -/
def FieldStep.shape : FieldStep → FieldStep
  | .stop out => .stop out.shape
  | .next out rest => .next out.shape rest
  | .nest out field rest => .nest out.shape field rest

/-- The same limits with another cap on leaves. -/
def GrpcLimits.withLeaves (limits : GrpcLimits) (cap : Nat) : GrpcLimits :=
  { limits with maxLeaves := cap }

theorem shape_eq_iff (left right : GrpcExtract) :
    left.shape = right.shape ↔ left = { right with leaves := left.leaves } := by
  cases left
  cases right
  simp [GrpcExtract.shape]

theorem shape_pushLeaf
    (out : GrpcExtract) (limits : GrpcLimits) (leaf : Text) :
    (out.pushLeaf limits leaf).shape = out.shape := by
  unfold GrpcExtract.pushLeaf
  split_ifs <;> rfl

theorem step_shape
    (limits : GrpcLimits) (cap depth : Nat) (rest : Bytes)
    (out : GrpcExtract) (leaves : List Text) (value : FieldValue) :
    (value.step (limits.withLeaves cap) depth { out with leaves := leaves }
      rest).shape = (value.step limits depth out rest).shape := by
  cases value with
  | len length payload fits =>
      rw [FieldValue.step, FieldValue.step, delimitedField, delimitedField]
      cases fromUtf8 payload with
      | some leaf =>
          cases leaf with
          | nil => rfl
          | cons head tail =>
              simp only [FieldStep.shape, shape_pushLeaf]
              rfl
      | none =>
          dsimp only
          by_cases deep : limits.maxDepth ≤ depth
          · have capped : (limits.withLeaves cap).maxDepth ≤ depth := deep
            rw [if_pos deep, if_pos capped]
            rfl
          · have capped : ¬ (limits.withLeaves cap).maxDepth ≤ depth := deep
            rw [if_neg deep, if_neg capped]
            rfl
  | varint _ => rfl
  | i64 _ _ => rfl
  | i32 _ _ => rfl

theorem readField_shape
    (limits : GrpcLimits) (cap depth : Nat) (buf : Bytes)
    (out : GrpcExtract) (leaves : List Text) :
    (readField (limits.withLeaves cap) depth { out with leaves := leaves }
      buf).shape = (readField limits depth out buf).shape := by
  have sameCap : (limits.withLeaves cap).maxFields <
        ({ out with leaves := leaves } : GrpcExtract).countField.fields ↔
      limits.maxFields < out.countField.fields := Iff.rfl
  rcases readField_cases buf with untagged | unread | ⟨field, rest, rfl⟩
  · rw [untagged, untagged]
    rfl
  · rw [unread, unread]
    by_cases exceeded : limits.maxFields < out.countField.fields
    · rw [if_pos exceeded, if_pos (sameCap.mpr exceeded)]
      rfl
    · rw [if_neg exceeded, if_neg (mt sameCap.mp exceeded)]
      rfl
  · rw [readField_complete, readField_complete]
    by_cases exceeded : limits.maxFields < out.countField.fields
    · rw [if_pos exceeded, if_pos (sameCap.mpr exceeded)]
      rfl
    · rw [if_neg exceeded, if_neg (mt sameCap.mp exceeded)]
      exact step_shape limits cap depth rest out.countField leaves field.value

theorem parseFields_shape
    (limits : GrpcLimits) (cap fuel depth : Nat) (buf : Bytes)
    (out out' : GrpcExtract) (same : out'.shape = out.shape) :
    (parseFields (limits.withLeaves cap) fuel depth buf out').shape =
      (parseFields limits fuel depth buf out).shape := by
  induction fuel generalizing depth buf out out' with
  | zero => exact same
  | succ fuel induction =>
      rw [parseFields, parseFields]
      split_ifs with done
      · exact same
      · have step := readField_shape limits cap depth buf out out'.leaves
        rw [← (shape_eq_iff out' out).mp same] at step
        cases read : readField limits depth out buf with
        | stop after =>
            rw [read] at step
            cases read' : readField (limits.withLeaves cap) depth out' buf <;>
              rw [read'] at step <;> simp only [FieldStep.shape] at step
            · exact FieldStep.stop.inj step
            · cases step
            · cases step
        | next after rest =>
            rw [read] at step
            cases read' : readField (limits.withLeaves cap) depth out' buf <;>
              rw [read'] at step <;> simp only [FieldStep.shape] at step
            · cases step
            · obtain ⟨shapes, rfl⟩ := FieldStep.next.inj step
              exact induction depth _ after _ shapes
            · cases step
        | nest after field rest =>
            rw [read] at step
            cases read' : readField (limits.withLeaves cap) depth out' buf <;>
              rw [read'] at step <;> simp only [FieldStep.shape] at step
            · cases step
            · cases step
            · obtain ⟨shapes, rfl, rfl⟩ := FieldStep.nest.inj step
              refine induction depth _ _ _ (induction (depth + 1) _ _ _ ?_)
              rename_i after' field' rest'
              have := (shape_eq_iff after' after).mp shapes
              rw [this]
              rfl

theorem parseFrames_shape
    (limits : GrpcLimits) (cap fuel : Nat) (body : Bytes)
    (out out' : GrpcExtract) (same : out'.shape = out.shape) :
    (parseFrames (limits.withLeaves cap) fuel body out').shape =
      (parseFrames limits fuel body out).shape := by
  induction fuel generalizing body out out' with
  | zero => exact same
  | succ fuel induction =>
      have equal := (shape_eq_iff out' out).mp same
      rw [parseFrames, parseFrames]
      cases readFrame body with
      | done => exact same
      | illegal =>
          rw [equal]
          rfl
      | frame flag message rest =>
          refine induction _ _ _ ?_
          unfold parseFrame
          split_ifs
          · refine parseFields_shape limits cap _ 1 _ _ _ ?_
            rw [equal]
            rfl
          · rw [equal]
            rfl
          · rw [equal]
            rfl

/-- The structural metrics of a body do not depend on the cap on leaves. -/
theorem grpcExtract_shape
    (body : Bytes) (limits : GrpcLimits) (cap : Nat) :
    (grpcExtract body (limits.withLeaves cap)).shape =
      (grpcExtract body limits).shape :=
  parseFrames_shape limits cap _ body {} {} rfl

end LightWaf.Normalizer
