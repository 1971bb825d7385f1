import LightWaf.Normalizer.GrpcWalk

/-!
# Positions and bounds of a walk

The walk of a gRPC body as the source writes it, over positions of a buffer:
indexing and slicing are checked, and a walk that reads outside its buffer or
does not come to an end has no result.  It always has one, the result of the
walk over the remaining bytes, and that result is bounded by the limits.
-/

namespace LightWaf.Normalizer

open LightWaf.Rust

/-! ## Checked positions -/

/-- `&buf[start..stop]`; nothing where the indexing would panic. -/
def slice (buf : Bytes) (start stop : Nat) : Option Bytes :=
  if start ≤ stop ∧ stop ≤ buf.length then
    some ((buf.drop start).take (stop - start))
  else none

/-- The bytes of a varint at a position, at most `left` of them. -/
def readVarintAtFrom (buf : Bytes) :
    (left shift i : Nat) → Option (Nat × Nat)
  | 0, _, _ => none
  | left + 1, shift, i => do
      let byte ← buf[i]?
      if byte < 0x80 then some (byte.toNat * 2 ^ shift, i + 1)
      else
        let (value, i) ← readVarintAtFrom buf left (shift + 7) (i + 1)
        some (byte.toNat % 128 * 2 ^ shift + value, i)

/-- `read_varint`: the value at a position, and the position behind it. -/
def readVarintAt (buf : Bytes) (i : Nat) : Option (Nat × Nat) :=
  (readVarintAtFrom buf 10 0 i).map fun (value, i) => (value % 2 ^ 64, i)

/-- What one field of a message does, over positions. -/
inductive FieldStepAt
  | stop (out : GrpcExtract)
  | next (out : GrpcExtract) (i : Nat)
  | nest (out : GrpcExtract) (field : Bytes) (i : Nat)

/-- A length-delimited field that ends at a position. -/
def delimitedFieldAt (limits : GrpcLimits) (depth : Nat) (out : GrpcExtract)
    (field : Bytes) (stop : Nat) : FieldStepAt :=
  match fromUtf8 field with
  | some [] => .next out stop
  | some leaf => .next (out.pushLeaf limits leaf) stop
  | none =>
      if limits.maxDepth ≤ depth then
        .next { out with depthExceeded := true } stop
      else .nest out field stop

/--
The value of a field at a position, by its wire type.

`checked_add` fails only beyond the largest position, and then the end of the
field is beyond its buffer as well.
-/
def readValueAt (limits : GrpcLimits) (depth wireType : Nat)
    (out : GrpcExtract) (buf : Bytes) (i : Nat) : Option FieldStepAt :=
  match wireType with
  | 0 =>
      match readVarintAt buf i with
      | none => some (.stop { out with malformed := true })
      | some (_, i) => some (.next out i)
  | 1 =>
      if buf.length < i + 8 then some (.stop { out with malformed := true })
      else some (.next out (i + 8))
  | 5 =>
      if buf.length < i + 4 then some (.stop { out with malformed := true })
      else some (.next out (i + 4))
  | 2 =>
      match readVarintAt buf i with
      | none => some (.stop { out with malformed := true })
      | some (length, i) =>
          if buf.length < i + length then
            some (.stop { out with malformed := true })
          else do
            let field ← slice buf i (i + length)
            some (delimitedFieldAt limits depth out field (i + length))
  | _ => some (.stop { out with malformed := true })

/-- The field at a position of a buffer. -/
def readFieldAt (limits : GrpcLimits) (depth : Nat) (out : GrpcExtract)
    (buf : Bytes) (i : Nat) : Option FieldStepAt :=
  match readVarintAt buf i with
  | none => some (.stop { out with malformed := true })
  | some (tag, i) =>
      if limits.maxFields < out.countField.fields then
        some (.stop { out.countField with fieldsExceeded := true })
      else readValueAt limits depth (tag % 8) out.countField buf i

/--
The loop of `parse_message` over positions, with a bound on its rounds; it has
no result where the rounds do not suffice.
-/
def parseFieldsAt (limits : GrpcLimits) :
    (rounds depth : Nat) → Bytes → (i : Nat) → GrpcExtract →
      Option GrpcExtract
  | 0, _, _, _, _ => none
  | rounds + 1, depth, buf, i, out =>
      if buf.length ≤ i then some out
      else do
        match ← readFieldAt limits depth out buf i with
        | .stop out => some out
        | .next out i => parseFieldsAt limits rounds depth buf i out
        | .nest out field i =>
            let out ← parseFieldsAt limits rounds (depth + 1) field 0
              (out.enter (depth + 1))
            parseFieldsAt limits rounds depth buf i out

/-- What stands at a position of the body. -/
inductive FrameStepAt
  | done
  | illegal
  | frame (flag : UInt8) (message : Bytes) (pos : Nat)

/-- The frame at a position of the body. -/
def readFrameAt (body : Bytes) (pos : Nat) : Option FrameStepAt :=
  if pos + 5 ≤ body.length then do
    let flag ← body[pos]?
    let b0 ← body[pos + 1]?
    let b1 ← body[pos + 2]?
    let b2 ← body[pos + 3]?
    let b3 ← body[pos + 4]?
    let stop := pos + 5 + frameLength b0 b1 b2 b3
    if body.length < stop then some .illegal
    else
      let message ← slice body (pos + 5) stop
      some (.frame flag message stop)
  else if pos = body.length then some .done
  else some .illegal

/-- The payload of one frame over positions, by the frame's flag. -/
def parseFrameAt (limits : GrpcLimits) (rounds : Nat) (flag : UInt8)
    (message : Bytes) (out : GrpcExtract) : Option GrpcExtract :=
  if flag = 0 then parseFieldsAt limits rounds 1 message 0 (out.enter 1)
  else if flag = 1 then some { out with compressed := true }
  else some { out with malformed := true }

/-- The loop of `grpc_extract` over positions, with a bound on its rounds. -/
def parseFramesAt (limits : GrpcLimits) :
    (rounds : Nat) → (body : Bytes) → (pos : Nat) → GrpcExtract →
      Option GrpcExtract
  | 0, _, _, _ => none
  | rounds + 1, body, pos, out => do
      match ← readFrameAt body pos with
      | .done => some out
      | .illegal => some { out with malformed := true }
      | .frame flag message pos =>
          let out ← parseFrameAt limits (message.length + 1) flag message
            (out.countFrame message.length)
          parseFramesAt limits rounds body pos out

/-- `grpc_extract` over positions. -/
def grpcExtractAt (body : Bytes) (limits : GrpcLimits) : Option GrpcExtract :=
  parseFramesAt limits (body.length + 1) body 0 {}

/-! ## A walk over positions is a walk over what remains -/

theorem slice_eq_some
    {buf : Bytes} {start length : Nat} (fits : start + length ≤ buf.length) :
    slice buf start (start + length) =
      some ((buf.drop start).take length) := by
  rw [slice, if_pos ⟨Nat.le_add_right start length, fits⟩,
    Nat.add_sub_cancel_left]

theorem readVarintAtFrom_cases (buf : Bytes) (left shift i : Nat) :
    (readVarintAtFrom buf left shift i = none ∧
        readVarintFrom left shift (buf.drop i) = none) ∨
      ∃ value later, readVarintAtFrom buf left shift i = some (value, later) ∧
        readVarintFrom left shift (buf.drop i) =
          some (value, buf.drop later) ∧
        i < later ∧ later ≤ buf.length := by
  induction left generalizing shift i with
  | zero => exact Or.inl ⟨rfl, rfl⟩
  | succ left induction =>
      rw [readVarintAtFrom]
      rcases Nat.lt_or_ge i buf.length with inside | outside
      · rw [List.getElem?_eq_getElem inside, List.drop_eq_getElem_cons inside,
          readVarintFrom]
        simp only [Option.bind_eq_bind, Option.bind_some]
        split_ifs with last
        · exact Or.inr ⟨_, i + 1, rfl, rfl, Nat.lt_succ_self i, inside⟩
        · rcases induction (shift + 7) (i + 1) with
            ⟨none, noneRest⟩ | ⟨value, later, some, someRest, beyond, bound⟩
          · left
            rw [none, noneRest]
            exact ⟨rfl, rfl⟩
          · right
            rw [some, someRest]
            exact ⟨_, later, rfl, rfl, Nat.lt_of_succ_lt beyond, bound⟩
      · left
        rw [List.getElem?_eq_none outside, List.drop_eq_nil_of_le outside]
        exact ⟨rfl, rfl⟩

/-- A varint at a position is the varint that the rest starts with. -/
theorem readVarintAt_cases (buf : Bytes) (i : Nat) :
    (readVarintAt buf i = none ∧ readVarint (buf.drop i) = none) ∨
      ∃ value later, readVarintAt buf i = some (value, later) ∧
        readVarint (buf.drop i) = some (value, buf.drop later) ∧
        i < later ∧ later ≤ buf.length := by
  rw [readVarintAt, readVarint]
  rcases readVarintAtFrom_cases buf 10 0 i with
    ⟨none, noneRest⟩ | ⟨value, later, some, someRest, beyond, bound⟩
  · left
    rw [none, noneRest]
    exact ⟨rfl, rfl⟩
  · right
    rw [some, someRest]
    exact ⟨_, later, rfl, rfl, beyond, bound⟩

/-- A step over positions as a step over what remains. -/
def FieldStepAt.remaining (buf : Bytes) : FieldStepAt → FieldStep
  | stop out => .stop out
  | next out i => .next out (buf.drop i)
  | nest out field i => .nest out field (buf.drop i)

theorem remaining_delimitedFieldAt
    (limits : GrpcLimits) (depth : Nat) (out : GrpcExtract)
    (buf field : Bytes) (stop : Nat) :
    (delimitedFieldAt limits depth out field stop).remaining buf =
      delimitedField limits depth out field (buf.drop stop) := by
  unfold delimitedFieldAt delimitedField
  cases fromUtf8 field with
  | none =>
      dsimp only
      split_ifs
      · rfl
      · rfl
  | some leaf =>
      cases leaf with
      | nil => rfl
      | cons _ _ => rfl

/-- A fixed width fits behind a position, or what remains is too short. -/
theorem skipFixed_drop
    (count : Nat) (out : GrpcExtract) (buf : Bytes) {i : Nat}
    (inside : i ≤ buf.length) :
    skipFixed count out (buf.drop i) =
      if buf.length < i + count then .stop { out with malformed := true }
      else .next out (buf.drop (i + count)) := by
  have same : (buf.drop i).length < count ↔ buf.length < i + count := by
    rw [List.length_drop]
    omega
  simp only [skipFixed, same, List.drop_drop]

theorem readValueAt_eq
    (limits : GrpcLimits) (depth wireType : Nat) (out : GrpcExtract)
    (buf : Bytes) {i : Nat} (inside : i ≤ buf.length) :
    ∃ step, readValueAt limits depth wireType out buf i = some step ∧
      step.remaining buf =
        readValue limits depth wireType out (buf.drop i) := by
  unfold readValueAt
  split
  · simp only [readValue]
    rcases readVarintAt_cases buf i with
      ⟨none, noneRest⟩ | ⟨value, later, some, someRest, -, -⟩
    · rw [none, noneRest]
      exact ⟨_, rfl, rfl⟩
    · rw [some, someRest]
      exact ⟨_, rfl, rfl⟩
  · simp only [readValue, skipFixed_drop 8 out buf inside]
    split_ifs
    · exact ⟨_, rfl, rfl⟩
    · exact ⟨_, rfl, rfl⟩
  · simp only [readValue, skipFixed_drop 4 out buf inside]
    split_ifs
    · exact ⟨_, rfl, rfl⟩
    · exact ⟨_, rfl, rfl⟩
  · simp only [readValue]
    rcases readVarintAt_cases buf i with
      ⟨none, noneRest⟩ | ⟨length, later, some, someRest, -, bound⟩
    · rw [none, noneRest]
      exact ⟨_, rfl, rfl⟩
    · rw [some, someRest]
      have same : (buf.drop later).length < length ↔
          buf.length < later + length := by
        rw [List.length_drop]
        omega
      simp only [same]
      split_ifs with short
      · exact ⟨_, rfl, rfl⟩
      · rw [slice_eq_some (Nat.not_lt.mp short)]
        refine ⟨_, rfl, ?_⟩
        rw [remaining_delimitedFieldAt, List.drop_drop]
  next noVarint noI64 noI32 noLen =>
    rcases readValue_cases wireType (buf.drop i) with
      stopped | ⟨value, _, _, typed⟩
    · exact ⟨_, rfl, (stopped limits depth out).symm⟩
    · cases value with
      | varint _ => exact absurd typed noVarint
      | i64 _ _ => exact absurd typed noI64
      | i32 _ _ => exact absurd typed noI32
      | len _ _ _ => exact absurd typed noLen

/-- No field is read outside its buffer. -/
theorem readFieldAt_eq
    (limits : GrpcLimits) (depth : Nat) (out : GrpcExtract) (buf : Bytes)
    (i : Nat) :
    ∃ step, readFieldAt limits depth out buf i = some step ∧
      step.remaining buf = readField limits depth out (buf.drop i) := by
  unfold readFieldAt readField
  rcases readVarintAt_cases buf i with
    ⟨none, noneRest⟩ | ⟨tag, later, some, someRest, -, bound⟩
  · rw [none, noneRest]
    exact ⟨_, rfl, rfl⟩
  · rw [some, someRest]
    by_cases exceeded : limits.maxFields < out.countField.fields
    · refine ⟨_, if_pos exceeded, ?_⟩
      exact (if_pos exceeded).symm
    · obtain ⟨step, read, same⟩ := readValueAt_eq limits depth (tag % 8)
        out.countField buf bound
      refine ⟨step, (if_neg exceeded).trans read, ?_⟩
      exact same.trans (if_neg exceeded).symm

/-- A field takes bytes from what is to be walked. -/
theorem readField_left
    (limits : GrpcLimits) (depth : Nat) (out : GrpcExtract) {buf : Bytes}
    (more : buf ≠ []) :
    (readField limits depth out buf).left < buf.length := by
  have leaves := readField_leaves limits depth out buf more
  have grows := (readField_grows limits depth out buf).leaves
  omega

/-- A message is walked to its end in as many rounds as it has bytes. -/
theorem parseFieldsAt_eq
    (limits : GrpcLimits) {rounds : Nat} (depth : Nat) (buf : Bytes) (i : Nat)
    (out : GrpcExtract) (enough : buf.length - i ≤ rounds) :
    parseFieldsAt limits (rounds + 1) depth buf i out =
      some (parseFields limits rounds depth (buf.drop i) out) := by
  induction rounds generalizing depth buf i out with
  | zero =>
      rw [parseFieldsAt, if_pos (Nat.sub_eq_zero_iff_le.mp
        (Nat.le_zero.mp enough))]
      rfl
  | succ rounds induction =>
      rw [parseFieldsAt, parseFields]
      by_cases done : buf.length ≤ i
      · rw [if_pos done, if_pos (List.drop_eq_nil_of_le done)]
      · have more : buf.drop i ≠ [] := fun empty =>
          done (List.drop_eq_nil_iff.mp empty)
        rw [if_neg done, if_neg more]
        obtain ⟨step, read, same⟩ := readFieldAt_eq limits depth out buf i
        have shorter := readField_left limits depth out more
        rw [← same, List.length_drop] at shorter
        rw [read, ← same]
        cases step with
        | stop after => rfl
        | next after later =>
            simp only [FieldStepAt.remaining, FieldStep.left,
              List.length_drop] at shorter
            exact induction depth buf later after (by omega)
        | nest after field later =>
            simp only [FieldStepAt.remaining, FieldStep.left,
              List.length_drop] at shorter
            have inner := induction (depth + 1) field 0
              (after.enter (depth + 1)) (by omega)
            rw [List.drop_zero] at inner
            simp only [FieldStepAt.remaining, Option.bind_eq_bind,
              Option.bind_some, inner]
            exact induction depth buf later _ (by omega)

/-- A step over positions as a step over what remains of the body. -/
def FrameStepAt.remaining (body : Bytes) : FrameStepAt → FrameStep
  | done => .done
  | illegal => .illegal
  | frame flag message pos => .frame flag message (body.drop pos)

/-- The step behind a header stays within the body. -/
def FrameStepAt.Inside (body : Bytes) : FrameStepAt → Prop
  | frame _ _ pos => pos ≤ body.length
  | _ => True

theorem readFrameAt_header
    {body : Bytes} {pos : Nat} (room : pos + 5 ≤ body.length) :
    ∃ step, readFrameAt body pos = some step ∧ step.Inside body ∧
      step.remaining body = readFrame (body.drop pos) := by
  rw [readFrameAt, if_pos room,
    List.getElem?_eq_getElem (show pos < body.length by omega),
    List.getElem?_eq_getElem (show pos + 1 < body.length by omega),
    List.getElem?_eq_getElem (show pos + 2 < body.length by omega),
    List.getElem?_eq_getElem (show pos + 3 < body.length by omega),
    List.getElem?_eq_getElem (show pos + 4 < body.length by omega),
    List.drop_eq_getElem_cons (show pos < body.length by omega),
    List.drop_eq_getElem_cons (show pos + 1 < body.length by omega),
    List.drop_eq_getElem_cons (show pos + 2 < body.length by omega),
    List.drop_eq_getElem_cons (show pos + 3 < body.length by omega),
    List.drop_eq_getElem_cons (show pos + 4 < body.length by omega),
    readFrame]
  simp only [Option.bind_eq_bind, Option.bind_some, List.length_drop]
  generalize frameLength _ _ _ _ = length
  by_cases short : body.length < pos + 5 + length
  · refine ⟨.illegal, if_pos short, trivial, ?_⟩
    rw [if_pos (by omega)]
    rfl
  · rw [if_neg short, slice_eq_some (Nat.not_lt.mp short)]
    refine ⟨_, rfl, Nat.not_lt.mp short, ?_⟩
    rw [if_neg (by omega), List.drop_drop]
    rfl

theorem readFrame_of_short
    {rest : Bytes} (some : rest ≠ []) (short : rest.length < 5) :
    readFrame rest = .illegal := by
  unfold readFrame
  split
  · exact absurd rfl some
  · simp only [List.length_cons] at short
    omega
  · rfl

/-- No frame is read outside the body. -/
theorem readFrameAt_eq
    {body : Bytes} {pos : Nat} (inside : pos ≤ body.length) :
    ∃ step, readFrameAt body pos = some step ∧ step.Inside body ∧
      step.remaining body = readFrame (body.drop pos) := by
  by_cases room : pos + 5 ≤ body.length
  · exact readFrameAt_header room
  · rw [readFrameAt, if_neg room]
    by_cases last : pos = body.length
    · refine ⟨.done, if_pos last, trivial, ?_⟩
      rw [List.drop_eq_nil_of_le last.ge]
      rfl
    · refine ⟨.illegal, if_neg last, trivial, ?_⟩
      rw [readFrame_of_short]
      · rfl
      · rw [ne_eq, List.drop_eq_nil_iff]
        omega
      · rw [List.length_drop]
        omega

theorem parseFrameAt_eq
    (limits : GrpcLimits) (flag : UInt8) (message : Bytes)
    (out : GrpcExtract) :
    parseFrameAt limits (message.length + 1) flag message out =
      some (parseFrame limits flag message out) := by
  unfold parseFrameAt parseFrame
  split_ifs
  · rw [parseFieldsAt_eq limits 1 message 0 _ (Nat.sub_le _ _),
      List.drop_zero]
    rfl
  · rfl
  · rfl

theorem parseFramesAt_eq
    (limits : GrpcLimits) (body : Bytes) {rounds pos : Nat}
    (out : GrpcExtract) (inside : pos ≤ body.length)
    (enough : body.length - pos < rounds) :
    parseFramesAt limits rounds body pos out =
      some (parseFrames limits rounds (body.drop pos) out) := by
  induction rounds generalizing pos out with
  | zero => exact absurd enough (Nat.not_lt_zero _)
  | succ rounds induction =>
      rw [parseFramesAt, parseFrames]
      obtain ⟨step, read, stepInside, same⟩ := readFrameAt_eq inside
      rw [read, ← same]
      cases step with
      | done => rfl
      | illegal => rfl
      | frame flag message later =>
          have shorter := readFrame_length same.symm
          rw [List.length_drop, List.length_drop] at shorter
          simp only [FrameStepAt.remaining, Option.bind_eq_bind,
            Option.bind_some, parseFrameAt_eq]
          exact induction _ stepInside (by omega)

/-- The walk over positions always comes to its end. -/
theorem grpcExtractAt_eq (body : Bytes) (limits : GrpcLimits) :
    grpcExtractAt body limits = some (grpcExtract body limits) :=
  parseFramesAt_eq limits body {} (Nat.zero_le _) (Nat.lt_succ_self _)

/-! ## What bounds an extract -/

/-- The bounds that limits put on the extract of a body. -/
structure Bounded (limits : GrpcLimits) (body : Bytes) (out : GrpcExtract) :
    Prop where
  depth : out.maxDepth ≤ max 1 limits.maxDepth
  room : out.leaves.length ≤ limits.maxLeaves
  leaves : ∀ leaf ∈ out.leaves, leaf ≠ [] ∧ asBytes leaf <:+: body
  width : out.fields < 2 ^ 32
  fields : out.fieldsExceeded = true ↔ limits.maxFields < out.fields

/-- Every update keeps the bounds. -/
theorem Bounded.update
    {limits : GrpcLimits} {body : Bytes} {before after : GrpcExtract}
    (bounded : Bounded limits body before)
    (update : Update limits body before after) :
    Bounded limits body after := by
  cases update with
  | malformed => exact { bounded with }
  | compressed => exact { bounded with }
  | depthExceeded => exact { bounded with }
  | enter depth shallow =>
      exact { bounded with depth := max_le bounded.depth shallow }
  | field within =>
      have grows := (grows_countField before).fields bounded.width
      have width := (grows_countField before).bounded bounded.width
      refine { bounded with width := width, fields := ?_ }
      show before.fieldsExceeded = true ↔ _
      rw [bounded.fields]
      constructor
      · intro beyond
        exact absurd (grows.trans within) (Nat.not_le.mpr beyond)
      · intro beyond
        exact absurd within (Nat.not_le.mpr beyond)
  | fieldsExceeded beyond =>
      have width := (grows_countField before).bounded bounded.width
      refine { bounded with width := width, fields := ?_ }
      exact ⟨fun _ => beyond, fun _ => rfl⟩
  | leaf leaf some inside room =>
      refine { bounded with room := ?_, leaves := ?_ }
      · rw [List.length_append]
        exact room
      · intro other member
        rcases List.mem_append.mp member with early | last
        · exact bounded.leaves other early
        · rw [List.mem_singleton.mp last]
          exact ⟨some, inside⟩

theorem bounded_default (limits : GrpcLimits) (body : Bytes) :
    Bounded limits body {} where
  depth := Nat.zero_le _
  room := Nat.zero_le _
  leaves := List.forall_mem_nil _
  width := Nat.two_pow_pos 32
  fields := by simp

theorem grpcExtract_bounded (body : Bytes) (limits : GrpcLimits) :
    Bounded limits body (grpcExtract body limits) :=
  parseFrames_invariant (fun _ _ bounded update => bounded.update update)
    (fun _ _ bounded => { bounded with }) _ (List.infix_refl body)
    (bounded_default limits body)

/-- A body that is not flagged is its frames, one after the other. -/
theorem grpcExtract_tiles
    {body : Bytes} {limits : GrpcLimits}
    (legal : (grpcExtract body limits).malformed = false) :
    ∃ frames : List Frame, body = frames.flatMap Frame.encode ∧
      (grpcExtract body limits).messages = min frames.length (2 ^ 32 - 1) := by
  rcases parseFrames_tiles limits {} (Nat.lt_succ_self body.length) with
    flagged | ⟨frames, tiled, walked⟩
  · exact Bool.noConfusion (flagged.symm.trans legal)
  · refine ⟨frames, tiled, ?_⟩
    have counts := walkFrames_counts limits frames {} (Nat.two_pow_pos 32)
      (Nat.two_pow_pos 64)
    rw [grpcExtract, walked, counts.1, saturatingAdd, Nat.zero_add]

/--
Every body is walked to the end without an index out of range, and the limits
bound what is reported: the depth, the number of leaves and which bytes they
are, when the cap on fields is reported as hit.  A body with no signal is a
sequence of frames.
-/
theorem grpcExtract_total (body : Bytes) (limits : GrpcLimits) :
    ∃ out, grpcExtractAt body limits = some out ∧
      out = grpcExtract body limits ∧
      (1 ≤ limits.maxDepth → out.maxDepth ≤ limits.maxDepth) ∧
      out.leaves.length ≤ limits.maxLeaves ∧
      (∀ leaf ∈ out.leaves, leaf ≠ [] ∧ asBytes leaf <:+: body) ∧
      (out.fieldsExceeded = true ↔ limits.maxFields < out.fields) ∧
      (out.malformed = false → out.fieldsExceeded = false →
        out.depthExceeded = false →
        ∃ frames : List Frame, body = frames.flatMap Frame.encode ∧
          out.messages = min frames.length (2 ^ 32 - 1)) := by
  have bounded := grpcExtract_bounded body limits
  refine ⟨_, grpcExtractAt_eq body limits, rfl, ?_, bounded.room,
    bounded.leaves, bounded.fields, ?_⟩
  · intro deep
    exact bounded.depth.trans (max_le deep le_rfl)
  · intro legal _ _
    exact grpcExtract_tiles legal

end LightWaf.Normalizer
