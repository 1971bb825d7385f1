import LightWaf.Rust.Allocation
import LightWaf.Rust.Encode

/-!
# Header maps on the wire

The embedding of the header-map codec of `waf-wasm/src/marshal.rs`: a count,
the lengths of all names and values, and then the bytes of each with a NUL
behind it.  Decoding reports what it reserves on the way.  It reserves a slot
for every pair that the count promises before it has seen one of them.
-/

namespace LightWaf.Wasm

open LightWaf.Rust

/-! ## The codec -/

/-- The lengths of a pair. -/
def encodeSizes (pair : Bytes × Bytes) : Bytes :=
  leBytes 4 pair.1.length ++ leBytes 4 pair.2.length

/-- The bytes of a pair. -/
def encodeData (pair : Bytes × Bytes) : Bytes :=
  pair.1 ++ 0 :: (pair.2 ++ [0])

/-- The header-map format. -/
def encodePairs (pairs : List (Bytes × Bytes)) : Bytes :=
  leBytes 4 pairs.length ++
    (pairs.flatMap encodeSizes ++ pairs.flatMap encodeData)

/-- The pairs as bytes. -/
def pairBytes (pairs : List (Text × Text)) : List (Bytes × Bytes) :=
  pairs.map fun pair => (asBytes pair.1, asBytes pair.2)

/-- `encode_header_map_pairs`. -/
def encodeHeaderMapPairs (pairs : List (Text × Text)) : Bytes :=
  encodePairs (pairBytes pairs)

/-- `read_u32` at the cursor. -/
def readU32 (rest : Bytes) : Option (Nat × Bytes) :=
  if rest.length < 4 then none
  else some (fromLeBytes (rest.take 4), rest.drop 4)

/-- The loop over the lengths. -/
def readSizes : (count : Nat) → Bytes → Option (List (Nat × Nat) × Bytes)
  | 0, rest => some ([], rest)
  | count + 1, rest => do
      let (keyLength, rest) ← readU32 rest
      let (valueLength, rest) ← readU32 rest
      let (sizes, rest) ← readSizes count rest
      some ((keyLength, valueLength) :: sizes, rest)

/-- A copy of the next bytes, which a NUL must follow. -/
def readTerminated (length : Nat) (rest : Bytes) :
    Allocating Unit (Bytes × Bytes) :=
  if rest.length < length then .fail ()
  else do
    Allocating.allocate length
    match rest.drop length with
    | 0 :: after => pure (rest.take length, after)
    | _ => .fail ()

/-- The loop over the pairs. -/
def readPairs : List (Nat × Nat) → Bytes →
    Allocating Unit (List (Bytes × Bytes))
  | [], _ => pure []
  | (keyLength, valueLength) :: sizes, rest => do
      let (key, rest) ← readTerminated keyLength rest
      let (value, rest) ← readTerminated valueLength rest
      let others ← readPairs sizes rest
      pure ((key, value) :: others)

/-- The size of a pair of lengths, `(usize, usize)`. -/
def sizeSlot : Nat := 16

/-- The size of a decoded pair, `(Vec<u8>, Vec<u8>)`. -/
def pairSlot : Nat := 48

/-- `None` as a failure. -/
def orFail {α : Type} : Option α → Allocating Unit α
  | some value => pure value
  | none => .fail ()

/-- `decode_header_map_pairs`. -/
def decodeHeaderMapPairs (buffer : Bytes) :
    Allocating Unit (List (Bytes × Bytes)) := do
  let (count, rest) ← orFail (readU32 buffer)
  Allocating.allocate (count * sizeSlot)
  let (sizes, rest) ← orFail (readSizes count rest)
  Allocating.allocate (count * pairSlot)
  readPairs sizes rest

/-! ## Numbers and lengths -/

theorem readU32_leBytes
    {number : Nat} (small : number < 2 ^ 32) (rest : Bytes) :
    readU32 (leBytes 4 number ++ rest) = some (number, rest) := by
  have width : (leBytes 4 number).length = 4 := length_leBytes 4 number
  rw [readU32, if_neg (by simp), List.take_left' width,
    List.drop_left' width, fromLeBytes_leBytes small]

theorem readU32_sound
    {bytes rest : Bytes} {number : Nat}
    (read : readU32 bytes = some (number, rest)) :
    bytes = leBytes 4 number ++ rest := by
  rw [readU32] at read
  split_ifs at read with short
  cases read
  have width : (bytes.take 4).length = 4 := by
    rw [List.length_take]
    omega
  have spelled := leBytes_fromLeBytes (bytes.take 4)
  rw [width] at spelled
  rw [spelled, List.take_append_drop]

/-- A pair whose lengths fit in 32 bits. -/
def PairFits (pair : Bytes × Bytes) : Prop :=
  pair.1.length < 2 ^ 32 ∧ pair.2.length < 2 ^ 32

/-- The lengths of a pair as they are read. -/
def pairSizes (pair : Bytes × Bytes) : Nat × Nat :=
  (pair.1.length, pair.2.length)

theorem readSizes_complete
    {pairs : List (Bytes × Bytes)} (fit : ∀ pair ∈ pairs, PairFits pair)
    (rest : Bytes) :
    readSizes pairs.length (pairs.flatMap encodeSizes ++ rest) =
      some (pairs.map pairSizes, rest) := by
  induction pairs with
  | nil => rfl
  | cons pair pairs induction =>
      obtain ⟨first, others⟩ := List.forall_mem_cons.mp fit
      rw [List.flatMap_cons, List.length_cons, readSizes, encodeSizes,
        List.append_assoc, List.append_assoc, readU32_leBytes first.1,
        Option.bind_eq_bind, Option.bind_some]
      dsimp only
      rw [readU32_leBytes first.2, Option.bind_some]
      dsimp only
      rw [induction others]
      rfl

/-- The lengths that are read stand in the buffer, one after the other. -/
theorem readSizes_sound
    {count : Nat} {bytes rest : Bytes} {sizes : List (Nat × Nat)}
    (read : readSizes count bytes = some (sizes, rest)) :
    sizes.length = count ∧
      bytes = sizes.flatMap (fun size =>
        leBytes 4 size.1 ++ leBytes 4 size.2) ++ rest := by
  induction count generalizing bytes sizes with
  | zero =>
      cases read
      exact ⟨rfl, rfl⟩
  | succ count induction =>
      obtain ⟨⟨keyLength, afterKey⟩, readKey, read⟩ :=
        Option.bind_eq_some_iff.mp read
      obtain ⟨⟨valueLength, afterValue⟩, readValue, read⟩ :=
        Option.bind_eq_some_iff.mp read
      obtain ⟨⟨others, last⟩, readOthers, same⟩ :=
        Option.bind_eq_some_iff.mp read
      cases same
      obtain ⟨length, spelled⟩ := induction readOthers
      refine ⟨congrArg Nat.succ length, ?_⟩
      rw [readU32_sound readKey, readU32_sound readValue, spelled]
      simp

/-- Every length takes four bytes. -/
theorem length_of_readSizes
    {count : Nat} {bytes rest : Bytes} {sizes : List (Nat × Nat)}
    (read : readSizes count bytes = some (sizes, rest)) :
    bytes.length = 8 * count + rest.length := by
  obtain ⟨length, spelled⟩ := readSizes_sound read
  have widths : (sizes.flatMap fun size =>
      leBytes 4 size.1 ++ leBytes 4 size.2).length = 8 * sizes.length := by
    rw [List.length_flatMap]
    simp [Nat.mul_comm]
  rw [spelled, List.length_append, widths, length]

/-! ## Names and values -/

theorem readTerminated_complete (bytes rest : Bytes) :
    readTerminated bytes.length (bytes ++ 0 :: rest) =
      ⟨.ok (bytes, rest), [bytes.length]⟩ := by
  rw [readTerminated, if_neg (by simp), List.drop_left, List.take_left]
  rfl

/-- A part is read if it is there with a NUL behind it, and copied. -/
theorem readTerminated_cases (length : Nat) (bytes : Bytes) :
    ((readTerminated length bytes).result = .error () ∧
      (readTerminated length bytes).total ≤ bytes.length) ∨
    ∃ part rest, bytes = part ++ 0 :: rest ∧ part.length = length ∧
      readTerminated length bytes = ⟨.ok (part, rest), [part.length]⟩ := by
  by_cases short : bytes.length < length
  · rw [readTerminated, if_pos short]
    exact .inl ⟨rfl, Nat.zero_le _⟩
  · have width : (bytes.take length).length = length := by
      rw [List.length_take]
      omega
    have whole := List.take_append_drop length bytes
    rw [readTerminated, if_neg short]
    split
    · rename_i after found
      rw [found] at whole
      exact .inr ⟨bytes.take length, after, whole.symm, width, by
        rw [width]; rfl⟩
    · refine .inl ⟨rfl, ?_⟩
      change length + 0 ≤ bytes.length
      omega

theorem readPairs_complete (pairs : List (Bytes × Bytes)) (rest : Bytes) :
    (readPairs (pairs.map pairSizes)
      (pairs.flatMap encodeData ++ rest)).result = .ok pairs := by
  induction pairs with
  | nil => rfl
  | cons pair pairs induction =>
      have spelled : (pair :: pairs).flatMap encodeData ++ rest =
          pair.1 ++ 0 :: (pair.2 ++ 0 ::
            (pairs.flatMap encodeData ++ rest)) := by
        simp [encodeData]
      rw [spelled, List.map_cons, pairSizes, readPairs,
        Allocating.bind_eq_ok_iff]
      refine ⟨_, congrArg Allocating.result (readTerminated_complete _ _), ?_⟩
      rw [Allocating.bind_eq_ok_iff]
      refine ⟨_, congrArg Allocating.result (readTerminated_complete _ _), ?_⟩
      rw [Allocating.bind_eq_ok_iff]
      exact ⟨pairs, induction, rfl⟩

theorem readTerminated_sound
    {length : Nat} {bytes part rest : Bytes}
    (read : (readTerminated length bytes).result = .ok (part, rest)) :
    bytes = part ++ 0 :: rest ∧ part.length = length ∧
      (readTerminated length bytes).total = length := by
  rcases readTerminated_cases length bytes with
    ⟨failed, -⟩ | ⟨found, after, spelled, width, same⟩
  · cases failed.symm.trans read
  · rw [same] at read ⊢
    cases read
    exact ⟨spelled, width, width⟩

/-- The pairs that are read stand in the buffer. -/
theorem readPairs_sound
    {sizes : List (Nat × Nat)} {bytes : Bytes} {pairs : List (Bytes × Bytes)}
    (read : (readPairs sizes bytes).result = .ok pairs) :
    pairs.map pairSizes = sizes ∧ pairs.flatMap encodeData <+: bytes := by
  induction sizes generalizing bytes pairs with
  | nil =>
      cases read
      exact ⟨rfl, List.nil_prefix⟩
  | cons size sizes induction =>
      obtain ⟨keyLength, valueLength⟩ := size
      rw [readPairs, Allocating.bind_eq_ok_iff] at read
      obtain ⟨⟨key, afterKey⟩, readKey, read⟩ := read
      rw [Allocating.bind_eq_ok_iff] at read
      obtain ⟨⟨value, afterValue⟩, readValue, read⟩ := read
      rw [Allocating.bind_eq_ok_iff] at read
      obtain ⟨others, readOthers, same⟩ := read
      cases same
      obtain ⟨rfl, rfl, -⟩ := readTerminated_sound readKey
      obtain ⟨rfl, rfl, -⟩ := readTerminated_sound readValue
      obtain ⟨rfl, rest, rfl⟩ := induction readOthers
      exact ⟨rfl, rest, by simp [encodeData]⟩

/-- The copies are no longer than what is read. -/
theorem total_readPairs_le (sizes : List (Nat × Nat)) (bytes : Bytes) :
    (readPairs sizes bytes).total ≤ bytes.length := by
  induction sizes generalizing bytes with
  | nil => exact Nat.zero_le _
  | cons size sizes induction =>
      obtain ⟨keyLength, valueLength⟩ := size
      rw [readPairs]
      rcases readTerminated_cases keyLength bytes with
        ⟨failed, bound⟩ | ⟨key, afterKey, rfl, -, readKey⟩
      · rw [Allocating.total_bind_of_error _ failed]
        exact bound
      rw [Allocating.total_bind_of_ok _ (congrArg Allocating.result readKey),
        readKey]
      dsimp only
      rcases readTerminated_cases valueLength afterKey with
        ⟨failed, bound⟩ | ⟨value, afterValue, rfl, -, readValue⟩
      · rw [Allocating.total_bind_of_error _ failed]
        simp [Allocating.total] at bound ⊢
        omega
      rw [Allocating.total_bind_of_ok _
        (congrArg Allocating.result readValue), readValue]
      dsimp only
      have later := induction afterValue
      have last : (readPairs sizes afterValue >>= fun others =>
          (pure ((key, value) :: others) :
            Allocating Unit (List (Bytes × Bytes)))).total =
            (readPairs sizes afterValue).total := by
        cases done : (readPairs sizes afterValue).result with
        | ok others => exact Allocating.total_bind_of_ok _ done
        | error error => exact Allocating.total_bind_of_error _ done
      rw [last]
      simp [Allocating.total] at later ⊢
      omega

/-! ## The codec on whole buffers -/

/-- A header map whose count and lengths fit in 32 bits. -/
def Fits (pairs : List (Bytes × Bytes)) : Prop :=
  pairs.length < 2 ^ 32 ∧ ∀ pair ∈ pairs, PairFits pair

/-- Decoding by the count and the lengths that are read. -/
theorem decodeHeaderMapPairs_eq (buffer : Bytes) :
    decodeHeaderMapPairs buffer =
      match readU32 buffer with
      | none => ⟨.error (), []⟩
      | some (count, rest) =>
          match readSizes count rest with
          | none => ⟨.error (), [count * sizeSlot]⟩
          | some (sizes, rest) =>
              ⟨(readPairs sizes rest).result,
                count * sizeSlot :: count * pairSlot ::
                  (readPairs sizes rest).buffers⟩ := by
  rw [decodeHeaderMapPairs]
  cases readU32 buffer with
  | none => rfl
  | some found =>
      obtain ⟨count, rest⟩ := found
      cases sized : readSizes count rest with
      | none =>
          simp only [orFail, Allocating.pure_bind, sized]
          rfl
      | some found =>
          simp only [orFail, Allocating.pure_bind, sized]
          rfl

/-- Decoding undoes encoding, whatever follows. -/
theorem decodeHeaderMapPairs_encodePairs
    {pairs : List (Bytes × Bytes)} (fits : Fits pairs) (rest : Bytes) :
    (decodeHeaderMapPairs (encodePairs pairs ++ rest)).result =
      .ok pairs := by
  rw [decodeHeaderMapPairs_eq, encodePairs, List.append_assoc,
    readU32_leBytes fits.1, List.append_assoc]
  dsimp only
  rw [readSizes_complete fits.2]
  exact readPairs_complete pairs rest

/-- What is decoded stands at the start of the buffer. -/
theorem encodePairs_prefix_of_decode
    {buffer : Bytes} {pairs : List (Bytes × Bytes)}
    (decoded : (decodeHeaderMapPairs buffer).result = .ok pairs) :
    encodePairs pairs <+: buffer := by
  rw [decodeHeaderMapPairs_eq] at decoded
  cases counted : readU32 buffer with
  | none =>
      rw [counted] at decoded
      cases decoded
  | some found =>
      obtain ⟨count, afterCount⟩ := found
      rw [counted] at decoded
      dsimp only at decoded
      cases sized : readSizes count afterCount with
      | none =>
          rw [sized] at decoded
          cases decoded
      | some found =>
          obtain ⟨sizes, afterSizes⟩ := found
          rw [sized] at decoded
          obtain ⟨rfl, rest, data⟩ := readPairs_sound decoded
          obtain ⟨length, spelled⟩ := readSizes_sound sized
          rw [List.length_map] at length
          refine ⟨rest, ?_⟩
          rw [readU32_sound counted, spelled, ← data, ← length, encodePairs,
            List.flatMap_map, List.append_assoc, List.append_assoc]
          rfl

/-- The number of pairs a buffer promises. -/
def promised (buffer : Bytes) : Nat :=
  fromLeBytes (buffer.take 4)

/-- What is reserved is within eight times the buffer, or for the promise. -/
theorem total_decodeHeaderMapPairs (buffer : Bytes) :
    (decodeHeaderMapPairs buffer).total ≤ 8 * buffer.length ∧
        (4 ≤ buffer.length →
          promised buffer * sizeSlot ≤ 2 * buffer.length) ∨
      4 ≤ buffer.length ∧ (decodeHeaderMapPairs buffer).total =
        promised buffer * sizeSlot := by
  rw [decodeHeaderMapPairs_eq]
  by_cases short : buffer.length < 4
  · rw [readU32, if_pos short]
    exact .inl ⟨Nat.zero_le _, fun long => absurd short (by omega)⟩
  · have counted : readU32 buffer =
        some (promised buffer, buffer.drop 4) := by
      rw [readU32, if_neg short]
      rfl
    rw [counted]
    dsimp only
    cases sized : readSizes (promised buffer) (buffer.drop 4) with
    | none => exact .inr ⟨by omega, Nat.add_zero _⟩
    | some found =>
        obtain ⟨sizes, rest⟩ := found
        have length := length_of_readSizes sized
        have copied := total_readPairs_le sizes rest
        rw [List.length_drop] at length
        rw [Allocating.total] at copied ⊢
        simp only [List.sum_cons, sizeSlot, pairSlot]
        refine .inl ⟨by omega, fun _ => by omega⟩

/--
What the codec is for, at one buffer and for a constant factor: the encoding
of a header map is decoded to its pairs, what is decoded is encoded at the
start of the buffer, and what is reserved is within the factor.
-/
structure Conforms (factor : Nat) (buffer : Bytes) : Prop where
  roundTrip : ∀ pairs : List (Text × Text), Fits (pairBytes pairs) →
    buffer = encodeHeaderMapPairs pairs →
      (decodeHeaderMapPairs buffer).result = .ok (pairBytes pairs)
  starts : ∀ pairs, (decodeHeaderMapPairs buffer).result = .ok pairs →
    encodePairs pairs <+: buffer
  bounded : (decodeHeaderMapPairs buffer).total ≤ factor * buffer.length

/-- The codec conforms where the promised pairs are within the factor. -/
theorem conforms_iff
    {factor : Nat} (enough : 8 ≤ factor) (buffer : Bytes) :
    Conforms factor buffer ↔
      buffer.length < 4 ∨
        promised buffer * sizeSlot ≤ factor * buffer.length := by
  have scaled : 8 * buffer.length ≤ factor * buffer.length :=
    Nat.mul_le_mul_right _ enough
  have reserved := total_decodeHeaderMapPairs buffer
  constructor
  · intro conforms
    have bounded := conforms.bounded
    rcases reserved with ⟨-, few⟩ | ⟨long, all⟩
    · by_cases short : buffer.length < 4
      · exact .inl short
      · have few := few (by omega)
        exact .inr (by omega)
    · exact .inr (all ▸ bounded)
  · intro within
    refine ⟨?_, fun pairs decoded => encodePairs_prefix_of_decode decoded, ?_⟩
    · rintro pairs fits rfl
      have decoded := decodeHeaderMapPairs_encodePairs fits []
      rw [List.append_nil] at decoded
      exact decoded
    · rcases reserved with ⟨bound, -⟩ | ⟨long, all⟩
      · omega
      · rw [all]
        rcases within with short | within
        · omega
        · exact within

/-- A map with the pair of an empty name and a NUL. -/
theorem conforms_small :
    Conforms 8 (encodeHeaderMapPairs [([], ['\x00'])]) :=
  (conforms_iff le_rfl _).mpr (.inr (by decide))

/-- Four bytes reserve sixteen bytes for each of `2 ^ 32 - 1` pairs. -/
theorem not_conforms_promise :
    (decodeHeaderMapPairs [0xff, 0xff, 0xff, 0xff]).total =
        16 * (2 ^ 32 - 1) ∧
      ¬ ∃ factor, factor < 4 * (2 ^ 32 - 1) ∧
        Conforms factor [0xff, 0xff, 0xff, 0xff] := by
  have all : (decodeHeaderMapPairs [0xff, 0xff, 0xff, 0xff]).total =
      16 * (2 ^ 32 - 1) := by
    rcases total_decodeHeaderMapPairs [0xff, 0xff, 0xff, 0xff] with
      ⟨-, few⟩ | ⟨-, all⟩
    · exact absurd (few (by decide)) (by decide)
    · rw [all]
      decide
  refine ⟨all, ?_⟩
  rintro ⟨factor, small, conforms⟩
  have bounded := conforms.bounded
  rw [all] at bounded
  simp at bounded small
  omega

end LightWaf.Wasm
