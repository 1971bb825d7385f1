import LightWaf.Rust.Text

/-!
# UTF-8 decodes what it encodes

The decoder of the host language reads back every scalar value from its
bytes, so encoding loses nothing and well-formed text survives both the strict
and the lossy conversion.  Conversely the bytes it accepts are the bytes of
the text it returns, and the lossy conversion makes no ASCII byte of others.
-/

namespace LightWaf.Rust

/-! ## Lead bytes -/

theorem leadWidth_one (lead : UInt8) (small : lead.toNat < 0x80) :
    leadWidth lead = 1 := by
  simp [leadWidth, UInt8.lt_iff_toNat_lt, small]

theorem leadWidth_two
    (lead : UInt8) (low : 0xC2 ≤ lead.toNat) (high : lead.toNat ≤ 0xDF) :
    leadWidth lead = 2 := by
  have one : ¬ lead.toNat < 0x80 := by omega
  simp [leadWidth, UInt8.lt_iff_toNat_lt, UInt8.le_iff_toNat_le, one, low,
    high]

theorem leadWidth_three
    (lead : UInt8) (low : 0xE0 ≤ lead.toNat) (high : lead.toNat ≤ 0xEF) :
    leadWidth lead = 3 := by
  have one : ¬ lead.toNat < 0x80 := by omega
  have two : ¬ lead.toNat ≤ 0xDF := by omega
  simp [leadWidth, UInt8.lt_iff_toNat_lt, UInt8.le_iff_toNat_le, one, two,
    low, high]

theorem leadWidth_four
    (lead : UInt8) (low : 0xF0 ≤ lead.toNat) (high : lead.toNat ≤ 0xF4) :
    leadWidth lead = 4 := by
  have one : ¬ lead.toNat < 0x80 := by omega
  have two : ¬ lead.toNat ≤ 0xDF := by omega
  have three : ¬ lead.toNat ≤ 0xEF := by omega
  simp [leadWidth, UInt8.lt_iff_toNat_lt, UInt8.le_iff_toNat_le, one, two,
    three, low, high]

/-! ## Continuation bytes -/

theorem isContinuation_iff (byte : UInt8) :
    isContinuation byte = true ↔ 0x80 ≤ byte.toNat ∧ byte.toNat ≤ 0xBF := by
  simp [isContinuation, UInt8.le_iff_toNat_le]

theorem secondByteOk_iff (lead second : UInt8) :
    secondByteOk lead second = true ↔
      0x80 ≤ second.toNat ∧ second.toNat ≤ 0xBF ∧
        (lead.toNat = 0xE0 → 0xA0 ≤ second.toNat) ∧
        (lead.toNat = 0xED → second.toNat ≤ 0x9F) ∧
        (lead.toNat = 0xF0 → 0x90 ≤ second.toNat) ∧
        (lead.toNat = 0xF4 → second.toNat ≤ 0x8F) := by
  unfold secondByteOk
  simp only [beq_iff_eq, ← UInt8.toNat_inj, UInt8.reduceToNat]
  split_ifs with e0 ed f0 f4 <;>
    simp only [isContinuation, Bool.and_eq_true, decide_eq_true_eq,
      UInt8.le_iff_toNat_le, UInt8.reduceToNat] <;> omega

/-! ## One scalar value -/

theorem utf8Step_two
    {lead second : UInt8} (rest : Bytes) (width : leadWidth lead = 2)
    (follows : isContinuation second = true) :
    utf8Step lead (second :: rest) =
      (some (Char.ofNat (lead.toNat % 32 * 64 + payload second)), 1) := by
  simp [utf8Step, width, follows]

theorem utf8Step_three
    {lead second third : UInt8} (rest : Bytes) (width : leadWidth lead = 3)
    (admitted : secondByteOk lead second = true)
    (follows : isContinuation third = true) :
    utf8Step lead (second :: third :: rest) =
      (some (Char.ofNat
        (lead.toNat % 16 * 4096 + payload second * 64 + payload third)),
        2) := by
  simp [utf8Step, width, admitted, follows]

theorem utf8Step_four
    {lead second third fourth : UInt8} (rest : Bytes)
    (width : leadWidth lead = 4)
    (admitted : secondByteOk lead second = true)
    (follows : isContinuation third = true)
    (last : isContinuation fourth = true) :
    utf8Step lead (second :: third :: fourth :: rest) =
      (some (Char.ofNat
        (lead.toNat % 8 * 262144 + payload second * 4096 +
          payload third * 64 + payload fourth)), 3) := by
  simp [utf8Step, width, admitted, follows, last]

/-- The low six bits of a scalar, as a continuation byte. -/
theorem isContinuation_low (value : Nat) :
    isContinuation (UInt8.ofNat (value % 64 + 128)) = true := by
  rw [isContinuation_iff, UInt8.toNat_ofNat_of_lt' (by
    show _ < 256
    omega)]
  omega

theorem payload_low (value : Nat) :
    payload (UInt8.ofNat (value % 64 + 128)) = value % 64 := by
  rw [payload, UInt8.toNat_ofNat_of_lt' (by
    show _ < 256
    omega)]
  omega

/-- A scalar is read back from its bytes, whatever follows them. -/
theorem decodeUtf8_encode (char : Char) (rest : Bytes) :
    decodeUtf8 0 (String.utf8EncodeChar char ++ rest) =
      some char :: decodeUtf8 0 rest := by
  have range : char.toNat < 0xD800 ∨
      (0xDFFF < char.toNat ∧ char.toNat < 0x110000) :=
    char.valid
  have value : char.val.toNat = char.toNat := rfl
  have byte : ∀ number : Nat, number < 256 →
      (UInt8.ofNat number).toNat = number :=
    fun number bound => UInt8.toNat_ofNat_of_lt' bound
  unfold String.utf8EncodeChar
  simp only [value]
  split_ifs with one two three
  · have lead := byte char.toNat (by omega)
    have width := leadWidth_one (UInt8.ofNat char.toNat) (by omega)
    simp only [List.cons_append, List.nil_append, decodeUtf8, utf8Step,
      width, lead, Char.ofNat_toNat]
  · have lead := byte (char.toNat / 64 % 32 + 192) (by omega)
    have width := leadWidth_two
      (UInt8.ofNat (char.toNat / 64 % 32 + 192))
      (by omega) (by omega)
    have whole : (char.toNat / 64 % 32 + 192) % 32 * 64 + char.toNat % 64 =
        char.toNat := by
      omega
    simp only [List.cons_append, List.nil_append, decodeUtf8,
      utf8Step_two _ width (isContinuation_low _), payload_low, lead, whole,
      Char.ofNat_toNat]
  · have lead := byte (char.toNat / 4096 % 16 + 224) (by omega)
    have second := byte (char.toNat / 64 % 64 + 128) (by omega)
    have width := leadWidth_three
      (UInt8.ofNat (char.toNat / 4096 % 16 + 224))
      (by omega) (by omega)
    have admitted : secondByteOk
        (UInt8.ofNat (char.toNat / 4096 % 16 + 224))
        (UInt8.ofNat (char.toNat / 64 % 64 + 128)) = true := by
      rw [secondByteOk_iff, lead, second]
      omega
    have whole : (char.toNat / 4096 % 16 + 224) % 16 * 4096 +
        char.toNat / 64 % 64 * 64 + char.toNat % 64 = char.toNat := by
      omega
    simp only [List.cons_append, List.nil_append, decodeUtf8,
      utf8Step_three _ width admitted (isContinuation_low _), payload_low,
      lead, whole, Char.ofNat_toNat]
  · have lead := byte (char.toNat / 262144 % 8 + 240) (by omega)
    have second := byte (char.toNat / 4096 % 64 + 128) (by omega)
    have width := leadWidth_four
      (UInt8.ofNat (char.toNat / 262144 % 8 + 240))
      (by omega) (by omega)
    have admitted : secondByteOk
        (UInt8.ofNat (char.toNat / 262144 % 8 + 240))
        (UInt8.ofNat (char.toNat / 4096 % 64 + 128)) = true := by
      rw [secondByteOk_iff, lead, second]
      omega
    have whole : (char.toNat / 262144 % 8 + 240) % 8 * 262144 +
        char.toNat / 4096 % 64 * 4096 + char.toNat / 64 % 64 * 64 +
          char.toNat % 64 = char.toNat := by
      omega
    simp only [List.cons_append, List.nil_append, decodeUtf8,
      utf8Step_four _ width admitted (isContinuation_low _)
        (isContinuation_low _), payload_low, lead, whole, Char.ofNat_toNat]

/-! ## Whole texts -/

theorem decodeUtf8_asBytes (text : Text) (rest : Bytes) :
    decodeUtf8 0 (asBytes text ++ rest) =
      text.map some ++ decodeUtf8 0 rest := by
  induction text with
  | nil => rfl
  | cons char others induction =>
      rw [asBytes_cons, List.append_assoc, decodeUtf8_encode, induction]
      rfl

/-- Encoding loses nothing. -/
theorem asBytes_injective : Function.Injective asBytes := by
  intro left right same
  have decoded : left.map some = right.map some := by
    have both := congrArg (decodeUtf8 0) same
    have leftBack := decodeUtf8_asBytes left []
    have rightBack := decodeUtf8_asBytes right []
    simp only [List.append_nil, decodeUtf8] at leftBack rightBack
    rw [← leftBack, ← rightBack, both]
  exact List.map_injective_iff.mpr (Option.some_injective Char) decoded

/-- `String::from_utf8_lossy` returns well-formed text unchanged. -/
theorem fromUtf8Lossy_asBytes (text : Text) :
    fromUtf8Lossy (asBytes text) = text := by
  have decoded := decodeUtf8_asBytes text []
  simp only [List.append_nil, decodeUtf8] at decoded
  rw [fromUtf8Lossy, decoded, List.map_map]
  exact List.map_id text

/-- `str::from_utf8` accepts well-formed text. -/
theorem fromUtf8_asBytes (text : Text) :
    fromUtf8 (asBytes text) = some text := by
  have decoded := decodeUtf8_asBytes text []
  simp only [List.append_nil, decodeUtf8] at decoded
  rw [fromUtf8, decoded, if_pos (by simp)]
  simp [List.reduceOption]

/-! ## Decoding loses nothing of well-formed text -/

theorem leadWidth_cases (lead : UInt8) :
    (lead.toNat < 0x80 ∧ leadWidth lead = 1) ∨
      (0xC2 ≤ lead.toNat ∧ lead.toNat ≤ 0xDF ∧ leadWidth lead = 2) ∨
      (0xE0 ≤ lead.toNat ∧ lead.toNat ≤ 0xEF ∧ leadWidth lead = 3) ∨
      (0xF0 ≤ lead.toNat ∧ lead.toNat ≤ 0xF4 ∧ leadWidth lead = 4) ∨
      leadWidth lead = 0 := by
  unfold leadWidth
  simp only [UInt8.lt_iff_toNat_lt, UInt8.le_iff_toNat_le, Bool.and_eq_true,
    decide_eq_true_eq, UInt8.reduceToNat]
  split_ifs <;> omega

/-- The bytes of a scalar given by its number. -/
theorem utf8EncodeChar_ofNat
    {number : Nat} (valid : number.isValidChar)
    {bytes : Bytes}
    (spelled : (if number ≤ 0x7f then [number]
      else if number ≤ 0x7ff then [number / 64 % 32 + 192, number % 64 + 128]
      else if number ≤ 0xffff then
        [number / 4096 % 16 + 224, number / 64 % 64 + 128, number % 64 + 128]
      else
        [number / 262144 % 8 + 240, number / 4096 % 64 + 128,
          number / 64 % 64 + 128, number % 64 + 128]) =
        bytes.map UInt8.toNat) :
    String.utf8EncodeChar (Char.ofNat number) = bytes := by
  have value : (Char.ofNat number).val.toNat = number := by
    rw [Char.ofNat, dif_pos valid]
    rfl
  have back : bytes = (bytes.map UInt8.toNat).map UInt8.ofNat := by
    simp [List.map_map, Function.comp_def]
  rw [back, ← spelled]
  unfold String.utf8EncodeChar
  simp only [value]
  split_ifs <;> rfl

section Read

variable {lead : UInt8} {rest : Bytes} {char : Char} {span : Nat}
  (read : utf8Step lead rest = (some char, span))
include read

theorem utf8Step_two_some (width : leadWidth lead = 2) :
    ∃ second later, rest = [second] ++ later ∧ span = 1 ∧
      isContinuation second = true ∧
      char = Char.ofNat (lead.toNat % 32 * 64 + payload second) := by
  cases rest with
  | nil => simp [utf8Step, width] at read
  | cons second later =>
      simp only [utf8Step, width] at read
      split_ifs at read with follows
      · cases read
        exact ⟨second, later, rfl, rfl, follows, rfl⟩
      · cases read

theorem utf8Step_three_some (width : leadWidth lead = 3) :
    ∃ second third later, rest = [second, third] ++ later ∧ span = 2 ∧
      secondByteOk lead second = true ∧ isContinuation third = true ∧
      char = Char.ofNat
        (lead.toNat % 16 * 4096 + payload second * 64 + payload third) := by
  match rest with
  | [] => simp [utf8Step, width] at read
  | [second] =>
      simp only [utf8Step, width] at read
      split_ifs at read <;> cases read
  | second :: third :: later =>
      simp only [utf8Step, width] at read
      split_ifs at read with admitted follows
      · cases read
        exact ⟨second, third, later, rfl, rfl, admitted, follows, rfl⟩
      · cases read
      · cases read

theorem utf8Step_four_some (width : leadWidth lead = 4) :
    ∃ second third fourth later,
      rest = [second, third, fourth] ++ later ∧ span = 3 ∧
      secondByteOk lead second = true ∧ isContinuation third = true ∧
      isContinuation fourth = true ∧
      char = Char.ofNat
        (lead.toNat % 8 * 262144 + payload second * 4096 +
          payload third * 64 + payload fourth) := by
  match rest with
  | [] => simp [utf8Step, width] at read
  | [second] =>
      simp only [utf8Step, width] at read
      split_ifs at read <;> cases read
  | [second, third] =>
      simp only [utf8Step, width] at read
      split_ifs at read <;> cases read
  | second :: third :: fourth :: later =>
      simp only [utf8Step, width] at read
      split_ifs at read with admitted follows last
      · cases read
        exact ⟨second, third, fourth, later, rfl, rfl, admitted, follows,
          last, rfl⟩
      all_goals cases read

/-- A step that reads a scalar has read that scalar's bytes. -/
theorem utf8Step_some :
    ∃ others later, rest = others ++ later ∧ others.length = span ∧
      String.utf8EncodeChar char = lead :: others := by
  rcases leadWidth_cases lead with
    ⟨small, width⟩ | ⟨low, high, width⟩ | ⟨low, high, width⟩ |
      ⟨low, high, width⟩ | width
  · simp only [utf8Step, width] at read
    cases read
    refine ⟨[], rest, rfl, rfl, utf8EncodeChar_ofNat ?_ ?_⟩
    · exact Or.inl (by omega)
    · simp [Nat.le_of_lt_succ small]
  · obtain ⟨second, later, rfl, rfl, follows, rfl⟩ :=
      utf8Step_two_some read width
    rw [isContinuation_iff] at follows
    refine ⟨[second], later, rfl, rfl, utf8EncodeChar_ofNat ?_ ?_⟩ <;>
      unfold payload
    · exact Or.inl (by omega)
    · rw [if_neg (by omega), if_pos (by omega)]
      simp only [List.map_cons, List.map_nil, List.cons.injEq, and_true]
      omega
  · obtain ⟨second, third, later, rfl, rfl, admitted, follows, rfl⟩ :=
      utf8Step_three_some read width
    rw [secondByteOk_iff] at admitted
    rw [isContinuation_iff] at follows
    refine ⟨[second, third], later, rfl, rfl, utf8EncodeChar_ofNat ?_ ?_⟩ <;>
      unfold payload
    · unfold Nat.isValidChar
      omega
    · rw [if_neg (by omega), if_neg (by omega), if_pos (by omega)]
      simp only [List.map_cons, List.map_nil, List.cons.injEq, and_true]
      omega
  · obtain ⟨second, third, fourth, later, rfl, rfl, admitted, follows, last,
      rfl⟩ := utf8Step_four_some read width
    rw [secondByteOk_iff] at admitted
    rw [isContinuation_iff] at follows last
    refine ⟨[second, third, fourth], later, rfl, rfl,
      utf8EncodeChar_ofNat ?_ ?_⟩ <;> unfold payload
    · unfold Nat.isValidChar
      omega
    · rw [if_neg (by omega), if_neg (by omega), if_neg (by omega)]
      simp only [List.map_cons, List.map_nil, List.cons.injEq, and_true]
      omega
  · simp only [utf8Step, width] at read
    cases read

end Read

/-- No scalar is encoded with a lead byte of an overlong form. -/
theorem utf8EncodeChar_not_overlong
    (char : Char) {byte : UInt8} (member : byte ∈ String.utf8EncodeChar char) :
    byte ≠ 0xC0 ∧ byte ≠ 0xC1 := by
  have range : char.toNat < 0xD800 ∨
      (0xDFFF < char.toNat ∧ char.toNat < 0x110000) :=
    char.valid
  have value : char.val.toNat = char.toNat := rfl
  have apart : ∀ number < 256, number ≠ 0xC0 → number ≠ 0xC1 →
      UInt8.ofNat number ≠ 0xC0 ∧ UInt8.ofNat number ≠ 0xC1 := by
    intro number bound first second
    simp only [ne_eq, ← UInt8.toNat_inj, UInt8.toNat_ofNat_of_lt' bound]
    exact ⟨first, second⟩
  unfold String.utf8EncodeChar at member
  simp only [value] at member
  split_ifs at member <;>
    simp only [List.mem_cons, List.not_mem_nil, or_false] at member
  · rcases member with rfl
    exact apart _ (by omega) (by omega) (by omega)
  · rcases member with rfl | rfl <;>
      exact apart _ (by omega) (by omega) (by omega)
  · rcases member with rfl | rfl | rfl <;>
      exact apart _ (by omega) (by omega) (by omega)
  · rcases member with rfl | rfl | rfl | rfl <;>
      exact apart _ (by omega) (by omega) (by omega)

theorem decodeUtf8_skip (skip : Nat) (bytes : Bytes) :
    decodeUtf8 skip bytes = decodeUtf8 0 (bytes.drop skip) := by
  induction bytes generalizing skip with
  | nil => simp [decodeUtf8]
  | cons head tail induction =>
      cases skip with
      | zero => rfl
      | succ skip => simp [decodeUtf8, induction skip]

/-- Bytes that decode without error are the bytes of the decoded text. -/
theorem asBytes_of_decodeUtf8
    {bytes : Bytes} {text : Text}
    (decoded : decodeUtf8 0 bytes = text.map some) :
    asBytes text = bytes := by
  induction text generalizing bytes with
  | nil =>
      cases bytes with
      | nil => rfl
      | cons lead rest => cases decoded
  | cons char others induction =>
      cases bytes with
      | nil => cases decoded
      | cons lead rest =>
          rw [decodeUtf8, List.map_cons, List.cons.injEq, decodeUtf8_skip]
            at decoded
          cases step : utf8Step lead rest with
          | mk first span =>
          rw [step] at decoded
          obtain ⟨rfl, decoded⟩ := decoded
          obtain ⟨trail, later, rfl, rfl, encoded⟩ := utf8Step_some step
          rw [List.drop_left] at decoded
          rw [asBytes_cons, encoded, induction decoded, List.cons_append]

theorem map_some_reduceOption
    {α : Type} {items : List (Option α)}
    (whole : items.all Option.isSome = true) :
    items.reduceOption.map some = items := by
  induction items with
  | nil => rfl
  | cons head tail induction =>
      rw [List.all_cons, Bool.and_eq_true] at whole
      obtain ⟨value, rfl⟩ := Option.isSome_iff_exists.mp whole.1
      rw [List.reduceOption_cons_of_some, List.map_cons, induction whole.2]

/-- `str::from_utf8` returns the text with the given bytes. -/
theorem asBytes_of_fromUtf8
    {bytes : Bytes} {text : Text} (decoded : fromUtf8 bytes = some text) :
    asBytes text = bytes := by
  unfold fromUtf8 at decoded
  split_ifs at decoded with whole
  apply asBytes_of_decodeUtf8
  rw [← Option.some.inj decoded]
  exact (map_some_reduceOption whole).symm

theorem fromUtf8Lossy_cons (lead : UInt8) (rest : Bytes) :
    fromUtf8Lossy (lead :: rest) =
      (utf8Step lead rest).1.getD '\uFFFD' ::
        fromUtf8Lossy (rest.drop (utf8Step lead rest).2) := by
  rw [fromUtf8Lossy, decodeUtf8, decodeUtf8_skip]
  rfl

/-- The lossy conversion keeps ASCII bytes and makes none of others. -/
theorem asBytes_fromUtf8Lossy_cons (lead : UInt8) (rest : Bytes) :
    (lead < 0x80 ∧
        asBytes (fromUtf8Lossy (lead :: rest)) =
          lead :: asBytes (fromUtf8Lossy rest)) ∨
      ∃ byte others later, later <:+ rest ∧
        (∀ high ∈ byte :: others, 0x80 ≤ high) ∧
        asBytes (fromUtf8Lossy (lead :: rest)) =
          byte :: (others ++ asBytes (fromUtf8Lossy later)) := by
  rw [fromUtf8Lossy_cons, asBytes_cons]
  by_cases small : lead.toNat < 0x80
  · left
    have width := leadWidth_one lead small
    have ascii : (Char.ofNat lead.toNat).toNat = lead.toNat := by
      rw [Char.ofNat, dif_pos (Or.inl (by omega))]
      rfl
    refine ⟨UInt8.lt_iff_toNat_lt.mpr small, ?_⟩
    simp only [utf8Step, width, Option.getD_some, List.drop_zero]
    rw [utf8EncodeChar_ascii (by rwa [ascii]), ascii, UInt8.ofNat_toNat]
    rfl
  · right
    have wide : 0x80 ≤ lead := UInt8.le_iff_toNat_le.mpr (not_lt.mp small)
    have suffix := List.drop_suffix (utf8Step lead rest).2 rest
    cases read : (utf8Step lead rest).1 with
    | none =>
        refine ⟨0xEF, [0xBF, 0xBD], _, suffix, ?_, rfl⟩
        simp only [List.forall_mem_cons]
        exact ⟨by decide, by decide, by decide, List.forall_mem_nil _⟩
    | some char =>
        obtain ⟨others, later, -, -, encoded⟩ :=
          utf8Step_some (Prod.ext read rfl)
        refine ⟨lead, others, _, suffix, ?_, ?_⟩
        · rw [← encoded]
          apply utf8EncodeChar_high
          by_contra ascii
          rw [utf8EncodeChar_ascii (not_le.mp ascii), List.cons.injEq,
            ← UInt8.toNat_inj, UInt8.toNat_ofNat_of_lt'
              ((not_le.mp ascii).trans (by decide))] at encoded
          exact small (encoded.1 ▸ not_le.mp ascii)
        · rw [Option.getD_some, encoded]
          rfl

/-- A replacement character takes three bytes for one or more. -/
theorem byteLen_fromUtf8Lossy_le (bytes : Bytes) :
    byteLen (fromUtf8Lossy bytes) ≤ 3 * bytes.length := by
  induction length : bytes.length using Nat.strong_induction_on
    generalizing bytes with
  | _ size induction =>
      cases bytes with
      | nil => exact Nat.zero_le _
      | cons lead rest =>
          rw [List.length_cons] at length
          have later := induction
            (rest.drop (utf8Step lead rest).2).length
            (by rw [List.length_drop]; omega) _ rfl
          rw [byteLen, fromUtf8Lossy_cons, asBytes_cons, List.length_append]
          rw [byteLen] at later
          cases read : (utf8Step lead rest).1 with
          | none =>
              rw [List.length_drop] at later
              have width : (String.utf8EncodeChar
                  ((none : Option Char).getD '\uFFFD')).length = 3 := rfl
              omega
          | some char =>
              have step : utf8Step lead rest =
                  (some char, (utf8Step lead rest).2) := Prod.ext read rfl
              obtain ⟨others, after, split, span, encoded⟩ :=
                utf8Step_some step
              rw [Option.getD_some, encoded, List.length_cons]
              have whole := congrArg List.length split
              rw [List.length_append] at whole
              rw [List.length_drop] at later
              omega

end LightWaf.Rust
