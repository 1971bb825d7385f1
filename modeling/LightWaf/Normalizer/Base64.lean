import LightWaf.Normalizer.Url
import LightWaf.Rust.Utf8

/-!
# Base64 round trips

The decoder shifts every digit into a 32-bit buffer that it never clears.
Only the pending bits below the current position are ever looked at again, so
whatever was left above them has no effect.  From there the decoder undoes
the standard encoding group by group, and its output has the length that the
digits have room for.
-/

namespace LightWaf.Normalizer

open LightWaf.Rust

/-! ## The standard encoding -/

/-- The digit of a six-bit value. -/
def base64Digit (value : Nat) : Char :=
  if value < 26 then Char.ofNat (value + 'A'.toNat)
  else if value < 52 then Char.ofNat (value - 26 + 'a'.toNat)
  else if value < 62 then Char.ofNat (value - 52 + '0'.toNat)
  else if value = 62 then '+'
  else '/'

/-- The digits of a byte string, three bytes to four of them. -/
def base64Digits : Bytes → Text
  | first :: second :: third :: rest =>
      base64Digit (first.toNat / 4) ::
        base64Digit (first.toNat % 4 * 16 + second.toNat / 16) ::
        base64Digit (second.toNat % 16 * 4 + third.toNat / 64) ::
        base64Digit (third.toNat % 64) :: base64Digits rest
  | [first, second] =>
      [base64Digit (first.toNat / 4),
        base64Digit (first.toNat % 4 * 16 + second.toNat / 16),
        base64Digit (second.toNat % 16 * 4)]
  | [first] =>
      [base64Digit (first.toNat / 4), base64Digit (first.toNat % 4 * 16)]
  | [] => []

/-- The standard encoding, padded to a multiple of four characters. -/
def base64Encode (bytes : Bytes) : Text :=
  base64Digits bytes ++ List.replicate ((3 - bytes.length % 3) % 3) '='

theorem base64Val_digit :
    ∀ value < 64,
      String.utf8EncodeChar (base64Digit value) =
        [(base64Digit value).toUInt8] ∧
      base64Val (base64Digit value).toUInt8 = some value ∧
      base64Digit value ≠ '=' := by
  decide

/-! ## The buffer -/

/-- Reading one digit. -/
theorem base64DecodeFrom_cons
    {byte : UInt8} {value : Nat} (digit : base64Val byte = some value)
    (buffer bits : Nat) (rest : Bytes) :
    base64DecodeFrom buffer bits (byte :: rest) =
      if 8 ≤ bits + 6 then
        (base64DecodeFrom ((buffer * 64 + value) % 2 ^ 32) (bits + 6 - 8)
          rest).map
          (UInt8.ofNat ((buffer * 64 + value) % 2 ^ 32 / 2 ^ (bits + 6 - 8)) ::
            ·)
      else
        base64DecodeFrom ((buffer * 64 + value) % 2 ^ 32) (bits + 6) rest := by
  rw [base64DecodeFrom, digit]
  show (if 8 ≤ bits + 6 then _ else _) = _
  split_ifs
  · exact Option.map_eq_bind.symm
  · rfl

/-- Only the pending bits of the buffer matter. -/
theorem base64DecodeFrom_congr
    {buffer other bits : Nat} (short : bits < 8)
    (pending : buffer % 2 ^ bits = other % 2 ^ bits) (bytes : Bytes) :
    base64DecodeFrom buffer bits bytes = base64DecodeFrom other bits bytes := by
  induction bytes generalizing buffer other bits with
  | nil => rfl
  | cons byte rest induction =>
      cases digit : base64Val byte with
      | none =>
          rw [base64DecodeFrom, base64DecodeFrom, digit]
          rfl
      | some value =>
          rw [base64DecodeFrom_cons digit, base64DecodeFrom_cons digit]
          split_ifs with full
          · have emitted : UInt8.ofNat ((buffer * 64 + value) % 2 ^ 32 /
                  2 ^ (bits + 6 - 8)) =
                UInt8.ofNat ((other * 64 + value) % 2 ^ 32 /
                  2 ^ (bits + 6 - 8)) := by
              rw [← UInt8.toNat_inj, UInt8.toNat_ofNat', UInt8.toNat_ofNat']
              interval_cases bits <;> omega
            rw [emitted, induction (by omega)]
            interval_cases bits <;> omega
          · apply induction (by omega)
            interval_cases bits <;> omega

/-! ## Round trips -/

theorem asBytes_digit
    {value : Nat} (small : value < 64) (rest : Text) :
    asBytes (base64Digit value :: rest) =
      (base64Digit value).toUInt8 :: asBytes rest := by
  rw [asBytes_cons, (base64Val_digit value small).1]
  rfl

theorem base64Val_toUInt8 {value : Nat} (small : value < 64) :
    base64Val (base64Digit value).toUInt8 = some value :=
  (base64Val_digit value small).2.1

/-- A byte equals what is emitted for it. -/
theorem emitted_eq
    {number : Nat} {byte : UInt8} (same : number % 256 = byte.toNat) :
    UInt8.ofNat number = byte := by
  rw [← UInt8.toNat_inj, UInt8.toNat_ofNat']
  exact same

/-- The decoder reads back the digits of a byte string. -/
theorem base64DecodeFrom_digits (bytes : Bytes) :
    base64DecodeFrom 0 0 (asBytes (base64Digits bytes)) = some bytes := by
  fun_induction base64Digits bytes with
  | case1 first second third rest induction =>
      have firstBound := first.toNat_lt
      have secondBound := second.toNat_lt
      have thirdBound := third.toNat_lt
      rw [asBytes_digit (by omega), asBytes_digit (by omega),
        asBytes_digit (by omega), asBytes_digit (by omega),
        base64DecodeFrom_cons (base64Val_toUInt8 (by omega)), if_neg (by decide),
        base64DecodeFrom_cons (base64Val_toUInt8 (by omega)), if_pos (by decide),
        base64DecodeFrom_cons (base64Val_toUInt8 (by omega)), if_pos (by decide),
        base64DecodeFrom_cons (base64Val_toUInt8 (by omega)), if_pos (by decide),
        @base64DecodeFrom_congr _ 0 _ (by decide) (by omega), induction]
      simp only [Option.map_some, Option.some.injEq, List.cons.injEq, and_true]
      exact ⟨emitted_eq (by omega), emitted_eq (by omega),
        emitted_eq (by omega)⟩
  | case2 first second =>
      have firstBound := first.toNat_lt
      have secondBound := second.toNat_lt
      rw [asBytes_digit (by omega), asBytes_digit (by omega),
        asBytes_digit (by omega),
        base64DecodeFrom_cons (base64Val_toUInt8 (by omega)),
        if_neg (by decide),
        base64DecodeFrom_cons (base64Val_toUInt8 (by omega)),
        if_pos (by decide),
        base64DecodeFrom_cons (base64Val_toUInt8 (by omega)),
        if_pos (by decide), asBytes_nil, base64DecodeFrom]
      simp only [Option.map_some, Option.some.injEq, List.cons.injEq, and_true]
      exact ⟨emitted_eq (by omega), emitted_eq (by omega)⟩
  | case3 first =>
      have firstBound := first.toNat_lt
      rw [asBytes_digit (by omega), asBytes_digit (by omega),
        base64DecodeFrom_cons (base64Val_toUInt8 (by omega)),
        if_neg (by decide),
        base64DecodeFrom_cons (base64Val_toUInt8 (by omega)),
        if_pos (by decide), asBytes_nil, base64DecodeFrom]
      exact congrArg (fun byte => some [byte]) (emitted_eq (by omega))
  | case4 => rfl

theorem base64Digits_ne_pad (bytes : Bytes) :
    ∀ char ∈ base64Digits bytes, char ≠ '=' := by
  have digit : ∀ value < 64, base64Digit value ≠ '=' :=
    fun value small => (base64Val_digit value small).2.2
  fun_induction base64Digits bytes with
  | case1 first second third rest induction =>
      have firstBound := first.toNat_lt
      have secondBound := second.toNat_lt
      have thirdBound := third.toNat_lt
      simp only [List.forall_mem_cons]
      exact ⟨digit _ (by omega), digit _ (by omega), digit _ (by omega),
        digit _ (by omega), induction⟩
  | case2 first second =>
      have firstBound := first.toNat_lt
      have secondBound := second.toNat_lt
      simp only [List.forall_mem_cons]
      exact ⟨digit _ (by omega), digit _ (by omega), digit _ (by omega),
        List.forall_mem_nil _⟩
  | case3 first =>
      have firstBound := first.toNat_lt
      simp only [List.forall_mem_cons]
      exact ⟨digit _ (by omega), digit _ (by omega), List.forall_mem_nil _⟩
  | case4 => exact List.forall_mem_nil _

/-- Padding is trimmed off the digits, however much there is. -/
theorem trimEndMatches_padded (bytes : Bytes) (padding : Nat) :
    trimEndMatches '=' (base64Digits bytes ++ List.replicate padding '=') =
      base64Digits bytes := by
  induction padding with
  | zero =>
      rw [List.replicate_zero, List.append_nil, trimEndMatches,
        List.rdropWhile_eq_self_iff]
      intro nonempty pad
      exact base64Digits_ne_pad bytes _ (List.getLast_mem nonempty)
        (beq_iff_eq.mp pad)
  | succ padding induction =>
      rw [List.replicate_succ', ← List.append_assoc, trimEndMatches,
        List.rdropWhile_concat_pos (· == '=') _ _ rfl]
      exact induction

theorem base64Decode_padded (bytes : Bytes) (padding : Nat) :
    base64Decode (base64Digits bytes ++ List.replicate padding '=') =
      some bytes := by
  rw [base64Decode, trimEndMatches_padded, base64DecodeFrom_digits]

/-! ## Candidates -/

theorem base64Val_isSome
    {char : Char}
    (digit : ((isAscii char && char.isAlphanum) || char == '+' ||
      char == '/') = true) :
    ∀ byte ∈ String.utf8EncodeChar char,
      (base64Val byte).isSome = true := by
  have codes : ∀ code < 128,
      ((Char.ofNat code).isAlphanum = true ∨ Char.ofNat code = '+' ∨
        Char.ofNat code = '/') →
      (base64Val (UInt8.ofNat code)).isSome = true := by
    decide
  simp only [Bool.or_eq_true, Bool.and_eq_true, beq_iff_eq, or_assoc] at digit
  have ascii : char.toNat < 128 := by
    rcases digit with ⟨ascii, -⟩ | rfl | rfl
    · exact of_decide_eq_true ascii
    · exact of_decide_eq_true rfl
    · exact of_decide_eq_true rfl
  rw [utf8EncodeChar_ascii ascii]
  intro byte member
  cases List.mem_singleton.mp member
  apply codes _ ascii
  rw [Char.ofNat_toNat]
  exact digit.imp_left And.right

/-- Digits only: every eight bits of them make a byte. -/
theorem base64DecodeFrom_length
    {bytes : Bytes}
    (digits : ∀ byte ∈ bytes, (base64Val byte).isSome = true)
    (buffer : Nat) {bits : Nat} (short : bits < 8) :
    ∃ out, base64DecodeFrom buffer bits bytes = some out ∧
      out.length = (bits + 6 * bytes.length) / 8 := by
  induction bytes generalizing buffer bits with
  | nil => exact ⟨[], rfl, (Nat.div_eq_of_lt short).symm⟩
  | cons byte rest induction =>
      obtain ⟨value, digit⟩ :=
        Option.isSome_iff_exists.mp (digits byte List.mem_cons_self)
      have later {bits : Nat} := @induction
        (fun item member => digits item (List.mem_cons_of_mem byte member))
        ((buffer * 64 + value) % 2 ^ 32) bits
      rw [base64DecodeFrom_cons digit, List.length_cons]
      split_ifs with full
      · obtain ⟨out, decoded, length⟩ := @later (bits + 6 - 8) (by omega)
        refine ⟨_, congrArg _ decoded, ?_⟩
        rw [List.length_cons, length]
        omega
      · obtain ⟨out, decoded, length⟩ := @later (bits + 6) (by omega)
        refine ⟨out, decoded, ?_⟩
        rw [length]
        omega

/--
Decoding undoes the standard encoding, padded or not; and every candidate
decodes, to as many bytes as its digits have room for.
-/
theorem base64Decode_spec :
    (∀ bytes, base64Decode (base64Encode bytes) = some bytes ∧
      base64Decode (base64Digits bytes) = some bytes) ∧
    ∀ text lenMin, isBase64Candidate text lenMin = true →
      ∃ out, base64Decode text = some out ∧
        out.length = 6 * byteLen (trimEndMatches '=' text) / 8 := by
  constructor
  · intro bytes
    have bare := base64Decode_padded bytes 0
    rw [List.replicate_zero, List.append_nil] at bare
    exact ⟨base64Decode_padded bytes _, bare⟩
  · intro text lenMin candidate
    unfold isBase64Candidate at candidate
    split_ifs at candidate
    rw [Bool.and_eq_true, List.all_eq_true] at candidate
    have digits : ∀ byte ∈ asBytes (trimEndMatches '=' text),
        (base64Val byte).isSome = true := by
      intro byte member
      obtain ⟨char, inside, encoded⟩ := List.mem_flatMap.mp member
      exact base64Val_isSome (candidate.2 char inside) byte encoded
    obtain ⟨out, decoded, length⟩ :=
      base64DecodeFrom_length digits 0 (Nat.zero_lt_succ 7)
    refine ⟨out, decoded, ?_⟩
    rw [length, Nat.zero_add]
    rfl

end LightWaf.Normalizer
