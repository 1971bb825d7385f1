import LightWaf.Rust.Text

/-!
# Fixed-width integers and hexadecimal text

`to_be_bytes` of 64-bit integers, `to_le_bytes` and `from_le_bytes`, and the
functions of the `hex` crate.
-/

namespace LightWaf.Rust

/-! ## Big-endian bytes -/

/-- The lowest `width` bytes of a number, the highest of them first. -/
def beBytes : (width : Nat) → Nat → Bytes
  | 0, _ => []
  | width + 1, number =>
      beBytes width (number / 256) ++ [UInt8.ofNat number]

@[simp]
theorem length_beBytes (width number : Nat) :
    (beBytes width number).length = width := by
  induction width generalizing number with
  | zero => rfl
  | succ width induction =>
      rw [beBytes, List.length_append, induction, List.length_singleton]

/-- Numbers within the width are told apart. -/
theorem beBytes_inj
    {width first second : Nat}
    (small : first < 256 ^ width) (otherSmall : second < 256 ^ width)
    (same : beBytes width first = beBytes width second) :
    first = second := by
  induction width generalizing first second with
  | zero =>
      rw [pow_zero, Nat.lt_one_iff] at small otherSmall
      rw [small, otherSmall]
  | succ width induction =>
      rw [beBytes, beBytes] at same
      obtain ⟨high, low⟩ := List.append_inj' same rfl
      rw [pow_succ, Nat.mul_comm] at small otherSmall
      have quotients := induction (Nat.div_lt_of_lt_mul small)
        (Nat.div_lt_of_lt_mul otherSmall) high
      have remainders : first % 256 = second % 256 := by
        have bytes := congrArg UInt8.toNat (List.singleton_inj.mp low)
        simpa using bytes
      rw [← Nat.div_add_mod first 256, quotients, remainders,
        Nat.div_add_mod]

/-- `i64::to_be_bytes`. -/
def i64ToBeBytes (value : Int64) : Bytes :=
  beBytes 8 value.toUInt64.toNat

theorem i64ToBeBytes_injective : Function.Injective i64ToBeBytes := by
  intro first second same
  have bits := @beBytes_inj 8 _ _ first.toUInt64.toNat_lt
    second.toUInt64.toNat_lt same
  exact congrArg Int64.ofUInt64 (UInt64.toNat_inj.mp bits)

/-! ## Little-endian bytes -/

/-- `to_le_bytes`: the lowest `width` bytes of a number, the lowest first. -/
def leBytes : (width : Nat) → Nat → Bytes
  | 0, _ => []
  | width + 1, number => UInt8.ofNat number :: leBytes width (number / 256)

/-- `from_le_bytes`. -/
def fromLeBytes : Bytes → Nat
  | [] => 0
  | byte :: rest => byte.toNat + 256 * fromLeBytes rest

@[simp]
theorem length_leBytes (width number : Nat) :
    (leBytes width number).length = width := by
  induction width generalizing number with
  | zero => rfl
  | succ width induction => rw [leBytes, List.length_cons, induction]

/-- A number within the width is read back. -/
theorem fromLeBytes_leBytes
    {width number : Nat} (small : number < 256 ^ width) :
    fromLeBytes (leBytes width number) = number := by
  induction width generalizing number with
  | zero =>
      rw [pow_zero, Nat.lt_one_iff] at small
      rw [small]
      rfl
  | succ width induction =>
      rw [pow_succ, Nat.mul_comm] at small
      have low : (UInt8.ofNat number).toNat = number % 256 := by simp
      rw [leBytes, fromLeBytes, induction (Nat.div_lt_of_lt_mul small), low,
        Nat.mod_add_div]

/-- The bytes of the number that bytes stand for. -/
theorem leBytes_fromLeBytes (bytes : Bytes) :
    leBytes bytes.length (fromLeBytes bytes) = bytes := by
  induction bytes with
  | nil => rfl
  | cons byte rest induction =>
      have small := byte.toNat_lt
      have low : UInt8.ofNat (byte.toNat + 256 * fromLeBytes rest) = byte := by
        apply UInt8.toNat_inj.mp
        rw [UInt8.toNat_ofNat']
        omega
      have high : (byte.toNat + 256 * fromLeBytes rest) / 256 =
          fromLeBytes rest := by
        omega
      rw [fromLeBytes, List.length_cons, leBytes, low, high, induction]

/-! ## Hexadecimal text -/

/-- The two digits of a byte, in lower case. -/
def hexPair (byte : UInt8) : Text :=
  [Nat.digitChar (byte.toNat / 16), Nat.digitChar (byte.toNat % 16)]

/-- `hex::encode`. -/
def hexEncode (bytes : Bytes) : Text :=
  bytes.flatMap hexPair

/-- `hex::decode`: pairs of digits in either case, and nothing else. -/
def hexDecode : Text → Option Bytes
  | [] => some []
  | [_] => none
  | high :: low :: rest => do
      let upper ← toDigit 16 high
      let lower ← toDigit 16 low
      let bytes ← hexDecode rest
      some (UInt8.ofNat (upper * 16 + lower) :: bytes)

theorem toDigit_hexDigit :
    ∀ digit < 16, toDigit 16 (Nat.digitChar digit) = some digit := by
  decide

/-- What was encoded is decoded again. -/
theorem hexDecode_hexEncode (bytes : Bytes) :
    hexDecode (hexEncode bytes) = some bytes := by
  induction bytes with
  | nil => rfl
  | cons byte rest induction =>
      have bound := byte.toNat_lt
      have high := toDigit_hexDigit (byte.toNat / 16) (by omega)
      have low := toDigit_hexDigit (byte.toNat % 16) (by omega)
      have whole : byte.toNat / 16 * 16 + byte.toNat % 16 = byte.toNat := by
        omega
      rw [hexEncode, List.flatMap_cons, ← hexEncode, hexPair]
      simp only [List.cons_append, List.nil_append, hexDecode, high, low,
        induction, whole, Option.bind_eq_bind, Option.bind_some,
        UInt8.ofNat_toNat]

theorem hexEncode_injective : Function.Injective hexEncode := by
  intro first second same
  have decoded := congrArg hexDecode same
  rw [hexDecode_hexEncode, hexDecode_hexEncode] at decoded
  exact Option.some.inj decoded

end LightWaf.Rust
