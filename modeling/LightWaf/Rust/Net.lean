import LightWaf.Rust.Text

/-!
# Internet addresses

Addresses are bit vectors.  The reader follows the recursive descent of the
standard library: four decimal groups without leading zeros, or eight
hexadecimal groups with at most one `::` and possibly a dotted tail.
-/

namespace LightWaf.Rust

/-- `IpAddr`. -/
inductive IpAddr
  | v4 (bits : BitVec 32)
  | v6 (bits : BitVec 128)
deriving DecidableEq, Repr

namespace IpAddr

/-- A reader consumes a prefix of the text or leaves it alone. -/
abbrev Reader (α : Type) := Text → Option (α × Text)

/-- A number of at most `maxDigits` digits below `bound`. -/
def readNumber (radix maxDigits bound : Nat) (allowZeroPrefix : Bool) :
    Reader Nat := fun input =>
  let isDigit := fun char => (toDigit radix char).isSome
  let digits := input.takeWhile isDigit
  if digits.length = 0 ∨ maxDigits < digits.length then none
  else if !allowZeroPrefix && digits.head? == some '0' &&
      decide (1 < digits.length) then none
  else
    let value := digits.foldl
      (fun value char => value * radix + (toDigit radix char).getD 0) 0
    if value < bound then some (value, input.dropWhile isDigit) else none

/-- A part of a list: all parts but the first follow a separator. -/
def readSeparator {α : Type}
    (separator : Char) (first : Bool) (inner : Reader α) : Reader α :=
  fun input =>
    if first then inner input
    else
      match input with
      | char :: rest => if char == separator then inner rest else none
      | [] => none

/-- The dotted groups of an IPv4 address. -/
def readIpv4Groups : (left : Nat) → (first : Bool) → Reader (List Nat)
  | 0, _ => fun input => some ([], input)
  | left + 1, first => fun input => do
      let (group, rest) ←
        readSeparator '.' first (readNumber 10 3 256 false) input
      let (groups, rest) ← readIpv4Groups left false rest
      some (group :: groups, rest)

/-- Big-endian groups of `width` bits. -/
def fromGroups (width size : Nat) (groups : List Nat) : BitVec size :=
  BitVec.ofNat size
    (groups.foldl (fun value group => value * 2 ^ width + group) 0)

/-- `read_ipv4_addr`. -/
def readIpv4Addr : Reader (BitVec 32) := fun input =>
  (readIpv4Groups 4 true input).map fun (groups, rest) =>
    (fromGroups 8 32 groups, rest)

/--
Up to `left` groups of an IPv6 address, and whether the last two of them were
an embedded IPv4 address.
-/
def readGroups : (left : Nat) → (first : Bool) → Text →
    List Nat × Bool × Text
  | 0, _, input => ([], false, input)
  | left + 1, first, input =>
      let embedded :=
        if 0 < left then readSeparator ':' first readIpv4Addr input
        else none
      match embedded with
      | some (bits, rest) =>
          ([bits.toNat / 65536, bits.toNat % 65536], true, rest)
      | none =>
          match readSeparator ':' first (readNumber 16 4 65536 true)
              input with
          | some (group, rest) =>
              let (groups, dotted, rest) := readGroups left false rest
              (group :: groups, dotted, rest)
          | none => ([], false, input)

/-- `read_ipv6_addr`. -/
def readIpv6Addr : Reader (BitVec 128) := fun input =>
  let (head, dotted, rest) := readGroups 8 true input
  if head.length = 8 then some (fromGroups 16 128 head, rest)
  else if dotted then none
  else
    match rest with
    | ':' :: ':' :: rest =>
        let (tail, _, rest) := readGroups (8 - (head.length + 1)) true rest
        let zeros := List.replicate (8 - head.length - tail.length) 0
        some (fromGroups 16 128 (head ++ zeros ++ tail), rest)
    | _ => none

/-- `IpAddr::from_str`. -/
def fromStr (text : Text) : Option IpAddr :=
  let read :=
    match readIpv4Addr text with
    | some (bits, rest) => some (v4 bits, rest)
    | none => (readIpv6Addr text).map fun (bits, rest) => (v6 bits, rest)
  match read with
  | some (addr, []) => some addr
  | _ => none

example : fromStr "203.0.113.7".toList = some (v4 0xCB007107#32) := by
  decide +kernel

example : fromStr "fd00::1.2.3.4".toList =
    some (v6 0xFD000000000000000000000001020304#128) := by
  decide +kernel

example : fromStr "010.0.0.1".toList = none := by
  decide +kernel

/-! ## Printing -/

/-- The text of a number in a radix, as `Display` and `LowerHex` print it. -/
def numberText (radix value : Nat) : Text :=
  Nat.toDigits radix value

/-- The groups of `width` bits, most significant first. -/
def groupsOf (width : Nat) {size : Nat} (bits : BitVec size) (count : Nat) :
    List Nat :=
  (List.range count).map fun index =>
    bits.toNat / 2 ^ (width * (count - 1 - index)) % 2 ^ width

/-- `Ipv4Addr` as `Display` prints it. -/
def ipv4Text (bits : BitVec 32) : Text :=
  ['.'].intercalate ((groupsOf 8 bits 4).map (numberText 10))

/--
The first longest run of zero groups as its start and length, given the run
found so far and the run that ends here.
-/
def longestZeros : (index : Nat) → (longest current : Nat × Nat) →
    List Nat → Nat × Nat
  | _, longest, _, [] => longest
  | index, longest, current, group :: rest =>
      if group = 0 then
        let current :=
          if current.2 = 0 then (index, 1) else (current.1, current.2 + 1)
        longestZeros (index + 1)
          (if longest.2 < current.2 then current else longest) current rest
      else longestZeros (index + 1) longest (0, 0) rest

/-- Hexadecimal groups between colons. -/
def subsliceText (groups : List Nat) : Text :=
  [':'].intercalate (groups.map (numberText 16))

/-- `Ipv6Addr` as `Display` prints it. -/
def ipv6Text (bits : BitVec 128) : Text :=
  let groups := groupsOf 16 bits 8
  if bits.toNat / 2 ^ 32 = 0xFFFF then
    "::ffff:".toList ++ ipv4Text (bits.truncate 32)
  else
    let zeros := longestZeros 0 (0, 0) (0, 0) groups
    if 1 < zeros.2 then
      subsliceText (groups.take zeros.1) ++ "::".toList ++
        subsliceText (groups.drop (zeros.1 + zeros.2))
    else subsliceText groups

/-- `IpAddr::to_string`. -/
def toText : IpAddr → Text
  | v4 bits => ipv4Text bits
  | v6 bits => ipv6Text bits

example : toText (v6 0xFD000000000000000000000000000001#128) =
    "fd00::1".toList := by
  decide +kernel

end IpAddr

end LightWaf.Rust
