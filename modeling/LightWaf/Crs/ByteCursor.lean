import LightWaf.Rust.Lowercase
import LightWaf.Crs.Entities

/-!
# Transforms over a byte cursor

The passes of `transform.rs` walk the bytes of a `str` with an index and take
`str` slices at computed offsets; such a slice panics off a character
boundary.  Here they are written with that cursor, a panic being `none`, and
shown to compute what the passes over characters of `Evaluate` compute.

No slice of `html_entity_decode` panics.  The slice of four bytes after `%u`
does when the fourth byte ends inside a character, although a malformed
escape is to be left verbatim; `apply` returns exactly when no stage
`urlDecodeUni` meets such a text.
-/

namespace LightWaf.Crs

open LightWaf.Rust
open LightWaf.Normalizer
open LightWaf.Theory.Scan

/-! ## Offsets -/

@[simp]
theorem byteLen_nil : byteLen [] = 0 := rfl

@[simp]
theorem byteLen_cons (head : Char) (tail : Text) :
    byteLen (head :: tail) = head.utf8Size + byteLen tail := by
  simp [byteLen]

@[simp]
theorem byteLen_append (left right : Text) :
    byteLen (left ++ right) = byteLen left + byteLen right := by
  simp [byteLen]

/-- A cut succeeds exactly at the offset of a character boundary. -/
theorem splitAtByte_eq_some_iff
    {count : Nat} {text taken left : Text} :
    splitAtByte count text = some (taken, left) ↔
      text = taken ++ left ∧ byteLen taken = count := by
  constructor
  · intro cut
    fun_induction splitAtByte count text generalizing taken left with
    | case1 text =>
        simp only [Option.some.injEq, Prod.mk.injEq] at cut
        obtain ⟨rfl, rfl⟩ := cut
        exact ⟨rfl, rfl⟩
    | case2 count => exact nomatch cut
    | case3 count char rest fits induction =>
        simp only [Option.map_eq_some_iff, Prod.mk.injEq, Prod.exists] at cut
        obtain ⟨inner, _, found, rfl, rfl⟩ := cut
        obtain ⟨rfl, width⟩ := induction found
        refine ⟨rfl, ?_⟩
        rw [byteLen_cons, width]
        omega
    | case4 count char rest wide => exact nomatch cut
  · rintro ⟨rfl, rfl⟩
    induction taken with
    | nil => rw [byteLen_nil, List.nil_append, splitAtByte]
    | cons head tail induction =>
        have positive := head.utf8Size_pos
        obtain ⟨count, width⟩ : ∃ count, head.utf8Size + byteLen tail =
          count + 1 := ⟨head.utf8Size + byteLen tail - 1, by omega⟩
        have fits : head.utf8Size ≤ count + 1 := by omega
        have remains : count + 1 - head.utf8Size = byteLen tail := by omega
        rw [byteLen_cons, width, List.cons_append, splitAtByte, if_pos fits,
          remains, induction]
        rfl

/-- `&s[start..stop]`; `none` is the panic. -/
def strSlice (text : Text) (start stop : Nat) : Option Text := do
  let (_, rest) ← splitAtByte start text
  if stop < start then none
  else (splitAtByte (stop - start) rest).map Prod.fst

/-- `&s[start..]`; `none` is the panic. -/
def strFrom (text : Text) (start : Nat) : Option Text :=
  (splitAtByte start text).map Prod.snd

theorem strFrom_append (left right : Text) :
    strFrom (left ++ right) (byteLen left) = some right := by
  rw [strFrom, splitAtByte_eq_some_iff.mpr ⟨rfl, rfl⟩]
  rfl

theorem strSlice_append (left rest : Text) (width : Nat) :
    strSlice (left ++ rest) (byteLen left) (byteLen left + width) =
      (splitAtByte width rest).map Prod.fst := by
  simp [strSlice, splitAtByte_eq_some_iff.mpr ⟨rfl, rfl⟩]

theorem strSlice_middle (left middle right : Text) :
    strSlice (left ++ (middle ++ right)) (byteLen left)
        (byteLen left + byteLen middle) = some middle := by
  rw [strSlice_append, splitAtByte_eq_some_iff.mpr ⟨rfl, rfl⟩]
  rfl

/-- `b[position]`, when in range. -/
def byteAt (text : Text) (position : Nat) : Option UInt8 :=
  (asBytes text)[position]?

theorem byteAt_append (left : Text) (char : Char) (right : Text) :
    byteAt (left ++ char :: right) (byteLen left) =
      (String.utf8EncodeChar char).head? := by
  have nonempty : String.utf8EncodeChar char ≠ [] :=
    String.utf8EncodeChar_ne_nil
  rw [byteAt, asBytes_append, byteLen,
    List.getElem?_append_right (le_refl _), Nat.sub_self, asBytes_cons,
    ← List.head?_eq_getElem?, List.head?_append_of_ne_nil _ nonempty]

/-- At a boundary the byte of an ASCII character stands for it alone. -/
theorem byteAt_eq_iff
    {left right : Text} {char other : Char} (ascii : other.toNat < 0x80) :
    byteAt (left ++ char :: right) (byteLen left) =
        some other.toUInt8 ↔ char = other := by
  rw [byteAt_append]
  constructor
  · intro found
    by_contra differ
    exact not_mem_utf8EncodeChar differ ascii (List.mem_of_mem_head? found)
  · rintro rfl
    rw [utf8EncodeChar_ascii ascii]
    rfl

theorem byteAt_end (text : Text) : byteAt text (byteLen text) = none := by
  simp [byteAt, byteLen]

/-- The same, for a boundary at which the text may end. -/
theorem byteAt_eq_head_iff
    (left : Text) {right : Text} {other : Char}
    (ascii : other.toNat < 0x80) :
    byteAt (left ++ right) (byteLen left) = some other.toUInt8 ↔
      right.head? = some other := by
  cases right with
  | nil => simp [byteAt_end]
  | cons head tail => simpa using byteAt_eq_iff ascii

namespace ByteCursor

/-! ## The passes of the source -/

/--
The loop of both decoders.  At each position `attempt` may panic, decode a
character and say how many bytes it consumed, or decline; then one character
is copied.  A turn consumes at least one byte, so fuel equal to the length
suffices.
-/
def walk (attempt : Nat → Option (Option (Char × Nat))) (text : Text) :
    (fuel position : Nat) → Option Text
  | 0, position => if byteLen text ≤ position then some [] else none
  | fuel + 1, position =>
      if byteLen text ≤ position then some []
      else do
        match ← attempt position with
        | some (decoded, consumed) =>
            (walk attempt text fuel (position + consumed)).map (decoded :: ·)
        | none =>
            let rest ← strFrom text position
            let char := rest.head?.getD '\uFFFD'
            (walk attempt text fuel (position + char.utf8Size)).map
              (char :: ·)

/-- The escape that `decode_u_escapes` tries at a position. -/
def uEscape (text : Text) (position : Nat) : Option (Option (Char × Nat)) :=
  if byteAt text position = some '%'.toUInt8 ∧
      position + 6 ≤ byteLen text ∧
      (byteAt text (position + 1) = some 'u'.toUInt8 ∨
        byteAt text (position + 1) = some 'U'.toUInt8) then do
    let hex ← strSlice text (position + 2) (position + 6)
    some (((fromStrRadix 16 (2 ^ 32) hex).bind charFromU32).map
      fun char => (char, 6))
  else some none

/-- `decode_u_escapes`. -/
def decodeUEscapes (text : Text) : Option Text :=
  walk (uEscape text) text (byteLen text) 0

/-- The loops over `j`: at most `window` bytes of a kind. -/
def advance (text : Text) (kind : UInt8 → Bool) :
    (window position : Nat) → Nat
  | 0, position => position
  | window + 1, position =>
      if (byteAt text position).any kind then
        advance text kind window (position + 1)
      else position

/-- `is_radix_digit`. -/
def isRadixDigit (radix : Nat) (byte : UInt8) : Bool :=
  if radix = 16 then isHex byte
  else '0'.toUInt8 ≤ byte && byte ≤ '9'.toUInt8

/-- `u8::is_ascii_alphabetic`. -/
def isAsciiAlphabetic (byte : UInt8) : Bool :=
  ('a'.toUInt8 ≤ byte && byte ≤ 'z'.toUInt8) ||
    ('A'.toUInt8 ≤ byte && byte ≤ 'Z'.toUInt8)

/-- An entity that stops at `stop`, with the semicolon that may follow. -/
def consumed (rest : Text) (stop : Nat) : Nat :=
  if byteAt rest stop = some ';'.toUInt8 then stop + 1 else stop

/-- The numeric branch of `decode_entity`, whose digits start at `start`. -/
def numericEntity (rest : Text) (radix start : Nat) :
    Option (Option (Char × Nat)) :=
  let stop := advance rest (isRadixDigit radix) 8 start
  if stop = start then some none
  else do
    let digits ← strSlice rest start stop
    some (((fromStrRadix radix (2 ^ 32) digits).bind charFromU32).map
      fun char => (char, consumed rest stop))

/-- The named branch of `decode_entity`. -/
def namedReference (rest : Text) : Option (Option (Char × Nat)) := do
  let stop := advance rest isAsciiAlphabetic 10 1
  let name ← strSlice rest 1 stop
  some ((namedEntity.lookup name).map
    fun char => (char, consumed rest stop))

/-- `decode_entity` on a text that begins with the ampersand. -/
def decodeEntity (rest : Text) : Option (Option (Char × Nat)) :=
  if byteLen rest < 3 then some none
  else if byteAt rest 1 = some '#'.toUInt8 then
    if byteAt rest 2 = some 'x'.toUInt8 ∨
        byteAt rest 2 = some 'X'.toUInt8 then
      numericEntity rest 16 3
    else numericEntity rest 10 2
  else namedReference rest

/-- The entity that `html_entity_decode` tries at a position. -/
def entityAt (text : Text) (position : Nat) : Option (Option (Char × Nat)) :=
  if byteAt text position = some '&'.toUInt8 then do
    decodeEntity (← strFrom text position)
  else some none

/-- `html_entity_decode`. -/
def htmlEntityDecode (text : Text) : Option Text :=
  walk (entityAt text) text (byteLen text) 0

/-- `apply_one`; the other passes take no slice. -/
def applyOne (text : Text) : Transform → Option Text
  | .none => some text
  | .unsupported _ => some text
  | .lowercase => some (toAsciiLowercase text)
  | .urlDecode => some (percentDecode text true).1
  | .urlDecodeUni =>
      (decodeUEscapes text).map fun decoded => (percentDecode decoded true).1
  | .htmlEntityDecode => htmlEntityDecode text
  | .compressWhitespace => some (compressWhitespace false text)
  | .removeWhitespace => some (text.filter (!isWhitespace ·))
  | .removeNulls => some (text.filter (· != '\x00'))
  | .normalizePath => some (normalizePathKeepingCase text)
  | .base64Decode =>
      some ((base64Decode (trim text)).elim text fromUtf8Lossy)

/-- `apply`: the transforms in order. -/
def apply (text : Text) (pipeline : List Transform) : Option Text :=
  pipeline.foldlM applyOne text

/-! ## The loop over characters -/

/-- A decoder at a boundary, with its span counted in bytes. -/
def inBytes (char : Char) (rest : Text)
    (found : Option (Char × Nat)) : Option (Char × Nat) :=
  found.map fun (decoded, span) => (decoded, byteLen (char :: rest.take span))

/--
The cursor keeps to character boundaries: if at each of them `attempt` is a
step over characters, then the loop is the recursion over characters with
that step.
-/
theorem walk_eq
    {attempt : Nat → Option (Option (Char × Nat))}
    {step : Char → Text → Option (Option (Char × Nat))}
    (result : Text → Option Text) {text : Text}
    (agree : ∀ before char rest, text = before ++ char :: rest →
      attempt (byteLen before) = (step char rest).map (inBytes char rest))
    (ends : result [] = some [])
    (turns : ∀ char rest, result (char :: rest) =
      (step char rest).bind fun found =>
        match found with
        | some (decoded, span) =>
            (result (rest.drop span)).map (decoded :: ·)
        | none => (result rest).map (char :: ·))
    {fuel : Nat} {before rest : Text}
    (here : text = before ++ rest) (enough : byteLen rest ≤ fuel) :
    walk attempt text fuel (byteLen before) = result rest := by
  have total : byteLen text = byteLen before + byteLen rest := by
    rw [here, byteLen_append]
  induction fuel generalizing before rest with
  | zero =>
      cases rest with
      | nil => simp [walk, ends, total]
      | cons head tail =>
          have positive := head.utf8Size_pos
          rw [byteLen_cons] at enough
          omega
  | succ fuel induction =>
      cases rest with
      | nil => simp [walk, ends, total]
      | cons head tail =>
          have positive := head.utf8Size_pos
          rw [byteLen_cons] at enough total
          have inside : ¬ byteLen text ≤ byteLen before := by omega
          rw [walk, if_neg inside, agree before head tail here, turns]
          cases stepped : step head tail with
          | none => rfl
          | some found =>
              cases found with
              | none =>
                  have copied := @induction (before ++ [head]) tail
                    (by rw [here]; simp) (by omega)
                    (by rw [total]; simp; omega)
                  rw [byteLen_append] at copied
                  simp only [Option.map_some, inBytes, Option.map_none,
                    Option.bind_eq_bind, Option.bind_some]
                  rw [here, strFrom_append, ← here]
                  simpa using congrArg (Option.map (head :: ·)) copied
              | some decoded =>
                  obtain ⟨decoded, span⟩ := decoded
                  have parts : byteLen tail =
                      byteLen (tail.take span) + byteLen (tail.drop span) := by
                    rw [← byteLen_append, List.take_append_drop]
                  have jumped := @induction (before ++ head :: tail.take span)
                    (tail.drop span) (by rw [here]; simp) (by omega)
                    (by rw [total, byteLen_append, byteLen_cons]; omega)
                  rw [byteLen_append] at jumped
                  simp only [Option.map_some, inBytes, Option.bind_eq_bind,
                    Option.bind_some, jumped]

/-! ## Escapes -/

/-- The guard of an escape, for a percent sign at a boundary. -/
theorem uEscape_guard (before : Text) (marker : Char) (tail : Text) :
    (byteLen before + 6 ≤ byteLen (before ++ '%' :: marker :: tail) ∧
      (byteAt (before ++ '%' :: marker :: tail) (byteLen before + 1) =
          some 'u'.toUInt8 ∨
        byteAt (before ++ '%' :: marker :: tail) (byteLen before + 1) =
          some 'U'.toUInt8)) ↔
      (marker = 'u' ∨ marker = 'U') ∧ 4 ≤ byteLen tail := by
  have split : before ++ '%' :: marker :: tail =
      (before ++ ['%']) ++ marker :: tail := by simp
  have next : byteLen before + 1 = byteLen (before ++ ['%']) := by
    rw [byteLen_append]
    rfl
  rw [next, split, byteAt_eq_iff (by decide), byteAt_eq_iff (by decide),
    and_comm]
  apply and_congr_right
  intro marked
  have width : marker.utf8Size = 1 := by
    rcases marked with rfl | rfl <;> rfl
  have percent : '%'.utf8Size = 1 := rfl
  simp only [byteLen_append, byteLen_cons, byteLen_nil, width, percent]
  omega

/-- At a boundary the escape is that of the pass over characters. -/
theorem uEscape_append (before : Text) (char : Char) (rest : Text) :
    uEscape (before ++ char :: rest) (byteLen before) =
      (if char = '%' then Crs.uEscape rest else some none).map
        (inBytes char rest) := by
  have found := @byteAt_eq_iff before rest char '%' (by decide)
  simp only [uEscape, found]
  by_cases percent : char = '%'
  · subst percent
    simp only [true_and, if_true]
    cases rest with
    | nil =>
        have short : ¬ byteLen before + 6 ≤ byteLen (before ++ ['%']) := by
          rw [byteLen_append, Nat.add_le_add_iff_left]
          decide
        rw [if_neg fun guard => short guard.1]
        rfl
    | cons marker tail =>
        rw [if_congr (uEscape_guard before marker tail) rfl rfl, Crs.uEscape]
        split
        · rename_i marked
          have split : before ++ '%' :: marker :: tail =
              (before ++ ['%', marker]) ++ tail := by simp
          have width : byteLen ['%', marker] = 2 := by
            rcases marked.1 with rfl | rfl <;> rfl
          have slice : strSlice (before ++ '%' :: marker :: tail)
              (byteLen before + 2) (byteLen before + 6) =
              (splitAtByte 4 tail).map Prod.fst := by
            rw [split, ← strSlice_append (before ++ ['%', marker]),
              byteLen_append, width]
          rw [slice]
          cases cut : splitAtByte 4 tail with
          | none => rfl
          | some parts =>
              obtain ⟨hex, left⟩ := parts
              obtain ⟨rfl, four⟩ := splitAtByte_eq_some_iff.mp cut
              have six : byteLen ('%' :: (marker :: (hex ++ left)).take
                  (hex.length + 1)) = 6 := by
                rw [List.take_succ_cons, List.take_left,
                  ← List.singleton_append (l := hex), ← List.cons_append,
                  byteLen_append, width, four]
              simp only [Option.map_some, Option.bind_eq_bind,
                Option.bind_some]
              cases (fromStrRadix 16 (2 ^ 32) hex).bind charFromU32 with
              | none => rfl
              | some decoded =>
                  simp only [inBytes, Option.map_some, six]
        · rfl
  · simp [percent, inBytes]

/-- Characters to be passed over may as well be dropped. -/
theorem decodeUEscapes_skip (skip : Nat) (text : Text) :
    Crs.decodeUEscapes skip text =
      Crs.decodeUEscapes 0 (text.drop skip) := by
  induction text generalizing skip with
  | nil => simp [Crs.decodeUEscapes]
  | cons head tail induction =>
      cases skip with
      | zero => rfl
      | succ skip => simp [Crs.decodeUEscapes, induction skip]

/-- `decode_u_escapes` is the pass over characters. -/
theorem decodeUEscapes_eq (text : Text) :
    decodeUEscapes text = Crs.decodeUEscapes 0 text := by
  have agree : ∀ before char rest, text = before ++ char :: rest →
      uEscape text (byteLen before) =
        (if char = '%' then Crs.uEscape rest else some none).map
          (inBytes char rest) := by
    rintro before char rest rfl
    exact uEscape_append before char rest
  refine walk_eq (Crs.decodeUEscapes 0) agree rfl ?_
    (List.nil_append text).symm (le_refl _)
  intro char rest
  rw [Crs.decodeUEscapes]
  by_cases percent : char = '%'
  · simp only [if_pos percent, Option.bind_eq_bind]
    congr 1
    funext found
    cases found with
    | none => rfl
    | some found => simp only [decodeUEscapes_skip found.2 rest]
  · simp only [if_neg percent, Option.bind_eq_bind, Option.bind_some]

/-! ## Entities -/

/-- A kind of bytes and a kind of characters that agree on ASCII. -/
structure SameKind (bytes : UInt8 → Bool) (chars : Char → Bool) : Prop where
  ascii : ∀ char : Char, char.toNat < 0x80 →
    bytes (UInt8.ofNat char.toNat) = chars char
  highByte : ∀ byte : UInt8, 0x80 ≤ byte → bytes byte = false
  highChar : ∀ char : Char, 0x80 ≤ char.toNat → chars char = false

theorem SameKind.byteAt
    {bytes : UInt8 → Bool} {chars : Char → Bool}
    (same : SameKind bytes chars) (before : Text) (char : Char)
    (rest : Text) :
    (byteAt (before ++ char :: rest) (byteLen before)).any bytes =
      chars char := by
  rw [byteAt_append]
  by_cases small : char.toNat < 0x80
  · simp [utf8EncodeChar_ascii small, same.ascii char small]
  · have wide : 0x80 ≤ char.toNat := Nat.not_lt.mp small
    rw [same.highChar char wide]
    cases first : (String.utf8EncodeChar char).head? with
    | none => rfl
    | some byte =>
        exact same.highByte byte
          (utf8EncodeChar_high wide byte (List.mem_of_mem_head? first))

/-- The index stops where the characters of the kind stop. -/
theorem advance_append
    {bytes : UInt8 → Bool} {chars : Char → Bool}
    (same : SameKind bytes chars) (window : Nat) (before rest : Text) :
    advance (before ++ rest) bytes window (byteLen before) =
      byteLen before +
        byteLen ((rest.take window).takeWhile chars) := by
  induction window generalizing before rest with
  | zero => simp [advance]
  | succ window induction =>
      cases rest with
      | nil => simp [advance, byteAt_end]
      | cons char rest =>
          rw [advance, same.byteAt, List.take_succ_cons, List.takeWhile_cons]
          split
          · rename_i kind
            have small : char.toNat < 0x80 := by
              by_contra wide
              rw [same.highChar char (Nat.not_lt.mp wide)] at kind
              exact nomatch kind
            have width : char.utf8Size = 1 := by
              rw [← String.length_utf8EncodeChar, utf8EncodeChar_ascii small]
              rfl
            have moved := induction (before ++ [char]) rest
            simp only [byteLen_append, byteLen_cons, byteLen_nil, width,
              List.append_assoc, List.singleton_append] at moved
            rw [moved, byteLen_cons, width, Nat.add_assoc]
          · simp

/-- On bytes and on ASCII characters a kind is a finite table. -/
theorem sameKind_of_table
    {bytes : UInt8 → Bool} {chars : Char → Bool}
    (ascii : ∀ code < 0x80,
      bytes (UInt8.ofNat code) = chars (Char.ofNat code))
    (highByte : ∀ code < 0x100, 0x80 ≤ code →
      bytes (UInt8.ofNat code) = false)
    (highChar : ∀ char : Char, 0x80 ≤ char.toNat → chars char = false) :
    SameKind bytes chars where
  ascii char small := by
    rw [ascii char.toNat small, Char.ofNat_toNat]
  highByte byte high := by
    have listed := highByte byte.toNat byte.toNat_lt
      (UInt8.le_iff_toNat_le.mp high)
    rwa [UInt8.ofNat_toNat] at listed
  highChar := highChar

theorem toDigit_high
    (radix : Nat) {char : Char} (high : 0x80 ≤ char.toNat) :
    toDigit radix char = none := by
  have above {bound : Char} (ascii : bound.toNat < 0x80) : ¬ char ≤ bound := by
    intro below
    have bounded : char.toNat ≤ bound.toNat := below
    omega
  simp [toDigit, above (show '9'.toNat < 0x80 by decide),
    above (show 'z'.toNat < 0x80 by decide),
    above (show 'Z'.toNat < 0x80 by decide)]

theorem sameKind_digits
    {radix : Nat} (known : radix = 10 ∨ radix = 16) :
    SameKind (isRadixDigit radix)
      fun char => (toDigit radix char).isSome := by
  have high : ∀ char : Char, 0x80 ≤ char.toNat →
      (toDigit radix char).isSome = false := by
    intro char high
    rw [toDigit_high radix high]
    rfl
  rcases known with rfl | rfl
  · exact sameKind_of_table (by decide +kernel) (by decide +kernel) high
  · exact sameKind_of_table (by decide +kernel) (by decide +kernel) high

theorem sameKind_letters : SameKind isAsciiAlphabetic Char.isAlpha := by
  apply sameKind_of_table (by decide +kernel) (by decide +kernel)
  intro char high
  have value : 0x80 ≤ char.val.toNat := high
  rw [isAlpha_eq, Bool.or_eq_false_iff, Bool.eq_false_iff, Bool.eq_false_iff,
    Ne, Ne, isUpper_iff, isLower_iff]
  omega

theorem consumed_append (before rest : Text) :
    consumed (before ++ rest) (byteLen before) =
      byteLen before + byteLen (rest.take (entityEnd rest)) := by
  cases rest with
  | nil => simp [consumed, byteAt_end]
  | cons char rest =>
      have semicolon := @byteAt_eq_iff before rest char ';' (by decide)
      by_cases found : char = ';'
      · subst found
        rw [consumed, if_pos (semicolon.mpr rfl)]
        rfl
      · simp [consumed, semicolon, entityEnd, found]

/-- An entity made of a run of a kind, with its semicolon. -/
theorem consumed_run (lead run tail : Text) :
    consumed (lead ++ (run ++ tail)) (byteLen lead + byteLen run) =
      byteLen lead +
        byteLen ((run ++ tail).take (run.length + entityEnd tail)) := by
  rw [← byteLen_append, ← List.append_assoc, consumed_append,
    List.take_length_add_append, byteLen_append, byteLen_append,
    Nat.add_assoc]

theorem takeWhile_take_prefix
    (kind : Char → Bool) (window : Nat) (text : Text) :
    (text.take window).takeWhile kind <+: text :=
  (List.takeWhile_prefix kind).trans (List.take_prefix window text)

/-- The numeric branch slices between boundaries. -/
theorem numericEntity_append
    {radix : Nat} (known : radix = 10 ∨ radix = 16) (lead digits : Text) :
    numericEntity (lead ++ digits) radix (byteLen lead) =
      some ((Crs.numericEntity radix digits).map fun (char, span) =>
        (char, byteLen lead + byteLen (digits.take span))) := by
  rw [numericEntity, Crs.numericEntity, advance_append (sameKind_digits known)]
  obtain ⟨tail, split⟩ := takeWhile_take_prefix
    (fun char => (toDigit radix char).isSome) 8 digits
  generalize (digits.take 8).takeWhile _ = run at split ⊢
  subst split
  have stopped : byteLen lead + byteLen run = byteLen lead ↔ run = [] := by
    cases run with
    | nil => simp
    | cons head _ =>
        have positive := head.utf8Size_pos
        simp
        omega
  simp only [if_congr stopped rfl rfl]
  split
  · rfl
  · rw [strSlice_middle]
    simp only [consumed_run, List.drop_left, Option.bind_eq_bind,
      Option.bind_some]
    cases fromStrRadix radix (2 ^ 32) run with
    | none => rfl
    | some value => cases found : charFromU32 value <;> simp [found]

/-- The named branch slices between boundaries. -/
theorem namedReference_eq (rest : Text) :
    namedReference ('&' :: rest) =
      some (inBytes '&' rest (Crs.namedReference rest)) := by
  have stop := advance_append sameKind_letters 10 ['&'] rest
  obtain ⟨tail, split⟩ := takeWhile_take_prefix Char.isAlpha 10 rest
  rw [namedReference, Crs.namedReference]
  generalize (rest.take 10).takeWhile Char.isAlpha = name at stop split ⊢
  subst split
  have sliced := strSlice_middle ['&'] name tail
  have spanned := consumed_run ['&'] name tail
  have one : byteLen ['&'] = 1 := rfl
  have ampersand : '&'.utf8Size = 1 := rfl
  simp only [one, List.singleton_append] at stop sliced spanned
  rw [stop, sliced]
  simp only [spanned, List.drop_left, Option.bind_eq_bind, Option.bind_some]
  cases namedEntity.lookup name with
  | none => rfl
  | some char => simp [inBytes, ampersand]

theorem inBytes_numeric (lead : Text) (rest : Text)
    (found : Option (Char × Nat)) :
    (found.map fun (char, span) =>
        (char, byteLen ('&' :: lead) + byteLen (rest.take span))) =
      inBytes '&' (lead ++ rest)
        (found.map fun (char, span) => (char, span + lead.length)) := by
  cases found with
  | none => rfl
  | some found =>
      simp [inBytes, Nat.add_comm found.2, List.take_length_add_append,
        Nat.add_assoc]

/-- The numeric branch after the marker of its radix. -/
theorem numericEntity_mark (mark : RadixMark) (digits : Text) :
    numericEntity ('&' :: '#' :: mark.text ++ digits) mark.radix
        (mark.text.length + 2) =
      some (inBytes '&' ('#' :: mark.text ++ digits)
        ((Crs.numericEntity mark.radix digits).map fun (char, span) =>
          (char, span + (mark.text.length + 1)))) := by
  have known : mark.radix = 10 ∨ mark.radix = 16 := by
    cases mark <;> decide
  have width : byteLen ('&' :: '#' :: mark.text) = mark.text.length + 2 := by
    cases mark <;> rfl
  rw [← width, numericEntity_append known, inBytes_numeric]
  rfl

/-- `decode_entity` never panics. -/
theorem decodeEntity_eq (rest : Text) :
    decodeEntity ('&' :: rest) =
      some (inBytes '&' rest (Crs.decodeEntity rest)) := by
  have ampersand : '&'.utf8Size = 1 := rfl
  by_cases short : byteLen rest < 2
  · have guard : byteLen ('&' :: rest) < 3 := by
      rw [byteLen_cons]
      omega
    rw [decodeEntity, if_pos guard, Crs.decodeEntity.eq_def, if_pos short]
    rfl
  · have guard : ¬ byteLen ('&' :: rest) < 3 := by
      rw [byteLen_cons]
      omega
    rw [decodeEntity, if_neg guard]
    have second : byteAt ('&' :: rest) 1 = some '#'.toUInt8 ↔
        rest.head? = some '#' := byteAt_eq_head_iff ['&'] (by decide)
    by_cases hash : rest.head? = some '#'
    · rw [if_pos (second.mpr hash)]
      obtain ⟨text, rfl⟩ := List.head?_eq_some_iff.mp hash
      have third {marker : Char} (ascii : marker.toNat < 0x80) :
          byteAt ('&' :: '#' :: text) 2 = some marker.toUInt8 ↔
            text.head? = some marker :=
        byteAt_eq_head_iff ['&', '#'] ascii
      have lower := @third 'x' (by decide)
      have upper := @third 'X' (by decide)
      by_cases isLower : text.head? = some 'x'
      · obtain ⟨digits, rfl⟩ := List.head?_eq_some_iff.mp isLower
        rw [if_pos (.inl (lower.mpr isLower)), Crs.decodeEntity_eq]
        exact numericEntity_mark .hex digits
      · by_cases isUpper : text.head? = some 'X'
        · obtain ⟨digits, rfl⟩ := List.head?_eq_some_iff.mp isUpper
          rw [if_pos (.inr (upper.mpr isUpper)), Crs.decodeEntity_eq]
          exact numericEntity_mark .upperHex digits
        · rw [if_neg (by rw [lower, upper]; tauto),
            decodeEntity_decimal isLower isUpper]
          exact numericEntity_mark .decimal text
    · rw [if_neg fun found => hash (second.mp found), namedReference_eq,
        decodeEntity_named hash]

/-- `html_entity_decode` never panics and is the pass over characters. -/
theorem htmlEntityDecode_eq (text : Text) :
    htmlEntityDecode text = some (Crs.htmlEntityDecode 0 text) := by
  have agree : ∀ before char rest, text = before ++ char :: rest →
      entityAt text (byteLen before) =
        (some (if char = '&' then Crs.decodeEntity rest else none)).map
          (inBytes char rest) := by
    rintro before char rest rfl
    have found := @byteAt_eq_iff before rest char '&' (by decide)
    by_cases ampersand : char = '&'
    · subst ampersand
      rw [entityAt, if_pos (found.mpr rfl), strFrom_append, if_pos rfl]
      exact decodeEntity_eq rest
    · rw [entityAt, if_neg fun here => ampersand (found.mp here),
        if_neg ampersand]
      rfl
  refine walk_eq (fun text => some (Crs.htmlEntityDecode 0 text)) agree rfl ?_
    (List.nil_append text).symm (le_refl _)
  intro char rest
  rw [Crs.htmlEntityDecode, Option.bind_some]
  cases (if char = '&' then Crs.decodeEntity rest else none) with
  | none => rfl
  | some found =>
      simp only [htmlEntityDecode_eq_rewrite, rewrite_skip _ found.2,
        Option.map_some]

/-! ## Whole pipelines -/

theorem applyOne_eq (text : Text) (transform : Transform) :
    applyOne text transform = Crs.applyOne text transform := by
  cases transform with
  | urlDecodeUni => rw [applyOne, Crs.applyOne, decodeUEscapes_eq]
  | htmlEntityDecode => rw [applyOne, Crs.applyOne, htmlEntityDecode_eq]
  | _ => rfl

/-- The cursor and the characters agree on every pipeline. -/
theorem apply_eq (text : Text) (pipeline : List Transform) :
    apply text pipeline = applyTransforms text pipeline := by
  rw [apply, applyTransforms]
  congr 1
  funext text transform
  exact applyOne_eq text transform

/-! ## When a pipeline returns -/

/--
Every `%u` that at least four bytes follow has a character boundary after
these four.
-/
def EscapesWhole (text : Text) : Prop :=
  ∀ marker tail, '%' :: marker :: tail <:+ text →
    marker = 'u' ∨ marker = 'U' → 4 ≤ byteLen tail →
    ∃ hex, hex <+: tail ∧ byteLen hex = 4

theorem isSome_splitAtByte_iff {count : Nat} {text : Text} :
    (splitAtByte count text).isSome ↔
      ∃ taken, taken <+: text ∧ byteLen taken = count := by
  constructor
  · intro cut
    obtain ⟨⟨taken, left⟩, found⟩ := Option.isSome_iff_exists.mp cut
    obtain ⟨rfl, width⟩ := splitAtByte_eq_some_iff.mp found
    exact ⟨taken, List.prefix_append taken left, width⟩
  · rintro ⟨taken, ⟨left, rfl⟩, width⟩
    rw [splitAtByte_eq_some_iff.mpr ⟨rfl, width⟩]
    rfl

theorem isSome_uEscape_cons_iff {marker : Char} {tail : Text} :
    (Crs.uEscape (marker :: tail)).isSome ↔
      (marker = 'u' ∨ marker = 'U' → 4 ≤ byteLen tail →
        ∃ hex, hex <+: tail ∧ byteLen hex = 4) := by
  rw [Crs.uEscape, ← isSome_splitAtByte_iff]
  split
  · rename_i marked
    cases splitAtByte 4 tail <;> simp [marked]
  · rename_i unmarked
    simp only [Option.isSome_some, true_iff]
    exact fun kind long => absurd ⟨kind, long⟩ unmarked

theorem escapesWhole_iff {text : Text} :
    EscapesWhole text ↔
      ∀ rest, '%' :: rest <:+ text → (Crs.uEscape rest).isSome := by
  constructor
  · intro whole rest found
    cases rest with
    | nil => rfl
    | cons marker tail =>
        exact isSome_uEscape_cons_iff.mpr (whole marker tail found)
  · intro returns marker tail found
    exact isSome_uEscape_cons_iff.mp (returns (marker :: tail) found)

theorem escapesWhole_cons_iff {char : Char} {text : Text} :
    EscapesWhole (char :: text) ↔
      (char = '%' → (Crs.uEscape text).isSome) ∧ EscapesWhole text := by
  rw [escapesWhole_iff, escapesWhole_iff]
  constructor
  · intro whole
    constructor
    · rintro rfl
      exact whole text (List.suffix_refl _)
    · intro rest found
      exact whole rest (found.trans (List.suffix_cons char text))
  · rintro ⟨here, whole⟩ rest found
    rcases List.suffix_cons_iff.mp found with same | later
    · obtain ⟨rfl, rfl⟩ := List.cons_eq_cons.mp same
      exact here rfl
    · exact whole rest later

theorem escapesWhole_append_iff
    {left right : Text} (plain : '%' ∉ left) :
    EscapesWhole (left ++ right) ↔ EscapesWhole right := by
  induction left with
  | nil => rfl
  | cons head tail induction =>
      rw [List.mem_cons, not_or] at plain
      rw [List.cons_append, escapesWhole_cons_iff, induction plain.2,
        and_iff_right fun same => absurd same.symm plain.1]

theorem isSome_toDigit_of_parsed
    {radix bound start value : Nat} {digits : Text}
    (parsed : digits.foldlM (fun value char => do
      let digit ← toDigit radix char
      if value * radix + digit < bound then
        some (value * radix + digit)
      else none) start = some value) :
    ∀ char ∈ digits, (toDigit radix char).isSome := by
  induction digits generalizing start with
  | nil => simp
  | cons head tail induction =>
      rw [List.foldlM_cons] at parsed
      cases first : toDigit radix head with
      | none => simp [first] at parsed
      | some digit =>
          simp only [first, Option.bind_eq_bind, Option.bind_some] at parsed
          split at parsed
          · simpa [first] using induction parsed
          · exact nomatch parsed

/-- Only digits and a leading sign are read as a number. -/
theorem mem_of_fromStrRadix
    {radix bound value : Nat} {text : Text}
    (parsed : fromStrRadix radix bound text = some value) :
    ∀ char ∈ text, char = '+' ∨ (toDigit radix char).isSome := by
  intro char member
  rw [fromStrRadix.eq_def] at parsed
  split at parsed
  · cases member
  · cases parsed
  · rcases List.mem_cons.mp member with rfl | later
    · exact .inl rfl
    · exact .inr (isSome_toDigit_of_parsed parsed char later)
  · exact .inr (isSome_toDigit_of_parsed parsed char member)

/-- An escape that is decoded spans no further percent sign. -/
theorem percent_not_mem_uEscape
    {rest : Text} {decoded : Char} {span : Nat}
    (found : Crs.uEscape rest = some (some (decoded, span))) :
    '%' ∉ rest.take span := by
  cases rest with
  | nil => simp
  | cons marker tail =>
      rw [Crs.uEscape] at found
      split at found
      · rename_i marked
        cases cut : splitAtByte 4 tail with
        | none => simp [cut] at found
        | some parts =>
            obtain ⟨hex, left⟩ := parts
            obtain ⟨rfl, -⟩ := splitAtByte_eq_some_iff.mp cut
            simp only [cut, Option.bind_eq_bind, Option.bind_some,
              Option.some.injEq, Option.map_eq_some_iff, Prod.mk.injEq,
              Option.bind_eq_some_iff] at found
            obtain ⟨_, ⟨value, parsed, _⟩, _, rfl⟩ := found
            rw [List.take_succ_cons, List.take_left, List.mem_cons, not_or]
            constructor
            · rcases marked.1 with rfl | rfl <;> decide
            · intro member
              have kind := mem_of_fromStrRadix parsed '%' member
              simp [toDigit] at kind
      · simp at found

/-- `decode_u_escapes` returns exactly when every slice is whole. -/
theorem isSome_decodeUEscapes_iff (text : Text) :
    (Crs.decodeUEscapes 0 text).isSome ↔ EscapesWhole text := by
  induction length : text.length using Nat.strong_induction_on
    generalizing text with
  | _ size induction =>
      cases text with
      | nil => simp [Crs.decodeUEscapes, EscapesWhole]
      | cons char rest =>
          have kept := induction rest.length (by simp [← length]) rest rfl
          rw [escapesWhole_cons_iff, Crs.decodeUEscapes]
          by_cases percent : char = '%'
          · simp only [percent, if_true, forall_const, Option.bind_eq_bind]
            cases escape : Crs.uEscape rest with
            | none => simp
            | some found =>
                cases found with
                | none => simpa using kept
                | some entity =>
                    have jumped := induction (rest.drop entity.2).length
                      (by simp [← length]) (rest.drop entity.2) rfl
                    have plain := percent_not_mem_uEscape escape
                    rw [← List.take_append_drop entity.2 rest,
                      escapesWhole_append_iff plain, List.take_append_drop]
                    simpa [decodeUEscapes_skip entity.2] using jumped
          · simpa [percent] using kept

/-- One transform returns unless it decodes a broken escape. -/
theorem isSome_applyOne_iff (text : Text) (transform : Transform) :
    (Crs.applyOne text transform).isSome ↔
      (transform = .urlDecodeUni → EscapesWhole text) := by
  cases transform with
  | urlDecodeUni =>
      rw [Crs.applyOne, Option.isSome_map, isSome_decodeUEscapes_iff,
        forall_prop_of_true rfl]
  | _ => simp [Crs.applyOne]

/--
`apply` returns a text if and only if, at each stage `urlDecodeUni` of the
pipeline, the text that the earlier stages hand to it has only whole escapes.
-/
theorem apply_returns_iff (text : Text) (pipeline : List Transform) :
    (∃ output, apply text pipeline = some output) ↔
      ∀ earlier later value,
        pipeline = earlier ++ .urlDecodeUni :: later →
        apply text earlier = some value → EscapesWhole value := by
  simp only [apply_eq, applyTransforms, ← Option.isSome_iff_exists]
  induction pipeline generalizing text with
  | nil => simp
  | cons transform pipeline induction =>
      have stage := isSome_applyOne_iff text transform
      rw [List.foldlM_cons]
      cases applied : Crs.applyOne text transform with
      | none =>
          simp only [applied, Option.isSome_none, Bool.false_eq_true,
            false_iff, Classical.not_imp] at stage
          obtain ⟨rfl, broken⟩ := stage
          simp only [Option.bind_eq_bind, Option.bind_none,
            Option.isSome_none, Bool.false_eq_true, false_iff]
          exact fun whole => broken (whole [] pipeline text rfl rfl)
      | some next =>
          rw [Option.bind_eq_bind, Option.bind_some, induction next]
          constructor
          · intro whole earlier later value split reached
            cases earlier with
            | nil =>
                obtain ⟨rfl, rfl⟩ := List.cons_eq_cons.mp split
                obtain rfl := Option.some.inj reached
                exact stage.mp (by rw [applied]; rfl) rfl
            | cons first earlier =>
                obtain ⟨rfl, rfl⟩ := List.cons_eq_cons.mp split
                rw [List.foldlM_cons, applied] at reached
                exact whole earlier later value rfl reached
          · intro whole earlier later value split reached
            apply whole (transform :: earlier) later value
            · rw [split, List.cons_append]
            · rw [List.foldlM_cons, applied]
              exact reached

/-- The euro sign straddles the slice: the pass panics. -/
theorem apply_panics_inside_euro :
    ¬ ∃ output, apply "%uABC€".toList [.urlDecodeUni] = some output := by
  have panics : applyTransforms "%uABC€".toList [.urlDecodeUni] = none := by
    decide
  rw [apply_eq, panics]
  rintro ⟨output, returned⟩
  exact nomatch returned

end ByteCursor

end LightWaf.Crs
