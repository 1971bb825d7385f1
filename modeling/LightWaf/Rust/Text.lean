import Mathlib.Tactic
import Mathlib.Data.List.DropRight
import Mathlib.Data.List.ReduceOption

/-!
# Text and bytes of the host language

A `str` is the list of its Unicode scalar values and a byte buffer the list
of its bytes.  The standard-library operations used by the development are
defined here once: UTF-8 in both directions, trimming, splitting, searching
and the case mappings.

The Unicode character tables are a parameter.  Every operation fixes its
behaviour on ASCII itself and consults `UnicodeTables` only beyond it, so a
result stated for all tables holds for every Unicode version.
-/

namespace LightWaf.Rust

/-- A `str`: its Unicode scalar values in order. -/
abbrev Text := List Char

/-- A byte buffer. -/
abbrev Bytes := List UInt8

/--
What holds of every scalar of a text is decided on the text, not on all
scalars.
-/
instance (priority := 2000) decidableBallText
    (text : Text) (holds : Char → Prop) [DecidablePred holds] :
    Decidable (∀ char ∈ text, holds char) :=
  List.decidableBAll holds text

instance (priority := 2000) decidableBallScalar
    (scalar : Option Char) (holds : Char → Prop) [DecidablePred holds] :
    Decidable (∀ char ∈ scalar, holds char) :=
  Option.decidableForallMem scalar

/-! ## Results -/

/-- What a `?` chain returns, it returns after its first step. -/
theorem ok_of_bind_ok
    {ε α β : Type} {first : Except ε α} {rest : α → Except ε β} {result : β}
    (returned : (first >>= rest) = .ok result) :
    ∃ value, first = .ok value ∧ rest value = .ok result := by
  cases first with
  | error error => cases returned
  | ok value => exact ⟨value, rfl, returned⟩

/-- What every `?` step of a loop keeps, with the items read, the loop keeps. -/
theorem foldlM_ok_induction
    {α β ε : Type} {step : β → α → Except ε β} {invariant : List α → β → Prop}
    (keeps : ∀ read state item next, invariant read state →
      step state item = .ok next → invariant (read ++ [item]) next)
    {items : List α} {start result : β} (initial : invariant [] start)
    (done : items.foldlM step start = .ok result) :
    invariant items result := by
  suffices general : ∀ read, invariant read start →
      invariant (read ++ items) result from general [] initial
  clear initial
  induction items generalizing start with
  | nil =>
      intro read holds
      cases done
      rw [List.append_nil]
      exact holds
  | cons item items induction =>
      intro read holds
      rw [List.foldlM_cons] at done
      obtain ⟨next, here, later⟩ := ok_of_bind_ok done
      have reached := induction later (read ++ [item])
        (keeps read start item next holds here)
      rw [List.append_assoc] at reached
      exact reached

/-- What a loop of `?` steps collects, one of the steps returned. -/
theorem mem_of_mapM_ok
    {α β ε : Type} {step : α → Except ε β} {items : List α}
    {results : List β} (done : items.mapM step = .ok results)
    {result : β} (member : result ∈ results) :
    ∃ item ∈ items, step item = .ok result := by
  induction items generalizing results with
  | nil =>
      cases done
      cases member
  | cons item items induction =>
      rw [List.mapM_cons] at done
      obtain ⟨first, here, done⟩ := ok_of_bind_ok done
      obtain ⟨others, later, done⟩ := ok_of_bind_ok done
      cases done
      rcases List.mem_cons.mp member with rfl | tail
      · exact ⟨item, List.mem_cons_self, here⟩
      · obtain ⟨found, inside, made⟩ := induction later tail
        exact ⟨found, List.mem_cons_of_mem item inside, made⟩

/-- Of what a loop of `?` steps goes over, every step returned. -/
theorem exists_of_mapM_ok
    {α β ε : Type} {step : α → Except ε β} {items : List α}
    {results : List β} (done : items.mapM step = .ok results)
    {item : α} (member : item ∈ items) :
    ∃ result ∈ results, step item = .ok result := by
  induction items generalizing results with
  | nil => cases member
  | cons head items induction =>
      rw [List.mapM_cons] at done
      obtain ⟨first, here, done⟩ := ok_of_bind_ok done
      obtain ⟨others, later, done⟩ := ok_of_bind_ok done
      cases done
      rcases List.mem_cons.mp member with rfl | tail
      · exact ⟨first, List.mem_cons_self, here⟩
      · obtain ⟨found, inside, made⟩ := induction later tail
        exact ⟨found, List.mem_cons_of_mem first inside, made⟩

/-! ## UTF-8 -/

/-- `str::as_bytes`. -/
def asBytes (text : Text) : Bytes :=
  text.flatMap String.utf8EncodeChar

@[simp]
theorem asBytes_nil : asBytes [] = [] := rfl

@[simp]
theorem asBytes_cons (head : Char) (tail : Text) :
    asBytes (head :: tail) = String.utf8EncodeChar head ++ asBytes tail :=
  rfl

@[simp]
theorem asBytes_append (left right : Text) :
    asBytes (left ++ right) = asBytes left ++ asBytes right := by
  simp [asBytes]

/-- A scalar below U+0080 is one byte. -/
theorem utf8EncodeChar_ascii
    {char : Char} (ascii : char.toNat < 0x80) :
    String.utf8EncodeChar char = [UInt8.ofNat char.toNat] := by
  unfold String.utf8EncodeChar
  have small : char.val.toNat ≤ 0x7f := Nat.le_of_lt_succ ascii
  simp only [small, if_true]
  rfl

/-- Any other scalar has no ASCII byte. -/
theorem utf8EncodeChar_high
    {char : Char} (wide : 0x80 ≤ char.toNat) :
    ∀ byte ∈ String.utf8EncodeChar char, 0x80 ≤ byte := by
  have large : ¬ char.val.toNat ≤ 0x7f := Nat.not_le.mpr wide
  have high : ∀ value : Nat, 0x80 ≤ value → value < 0x100 →
      (0x80 : UInt8) ≤ UInt8.ofNat value := by
    intro value low bound
    rw [UInt8.le_iff_toNat_le, UInt8.toNat_ofNat_of_lt' bound]
    exact low
  unfold String.utf8EncodeChar
  simp only [large, if_false]
  split_ifs <;> simp only [List.mem_cons, List.not_mem_nil, or_false,
    forall_eq_or_imp, forall_eq]
  · exact ⟨high _ (by omega) (by omega), high _ (by omega) (by omega)⟩
  · exact ⟨high _ (by omega) (by omega), high _ (by omega) (by omega),
      high _ (by omega) (by omega)⟩
  · exact ⟨high _ (by omega) (by omega), high _ (by omega) (by omega),
      high _ (by omega) (by omega), high _ (by omega) (by omega)⟩

/-- The byte of an ASCII scalar encodes no other scalar. -/
theorem not_mem_utf8EncodeChar
    {char other : Char} (differ : char ≠ other)
    (ascii : other.toNat < 0x80) :
    UInt8.ofNat other.toNat ∉ String.utf8EncodeChar char := by
  have bound : other.toNat < UInt8.size := ascii.trans (by decide)
  intro member
  by_cases small : char.toNat < 0x80
  · have charBound : char.toNat < UInt8.size := small.trans (by decide)
    rw [utf8EncodeChar_ascii small, List.mem_singleton,
      ← UInt8.toNat_inj, UInt8.toNat_ofNat_of_lt' bound,
      UInt8.toNat_ofNat_of_lt' charBound] at member
    exact differ (Char.toNat_inj.mp member.symm)
  · have high := utf8EncodeChar_high (not_lt.mp small) _ member
    rw [UInt8.le_iff_toNat_le, UInt8.toNat_ofNat_of_lt' bound] at high
    exact absurd ascii (not_lt.mpr high)

/-- `str::len`: the number of bytes. -/
def byteLen (text : Text) : Nat :=
  (asBytes text).length

/-- A continuation byte. -/
def isContinuation (byte : UInt8) : Bool :=
  0x80 ≤ byte && byte ≤ 0xBF

/-- The number of bytes announced by a lead byte; zero for no lead byte. -/
def leadWidth (lead : UInt8) : Nat :=
  if lead < 0x80 then 1
  else if 0xC2 ≤ lead && lead ≤ 0xDF then 2
  else if 0xE0 ≤ lead && lead ≤ 0xEF then 3
  else if 0xF0 ≤ lead && lead ≤ 0xF4 then 4
  else 0

/--
The second bytes a three or four byte lead admits.  The narrowed ranges
exclude overlong forms, surrogates and values past the last scalar.
-/
def secondByteOk (lead second : UInt8) : Bool :=
  if lead == 0xE0 then 0xA0 ≤ second && second ≤ 0xBF
  else if lead == 0xED then 0x80 ≤ second && second ≤ 0x9F
  else if lead == 0xF0 then 0x90 ≤ second && second ≤ 0xBF
  else if lead == 0xF4 then 0x80 ≤ second && second ≤ 0x8F
  else isContinuation second

/-- The six payload bits of a continuation byte. -/
def payload (byte : UInt8) : Nat :=
  byte.toNat % 64

/--
One step of the decoder at a lead byte: the scalar read, or `none` for a
maximal ill-formed prefix, and the number of further bytes it spans.
-/
def utf8Step (lead : UInt8) (rest : Bytes) : Option Char × Nat :=
  match leadWidth lead, rest with
  | 1, _ => (some (Char.ofNat lead.toNat), 0)
  | 2, second :: _ =>
      if isContinuation second then
        (some (Char.ofNat (lead.toNat % 32 * 64 + payload second)), 1)
      else (none, 0)
  | 3, second :: tail =>
      if secondByteOk lead second then
        match tail with
        | third :: _ =>
            if isContinuation third then
              (some (Char.ofNat
                (lead.toNat % 16 * 4096 + payload second * 64 +
                  payload third)), 2)
            else (none, 1)
        | [] => (none, 1)
      else (none, 0)
  | 4, second :: tail =>
      if secondByteOk lead second then
        match tail with
        | third :: tail =>
            if isContinuation third then
              match tail with
              | fourth :: _ =>
                  if isContinuation fourth then
                    (some (Char.ofNat
                      (lead.toNat % 8 * 262144 + payload second * 4096 +
                        payload third * 64 + payload fourth)), 3)
                  else (none, 2)
              | [] => (none, 2)
            else (none, 1)
        | [] => (none, 1)
      else (none, 0)
  | _, _ => (none, 0)

/-- Decode from a position, first passing over `skip` bytes already read. -/
def decodeUtf8 : Nat → Bytes → List (Option Char)
  | _, [] => []
  | skip + 1, _ :: rest => decodeUtf8 skip rest
  | 0, lead :: rest =>
      (utf8Step lead rest).1 :: decodeUtf8 (utf8Step lead rest).2 rest

/-- `str::from_utf8`. -/
def fromUtf8 (bytes : Bytes) : Option Text :=
  if (decodeUtf8 0 bytes).all Option.isSome then
    some (decodeUtf8 0 bytes).reduceOption
  else none

/-- `String::from_utf8_lossy`: one replacement per maximal ill-formed prefix. -/
def fromUtf8Lossy (bytes : Bytes) : Text :=
  (decodeUtf8 0 bytes).map (·.getD '\uFFFD')

/-- The bytes a decoder step passes over are never ASCII. -/
theorem utf8Step_span
    (lead : UInt8) (rest : Bytes) :
    ∀ byte ∈ rest.take (utf8Step lead rest).2, 0x80 ≤ byte := by
  have second : ∀ byte, secondByteOk lead byte = true → 0x80 ≤ byte := by
    intro byte ok
    unfold secondByteOk isContinuation at ok
    split_ifs at ok <;> simp only [Bool.and_eq_true, decide_eq_true_eq] at ok
    · exact UInt8.le_trans (show (0x80 : UInt8) ≤ 0xA0 by decide) ok.1
    · exact ok.1
    · exact UInt8.le_trans (show (0x80 : UInt8) ≤ 0x90 by decide) ok.1
    · exact ok.1
    · exact ok.1
  have continuation :
      ∀ byte, isContinuation byte = true → 0x80 ≤ byte := by
    intro byte ok
    simp only [isContinuation, Bool.and_eq_true, decide_eq_true_eq] at ok
    exact ok.1
  unfold utf8Step
  split <;> (try split_ifs) <;> (try split) <;> (try split_ifs) <;>
    (try split) <;> (try split_ifs)
  all_goals simp_all

/-- A zero byte of well-formed text is the NUL character. -/
theorem nul_mem_of_decodeUtf8
    (bytes : Bytes) (skip : Nat)
    (skipped : ∀ byte ∈ bytes.take skip, 0x80 ≤ byte)
    (zero : 0 ∈ bytes) :
    some '\x00' ∈ decodeUtf8 skip bytes := by
  induction bytes generalizing skip with
  | nil => simp at zero
  | cons head tail induction =>
      cases skip with
      | zero =>
          rcases List.mem_cons.mp zero with headZero | tailZero
          · subst headZero
            exact List.mem_cons.mpr (Or.inl (by
              simp [utf8Step, leadWidth]))
          · exact List.mem_cons_of_mem _
              (induction _ (utf8Step_span head tail) tailZero)
      | succ skip =>
          have headHigh : 0x80 ≤ head := skipped head (by simp)
          have tailZero : 0 ∈ tail := by
            rcases List.mem_cons.mp zero with headZero | tailZero
            · subst headZero
              exact absurd headHigh (by decide)
            · exact tailZero
          refine induction skip ?_ tailZero
          intro byte member
          exact skipped byte (by simp [member])

/-- Well-formed text with a zero byte contains NUL. -/
theorem nul_mem_of_fromUtf8
    {bytes : Bytes} {text : Text}
    (decoded : fromUtf8 bytes = some text)
    (zero : 0 ∈ bytes) :
    '\x00' ∈ text := by
  unfold fromUtf8 at decoded
  split_ifs at decoded
  have member := nul_mem_of_decodeUtf8 bytes 0 (by simp) zero
  rw [← Option.some.inj decoded]
  exact List.reduceOption_mem_iff.mpr member

/-! ## Whitespace, searching and splitting -/

/-- `char::is_whitespace`: the Unicode `White_Space` property. -/
def isWhitespace (char : Char) : Bool :=
  let scalar := char.toNat
  (9 ≤ scalar && scalar ≤ 13) || scalar == 0x20 || scalar == 0x85 ||
    scalar == 0xA0 || scalar == 0x1680 ||
    (0x2000 ≤ scalar && scalar ≤ 0x200A) || scalar == 0x2028 ||
    scalar == 0x2029 || scalar == 0x202F || scalar == 0x205F ||
    scalar == 0x3000

/-- `str::trim_start`. -/
def trimStart (text : Text) : Text :=
  text.dropWhile isWhitespace

/-- `str::trim`. -/
def trim (text : Text) : Text :=
  (trimStart text).rdropWhile isWhitespace

/-- `str::trim_matches` for one character. -/
def trimMatches (char : Char) (text : Text) : Text :=
  (text.dropWhile (· == char)).rdropWhile (· == char)

/-- `str::trim_end_matches` for one character. -/
def trimEndMatches (char : Char) (text : Text) : Text :=
  text.rdropWhile (· == char)

/--
The parts before and after the first occurrence of `needle`: what `find`
followed by slicing around the match yields.
-/
def findSplit {α : Type} [BEq α] (needle : List α) :
    List α → Option (List α × List α)
  | [] => if needle.isEmpty then some ([], []) else none
  | head :: tail =>
      if needle.isPrefixOf (head :: tail) then
        some ([], (head :: tail).drop needle.length)
      else
        (findSplit needle tail).map fun (before, after) =>
          (head :: before, after)

/-- `str::strip_prefix`. -/
def stripPrefix (lead text : Text) : Option Text :=
  if lead.isPrefixOf text then some (text.drop lead.length) else none

/-- `str::strip_suffix`. -/
def stripSuffix (tail text : Text) : Option Text :=
  if tail.isSuffixOf text then
    some (text.take (text.length - tail.length))
  else none

theorem stripPrefix_append (lead text : Text) :
    stripPrefix lead (lead ++ text) = some text := by
  simp [stripPrefix]

theorem stripSuffix_append (text tail : Text) :
    stripSuffix tail (text ++ tail) = some text := by
  simp [stripSuffix]

/-- Trimming the start removes whitespace only. -/
theorem mem_trimStart
    {text : Text} {char : Char}
    (member : char ∈ text)
    (visible : isWhitespace char = false) :
    char ∈ trimStart text := by
  unfold trimStart
  induction text with
  | nil => simp at member
  | cons head tail induction =>
      rw [List.dropWhile_cons]
      split_ifs with blank
      · rcases List.mem_cons.mp member with rfl | tailMember
        · simp [visible] at blank
        · exact induction tailMember
      · exact member

/-! ## Numbers -/

/-- `char::to_digit`. -/
def toDigit (radix : Nat) (char : Char) : Option Nat :=
  let value :=
    if '0' ≤ char ∧ char ≤ '9' then char.toNat - '0'.toNat
    else if 'a' ≤ char ∧ char ≤ 'z' then char.toNat - 'a'.toNat + 10
    else if 'A' ≤ char ∧ char ≤ 'Z' then char.toNat - 'A'.toNat + 10
    else radix
  if value < radix then some value else none

/-- The digits of an unsigned integer below `bound`. -/
def parseDigits (radix bound : Nat) (digits : Text) : Option Nat :=
  digits.foldlM (fun value char => do
    let digit ← toDigit radix char
    if value * radix + digit < bound then
      some (value * radix + digit)
    else none) 0

/-- `from_str_radix` of an unsigned type with `bound` values. -/
def fromStrRadix (radix bound : Nat) (text : Text) : Option Nat :=
  match text with
  | [] => none
  | ['+'] => none
  | '+' :: digits => parseDigits radix bound digits
  | digits => parseDigits radix bound digits

/-! ## Case and character classes -/

/--
The character tables of one Unicode version, consulted beyond ASCII only.

`nfkc` is the compatibility normalization of a whole text.
-/
structure UnicodeTables where
  lowercase : Char → Text
  alphanumeric : Char → Bool
  cased : Char → Bool
  caseIgnorable : Char → Bool
  nfkc : Text → Text

/-- A scalar below U+0080. -/
def isAscii (char : Char) : Bool :=
  char.toNat < 0x80

/-- `char::is_ascii_digit`. -/
def isAsciiDigit (char : Char) : Bool :=
  '0' ≤ char && char ≤ '9'

/-- `str::eq_ignore_ascii_case`. -/
def eqIgnoreAsciiCase (left right : Text) : Bool :=
  left.map Char.toLower == right.map Char.toLower

/-- `str::to_ascii_lowercase`. -/
def toAsciiLowercase (text : Text) : Text :=
  text.map Char.toLower

namespace UnicodeTables

/-- Tables that leave every scalar beyond ASCII alone. -/
def asciiOnly : UnicodeTables where
  lowercase := fun char => [char]
  alphanumeric := fun _ => false
  cased := fun _ => false
  caseIgnorable := fun _ => false
  nfkc := id

variable (unicode : UnicodeTables)

/-- `char::is_alphanumeric`. -/
def isAlphanumeric (char : Char) : Bool :=
  if isAscii char then char.isAlphanum else unicode.alphanumeric char

/-- The first character that is not case-ignorable exists and is cased. -/
def caseIgnorableThenCased (text : Text) : Bool :=
  match text.dropWhile unicode.caseIgnorable with
  | char :: _ => unicode.cased char
  | [] => false

/-- Lowercase of a capital sigma, final or not by its surroundings. -/
def mapUppercaseSigma (before after : Text) : Char :=
  if unicode.caseIgnorableThenCased before &&
      !unicode.caseIgnorableThenCased after then 'ς'
  else 'σ'

/-- Lowercase the characters after `before`, which is held in reverse. -/
def lowercaseFrom : (before : Text) → Text → Text
  | _, [] => []
  | before, char :: rest =>
      (if isAscii char then [char.toLower]
       else if char == 'Σ' then [unicode.mapUppercaseSigma before rest]
       else unicode.lowercase char) ++
        lowercaseFrom (char :: before) rest

/-- `str::to_lowercase`. -/
def toLowercase (text : Text) : Text :=
  unicode.lowercaseFrom [] text

/-- An ASCII prefix is lowered character by character. -/
theorem toLowercase_ascii_append
    (lead rest : Text) (before : Text)
    (ascii : ∀ char ∈ lead, isAscii char = true) :
    unicode.lowercaseFrom before (lead ++ rest) =
      lead.map Char.toLower ++
        unicode.lowercaseFrom (lead.reverse ++ before) rest := by
  induction lead generalizing before with
  | nil => rfl
  | cons head tail induction =>
      have headAscii : isAscii head = true := ascii head (by simp)
      have tailAscii : ∀ char ∈ tail, isAscii char = true :=
        fun char member => ascii char (by simp [member])
      simp [lowercaseFrom, headAscii, induction _ tailAscii]

end UnicodeTables

end LightWaf.Rust
