import LightWaf.Theory.Scan
import LightWaf.Crs.Evaluate

/-!
# Numeric character references

`html_entity_decode` promises that its numeric coverage is complete.  A
terminated reference is replaced by its character, and the texts around it
are decoded on their own, exactly when its numeral has at most eight digits:
`decode_entity` reads no further, so leading zeros push the numeral out of
its window.
-/

namespace LightWaf.Crs

open LightWaf.Rust
open LightWaf.Normalizer
open LightWaf.Theory.Scan

/-! ## Numerals -/

/-- The number a numeral writes, its most significant digit first. -/
def numeralValue (radix : Nat) (digits : Text) : Option Nat :=
  (digits.mapM (toDigit radix)).map fun numbers =>
    Nat.ofDigits radix numbers.reverse

theorem toDigit_lt
    {radix number : Nat} {char : Char}
    (digit : toDigit radix char = some number) :
    number < radix := by
  simp only [toDigit, Option.ite_none_right_eq_some] at digit
  exact Option.some.inj digit.2 ▸ digit.1

theorem toDigit_plus (radix : Nat) : toDigit radix '+' = none := by
  simp [toDigit]

theorem isSome_toDigit_of_numeral
    {radix value : Nat} {digits : Text}
    (numeral : numeralValue radix digits = some value) :
    ∀ char ∈ digits, (toDigit radix char).isSome := by
  rw [numeralValue, Option.map_eq_some_iff] at numeral
  obtain ⟨numbers, mapped, -⟩ := numeral
  induction digits generalizing numbers with
  | nil => simp
  | cons head tail induction =>
      rw [List.mapM_cons] at mapped
      cases first : toDigit radix head with
      | none => simp [first] at mapped
      | some number =>
          cases others : tail.mapM (toDigit radix) with
          | none => simp [first, others] at mapped
          | some rest =>
              simpa [first] using induction rest others

/-- The accumulating loop of `from_str_radix` on a number in range. -/
theorem parseDigits_from
    {radix bound : Nat} {digits : Text} {numbers : List Nat} {start : Nat}
    (mapped : digits.mapM (toDigit radix) = some numbers)
    (small : start * radix ^ numbers.length +
      Nat.ofDigits radix numbers.reverse < bound) :
    digits.foldlM (fun value char => do
      let digit ← toDigit radix char
      if value * radix + digit < bound then
        some (value * radix + digit)
      else none) start =
      some (start * radix ^ numbers.length +
        Nat.ofDigits radix numbers.reverse) := by
  induction digits generalizing numbers start with
  | nil =>
      obtain rfl : [] = numbers := Option.some.inj mapped
      simp
  | cons head tail induction =>
      rw [List.mapM_cons] at mapped
      cases first : toDigit radix head with
      | none => simp [first] at mapped
      | some number =>
          cases others : tail.mapM (toDigit radix) with
          | none => simp [first, others] at mapped
          | some rest =>
              obtain rfl : number :: rest = numbers := by
                simpa [first, others] using mapped
              have positive : 0 < radix ^ rest.length :=
                Nat.pow_pos (Nat.zero_lt_of_lt (toDigit_lt first))
              have total :
                  start * radix ^ (number :: rest).length +
                    Nat.ofDigits radix (number :: rest).reverse =
                  (start * radix + number) * radix ^ rest.length +
                    Nat.ofDigits radix rest.reverse := by
                rw [List.reverse_cons, Nat.ofDigits_append,
                  Nat.ofDigits_singleton, List.length_cons,
                  List.length_reverse]
                ring
              rw [total] at small ⊢
              have fits : start * radix + number < bound :=
                calc start * radix + number
                    ≤ (start * radix + number) * radix ^ rest.length :=
                      Nat.le_mul_of_pos_right _ positive
                  _ < bound := Nat.lt_of_le_of_lt (Nat.le_add_right _ _) small
              rw [List.foldlM_cons]
              simp only [first, Option.bind_eq_bind, Option.bind_some,
                if_pos fits]
              exact induction others small

/-- `from_str_radix` reads back every numeral of a number in range. -/
theorem fromStrRadix_numeral
    {radix bound value : Nat} {digits : Text}
    (nonempty : digits ≠ [])
    (numeral : numeralValue radix digits = some value)
    (small : value < bound) :
    fromStrRadix radix bound digits = some value := by
  have unsigned : '+' ∉ digits := by
    intro member
    have digit := isSome_toDigit_of_numeral numeral '+' member
    rw [toDigit_plus] at digit
    exact nomatch digit
  have parsed : parseDigits radix bound digits = some value := by
    rw [numeralValue, Option.map_eq_some_iff] at numeral
    obtain ⟨numbers, mapped, rfl⟩ := numeral
    rw [parseDigits, parseDigits_from mapped (by simpa using small)]
    simp
  rw [fromStrRadix.eq_def]
  split
  · exact absurd rfl nonempty
  · exact absurd List.mem_cons_self unsigned
  · exact absurd List.mem_cons_self unsigned
  · exact parsed

theorem charFromU32_toNat (char : Char) :
    charFromU32 char.toNat = some char := by
  rw [charFromU32, if_pos, Char.ofNat_toNat]
  exact char.valid

/-! ## One entity -/

/-- A window over a text that meets a character outside the class in time. -/
theorem takeWhile_take_append
    (kind : Char → Bool) {stop : Char} (outside : kind stop = false)
    (window : Nat) (text rest : Text) :
    ((text ++ stop :: rest).take window).takeWhile kind =
      (text.take window).takeWhile kind := by
  induction text generalizing window with
  | nil => cases window <;> simp [outside]
  | cons head tail induction =>
      cases window with
      | zero => rfl
      | succ window =>
          simp only [List.cons_append, List.take_succ_cons,
            List.takeWhile_cons, induction window]

theorem entityEnd_append
    {text : Text} {stop : Char} (other : stop ≠ ';') (rest : Text) :
    entityEnd (text ++ stop :: rest) = entityEnd text := by
  cases text <;> simp [entityEnd, other]

theorem length_takeWhile_take_le
    (kind : Char → Bool) (window : Nat) (text : Text) :
    ((text.take window).takeWhile kind).length ≤ text.length := by
  calc ((text.take window).takeWhile kind).length
      ≤ (text.take window).length := (List.takeWhile_sublist _).length_le
    _ ≤ text.length := List.length_take_le' _ _

theorem entityEnd_le (text : Text) : entityEnd text ≤ text.length := by
  cases text with
  | nil => simp [entityEnd]
  | cons head tail =>
      rw [entityEnd]
      split <;> simp

/-- A numeric entity ends before the next ampersand. -/
theorem numericEntity_append (radix : Nat) (text rest : Text) :
    numericEntity radix (text ++ '&' :: rest) = numericEntity radix text := by
  have outside : (toDigit radix '&').isSome = false := by simp [toDigit]
  rw [numericEntity, numericEntity, takeWhile_take_append _ outside,
    List.drop_append_of_le_length (length_takeWhile_take_le _ _ _),
    entityEnd_append (by decide)]

theorem numericEntity_span
    {radix : Nat} {text : Text} {char : Char} {span : Nat}
    (decoded : numericEntity radix text = some (char, span)) :
    span ≤ text.length := by
  rw [numericEntity] at decoded
  split at decoded
  · exact nomatch decoded
  · simp only [Option.bind_eq_bind, Option.bind_eq_some_iff,
      Option.some.injEq, Prod.mk.injEq] at decoded
    obtain ⟨_, _, _, _, _, rfl⟩ := decoded
    refine Nat.add_le_of_le_sub' (length_takeWhile_take_le _ _ _) ?_
    exact (entityEnd_le _).trans (List.length_drop ..).le

/-- The named part of `decode_entity`. -/
def namedReference (rest : Text) : Option (Char × Nat) := do
  let name := (rest.take 10).takeWhile Char.isAlpha
  let char ← namedEntity.lookup name
  some (char, name.length + entityEnd (rest.drop name.length))

theorem namedReference_append (text rest : Text) :
    namedReference (text ++ '&' :: rest) = namedReference text := by
  rw [namedReference, namedReference, takeWhile_take_append _ (by decide),
    List.drop_append_of_le_length (length_takeWhile_take_le _ _ _),
    entityEnd_append (by decide)]

theorem namedReference_span
    {text : Text} {char : Char} {span : Nat}
    (decoded : namedReference text = some (char, span)) :
    span ≤ text.length := by
  simp only [namedReference, Option.bind_eq_bind, Option.bind_eq_some_iff,
    Option.some.injEq, Prod.mk.injEq] at decoded
  obtain ⟨_, _, _, rfl⟩ := decoded
  refine Nat.add_le_of_le_sub' (length_takeWhile_take_le _ _ _) ?_
  exact (entityEnd_le _).trans (List.length_drop ..).le

/--
The guard on the length of `decode_entity` changes nothing: no entity is
shorter.
-/
theorem decodeEntity_eq (rest : Text) :
    decodeEntity rest =
      match rest with
      | '#' :: 'x' :: digits =>
          (numericEntity 16 digits).map fun (char, span) => (char, span + 2)
      | '#' :: 'X' :: digits =>
          (numericEntity 16 digits).map fun (char, span) => (char, span + 2)
      | '#' :: digits =>
          (numericEntity 10 digits).map fun (char, span) => (char, span + 1)
      | _ => namedReference rest := by
  rw [decodeEntity.eq_def]
  split
  · rename_i short
    match rest with
    | [] => rfl
    | [char] =>
        by_cases hash : char = '#'
        · subst hash
          rfl
        · have unnamed : namedReference [char] = none := by
            cases alpha : char.isAlpha <;>
              simp [namedReference, namedEntity, alpha, List.lookup_cons]
          simp [hash, unnamed]
    | first :: second :: rest =>
        have positive := first.utf8Size_pos
        have more := second.utf8Size_pos
        simp [byteLen] at short
        omega
  · rfl

theorem decodeEntity_named
    {rest : Text} (other : rest.head? ≠ some '#') :
    decodeEntity rest = namedReference rest := by
  rw [decodeEntity_eq]
  split <;> simp_all

theorem decodeEntity_decimal
    {digits : Text} (lower : digits.head? ≠ some 'x')
    (upper : digits.head? ≠ some 'X') :
    decodeEntity ('#' :: digits) =
      (numericEntity 10 digits).map fun (char, span) => (char, span + 1) := by
  rw [decodeEntity_eq]
  split <;> simp_all

/-- An entity ends before the next ampersand. -/
theorem decodeEntity_append (text rest : Text) :
    decodeEntity (text ++ '&' :: rest) = decodeEntity text := by
  cases text with
  | nil =>
      rw [decodeEntity_named (by simp), decodeEntity_named (by simp),
        namedReference_append]
  | cons first text =>
      by_cases hash : first = '#'
      · subst hash
        by_cases lower : text.head? = some 'x'
        · obtain ⟨digits, rfl⟩ := List.head?_eq_some_iff.mp lower
          simp only [List.cons_append, decodeEntity_eq, numericEntity_append]
        · by_cases upper : text.head? = some 'X'
          · obtain ⟨digits, rfl⟩ := List.head?_eq_some_iff.mp upper
            simp only [List.cons_append, decodeEntity_eq,
              numericEntity_append]
          · rw [decodeEntity_decimal lower upper, List.cons_append,
              decodeEntity_decimal (by cases text <;> simp_all)
                (by cases text <;> simp_all), numericEntity_append]
      · rw [decodeEntity_named (by simpa using hash),
          decodeEntity_named (by simpa using hash), namedReference_append]

/-- An entity lies within the text. -/
theorem decodeEntity_span
    {rest : Text} {char : Char} {span : Nat}
    (decoded : decodeEntity rest = some (char, span)) :
    span ≤ rest.length := by
  rw [decodeEntity_eq] at decoded
  split at decoded
  case h_4 => exact namedReference_span decoded
  all_goals
    simp only [Option.map_eq_some_iff, Prod.mk.injEq, Prod.exists] at decoded
    obtain ⟨_, _, numeric, _, rfl⟩ := decoded
    simpa using numericEntity_span numeric

/-! ## The whole text -/

/-- One turn of `html_entity_decode`. -/
def entityStep (char : Char) (rest : Text) : Text × Nat :=
  match if char = '&' then decodeEntity rest else none with
  | some (decoded, span) => ([decoded], span)
  | none => ([char], 0)

theorem htmlEntityDecode_eq_rewrite (skip : Nat) (text : Text) :
    htmlEntityDecode skip text = rewrite entityStep skip text := by
  fun_induction htmlEntityDecode skip text with
  | case1 => rw [rewrite]
  | case2 skip head rest induction => rw [rewrite, induction]
  | case3 char rest decoded span found induction =>
      rw [rewrite, induction, entityStep, found]
      rfl
  | case4 char rest found induction =>
      rw [rewrite, induction, entityStep, found]
      rfl

theorem entityStep_plain
    {char : Char} (plain : char ≠ '&') (rest : Text) :
    entityStep char rest = ([char], 0) := by
  simp [entityStep, plain]

/-- What stands before an ampersand is decoded on its own. -/
theorem htmlEntityDecode_before (text rest : Text) :
    htmlEntityDecode 0 (text ++ '&' :: rest) =
      htmlEntityDecode 0 text ++ htmlEntityDecode 0 ('&' :: rest) := by
  simp only [htmlEntityDecode_eq_rewrite]
  apply rewrite_append
  · intro head _ after
    rw [entityStep, decodeEntity_append, entityStep]
  · intro head _ after
    rw [entityStep]
    split
    · rename_i decoded span found
      exact decodeEntity_span (Option.ite_none_right_eq_some.mp found).2
    · exact Nat.zero_le _
  · exact Nat.zero_le _

/-- Text without an ampersand is kept. -/
theorem htmlEntityDecode_plain
    {text : Text} (plain : '&' ∉ text) (rest : Text) :
    htmlEntityDecode 0 (text ++ rest) = text ++ htmlEntityDecode 0 rest := by
  simp only [htmlEntityDecode_eq_rewrite]
  exact rewrite_append_kept rest fun item member =>
    entityStep_plain fun same => plain (same ▸ member)

/-! ## Terminated references -/

/-- How a numeric reference announces its radix. -/
inductive RadixMark where
  | decimal
  | hex
  | upperHex
  deriving DecidableEq, Repr

namespace RadixMark

/-- The radix of the numeral. -/
def radix : RadixMark → Nat
  | decimal => 10
  | hex => 16
  | upperHex => 16

/-- What stands between the hash and the numeral. -/
def text : RadixMark → Text
  | decimal => []
  | hex => ['x']
  | upperHex => ['X']

end RadixMark

/-- The terminated numeric character reference with a numeral. -/
def reference (mark : RadixMark) (digits : Text) : Text :=
  '&' :: '#' :: mark.text ++ digits ++ [';']

variable {mark : RadixMark} {digits : Text} {char : Char}

/-- The marker selects the radix. -/
theorem decodeEntity_reference
    (first : ∀ head ∈ digits.head?, (toDigit mark.radix head).isSome) :
    decodeEntity ('#' :: mark.text ++ digits) =
      (numericEntity mark.radix digits).map fun (char, span) =>
        (char, span + (mark.text.length + 1)) := by
  cases mark with
  | decimal =>
      exact decodeEntity_decimal (fun lower => nomatch first 'x' lower)
        (fun upper => nomatch first 'X' upper)
  | hex =>
      rw [decodeEntity_eq]
      rfl
  | upperHex =>
      rw [decodeEntity_eq]
      rfl

/-- A numeral that fits the window is decoded with its semicolon. -/
theorem numericEntity_of_length_le
    {radix : Nat} (nonempty : digits ≠ [])
    (numeral : numeralValue radix digits = some char.toNat)
    (fits : digits.length ≤ 8) (after : Text) :
    numericEntity radix (digits ++ ';' :: after) =
      some (char, digits.length + 1) := by
  have outside : (toDigit radix ';').isSome = false := by simp [toDigit]
  have run : ((digits ++ ';' :: after).take 8).takeWhile
      (fun char => (toDigit radix char).isSome) = digits := by
    rw [takeWhile_take_append _ outside, List.take_of_length_le fits]
    exact List.takeWhile_eq_self_iff.mpr (isSome_toDigit_of_numeral numeral)
  have bounded : char.toNat < 2 ^ 32 := char.val.toNat_lt
  rw [numericEntity, run, if_neg nonempty,
    fromStrRadix_numeral nonempty numeral bounded]
  simp [charFromU32_toNat, entityEnd]

/-- A longer numeral is cut after eight digits. -/
theorem numericEntity_of_length_gt
    {radix : Nat} {value : Nat}
    (numeral : numeralValue radix digits = some value)
    (long : 8 < digits.length) (after : Text) :
    numericEntity radix (digits ++ after) = none ∨
      ∃ other, numericEntity radix (digits ++ after) = some (other, 8) := by
  have digit := isSome_toDigit_of_numeral numeral
  have run : ((digits ++ after).take 8).takeWhile
      (fun char => (toDigit radix char).isSome) = digits.take 8 := by
    rw [List.take_append_of_le_length long.le]
    exact List.takeWhile_eq_self_iff.mpr fun char member =>
      digit char (List.mem_of_mem_take member)
  have width : (digits.take 8).length = 8 := by simp [long.le]
  have unended : entityEnd ((digits ++ after).drop 8) = 0 := by
    rw [List.drop_append_of_le_length long.le]
    cases left : digits.drop 8 with
    | nil => exact absurd (List.drop_eq_nil_iff.mp left) long.not_ge
    | cons head tail =>
        have member : head ∈ digits :=
          List.mem_of_mem_drop (left ▸ List.mem_cons_self)
        have different : head ≠ ';' := by
          rintro rfl
          simpa [toDigit] using digit ';' member
        simp [entityEnd, different]
  cases decoded : numericEntity radix (digits ++ after) with
  | none => exact .inl rfl
  | some entity =>
      rw [numericEntity, run] at decoded
      split at decoded
      · exact nomatch decoded
      · simp only [width, unended, Option.bind_eq_bind,
          Option.bind_eq_some_iff] at decoded
        obtain ⟨_, _, other, _, same⟩ := decoded
        exact .inr ⟨other, same.symm⟩

theorem ampersand_not_mem_numeral
    {radix value : Nat} (numeral : numeralValue radix digits = some value) :
    '&' ∉ digits := by
  intro member
  simpa [toDigit] using isSome_toDigit_of_numeral numeral '&' member

theorem htmlEntityDecode_ampersand (rest : Text) :
    htmlEntityDecode 0 ('&' :: rest) =
      match decodeEntity rest with
      | some (decoded, span) =>
          decoded :: htmlEntityDecode 0 (rest.drop span)
      | none => '&' :: htmlEntityDecode 0 rest := by
  rw [htmlEntityDecode, if_pos rfl]
  cases decodeEntity rest with
  | none => rfl
  | some entity =>
      simp only [htmlEntityDecode_eq_rewrite, rewrite_skip _ entity.2]

theorem decodeEntity_numeral
    {value : Nat} (nonempty : digits ≠ [])
    (numeral : numeralValue mark.radix digits = some value) (rest : Text) :
    decodeEntity ('#' :: mark.text ++ (digits ++ rest)) =
      (numericEntity mark.radix (digits ++ rest)).map fun (char, span) =>
        (char, span + (mark.text.length + 1)) := by
  apply decodeEntity_reference
  intro head found
  rw [List.head?_append_of_ne_nil _ nonempty] at found
  exact isSome_toDigit_of_numeral numeral head (List.mem_of_mem_head? found)

theorem drop_mark (mark : RadixMark) (span : Nat) (rest : Text) :
    ('#' :: mark.text ++ rest).drop (span + (mark.text.length + 1)) =
      rest.drop span := by
  rw [Nat.add_comm, ← List.drop_drop]
  congr 1
  exact List.drop_left

/-- A reference whose numeral fits the window becomes its character. -/
theorem htmlEntityDecode_short
    (nonempty : digits ≠ [])
    (numeral : numeralValue mark.radix digits = some char.toNat)
    (fits : digits.length ≤ 8) (after : Text) :
    htmlEntityDecode 0 ('&' :: ('#' :: mark.text ++ (digits ++ ';' :: after))) =
      char :: htmlEntityDecode 0 after := by
  rw [htmlEntityDecode_ampersand, decodeEntity_numeral nonempty numeral,
    numericEntity_of_length_le nonempty numeral fits]
  simp only [Option.map_some, drop_mark]
  congr 2
  rw [← List.drop_drop, List.drop_left]
  rfl

/-- A longer reference leaves at least two characters of itself. -/
theorem htmlEntityDecode_long
    {value : Nat} (numeral : numeralValue mark.radix digits = some value)
    (long : 8 < digits.length) (after : Text) :
    ∃ front, 2 ≤ front.length ∧
      htmlEntityDecode 0
          ('&' :: ('#' :: mark.text ++ (digits ++ ';' :: after))) =
        front ++ htmlEntityDecode 0 after := by
  have nonempty : digits ≠ [] := List.ne_nil_of_length_pos (by omega)
  have plain := ampersand_not_mem_numeral numeral
  have after_plain {text : Text} (plain : '&' ∉ text) :
      htmlEntityDecode 0 (text ++ ';' :: after) =
        text ++ ';' :: htmlEntityDecode 0 after := by
    rw [htmlEntityDecode_plain plain]
    rfl
  rw [htmlEntityDecode_ampersand, decodeEntity_numeral nonempty numeral]
  rcases numericEntity_of_length_gt numeral long (';' :: after) with
    missing | ⟨other, cut⟩
  · refine ⟨'&' :: '#' :: mark.text ++ digits ++ [';'], by simp, ?_⟩
    have unmarked : '&' ∉ '#' :: mark.text ++ digits := by
      cases mark <;> simpa [RadixMark.text] using plain
    rw [missing, ← List.append_assoc]
    simpa using after_plain unmarked
  · refine ⟨other :: digits.drop 8 ++ [';'], by simp, ?_⟩
    rw [cut]
    simp only [Option.map_some, drop_mark,
      List.drop_append_of_le_length long.le]
    simpa using after_plain fun member => plain (List.mem_of_mem_drop member)

/--
A terminated reference to a character, in any context, is replaced by exactly
that character, with the texts around it decoded on their own, if and only if
its numeral has at most eight digits.
-/
theorem reference_decoded_iff
    (mark : RadixMark) (char : Char) (digits before after : Text)
    (nonempty : digits ≠ [])
    (numeral : numeralValue mark.radix digits = some char.toNat) :
    htmlEntityDecode 0 (before ++ reference mark digits ++ after) =
        htmlEntityDecode 0 before ++ char :: htmlEntityDecode 0 after ↔
      digits.length ≤ 8 := by
  have shape : before ++ reference mark digits ++ after =
      before ++ '&' :: ('#' :: mark.text ++ (digits ++ ';' :: after)) := by
    simp [reference]
  rw [shape, htmlEntityDecode_before, List.append_cancel_left_eq]
  constructor
  · intro replaced
    by_contra! long
    obtain ⟨front, two, kept⟩ := htmlEntityDecode_long numeral long after
    have lengths := congrArg List.length (kept.symm.trans replaced)
    simp only [List.length_append, List.length_cons] at lengths
    omega
  · intro fits
    exact htmlEntityDecode_short nonempty numeral fits after

/-- An upper-case hexadecimal reference between two other entities. -/
theorem reference_decoded_bracket :
    htmlEntityDecode 0 ("a&lt".toList ++ reference .upperHex "3C".toList ++
        "&gt;b".toList) = "a<<>b".toList := by
  have decoded := (reference_decoded_iff .upperHex '<' "3C".toList
    "a&lt".toList "&gt;b".toList (by decide) (by decide)).mpr (by decide)
  exact decoded.trans (by decide)

/-- Nine digits: the bracket stays hidden from the rules. -/
theorem reference_with_zeros_kept :
    numeralValue RadixMark.decimal.radix "000000060".toList =
        some '<'.toNat ∧
      htmlEntityDecode 0 ([] ++ reference .decimal "000000060".toList ++ []) =
        ['\x06', '0', ';'] ∧
      htmlEntityDecode 0 ([] ++ reference .decimal "000000060".toList ++ []) ≠
        htmlEntityDecode 0 [] ++ '<' :: htmlEntityDecode 0 [] := by
  decide

end LightWaf.Crs
