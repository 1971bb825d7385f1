import LightWaf.Crs.ByteCursor
import LightWaf.Rust.Search
import LightWaf.Theory.Splicing

/-!
# What evasion entity decoding puts into a text

`html_entity_decode_evasion` of `waf-normalizer/src/url.rs` replaces character
references, except those of the five characters that make up markup.  Here a
reference is said to be well formed without the parser: a name of the table,
or a number sign and a numeral of a scalar value.  The decoder replaces such
references and nothing else, finds one whenever there is one, and therefore
neither adds nor removes a character of markup.
-/

namespace LightWaf.Detection.EntityEvasion

open LightWaf.Rust
open LightWaf.Normalizer
open LightWaf.Crs (numeralValue toDigit_plus isSome_toDigit_of_numeral
  fromStrRadix_numeral)
open LightWaf.Crs.ByteCursor (mem_of_fromStrRadix)
open LightWaf.Theory.Scan
open LightWaf.Theory.Splicing

/-! ## References -/

/-- A character that delimits markup. -/
def isMarkup (char : Char) : Bool :=
  char == '<' || char == '>' || char == '\x22' || char == '\x27'

/-- A 32-bit number written in digits, perhaps after a plus sign. -/
def Numeral (radix : Nat) (text : Text) (value : Nat) : Prop :=
  ∃ digits, (text = digits ∨ text = '+' :: digits) ∧ digits ≠ [] ∧
    numeralValue radix digits = some value ∧ value < 2 ^ 32

/-- The body of a well-formed reference, and the character it stands for. -/
inductive Stands : Text → Char → Prop
  | named {name : Text} {char : Char} (listed : (name, char) ∈ entityNamed) :
      Stands name char
  | decimal {digits : Text} {value : Nat} (numeral : Numeral 10 digits value)
      (valid : value.isValidChar) :
      Stands ('#' :: digits) (Char.ofNat value)
  | hex {mark : Char} {digits : Text} {value : Nat}
      (marked : mark = 'x' ∨ mark = 'X') (numeral : Numeral 16 digits value)
      (valid : value.isValidChar) :
      Stands ('#' :: mark :: digits) (Char.ofNat value)

/-- A body of at most 31 bytes that stands for a character to be decoded. -/
structure Decodable (body : Text) (char : Char) : Prop where
  stands : Stands body char
  short : byteLen body ≤ 31
  plain : isMarkup char = false
  notAmp : char ≠ '&'

/-- A decodable reference, replaced by its character. -/
def Refers (_before dropped put _after : Text) : Prop :=
  ∃ body char, dropped = '&' :: (body ++ [';']) ∧ put = [char] ∧
    Decodable body char

/-- A text holds a decodable reference. -/
def HasReference (text : Text) : Prop :=
  ∃ before body after char, text = before ++ '&' :: (body ++ ';' :: after) ∧
    Decodable body char

/-! ## Numerals -/

/-- What the accumulating loop of `from_str_radix` has read. -/
theorem mapM_of_parsed
    {radix bound start value : Nat} {digits : Text}
    (parsed : digits.foldlM (fun value char => do
      let digit ← toDigit radix char
      if value * radix + digit < bound then
        some (value * radix + digit)
      else none) start = some value)
    (small : start < bound) :
    value < bound ∧ ∃ numbers, digits.mapM (toDigit radix) = some numbers ∧
      value = start * radix ^ numbers.length +
        Nat.ofDigits radix numbers.reverse := by
  induction digits generalizing start with
  | nil =>
      cases parsed
      refine ⟨small, [], rfl, ?_⟩
      simp
  | cons head tail induction =>
      rw [List.foldlM_cons] at parsed
      obtain ⟨next, here, later⟩ := Option.bind_eq_some_iff.mp parsed
      obtain ⟨digit, read, fits⟩ := Option.bind_eq_some_iff.mp here
      split_ifs at fits with bounded
      cases fits
      obtain ⟨below, numbers, mapped, total⟩ := induction later bounded
      refine ⟨below, digit :: numbers, ?_, ?_⟩
      · simp [List.mapM_cons, read, mapped]
      · rw [total, List.reverse_cons, Nat.ofDigits_append,
          Nat.ofDigits_singleton, List.length_cons, List.length_reverse]
        ring

/-- `from_str_radix` of a 32-bit number reads numerals, and nothing else. -/
theorem fromStrRadix_eq_some_iff
    {radix value : Nat} {text : Text} :
    fromStrRadix radix (2 ^ 32) text = some value ↔
      Numeral radix text value := by
  have read : ∀ {digits}, parseDigits radix (2 ^ 32) digits = some value →
      numeralValue radix digits = some value ∧ value < 2 ^ 32 := by
    intro digits parsed
    obtain ⟨below, numbers, mapped, total⟩ := mapM_of_parsed parsed
      (by decide)
    rw [Nat.zero_mul, Nat.zero_add] at total
    rw [numeralValue, mapped, total]
    exact ⟨rfl, total ▸ below⟩
  constructor
  · intro parsed
    rw [fromStrRadix.eq_def] at parsed
    split at parsed
    · cases parsed
    · cases parsed
    · rename_i digits lone
      refine ⟨digits, Or.inr rfl, ?_, read parsed⟩
      rintro rfl
      exact lone rfl
    · rename_i empty _ _
      exact ⟨text, Or.inl rfl, empty, read parsed⟩
  · rintro ⟨digits, spelled, nonempty, numeral, small⟩
    have unsigned := fromStrRadix_numeral nonempty numeral small
    rcases spelled with rfl | rfl
    · exact unsigned
    · cases digits with
      | nil => exact absurd rfl nonempty
      | cons first others =>
          have digit := isSome_toDigit_of_numeral numeral first
            List.mem_cons_self
          have notPlus : first ≠ '+' := by
            rintro rfl
            rw [toDigit_plus] at digit
            cases digit
          rw [fromStrRadix.eq_def] at unsigned
          split at unsigned
          · cases unsigned
          · cases unsigned
          · rename_i same
            cases same
            exact absurd rfl notPlus
          · exact unsigned

/-! ## Bodies -/

theorem charFromU32_eq_some_iff {value : Nat} {char : Char} :
    charFromU32 value = some char ↔
      value.isValidChar ∧ char = Char.ofNat value := by
  rw [charFromU32, Nat.isValidChar]
  split_ifs with valid
  · rw [Option.some.injEq, and_iff_right valid, eq_comm]
  · constructor
    · intro none
      cases none
    · rintro ⟨holds, -⟩
      exact absurd holds valid

/-- The names of the table are distinct, so a listed one is found. -/
theorem lookup_entityNamed_iff {name : Text} {char : Char} :
    entityNamed.lookup name = some char ↔ (name, char) ∈ entityNamed := by
  constructor
  · intro found
    obtain ⟨before, after, split, -⟩ := List.lookup_eq_some_iff.mp found
    rw [split]
    exact List.mem_append_right _ List.mem_cons_self
  · intro listed
    have all : ∀ entry ∈ entityNamed,
        entityNamed.lookup entry.1 = some entry.2 := by
      decide +kernel
    exact all (name, char) listed

/-- The body of a reference has no ampersand, semicolon or markup in it. -/
theorem Stands.plain
    {body : Text} {char : Char} (stands : Stands body char) :
    ∀ inside ∈ body, inside ≠ '&' ∧ inside ≠ ';' ∧
      isMarkup inside = false := by
  have digits : ∀ {radix value text}, Numeral radix text value →
      ∀ inside ∈ text, inside ≠ '&' ∧ inside ≠ ';' ∧
        isMarkup inside = false := by
    intro radix value text numeral inside member
    have kind := mem_of_fromStrRadix (fromStrRadix_eq_some_iff.mpr numeral)
      inside member
    have outside : ∀ other ∈ ['&', ';', '<', '>', '\x22', '\x27'],
        inside ≠ other := by
      rintro other listed rfl
      revert listed
      simp only [List.mem_cons, List.not_mem_nil, or_false]
      rintro (rfl | rfl | rfl | rfl | rfl | rfl) <;>
        simp [toDigit] at kind
    refine ⟨outside '&' (by simp), outside ';' (by simp), ?_⟩
    rw [isMarkup, beq_false_of_ne (outside '<' (by simp)),
      beq_false_of_ne (outside '>' (by simp)),
      beq_false_of_ne (outside '\x22' (by simp)),
      beq_false_of_ne (outside '\x27' (by simp))]
    rfl
  cases stands with
  | named listed =>
      have all : ∀ entry ∈ entityNamed, ∀ inside ∈ entry.1,
          inside ≠ '&' ∧ inside ≠ ';' ∧ isMarkup inside = false := by
        decide +kernel
      exact all _ listed
  | decimal numeral valid =>
      rw [List.forall_mem_cons]
      exact ⟨by decide, digits numeral⟩
  | hex marked numeral valid =>
      rw [List.forall_mem_cons, List.forall_mem_cons]
      refine ⟨by decide, ?_, digits numeral⟩
      rcases marked with rfl | rfl <;> decide

theorem not_mem_entityNamed (rest : Text) (char : Char) :
    ('#' :: rest, char) ∉ entityNamed := by
  intro listed
  have all : ∀ entry ∈ entityNamed, entry.1.head? ≠ some '#' := by
    decide +kernel
  exact all _ listed rfl

/-- The mark of a hexadecimal number is no digit of a decimal one. -/
theorem not_numeral_marked
    {mark : Char} (marked : mark = 'x' ∨ mark = 'X') (digits : Text)
    (value : Nat) : ¬ Numeral 10 (mark :: digits) value := by
  intro numeral
  have digit := mem_of_fromStrRadix (fromStrRadix_eq_some_iff.mpr numeral)
    mark List.mem_cons_self
  rcases marked with rfl | rfl <;> simp [toDigit] at digit

/-- A body with a hexadecimal mark stands for the number behind it. -/
theorem stands_hex_iff
    {mark : Char} (marked : mark = 'x' ∨ mark = 'X') {digits : Text}
    {char : Char} :
    Stands ('#' :: mark :: digits) char ↔
      ∃ value, Numeral 16 digits value ∧ value.isValidChar ∧
        char = Char.ofNat value := by
  constructor
  · generalize whole : '#' :: mark :: digits = spelled
    intro stands
    cases stands with
    | named listed => exact absurd (whole ▸ listed) (not_mem_entityNamed _ _)
    | decimal numeral valid =>
        cases whole
        exact absurd numeral (not_numeral_marked marked _ _)
    | hex marked numeral valid =>
        cases whole
        exact ⟨_, numeral, valid, rfl⟩
  · rintro ⟨value, numeral, valid, rfl⟩
    exact .hex marked numeral valid

/-- Any other body with a number sign stands for a decimal number. -/
theorem stands_decimal_iff
    {digits : Text} (notSmall : ∀ rest, digits = 'x' :: rest → False)
    (notLarge : ∀ rest, digits = 'X' :: rest → False) {char : Char} :
    Stands ('#' :: digits) char ↔
      ∃ value, Numeral 10 digits value ∧ value.isValidChar ∧
        char = Char.ofNat value := by
  constructor
  · generalize whole : '#' :: digits = spelled
    intro stands
    cases stands with
    | named listed => exact absurd (whole ▸ listed) (not_mem_entityNamed _ _)
    | decimal numeral valid =>
        cases whole
        exact ⟨_, numeral, valid, rfl⟩
    | hex marked numeral valid =>
        cases whole
        rcases marked with rfl | rfl
        · exact absurd rfl (notSmall _)
        · exact absurd rfl (notLarge _)
  · rintro ⟨value, numeral, valid, rfl⟩
    exact .decimal numeral valid

/-- A body without a number sign is a name. -/
theorem stands_named_iff
    {body : Text} (notNumber : ∀ rest, body = '#' :: rest → False)
    {char : Char} :
    Stands body char ↔ (body, char) ∈ entityNamed := by
  constructor
  · intro stands
    cases stands with
    | named listed => exact listed
    | decimal numeral valid => exact absurd rfl (notNumber _)
    | hex marked numeral valid => exact absurd rfl (notNumber _)
  · exact .named

/-- The parser reads the well-formed bodies that are no markup. -/
theorem entityChar_eq_some_iff {body : Text} {char : Char} :
    entityChar body = some char ↔
      Stands body char ∧ isMarkup char = false ∧ char ≠ '&' := by
  have kept : (!(char == '<' || char == '>' || char == '&' ||
      char == '\x22' || char == '\x27')) = true ↔
        isMarkup char = false ∧ char ≠ '&' := by
    rw [isMarkup, ← beq_eq_false_iff_ne]
    cases char == '<' <;> cases char == '>' <;> cases char == '&' <;>
      cases char == '\x22' <;> cases char == '\x27' <;> decide
  have number : ∀ {radix digits},
      (fromStrRadix radix (2 ^ 32) digits).bind charFromU32 = some char ↔
        ∃ value, Numeral radix digits value ∧ value.isValidChar ∧
          char = Char.ofNat value := by
    intro radix digits
    simp only [Option.bind_eq_some_iff, fromStrRadix_eq_some_iff,
      charFromU32_eq_some_iff]
  unfold entityChar
  dsimp only
  rw [Option.filter_eq_some_iff, kept]
  apply and_congr_left
  intro _
  split
  · rw [number, stands_hex_iff (Or.inl rfl)]
  · rw [number, stands_hex_iff (Or.inr rfl)]
  · rename_i notSmall notLarge
    rw [number, stands_decimal_iff notSmall notLarge]
  · rename_i notSmall notLarge notNumber
    rw [lookup_entityNamed_iff, stands_named_iff notNumber]

/-! ## The decoder -/

/-- No decodable reference begins here. -/
def Unreferenced (_before : Text) (char : Char) (rest : Text) : Prop :=
  ∀ body after decoded, char :: rest = '&' :: (body ++ ';' :: after) →
    ¬ Decodable body decoded

/-- One position either keeps its character or replaces a reference. -/
theorem entityStep_cases (state : Stripped) (char : Char) (rest : Text) :
    (entityStep state char rest = (state.push char, 0) ∧
      ∀ before, Unreferenced before char rest) ∨
    ∃ body after decoded, char = '&' ∧ rest = body ++ ';' :: after ∧
      Decodable body decoded ∧
      entityStep state char rest =
        ({ state.push decoded with changed := true }, body.length + 1) := by
  by_cases amp : char = '&'
  · subst amp
    have spelled : ∀ {body after decoded}, Decodable body decoded →
        findSplit [';'] (body ++ ';' :: after) = some (body, after) := by
      intro body after decoded decodable
      apply findSplit_single
      intro member
      exact (decodable.stands.plain ';' member).2.1 rfl
    rw [entityStep, if_pos (beq_self_eq_true '&')]
    dsimp only
    split
    next decoded length found =>
      obtain ⟨⟨body, after⟩, split, found⟩ :=
        Option.bind_eq_some_iff.mp found
      dsimp only at found
      split_ifs at found with short
      obtain ⟨stands, read, same⟩ := Option.bind_eq_some_iff.mp found
      cases same
      obtain ⟨wellFormed, plain, notAmp⟩ := entityChar_eq_some_iff.mp read
      exact Or.inr ⟨body, after, decoded, rfl, eq_of_findSplit split,
        ⟨wellFormed, short, plain, notAmp⟩, rfl⟩
    next undecoded =>
      refine Or.inl ⟨rfl, ?_⟩
      intro before body after decoded here decodable
      cases here
      rw [spelled decodable] at undecoded
      have read := entityChar_eq_some_iff.mpr
        ⟨decodable.stands, decodable.plain, decodable.notAmp⟩
      simp [decodable.short, read] at undecoded
  · refine Or.inl ⟨?_, ?_⟩
    · rw [entityStep, if_neg (by simpa using amp)]
    · intro before body after decoded here
      cases here
      exact absurd rfl amp

/-- The decoder replaces references, and all that it comes by. -/
theorem decoder_splice (text : Text) :
    ∃ count,
      ((scan entityStep 0 {} text).changed = true ↔ 0 < count) ∧
      Splice Unreferenced Refers [] text
        (scan entityStep 0 {} text).out.reverse count := by
  have made := @splice_of_scan Char Stripped entityStep
    (fun state => state.out.reverse) Stripped.changed (fun _ _ _ => True)
    Unreferenced Refers
    (by
      intro before state char rest _
      rcases entityStep_cases state char rest with
        ⟨keeps, unreferenced⟩ | ⟨body, after, decoded, rfl, rfl, decodable,
          replaces⟩
      · exact Or.inl ⟨_, keeps, by simp [Stripped.push], rfl,
          unreferenced before, trivial⟩
      · refine Or.inr ⟨_, _, [decoded], replaces, by simp [Stripped.push],
          rfl, ⟨body, decoded, ?_, rfl, decodable⟩, trivial⟩
        have taken : (body ++ ';' :: after).take (body.length + 1) =
            body ++ [';'] := by
          rw [← List.singleton_append, ← List.append_assoc]
          exact List.take_left' (by simp)
        rw [taken])
    [] text {} trivial
  obtain ⟨out, count, written, changed, splice⟩ := made
  rw [List.reverse_nil, List.nil_append] at written
  rw [written]
  exact ⟨count, changed.trans (or_iff_right Bool.false_ne_true), splice⟩

/-- A reference and its character hold the same markup: none. -/
theorem Refers.filter_eq
    {before dropped put after : Text}
    (refers : Refers before dropped put after) :
    put.filter isMarkup = dropped.filter isMarkup := by
  obtain ⟨body, char, rfl, rfl, decodable⟩ := refers
  have inside : body.filter isMarkup = [] := by
    rw [List.filter_eq_nil_iff]
    intro other member
    rw [(decodable.stands.plain other member).2.2]
    decide
  have opening : isMarkup '&' = false := rfl
  have closing : isMarkup ';' = false := rfl
  simp [decodable.plain, inside, opening, closing]

/-- A reference is replaced by a character other than the ampersand. -/
theorem Refers.countP_le
    {before dropped put after : Text}
    (refers : Refers before dropped put after) :
    put.countP (· == '&') ≤ dropped.countP (· == '&') := by
  obtain ⟨body, char, rfl, rfl, decodable⟩ := refers
  have none : [char].countP (· == '&') = 0 := by
    rw [List.countP_singleton, beq_false_of_ne decodable.notAmp]
    rfl
  rw [none]
  exact Nat.zero_le _

/--
A text that comes out has the markup of the one that went in, no more
ampersands, and is that text with decodable references replaced by their
characters; nothing comes out exactly when there is no such reference.
-/
theorem htmlEntityDecodeEvasion_spec (text : Text) :
    (∀ out, htmlEntityDecodeEvasion text = some out →
      out.filter isMarkup = text.filter isMarkup ∧
      out.count '&' ≤ text.count '&' ∧
      ∃ count, 0 < count ∧
        Splice (fun _ _ _ => True) Refers [] text out count) ∧
    (htmlEntityDecodeEvasion text = none ↔ ¬ HasReference text) := by
  obtain ⟨count, changed, splice⟩ := decoder_splice text
  rw [htmlEntityDecodeEvasion, Stripped.finish]
  constructor
  · intro out result
    split_ifs at result with some
    cases result
    refine ⟨?_, ?_, count, changed.mp some, ?_⟩
    · exact splice.filter_eq isMarkup fun _ _ _ _ => Refers.filter_eq
    · exact splice.countP_le (· == '&') fun _ _ _ _ => Refers.countP_le
    · exact splice.imp rfl (fun _ _ _ _ _ => trivial)
        (fun _ _ _ _ _ refers => refers)
  · split_ifs with some
    · apply iff_of_false not_false
      rw [not_not]
      obtain ⟨before, dropped, put, after, here, body, char, rfl, -,
        decodable⟩ := splice.exists_replaced (changed.mp some)
      refine ⟨before, body, after, char, ?_, decodable⟩
      rw [here]
      simp
    · apply iff_of_true rfl
      rintro ⟨before, body, after, char, here, decodable⟩
      have none : count = 0 := by
        by_contra positive
        exact some (changed.mpr (Nat.pos_of_ne_zero positive))
      exact splice.kept_of_none none here body after char rfl decodable

end LightWaf.Detection.EntityEvasion
