import LightWaf.Rust.Text

/-!
# Lowercasing a text

Lowercasing reads a character in its surroundings only for the capital sigma,
and no further than a character that is neither cased nor case-ignorable.  So
a text that is lowercased and split at slashes has the lowercased pieces.
-/

namespace LightWaf.Rust

/-! ## ASCII letters -/

theorem isUpper_iff {char : Char} :
    char.isUpper = true ↔ 65 ≤ char.val.toNat ∧ char.val.toNat ≤ 90 :=
  decide_eq_true_iff

theorem isLower_iff {char : Char} :
    char.isLower = true ↔ 97 ≤ char.val.toNat ∧ char.val.toNat ≤ 122 := by
  show (decide _ && decide _) = true ↔ _
  rw [Bool.and_eq_true, decide_eq_true_eq, decide_eq_true_eq]
  rfl

theorem isAlpha_eq (char : Char) :
    char.isAlpha = (char.isUpper || char.isLower) :=
  rfl

theorem toLower_eq_self {char : Char} (other : char.isUpper = false) :
    char.toLower = char :=
  dif_neg (of_decide_eq_false other)

theorem isLower_toLower {char : Char} (upper : char.isUpper = true) :
    char.toLower.isLower = true := by
  have lower : char.toLower =
      ⟨char.val + ('a'.val - 'A'.val), _⟩ :=
    dif_pos (of_decide_eq_true upper)
  obtain ⟨low, high⟩ := isUpper_iff.mp upper
  have shift : ('a'.val - 'A'.val).toNat = 32 := rfl
  have value : char.toLower.val.toNat = char.val.toNat + 32 := by
    rw [lower, UInt32.toNat_add, shift]
    exact Nat.mod_eq_of_lt (by omega)
  rw [isLower_iff, value]
  omega

/-- A lowercase letter is no capital. -/
theorem isUpper_of_isLower {char : Char} (lower : char.isLower = true) :
    char.isUpper = false := by
  obtain ⟨low, _⟩ := isLower_iff.mp lower
  apply eq_false_of_ne_true
  intro upper
  obtain ⟨_, high⟩ := isUpper_iff.mp upper
  omega

theorem isUpper_toLower (char : Char) : char.toLower.isUpper = false := by
  cases upper : char.isUpper with
  | true => exact isUpper_of_isLower (isLower_toLower upper)
  | false => rw [toLower_eq_self upper, upper]

theorem isAscii_of_isLower {char : Char} (lower : char.isLower = true) :
    isAscii char = true := by
  obtain ⟨_, high⟩ := isLower_iff.mp lower
  apply decide_eq_true
  show char.val.toNat < 0x80
  omega

theorem isAscii_toLower {char : Char} (ascii : isAscii char = true) :
    isAscii char.toLower = true := by
  cases upper : char.isUpper with
  | true => exact isAscii_of_isLower (isLower_toLower upper)
  | false => rw [toLower_eq_self upper, ascii]

namespace UnicodeTables

/--
What is known of the tables of every Unicode version: lowercasing a character
beyond ASCII yields at least one character, and only lowercase ASCII letters
or characters that lowercasing keeps; a slash is neither cased nor
case-ignorable; and normalization keeps ASCII.
-/
structure Lawful (unicode : UnicodeTables) : Prop where
  nonempty : ∀ char, isAscii char = false → unicode.lowercase char ≠ []
  letters : ∀ char, isAscii char = false → ∀ lower ∈ unicode.lowercase char,
    isAscii lower = true → lower.isLower = true
  stable : ∀ char, isAscii char = false → char ≠ 'Σ' →
    ∀ lower ∈ unicode.lowercase char, isAscii lower = false →
      lower ≠ 'Σ' ∧ unicode.lowercase lower = [lower]
  sigmas : unicode.lowercase 'σ' = ['σ'] ∧ unicode.lowercase 'ς' = ['ς']
  slash : unicode.cased '/' = false ∧ unicode.caseIgnorable '/' = false
  nfkc_ascii : ∀ text, (∀ char ∈ text, isAscii char = true) →
    unicode.nfkc text = text

/-- Tables that leave everything beyond ASCII alone are lawful. -/
theorem lawful_asciiOnly : asciiOnly.Lawful where
  nonempty := fun _ _ => List.cons_ne_nil _ _
  letters := by
    intro char beyond lower member ascii
    cases List.mem_singleton.mp member
    rw [beyond] at ascii
    cases ascii
  stable := by
    intro char beyond other lower member _
    cases List.mem_singleton.mp member
    exact ⟨other, rfl⟩
  sigmas := ⟨rfl, rfl⟩
  slash := ⟨rfl, rfl⟩
  nfkc_ascii := fun _ _ => rfl

section Lowercase

variable (unicode : UnicodeTables)

/-- What lowercasing makes of one character between two texts. -/
def lowercaseAt (before : Text) (char : Char) (after : Text) : Text :=
  if isAscii char then [char.toLower]
  else if char == 'Σ' then [unicode.mapUppercaseSigma before after]
  else unicode.lowercase char

theorem lowercaseFrom_cons (before : Text) (char : Char) (rest : Text) :
    unicode.lowercaseFrom before (char :: rest) =
      unicode.lowercaseAt before char rest ++
        unicode.lowercaseFrom (char :: before) rest := rfl

variable {unicode} (lawful : unicode.Lawful)
include lawful

/-! ## Slashes -/

/-- A slash ends the surroundings. -/
theorem caseIgnorableThenCased_slash (near far : Text) :
    unicode.caseIgnorableThenCased (near ++ '/' :: far) =
      unicode.caseIgnorableThenCased near := by
  rw [caseIgnorableThenCased, caseIgnorableThenCased]
  induction near with
  | nil =>
      rw [List.nil_append, List.dropWhile_cons, lawful.slash.2]
      exact lawful.slash.1
  | cons char near induction =>
      rw [List.cons_append, List.dropWhile_cons, List.dropWhile_cons]
      split_ifs
      · exact induction
      · rfl

theorem lowercaseFrom_before_slash (near far text : Text) :
    unicode.lowercaseFrom (near ++ '/' :: far) text =
      unicode.lowercaseFrom near text := by
  induction text generalizing near with
  | nil => rfl
  | cons char rest induction =>
      rw [lowercaseFrom_cons, lowercaseFrom_cons, ← List.cons_append,
        induction, lowercaseAt, lowercaseAt, mapUppercaseSigma,
        mapUppercaseSigma, caseIgnorableThenCased_slash lawful]

/-- A text is lowercased piece by piece. -/
theorem lowercaseFrom_append_slash (before left right : Text) :
    unicode.lowercaseFrom before (left ++ '/' :: right) =
      unicode.lowercaseFrom before left ++
        '/' :: unicode.toLowercase right := by
  induction left generalizing before with
  | nil =>
      have slash : unicode.lowercaseAt before '/' right = ['/'] := rfl
      rw [List.nil_append, lowercaseFrom_cons, slash]
      exact congrArg ('/' :: ·)
        (lowercaseFrom_before_slash lawful [] before right)
  | cons char left induction =>
      rw [List.cons_append, lowercaseFrom_cons, lowercaseFrom_cons, induction,
        lowercaseAt, lowercaseAt, mapUppercaseSigma, mapUppercaseSigma,
        caseIgnorableThenCased_slash lawful, List.append_assoc]

/-! ## Single characters -/

/-- The characters that lowercasing one character can yield. -/
theorem mem_lowercaseAt
    {before after : Text} {char lower : Char}
    (member : lower ∈ unicode.lowercaseAt before char after) :
    (isAscii char = true ∧ lower = char.toLower) ∨
      (isAscii char = false ∧ isAscii lower = true ∧
        lower.isLower = true) ∨
      (isAscii char = false ∧ isAscii lower = false ∧ lower ≠ 'Σ' ∧
        unicode.lowercase lower = [lower]) := by
  rw [lowercaseAt] at member
  split_ifs at member with ascii sigma
  · exact .inl ⟨ascii, List.mem_singleton.mp member⟩
  · have beyond := eq_false_of_ne_true ascii
    have which : lower = 'ς' ∨ lower = 'σ' := by
      rw [List.mem_singleton, mapUppercaseSigma] at member
      split_ifs at member
      · exact .inl member
      · exact .inr member
    rcases which with rfl | rfl
    · exact .inr (.inr ⟨beyond, rfl, by decide, lawful.sigmas.2⟩)
    · exact .inr (.inr ⟨beyond, rfl, by decide, lawful.sigmas.1⟩)
  · have beyond := eq_false_of_ne_true ascii
    cases kind : isAscii lower with
    | true =>
        exact .inr (.inl ⟨beyond, rfl,
          lawful.letters char beyond lower member kind⟩)
    | false =>
        have other : char ≠ 'Σ' := fun same => sigma (beq_iff_eq.mpr same)
        exact .inr (.inr ⟨beyond, rfl,
          lawful.stable char beyond other lower member kind⟩)

theorem lowercaseAt_ne_nil (before : Text) (char : Char) (after : Text) :
    unicode.lowercaseAt before char after ≠ [] := by
  rw [lowercaseAt]
  split_ifs with ascii
  · exact List.cons_ne_nil _ _
  · exact List.cons_ne_nil _ _
  · exact lawful.nonempty char (eq_false_of_ne_true ascii)

/-- ASCII characters that are no letters come from themselves only. -/
theorem eq_of_mem_lowercaseAt
    {before after : Text} {char lower : Char}
    (member : lower ∈ unicode.lowercaseAt before char after)
    (ascii : isAscii lower = true) (plain : lower.isAlpha = false) :
    char = lower := by
  rcases mem_lowercaseAt lawful member with
    ⟨_, rfl⟩ | ⟨_, _, letter⟩ | ⟨_, beyond, _⟩
  · cases upper : char.isUpper with
    | true =>
        rw [isAlpha_eq, isLower_toLower upper, Bool.or_true] at plain
        cases plain
    | false => exact (toLower_eq_self upper).symm
  · rw [isAlpha_eq, letter, Bool.or_true] at plain
    cases plain
  · rw [ascii] at beyond
    cases beyond

/-! ## Whole texts -/

omit lawful in
theorem mem_lowercaseFrom
    {before text : Text} {lower : Char}
    (member : lower ∈ unicode.lowercaseFrom before text) :
    ∃ near far, ∃ char ∈ text, lower ∈ unicode.lowercaseAt near char far := by
  induction text generalizing before with
  | nil => cases member
  | cons char rest induction =>
      rw [lowercaseFrom_cons] at member
      rcases List.mem_append.mp member with here | later
      · exact ⟨before, rest, char, List.mem_cons_self, here⟩
      · obtain ⟨near, far, other, inside, from_⟩ := induction later
        exact ⟨near, far, other, List.mem_cons_of_mem char inside, from_⟩

/-- ASCII characters that are no letters are neither added nor removed. -/
theorem not_mem_toLowercase
    {text : Text} {char : Char} (ascii : isAscii char = true)
    (plain : char.isAlpha = false) (absent : char ∉ text) :
    char ∉ unicode.toLowercase text := by
  intro member
  obtain ⟨_, _, other, inside, from_⟩ := mem_lowercaseFrom member
  cases eq_of_mem_lowercaseAt lawful from_ ascii plain
  exact absent inside

/-- What lowercasing keeps. -/
def Settled (unicode : UnicodeTables) (char : Char) : Prop :=
  if isAscii char then char.isUpper = false
  else char ≠ 'Σ' ∧ unicode.lowercase char = [char]

omit lawful in
theorem lowercaseFrom_settled
    {text : Text} (settled : ∀ char ∈ text, Settled unicode char)
    (before : Text) :
    unicode.lowercaseFrom before text = text := by
  induction text generalizing before with
  | nil => rfl
  | cons char rest induction =>
      have here := settled char List.mem_cons_self
      have kept : unicode.lowercaseAt before char rest = [char] := by
        rw [Settled] at here
        rw [lowercaseAt]
        split_ifs at here with ascii
        · rw [if_pos ascii, toLower_eq_self here]
        · rw [if_neg ascii, if_neg fun sigma => here.1 (beq_iff_eq.mp sigma)]
          exact here.2
      rw [lowercaseFrom_cons, kept, induction fun other member =>
        settled other (List.mem_cons_of_mem char member)]
      rfl

/-- Lowercasing twice is lowercasing once. -/
theorem toLowercase_toLowercase (text : Text) :
    unicode.toLowercase (unicode.toLowercase text) =
      unicode.toLowercase text := by
  apply lowercaseFrom_settled
  intro lower member
  obtain ⟨_, _, char, _, from_⟩ := mem_lowercaseFrom member
  rw [Settled]
  rcases mem_lowercaseAt lawful from_ with
    ⟨ascii, rfl⟩ | ⟨_, ascii, letter⟩ | ⟨_, beyond, other, kept⟩
  · rw [if_pos (isAscii_toLower ascii)]
    exact isUpper_toLower char
  · rw [if_pos ascii]
    exact isUpper_of_isLower letter
  · rw [if_neg (by rw [beyond]; exact Bool.false_ne_true)]
    exact ⟨other, kept⟩

/-- A text without characters that could be lost. -/
theorem toLowercase_eq_nil {text : Text} :
    unicode.toLowercase text = [] ↔ text = [] := by
  constructor
  · intro empty
    cases text with
    | nil => rfl
    | cons char rest =>
        rw [toLowercase, lowercaseFrom_cons] at empty
        exact absurd (List.append_eq_nil_iff.mp empty).1
          (lowercaseAt_ne_nil lawful _ _ _)
  · rintro rfl
    rfl

omit lawful in
theorem lowercaseAt_subset
    {before text : Text} {char : Char} (member : char ∈ text) :
    ∃ near far, unicode.lowercaseAt near char far ⊆
      unicode.lowercaseFrom before text := by
  induction text generalizing before with
  | nil => cases member
  | cons head rest induction =>
      rw [lowercaseFrom_cons]
      rcases List.mem_cons.mp member with rfl | later
      · exact ⟨before, rest, List.subset_append_left _ _⟩
      · obtain ⟨near, far, inside⟩ := induction later
        exact ⟨near, far, List.subset_append_of_subset_right _ inside⟩

/-- A text is lowercased to dots only if it is these dots. -/
theorem toLowercase_dots
    {text : Text} (dots : ∀ char ∈ unicode.toLowercase text, char = '.') :
    unicode.toLowercase text = text := by
  apply lowercaseFrom_settled
  intro char member
  obtain ⟨near, far, inside⟩ := lowercaseAt_subset member
  obtain ⟨lower, lowerMember⟩ := List.exists_mem_of_ne_nil _
    (lowercaseAt_ne_nil lawful near char far)
  cases dots lower (inside lowerMember)
  cases eq_of_mem_lowercaseAt lawful lowerMember (by decide) (by decide)
  exact (rfl : '.'.isUpper = false)

/-- The pieces between slashes are lowercased one by one. -/
theorem splitOn_toLowercase (text : Text) :
    (unicode.toLowercase text).splitOn '/' =
      (text.splitOn '/').map unicode.toLowercase := by
  induction size : text.length using Nat.strong_induction_on
    generalizing text with
  | _ bound induction =>
      by_cases slash : '/' ∈ text
      · obtain ⟨left, right, rfl, absent⟩ := List.eq_append_cons_of_mem slash
        have single : '/' ∉ unicode.toLowercase left :=
          not_mem_toLowercase lawful (by decide) (by decide) absent
        have shorter : right.length < bound := by
          rw [← size, List.length_append, List.length_cons]
          omega
        rw [toLowercase, lowercaseFrom_append_slash lawful,
          List.splitOn_append_cons_self, List.splitOn_append_cons_self,
          induction _ shorter right rfl, List.map_append,
          List.splitOn_eq_singleton absent]
        exact congrArg (· ++ _) (List.splitOn_eq_singleton single)
      · rw [List.splitOn_eq_singleton slash, List.splitOn_eq_singleton
          (not_mem_toLowercase lawful (by decide) (by decide) slash)]
        rfl

end Lowercase

end UnicodeTables

end LightWaf.Rust
