import LightWaf.Normalizer.GraphqlGrammar

/-!
# Agreement of the lexer with the grammar

The lexer reads the bytes of one lexeme and arrives at the next with the state
of the reference count.  This is proved lexeme by lexeme, and for a whole text
by induction on its lexemes.
-/

namespace LightWaf.Normalizer.Grammar

open LightWaf.Rust
open LightWaf.Theory

/-! ## Character classes -/

theorem isNameStart_iff (byte : UInt8) :
    isNameStart byte = true ↔
      byte.toNat = 0x5F ∨ (0x41 ≤ byte.toNat ∧ byte.toNat ≤ 0x5A) ∨
        (0x61 ≤ byte.toNat ∧ byte.toNat ≤ 0x7A) := by
  simp [isNameStart, UInt8.le_iff_toNat_le, ← UInt8.toNat_inj, or_assoc]

theorem isNameByte_iff (byte : UInt8) :
    isNameByte byte = true ↔
      isNameStart byte = true ∨
        (0x30 ≤ byte.toNat ∧ byte.toNat ≤ 0x39) := by
  simp [isNameByte, UInt8.le_iff_toNat_le]

theorem nameStart_iff (char : Char) :
    nameStart char = true ↔
      char.toNat = 0x5F ∨ (0x41 ≤ char.toNat ∧ char.toNat ≤ 0x5A) ∨
        (0x61 ≤ char.toNat ∧ char.toNat ≤ 0x7A) := by
  simp [nameStart, Char.le_def, UInt32.le_iff_toNat_le, ← Char.toNat_inj,
    or_assoc]

theorem digit_iff (char : Char) :
    digit char = true ↔ 0x30 ≤ char.toNat ∧ char.toNat ≤ 0x39 := by
  simp [digit, Char.le_def, UInt32.le_iff_toNat_le]

theorem nameContinue_iff (char : Char) :
    nameContinue char = true ↔
      nameStart char = true ∨ digit char = true := by
  simp [nameContinue]

theorem nameContinue_ascii
    {char : Char} (continues : nameContinue char = true) :
    char.toNat < 0x80 := by
  rw [nameContinue_iff, nameStart_iff, digit_iff] at continues
  omega

/-- A name character is one name byte. -/
theorem isNameByte_ofNat
    {char : Char} (ascii : char.toNat < 0x80) :
    isNameByte (UInt8.ofNat char.toNat) = nameContinue char := by
  have bound : char.toNat < UInt8.size :=
    ascii.trans (by decide)
  rw [Bool.eq_iff_iff, isNameByte_iff, isNameStart_iff, nameContinue_iff,
    nameStart_iff, digit_iff, UInt8.toNat_ofNat_of_lt' bound]

/-- The next byte is no name byte when the next character is none. -/
theorem isNameByte_head
    {following : Text} (ends : following.head?.any nameContinue = false) :
    (asBytes following).head?.any isNameByte = false := by
  cases following with
  | nil => rfl
  | cons char rest =>
      have stops : nameContinue char = false := by simpa using ends
      rw [asBytes_cons]
      by_cases ascii : char.toNat < 0x80
      · simp [utf8EncodeChar_ascii ascii, isNameByte_ofNat ascii, stops]
      · cases encoded : String.utf8EncodeChar char with
        | nil => exact absurd encoded String.utf8EncodeChar_ne_nil
        | cons byte others =>
            have high : 0x80 ≤ byte :=
              utf8EncodeChar_high (not_lt.mp ascii) byte (by
                rw [encoded]
                exact List.mem_cons_self)
            rw [UInt8.le_iff_toNat_le] at high
            have above : 0x80 ≤ byte.toNat := high
            have stopsByte : ¬ isNameByte byte = true := by
              rw [isNameByte_iff, isNameStart_iff]
              omega
            simpa using stopsByte

/-! ## One turn of the loop -/

/-- A byte that the lexer passes over. -/
def plainByte (byte : UInt8) : Bool :=
  byte ∉ ([0x22, 0x23, 0x28, 0x29, 0x3A, 0x40, 0x7B, 0x7D] : Bytes) &&
    !isNameStart byte

theorem graphqlLexFrom_cons
    (state : LexState) (byte : UInt8) (rest : Bytes) :
    graphqlLexFrom state (byte :: rest) =
      graphqlLexFrom (graphqlStep state byte rest).1
        (rest.drop (graphqlStep state byte rest).2) :=
  Scan.scan_cons graphqlStep state byte rest

theorem graphqlStep_plain
    {byte : UInt8} (plain : plainByte byte = true)
    (state : LexState) (rest : Bytes) :
    graphqlStep state byte rest = (state, 0) := by
  simp only [plainByte, List.mem_cons, List.not_mem_nil, or_false, not_or,
    Bool.and_eq_true, decide_eq_true_eq, Bool.not_eq_true'] at plain
  simp [graphqlStep, plain]

theorem graphqlStep_name
    {byte : UInt8} (start : isNameStart byte = true)
    (state : LexState) (rest : Bytes) :
    graphqlStep state byte rest =
      (state.name (byte :: rest.takeWhile isNameByte),
        (rest.takeWhile isNameByte).length) := by
  have differs : ∀ other, isNameStart other = false → byte ≠ other := by
    rintro other no rfl
    rw [start] at no
    cases no
  simp [graphqlStep, start, differs 0x23 (by decide),
    differs 0x22 (by decide), differs 0x28 (by decide),
    differs 0x29 (by decide), differs 0x7B (by decide),
    differs 0x7D (by decide), differs 0x3A (by decide),
    differs 0x40 (by decide)]

/-- Plain bytes do not change the state. -/
theorem graphqlLexFrom_plain
    (state : LexState) (bytes rest : Bytes)
    (plain : ∀ byte ∈ bytes, plainByte byte = true) :
    graphqlLexFrom state (bytes ++ rest) = graphqlLexFrom state rest := by
  induction bytes with
  | nil => rfl
  | cons byte others induction =>
      rw [List.cons_append, graphqlLexFrom_cons,
        graphqlStep_plain (plain byte (by simp))]
      exact induction fun other member => plain other (by simp [member])

/-- What follows the longest prefix of a class is left. -/
theorem drop_length_takeWhile
    {α : Type} (keep : α → Bool) (items : List α) :
    items.drop (items.takeWhile keep).length = items.dropWhile keep := by
  conv_lhs =>
    enter [2]
    rw [← List.takeWhile_append_dropWhile (p := keep) (l := items)]
  rw [List.drop_left]

theorem takeWhile_append_stop
    {α : Type} {keep : α → Bool} {inside rest : List α}
    (kept : ∀ item ∈ inside, keep item = true)
    (stops : rest.head?.any keep = false) :
    (inside ++ rest).takeWhile keep = inside := by
  rw [List.takeWhile_append_of_pos kept]
  cases rest with
  | nil => simp
  | cons item others => simp_all

/-! ## Names, numbers and comments -/

/-- The bytes of a run of name characters are name bytes. -/
theorem isNameByte_of_mem
    {text : Text} (continues : text.all nameContinue = true) :
    ∀ byte ∈ asBytes text, isNameByte byte = true := by
  intro byte member
  obtain ⟨char, charMember, encoded⟩ := List.mem_flatMap.mp member
  have inside := List.all_eq_true.mp continues char charMember
  have ascii := nameContinue_ascii inside
  rw [utf8EncodeChar_ascii ascii, List.mem_singleton] at encoded
  rw [encoded, isNameByte_ofNat ascii, inside]

/-- A name is read to its end and counted. -/
theorem graphqlLexFrom_name
    (state : LexState) {first : Char} {others following : Text}
    (start : nameStart first = true)
    (continues : others.all nameContinue = true)
    (ends : following.head?.any nameContinue = false) :
    graphqlLexFrom state (asBytes (first :: others) ++ asBytes following) =
      graphqlLexFrom (state.name (asBytes (first :: others)))
        (asBytes following) := by
  have ascii : first.toNat < 0x80 :=
    nameContinue_ascii ((nameContinue_iff first).mpr (Or.inl start))
  have bound : first.toNat < UInt8.size := ascii.trans (by decide)
  have startByte : isNameStart (UInt8.ofNat first.toNat) = true := by
    rw [isNameStart_iff, UInt8.toNat_ofNat_of_lt' bound, ← nameStart_iff]
    exact start
  have run : (asBytes others ++ asBytes following).takeWhile isNameByte =
      asBytes others :=
    takeWhile_append_stop (isNameByte_of_mem continues)
      (isNameByte_head ends)
  rw [asBytes_cons, utf8EncodeChar_ascii ascii, List.cons_append,
    List.nil_append, List.cons_append, graphqlLexFrom_cons,
    graphqlStep_name startByte, run, List.drop_left]

/-- The bytes of digits are plain. -/
theorem plainByte_of_digit
    {text : Text} (digits : text.all digit = true) :
    ∀ byte ∈ asBytes text, plainByte byte = true := by
  intro byte member
  obtain ⟨char, charMember, encoded⟩ := List.mem_flatMap.mp member
  have inside := List.all_eq_true.mp digits char charMember
  rw [digit_iff] at inside
  have ascii : char.toNat < 0x80 := by omega
  have bound : char.toNat < UInt8.size := ascii.trans (by decide)
  rw [utf8EncodeChar_ascii ascii, List.mem_singleton] at encoded
  have value : byte.toNat = char.toNat := by
    rw [encoded, UInt8.toNat_ofNat_of_lt' bound]
  have noStart : isNameStart byte = false := by
    rw [Bool.eq_false_iff, ne_eq, isNameStart_iff]
    omega
  simp only [plainByte, noStart, List.mem_cons, List.not_mem_nil, or_false,
    ← UInt8.toNat_inj, value, UInt8.reduceToNat, Bool.not_false,
    Bool.and_true, decide_eq_true_eq]
  omega

/-- Outside a selection an exponent is read as a name that does not count. -/
theorem graphqlLexFrom_exponent
    (state : LexState) (outside : state.selecting = false)
    {exponent : Exponent} (valid : exponent.valid = true)
    {following : Text}
    (ends : following.head?.any nameContinue = false) :
    graphqlLexFrom state (asBytes exponent.text ++ asBytes following) =
      graphqlLexFrom state (asBytes following) := by
  obtain ⟨indicator, sign, digits⟩ := exponent
  simp only [Exponent.valid, digitRun, Bool.and_eq_true, Bool.or_eq_true,
    beq_iff_eq] at valid
  obtain ⟨⟨letter, signed⟩, -, run⟩ := valid
  have start : nameStart indicator = true := by
    rcases letter with rfl | rfl <;> decide
  have uncounted : ∀ bytes, state.name bytes = state := by
    intro bytes
    simp [LexState.name, outside]
  cases sign with
  | none =>
      have continues : digits.all nameContinue = true := by
        refine List.all_eq_true.mpr fun char member => ?_
        exact (nameContinue_iff char).mpr
          (Or.inr (List.all_eq_true.mp run char member))
      have whole := graphqlLexFrom_name state start continues ends
      rw [uncounted] at whole
      exact whole
  | some sign =>
      have stops :
          (sign :: (digits ++ following)).head?.any nameContinue = false := by
        simp only [Option.all_some, Bool.or_eq_true, beq_iff_eq] at signed
        rcases signed with rfl | rfl <;> rfl
      have first := graphqlLexFrom_name state start
        (show List.all [] nameContinue = true from rfl) stops
      rw [uncounted] at first
      have signPlain : ∀ byte ∈ asBytes [sign], plainByte byte = true := by
        simp only [Option.all_some, Bool.or_eq_true, beq_iff_eq] at signed
        rcases signed with rfl | rfl <;> decide +kernel
      calc graphqlLexFrom state
            (asBytes (indicator :: sign :: digits) ++ asBytes following)
          = graphqlLexFrom state
              (asBytes [indicator] ++
                asBytes (sign :: (digits ++ following))) := by
            simp
        _ = graphqlLexFrom state (asBytes [sign] ++
              (asBytes digits ++ asBytes following)) := by
            rw [first]
            simp
        _ = graphqlLexFrom state (asBytes following) := by
            rw [graphqlLexFrom_plain _ _ _ signPlain,
              graphqlLexFrom_plain _ _ _ (plainByte_of_digit run)]

theorem graphqlLexFrom_number
    (state : LexState) {negative : Bool} {integer : Text}
    {fraction : Option Text} {exponent : Option Exponent} {following : Text}
    (valid :
      (Lexeme.number negative integer fraction exponent).valid = true)
    (ends :
      (Lexeme.number negative integer fraction exponent).lookahead following =
        true)
    (regular : exponent.isSome = true → state.selecting = false) :
    graphqlLexFrom state
        (asBytes (Lexeme.number negative integer fraction exponent).text ++
          asBytes following) =
      graphqlLexFrom state (asBytes following) := by
  simp only [Lexeme.valid, digitRun, Bool.and_eq_true, Bool.or_eq_true,
    beq_iff_eq] at valid
  obtain ⟨⟨whole, fractional⟩, exponential⟩ := valid
  have stops : following.head?.any nameContinue = false := by
    cases following with
    | nil => rfl
    | cons char rest =>
        simp only [Lexeme.lookahead, Lexeme.excluded, List.head?_cons,
          Option.any_some, Bool.not_eq_true', Bool.or_eq_false_iff] at ends
        simp [nameContinue, ends]
  have signPlain : ∀ byte ∈ asBytes (if negative then ['-'] else []),
      plainByte byte = true := by
    cases negative <;> decide +kernel
  have integerPlain : ∀ byte ∈ asBytes integer, plainByte byte = true := by
    rcases whole with rfl | ⟨⟨-, run⟩, -⟩
    · decide +kernel
    · exact plainByte_of_digit run
  have fractionPlain :
      ∀ byte ∈ asBytes (fraction.elim [] fun digits => '.' :: digits),
        plainByte byte = true := by
    cases fraction with
    | none => simp
    | some digits =>
        simp only [Option.all_some, digitRun, Bool.and_eq_true] at fractional
        have point :
            ∀ byte ∈ String.utf8EncodeChar '.', plainByte byte = true := by
          decide +kernel
        intro byte member
        rcases List.mem_append.mp member with first | later
        · exact point byte first
        · exact plainByte_of_digit fractional.2 byte later
  simp only [Lexeme.text, asBytes_append, List.append_assoc]
  rw [graphqlLexFrom_plain _ _ _ signPlain,
    graphqlLexFrom_plain _ _ _ integerPlain,
    graphqlLexFrom_plain _ _ _ fractionPlain]
  cases exponent with
  | none => rfl
  | some exponent =>
      exact graphqlLexFrom_exponent state (regular rfl)
        (by simpa using exponential) stops

/-- A comment is passed over when its line ends in a line feed or the text. -/
theorem graphqlLexFrom_comment
    (state : LexState) {body following : Text}
    (valid : body.all commentChar = true)
    (ends : following = [] ∨ following = ['\r'] ∨
      (∃ rest, following = '\n' :: rest) ∨
        ∃ rest, following = '\r' :: '\n' :: rest) :
    graphqlLexFrom state
        (asBytes ('#' :: body) ++ asBytes following) =
      graphqlLexFrom state (asBytes following) := by
  have inside : ∀ byte ∈ asBytes body, decide (byte ≠ 0x0A) = true := by
    intro byte member
    obtain ⟨char, charMember, encoded⟩ := List.mem_flatMap.mp member
    have allowed := List.all_eq_true.mp valid char charMember
    simp only [commentChar, Bool.and_eq_true, bne_iff_ne] at allowed
    have absent := not_mem_utf8EncodeChar allowed.1.2 (by decide)
    refine decide_eq_true fun same => absent ?_
    subst same
    exact encoded
  have opening : asBytes ('#' :: body) = 0x23 :: asBytes body := rfl
  have step : ∀ rest, graphqlStep state 0x23 rest =
      (state, (rest.takeWhile (· ≠ 0x0A)).length) := by
    intro rest
    simp [graphqlStep]
  rw [opening, List.cons_append, graphqlLexFrom_cons, step,
    drop_length_takeWhile, List.dropWhile_append_of_pos inside]
  rcases ends with rfl | rfl | ⟨rest, rfl⟩ | ⟨rest, rfl⟩
  · rfl
  · rfl
  · rfl
  · have back : asBytes ('\r' :: '\n' :: rest) =
        [0x0D] ++ asBytes ('\n' :: rest) := rfl
    rw [back, graphqlLexFrom_plain _ _ _ (by decide +kernel)]
    rfl

/-! ## Strings -/

/-- Neither a quote nor a backslash occurs among the bytes. -/
def Quiet (bytes : Bytes) : Prop :=
  0x22 ∉ bytes ∧ 0x5C ∉ bytes

theorem quiet_utf8EncodeChar
    {char : Char} (noQuote : char ≠ '\x22') (noBackslash : char ≠ '\x5c') :
    Quiet (String.utf8EncodeChar char) :=
  ⟨not_mem_utf8EncodeChar noQuote (by decide),
    not_mem_utf8EncodeChar noBackslash (by decide)⟩

theorem stringSpan_quote (rest : Bytes) :
    stringSpan (0x22 :: rest) = 1 := by
  rw [stringSpan.eq_def]
  rfl

theorem stringSpan_escape (byte : UInt8) (rest : Bytes) :
    stringSpan (0x5C :: byte :: rest) = stringSpan rest + 2 := by
  rw [stringSpan.eq_def]
  rfl

theorem stringSpan_other
    {byte : UInt8} (noQuote : byte ≠ 0x22) (noBackslash : byte ≠ 0x5C)
    (rest : Bytes) :
    stringSpan (byte :: rest) = stringSpan rest + 1 := by
  rw [stringSpan.eq_def]
  dsimp only
  rw [if_neg noQuote, if_neg noBackslash]

theorem stringSpan_quiet
    {bytes : Bytes} (quiet : Quiet bytes) (rest : Bytes) :
    stringSpan (bytes ++ rest) = stringSpan rest + bytes.length := by
  induction bytes with
  | nil => rfl
  | cons byte others induction =>
      obtain ⟨noQuote, noBackslash⟩ := quiet
      rw [List.mem_cons, not_or] at noQuote noBackslash
      rw [List.cons_append,
        stringSpan_other (Ne.symm noQuote.1) (Ne.symm noBackslash.1),
        induction ⟨noQuote.2, noBackslash.2⟩, List.length_cons]
      omega

/-- One string character is passed over. -/
theorem stringSpan_unit
    {unit : StringUnit} (valid : unit.valid = true) (rest : Bytes) :
    stringSpan (asBytes unit.text ++ rest) =
      stringSpan rest + (asBytes unit.text).length := by
  cases unit with
  | plain char =>
      simp only [StringUnit.valid, Bool.and_eq_true, bne_iff_ne] at valid
      have quiet := quiet_utf8EncodeChar valid.1.2 valid.2
      simpa [StringUnit.text] using stringSpan_quiet quiet rest
  | escape char =>
      simp only [StringUnit.valid, List.contains_iff_mem, List.mem_cons,
        List.not_mem_nil, or_false] at valid
      have ascii : char.toNat < 0x80 := by
        rcases valid with rfl | rfl | rfl | rfl | rfl | rfl | rfl | rfl <;>
          decide
      have bytes : asBytes (StringUnit.escape char).text =
          [0x5C, UInt8.ofNat char.toNat] := by
        simp only [StringUnit.text, asBytes_cons, asBytes_nil,
          utf8EncodeChar_ascii ascii]
        rfl
      rw [bytes]
      exact stringSpan_escape _ rest
  | unicode digits =>
      simp only [StringUnit.valid, Bool.and_eq_true, List.all_eq_true]
        at valid
      have bytes : asBytes (StringUnit.unicode digits).text =
          0x5C :: 0x75 :: asBytes digits := rfl
      have differs : ∀ char ∈ digits, char ≠ '\x22' ∧ char ≠ '\x5c' := by
        intro char member
        constructor
        · rintro rfl
          exact absurd (valid.2 _ member) (by decide)
        · rintro rfl
          exact absurd (valid.2 _ member) (by decide)
      have quiet : Quiet (asBytes digits) := by
        constructor
        · intro member
          obtain ⟨char, charMember, encoded⟩ := List.mem_flatMap.mp member
          exact not_mem_utf8EncodeChar (differs char charMember).1
            (by decide) encoded
        · intro member
          obtain ⟨char, charMember, encoded⟩ := List.mem_flatMap.mp member
          exact not_mem_utf8EncodeChar (differs char charMember).2
            (by decide) encoded
      rw [bytes, List.cons_append, List.cons_append, stringSpan_escape,
        stringSpan_quiet quiet, List.length_cons, List.length_cons]
      omega

/-- A string is passed over to its closing quote. -/
theorem stringSpan_units
    (units : List StringUnit) (valid : units.all StringUnit.valid = true)
    (rest : Bytes) :
    stringSpan
        (asBytes (units.flatMap StringUnit.text) ++ 0x22 :: rest) =
      (asBytes (units.flatMap StringUnit.text)).length + 1 := by
  induction units with
  | nil => exact stringSpan_quote rest
  | cons unit others induction =>
      simp only [List.all_cons, Bool.and_eq_true] at valid
      rw [List.flatMap_cons, asBytes_append, List.append_assoc,
        stringSpan_unit valid.1, induction valid.2, List.length_append]
      omega

/-- The first byte of a string character is no quote. -/
theorem head_ne_quote
    {unit : StringUnit} (valid : unit.valid = true) :
    ∃ byte rest, asBytes unit.text = byte :: rest ∧ byte ≠ 0x22 := by
  cases unit with
  | plain char =>
      simp only [StringUnit.valid, Bool.and_eq_true, bne_iff_ne] at valid
      have quiet := quiet_utf8EncodeChar valid.1.2 valid.2
      cases encoded : String.utf8EncodeChar char with
      | nil => exact absurd encoded String.utf8EncodeChar_ne_nil
      | cons byte others =>
          refine ⟨byte, others, by simp [StringUnit.text, encoded], ?_⟩
          rintro rfl
          rw [encoded] at quiet
          exact quiet.1 List.mem_cons_self
  | escape char =>
      exact ⟨0x5C, asBytes [char], rfl, by decide⟩
  | unicode digits =>
      exact ⟨0x5C, asBytes ('u' :: digits), rfl, by decide⟩

theorem graphqlLexFrom_string
    (state : LexState) {units : List StringUnit} {following : Text}
    (valid : units.all StringUnit.valid = true)
    (ends : (Lexeme.string units).lookahead following = true) :
    graphqlLexFrom state
        (asBytes (Lexeme.string units).text ++ asBytes following) =
      graphqlLexFrom state (asBytes following) := by
  have bytes : asBytes (Lexeme.string units).text ++ asBytes following =
      0x22 :: (asBytes (units.flatMap StringUnit.text) ++
        0x22 :: asBytes following) := by
    simp only [Lexeme.text, List.cons_append, asBytes_cons, asBytes_append,
      asBytes_nil, List.append_nil, List.append_assoc]
    rfl
  have ordinary :
      (asBytes (units.flatMap StringUnit.text) ++
        0x22 :: asBytes following).take 2 ≠ [0x22, 0x22] := by
    cases units with
    | nil =>
        cases following with
        | nil => simp
        | cons char rest =>
            simp only [Lexeme.lookahead, Lexeme.excluded, List.head?_cons,
              Option.any_some, Bool.not_eq_true', beq_eq_false_iff_ne]
              at ends
            have absent := not_mem_utf8EncodeChar ends (by decide)
            cases encoded : String.utf8EncodeChar char with
            | nil => exact absurd encoded String.utf8EncodeChar_ne_nil
            | cons byte others =>
                rw [encoded] at absent
                intro quotes
                simp only [List.flatMap_nil, asBytes_nil, List.nil_append,
                  asBytes_cons, encoded, List.cons_append,
                  List.take_succ_cons, List.take_zero, List.cons.injEq,
                  true_and, and_true] at quotes
                exact absent (quotes ▸ List.mem_cons_self)
    | cons unit others =>
        simp only [List.all_cons, Bool.and_eq_true] at valid
        obtain ⟨byte, rest, first, differs⟩ := head_ne_quote valid.1
        simp [first, differs]
  have step : graphqlStep state 0x22
      (asBytes (units.flatMap StringUnit.text) ++
        0x22 :: asBytes following) =
      (state, (asBytes (units.flatMap StringUnit.text)).length + 1) := by
    rw [graphqlStep, if_neg (by decide), if_pos rfl, if_neg ordinary,
      stringSpan_units units valid]
  rw [bytes, graphqlLexFrom_cons, step, ← List.drop_drop, List.drop_left]
  rfl

/-! ## Block strings -/

/-- What is left after the block string that the lexer reads. -/
def afterBlock (bytes : Bytes) : Bytes :=
  bytes.drop (blockStringSpan bytes)

theorem afterBlock_close (rest : Bytes) :
    afterBlock (0x22 :: 0x22 :: 0x22 :: rest) = rest := by
  rw [afterBlock, blockStringSpan.eq_def]
  rfl

theorem afterBlock_escape (byte : UInt8) (rest : Bytes) :
    afterBlock (0x5C :: byte :: rest) = afterBlock rest := by
  rw [afterBlock, blockStringSpan.eq_def]
  rfl

theorem afterBlock_other
    {byte : UInt8} {rest : Bytes} (noBackslash : byte ≠ 0x5C)
    (noClose : ¬ (byte = 0x22 ∧ rest.take 2 = [0x22, 0x22])) :
    afterBlock (byte :: rest) = afterBlock rest := by
  rw [afterBlock, blockStringSpan.eq_def]
  dsimp only
  rw [if_neg noClose, if_neg noBackslash]
  rfl

theorem afterBlock_quiet
    {bytes : Bytes} (quiet : Quiet bytes) (rest : Bytes) :
    afterBlock (bytes ++ rest) = afterBlock rest := by
  induction bytes with
  | nil => rfl
  | cons byte others induction =>
      obtain ⟨noQuote, noBackslash⟩ := quiet
      rw [List.mem_cons, not_or] at noQuote noBackslash
      rw [List.cons_append, afterBlock_other (Ne.symm noBackslash.1)
        fun close => noQuote.1 close.1.symm]
      exact induction ⟨noQuote.2, noBackslash.2⟩

/-- Two quotes with no third are passed over. -/
theorem afterBlock_twoQuotes
    {rest : Bytes} (noQuote : ∀ bytes, rest ≠ 0x22 :: bytes) :
    afterBlock (0x22 :: 0x22 :: rest) = afterBlock rest := by
  cases rest with
  | nil => rfl
  | cons byte later =>
      have differs : byte ≠ 0x22 := by
        rintro rfl
        exact noQuote later rfl
      rw [afterBlock_other (by decide) (by simp [differs]),
        afterBlock_other (by decide) (by simp [differs])]

/-- A quote byte is a quote character. -/
theorem head_eq_quote
    {char : Char} {text : Text} {rest bytes : Bytes}
    (first : asBytes (char :: text) ++ rest = 0x22 :: bytes) :
    char = '\x22' ∧ asBytes text ++ rest = bytes := by
  by_cases quote : char = '\x22'
  · subst quote
    exact ⟨rfl, (List.cons.inj first).2⟩
  · have absent := not_mem_utf8EncodeChar quote (by decide)
    rw [asBytes_cons] at first
    cases encoded : String.utf8EncodeChar char with
    | nil => exact absurd encoded String.utf8EncodeChar_ne_nil
    | cons byte others =>
        rw [encoded] at absent first
        have same : byte = 0x22 := (List.cons.inj first).1
        subst same
        exact absurd List.mem_cons_self absent

theorem blockText_cases (units : List BlockUnit) :
    ∃ first second rest, blockText units = first :: second :: rest := by
  cases units with
  | nil => exact ⟨_, _, _, rfl⟩
  | cons unit others =>
      cases unit with
      | escapedQuotes => exact ⟨_, _, _, rfl⟩
      | plain char =>
          cases others with
          | nil => exact ⟨_, _, _, rfl⟩
          | cons next later => cases next <;> exact ⟨_, _, _, rfl⟩

/-- Two quote bytes are two quote characters. -/
theorem take_two_ne
    {units : List BlockUnit} {rest : Bytes}
    (noClose :
      tripleQuote.isPrefixOf ('\x22' :: blockText units) = false) :
    (asBytes (blockText units) ++ rest).take 2 ≠ [0x22, 0x22] := by
  obtain ⟨first, second, others, split⟩ := blockText_cases units
  rw [split] at noClose ⊢
  intro quotes
  cases bytes : asBytes (first :: second :: others) ++ rest with
  | nil =>
      rw [bytes] at quotes
      cases quotes
  | cons byte later =>
      rw [bytes] at quotes
      cases later with
      | nil => simp at quotes
      | cons next final =>
          simp only [List.take_succ_cons, List.take_zero, List.cons.injEq,
            and_true] at quotes
          obtain ⟨rfl, rfl⟩ := quotes
          obtain ⟨rfl, remaining⟩ := head_eq_quote bytes
          obtain ⟨rfl, -⟩ := head_eq_quote remaining
          simp [tripleQuote] at noClose

/-- Two adjacent quotes with no third are an empty string. -/
theorem graphqlLexFrom_twoQuotes
    (state : LexState) {following : Text}
    (ends : following.head? ≠ some '\x22') :
    graphqlLexFrom state (0x22 :: 0x22 :: asBytes following) =
      graphqlLexFrom state (asBytes following) := by
  have allowed : (Lexeme.string []).lookahead following = true := by
    cases following with
    | nil => rfl
    | cons char rest =>
        simpa [Lexeme.lookahead, Lexeme.excluded] using ends
  exact graphqlLexFrom_string state rfl allowed

/--
From inside a block string the lexer arrives after it.  When the backslashes
just before are odd in number, it has passed over one more byte.
-/
def Arrives (state : LexState) (following : Text) (odd : Bool)
    (units : List BlockUnit) : Prop :=
  graphqlLexFrom state (afterBlock
      ((asBytes (blockText units)).drop (if odd then 1 else 0) ++
        asBytes following)) =
    graphqlLexFrom state (asBytes following)

/-- The quotes after an escape close the string only at its end. -/
theorem arrives_escapedQuotes
    {state : LexState} {following : Text} {rest : List BlockUnit}
    (next : (if rest.isEmpty then following else blockText rest).head? ≠
      some '\x22')
    (later : Arrives state following false rest) :
    Arrives state following false (.escapedQuotes :: rest) := by
  have opening :
      (asBytes (blockText (.escapedQuotes :: rest))).drop
          (if false = true then 1 else 0) ++ asBytes following =
        0x5C :: 0x22 :: 0x22 :: 0x22 ::
          (asBytes (blockText rest) ++ asBytes following) := rfl
  rw [Arrives, opening, afterBlock_escape]
  cases rest with
  | nil =>
      have early : afterBlock (0x22 :: 0x22 ::
          (asBytes (blockText []) ++ asBytes following)) =
          0x22 :: 0x22 :: asBytes following :=
        afterBlock_close _
      rw [early]
      exact graphqlLexFrom_twoQuotes state next
  | cons unit others =>
      have noQuote : ∀ bytes,
          asBytes (blockText (unit :: others)) ++ asBytes following ≠
            0x22 :: bytes := by
        intro bytes same
        obtain ⟨first, second, later, split⟩ :=
          blockText_cases (unit :: others)
        rw [split] at same
        have quote := (head_eq_quote same).1
        simp [split, quote] at next
      rw [afterBlock_twoQuotes noQuote]
      exact later

/-- A backslash makes the lexer pass over the byte behind it. -/
theorem arrives_backslash
    {state : LexState} {following : Text} {rest : List BlockUnit}
    (later : Arrives state following true rest) :
    Arrives state following false (.plain '\x5c' :: rest) := by
  obtain ⟨first, second, others, split⟩ := blockText_cases rest
  cases encoded : String.utf8EncodeChar first with
  | nil => exact absurd encoded String.utf8EncodeChar_ne_nil
  | cons byte bytes =>
      have opening :
          (asBytes (blockText (.plain '\x5c' :: rest))).drop
              (if false = true then 1 else 0) ++ asBytes following =
            0x5C :: (asBytes (blockText rest) ++ asBytes following) := rfl
      rw [Arrives] at later ⊢
      rw [opening]
      rw [split, asBytes_cons, encoded] at later ⊢
      exact (congrArg _ (afterBlock_escape _ _)).trans later

theorem arrives_quote
    {state : LexState} {following : Text} {rest : List BlockUnit}
    (noClose : tripleQuote.isPrefixOf ('\x22' :: blockText rest) = false)
    (later : Arrives state following false rest) :
    Arrives state following false (.plain '\x22' :: rest) := by
  have opening :
      (asBytes (blockText (.plain '\x22' :: rest))).drop
          (if false = true then 1 else 0) ++ asBytes following =
        0x22 :: (asBytes (blockText rest) ++ asBytes following) := rfl
  rw [Arrives, opening, afterBlock_other (by decide)
    fun close => take_two_ne noClose close.2]
  exact later

/-- Any other character is passed over, with or without its first byte. -/
theorem arrives_quiet
    {state : LexState} {following : Text} {rest : List BlockUnit}
    {char : Char} (quote : char ≠ '\x22') (backslash : char ≠ '\x5c')
    (odd : Bool) (later : Arrives state following false rest) :
    Arrives state following odd (.plain char :: rest) := by
  have quiet := quiet_utf8EncodeChar quote backslash
  have fewer : Quiet ((String.utf8EncodeChar char).drop
      (if odd then 1 else 0)) :=
    ⟨fun member => quiet.1 (List.mem_of_mem_drop member),
      fun member => quiet.2 (List.mem_of_mem_drop member)⟩
  have positive : (if odd then 1 else 0) ≤
      (String.utf8EncodeChar char).length := by
    have nonempty := List.length_pos_of_ne_nil
      (String.utf8EncodeChar_ne_nil (c := char))
    split <;> omega
  have opening :
      (asBytes (blockText (.plain char :: rest))).drop
          (if odd then 1 else 0) =
        (String.utf8EncodeChar char).drop (if odd then 1 else 0) ++
          asBytes (blockText rest) := by
    rw [blockText, asBytes_cons, List.drop_append_of_le_length positive]
  rw [Arrives, opening, List.append_assoc, afterBlock_quiet fewer]
  exact later

theorem arrives_of_paired
    (state : LexState) (following : Text) (units : List BlockUnit)
    (odd : Bool)
    (valid : blockValid units = true)
    (paired : escapesPaired following odd units = true)
    (unclosed : odd = true →
      tripleQuote.isPrefixOf (blockText units) = false) :
    Arrives state following odd units := by
  induction units generalizing odd with
  | nil =>
      cases odd with
      | true => exact absurd (unclosed rfl) (by decide)
      | false => exact congrArg _ (afterBlock_close _)
  | cons unit rest induction =>
      cases unit with
      | escapedQuotes =>
          simp only [escapesPaired, Bool.and_eq_true, Bool.not_eq_true',
            bne_iff_ne] at paired
          obtain ⟨⟨rfl, next⟩, pairedRest⟩ := paired
          exact arrives_escapedQuotes next
            (induction false valid pairedRest (by simp))
      | plain char =>
          simp only [blockValid, Bool.and_eq_true, Bool.not_eq_true']
            at valid
          obtain ⟨⟨⟨-, noClose⟩, noEscape⟩, validRest⟩ := valid
          simp only [escapesPaired] at paired
          by_cases backslash : char = '\x5c'
          · subst backslash
            cases odd with
            | true =>
                exact induction false validRest (by simpa using paired)
                  (by simp)
            | false =>
                apply arrives_backslash
                apply induction true validRest (by simpa using paired)
                simpa [List.isPrefixOf] using noEscape
          · rw [beq_eq_false_iff_ne.mpr backslash, Bool.false_and] at paired
            have later := induction false validRest paired (by simp)
            by_cases quote : char = '\x22'
            · subst quote
              cases odd with
              | true => exact later
              | false => exact arrives_quote noClose later
            · exact arrives_quiet quote backslash odd later

theorem graphqlLexFrom_blockString
    (state : LexState) {units : List BlockUnit} {following : Text}
    (valid : blockValid units = true)
    (paired : escapesPaired following false units = true) :
    graphqlLexFrom state
        (asBytes (Lexeme.blockString units).text ++ asBytes following) =
      graphqlLexFrom state (asBytes following) := by
  have bytes : asBytes (Lexeme.blockString units).text ++
      asBytes following =
      0x22 :: 0x22 :: 0x22 ::
        (asBytes (blockText units) ++ asBytes following) := by
    rw [Lexeme.text, asBytes_append, List.append_assoc]
    rfl
  rw [bytes, graphqlLexFrom_cons]
  exact arrives_of_paired state following units false valid paired
    (by simp)

/-! ## Whole texts -/

theorem sourceCharacter_of_range
    {char : Char} (low : 0x20 ≤ char.toNat) (high : char.toNat ≤ 0xFFFF) :
    sourceCharacter char = true := by
  simp [sourceCharacter, low, high]

/-- A lexeme starts with a source character. -/
theorem Lexeme.head_source
    {lexeme : Lexeme} (valid : lexeme.valid = true) :
    ∃ char rest, lexeme.text = char :: rest ∧
      sourceCharacter char = true := by
  cases lexeme with
  | byteOrderMark => exact ⟨_, _, rfl, by decide⟩
  | whitespace char =>
      simp only [Lexeme.valid, Bool.or_eq_true, beq_iff_eq] at valid
      refine ⟨char, [], rfl, ?_⟩
      rcases valid with rfl | rfl <;> decide
  | lineFeed => exact ⟨_, _, rfl, by decide⟩
  | carriageReturn => exact ⟨_, _, rfl, by decide⟩
  | carriageReturnLineFeed => exact ⟨_, _, rfl, by decide⟩
  | comma => exact ⟨_, _, rfl, by decide⟩
  | comment body => exact ⟨_, _, rfl, by decide⟩
  | punctuator char =>
      refine ⟨char, [], rfl, ?_⟩
      have all : punctuators.all sourceCharacter = true := by decide
      exact List.all_eq_true.mp all char (by simpa [Lexeme.valid] using valid)
  | spread => exact ⟨_, _, rfl, by decide⟩
  | name first others =>
      simp only [Lexeme.valid, Bool.and_eq_true, nameStart_iff] at valid
      exact ⟨first, others, rfl,
        sourceCharacter_of_range (by omega) (by omega)⟩
  | number negative integer fraction exponent =>
      cases negative with
      | true => exact ⟨_, _, rfl, by decide⟩
      | false =>
          simp only [Lexeme.valid, digitRun, Bool.and_eq_true,
            Bool.or_eq_true, beq_iff_eq] at valid
          obtain ⟨⟨rfl | ⟨⟨nonempty, run⟩, -⟩, -⟩, -⟩ := valid
          · exact ⟨_, _, rfl, by decide⟩
          · cases integer with
            | nil => simp at nonempty
            | cons char rest =>
                simp only [List.all_cons, Bool.and_eq_true, digit_iff]
                  at run
                exact ⟨char, _, rfl,
                  sourceCharacter_of_range (by omega) (by omega)⟩
  | string units => exact ⟨_, _, rfl, by decide⟩
  | blockString units => exact ⟨_, _, rfl, by decide⟩

theorem source_head
    {lexemes : List Lexeme} (lexed : wellLexed lexemes = true) :
    (source lexemes).head?.all sourceCharacter = true := by
  cases lexemes with
  | nil => rfl
  | cons lexeme rest =>
      simp only [wellLexed, Bool.and_eq_true] at lexed
      obtain ⟨char, others, text, readable⟩ :=
        Lexeme.head_source lexed.1.1
      simp [source, text, readable]

/-- How a comment can end. -/
theorem comment_ends
    {body following : Text} {state : LexState}
    (ahead : (Lexeme.comment body).lookahead following = true)
    (regular : (Lexeme.comment body).regular state following = true)
    (readable : following.head?.all sourceCharacter = true) :
    following = [] ∨ following = ['\r'] ∨
      (∃ rest, following = '\n' :: rest) ∨
        ∃ rest, following = '\r' :: '\n' :: rest := by
  cases following with
  | nil => exact Or.inl rfl
  | cons char rest =>
      simp only [List.head?_cons, Option.all_some] at readable
      simp only [Lexeme.lookahead, Lexeme.excluded, List.head?_cons,
        Option.any_some, commentChar, readable, Bool.true_and,
        Bool.not_eq_true', Bool.and_eq_false_iff, bne_eq_false_iff_eq]
        at ahead
      rcases ahead with rfl | rfl
      · exact Or.inr (Or.inr (Or.inl ⟨rest, rfl⟩))
      · cases rest with
        | nil => exact Or.inr (Or.inl rfl)
        | cons next others =>
            have lineFeed : next = '\n' := by
              simpa [Lexeme.regular] using regular
            exact Or.inr (Or.inr (Or.inr ⟨others, by rw [lineFeed]⟩))

/-- One punctuator is one turn of the loop. -/
theorem graphqlLexFrom_punctuator
    (state : LexState) {char : Char}
    (valid : (Lexeme.punctuator char).valid = true) (following : Text) :
    graphqlLexFrom state
        (asBytes (Lexeme.punctuator char).text ++ asBytes following) =
      graphqlLexFrom ((Lexeme.punctuator char).count state)
        (asBytes following) := by
  simp only [Lexeme.valid, punctuators, List.contains_iff_mem,
    List.mem_cons, List.not_mem_nil, or_false] at valid
  rcases valid with rfl | rfl | rfl | rfl | rfl | rfl | rfl | rfl | rfl |
    rfl | rfl | rfl | rfl <;> rfl

/-- The lexer reads one lexeme as the reference count does. -/
theorem graphqlLexFrom_lexeme
    (state : LexState) (lexeme : Lexeme) (following : Text)
    (valid : lexeme.valid = true)
    (ahead : lexeme.lookahead following = true)
    (regular : lexeme.regular state following = true)
    (readable : following.head?.all sourceCharacter = true) :
    graphqlLexFrom state (asBytes lexeme.text ++ asBytes following) =
      graphqlLexFrom (lexeme.count state) (asBytes following) := by
  cases lexeme with
  | byteOrderMark => rfl
  | whitespace char =>
      simp only [Lexeme.valid, Bool.or_eq_true, beq_iff_eq] at valid
      rcases valid with rfl | rfl <;> rfl
  | lineFeed => rfl
  | carriageReturn => rfl
  | carriageReturnLineFeed => rfl
  | comma => rfl
  | comment body =>
      exact graphqlLexFrom_comment state valid
        (comment_ends ahead regular readable)
  | punctuator char => exact graphqlLexFrom_punctuator state valid following
  | spread => rfl
  | name first others =>
      simp only [Lexeme.valid, Bool.and_eq_true] at valid
      rw [Lexeme.lookahead, Bool.not_eq_true'] at ahead
      exact graphqlLexFrom_name state valid.1 valid.2 ahead
  | number negative integer fraction exponent =>
      refine graphqlLexFrom_number state valid ahead fun some => ?_
      cases exponent with
      | none => cases some
      | some exponent => simpa [Lexeme.regular] using regular
  | string units => exact graphqlLexFrom_string state valid ahead
  | blockString units =>
      exact graphqlLexFrom_blockString state valid regular

/-- The lexer follows the reference count through a whole text. -/
theorem graphqlLexFrom_source
    (state : LexState) (lexemes : List Lexeme)
    (lexed : wellLexed lexemes = true)
    (regular : regularFrom state lexemes = true) :
    graphqlLexFrom state (asBytes (source lexemes)) =
      lexemes.foldl Lexeme.count state := by
  induction lexemes generalizing state with
  | nil => rfl
  | cons lexeme rest induction =>
      simp only [wellLexed, regularFrom, Bool.and_eq_true] at lexed regular
      have split : source (lexeme :: rest) = lexeme.text ++ source rest :=
        List.flatMap_cons
      rw [split, asBytes_append,
        graphqlLexFrom_lexeme state lexeme (source rest) lexed.1.1
          lexed.1.2 regular.1 (source_head lexed.2),
        List.foldl_cons]
      exact induction _ lexed.2 regular.2

/--
On every accepted text whose comments end their lines with a line feed or the
text, whose escaped triple quotes survive a byte-wise reading and whose
exponents stay out of selection sets, the lexer counts what the reference
token stream counts.
-/
theorem graphqlLex_eq_referenceStats
    (text : Text) (lexemes : List Lexeme)
    (accepted : Accepts text lexemes)
    (regular : regularFrom {} lexemes = true) :
    graphqlLex text = referenceStats lexemes := by
  rw [graphqlLex, accepted.1,
    graphqlLexFrom_source {} lexemes accepted.2 regular]
  rfl

/-- A comment ended by a carriage return and line feed, then a selection. -/
def commentedSelection : List Lexeme :=
  [.comment "c".toList, .carriageReturnLineFeed, .punctuator '\x7b',
    .name 'a' [], .punctuator '\x7d']

theorem graphqlLex_commentedSelection :
    graphqlLex (source commentedSelection) =
      referenceStats commentedSelection :=
  graphqlLex_eq_referenceStats _ commentedSelection
    ⟨rfl, by decide +kernel⟩ (by decide +kernel)

/-- A comment ended by a lone carriage return, then a selection. -/
def hiddenSelection : List Lexeme :=
  [.comment "c".toList, .carriageReturn, .punctuator '\x7b',
    .name 'a' [], .punctuator '\x7d']

/-- The selection is hidden from the lexer. -/
theorem graphqlLex_hidden_by_carriageReturn :
    ¬ ∀ (text : Text) (lexemes : List Lexeme), Accepts text lexemes →
      graphqlLex text = referenceStats lexemes := by
  intro claimed
  have same := claimed (source hiddenSelection) hiddenSelection
    ⟨rfl, by decide +kernel⟩
  exact absurd same (by decide +kernel)

end LightWaf.Normalizer.Grammar
