import Mathlib.Data.List.TakeWhile
import Mathlib.Tactic

/-!
# Documents of TOML

A reader of the part of TOML that is written line by line: table headers and
`key = value` pairs with comments, keys bare or quoted, and strings, integers
and booleans on one line.  A document is a finite map from the paths of its
keys, together with the tables that its headers open.  What the reader accepts
is a TOML document of this meaning; arrays, inline tables, dotted keys in pairs
and strings over several lines are not read.
-/

namespace LightWaf.Theory.Toml

/-! ## Characters -/

/-- A character of a bare key. -/
def isBareChar (char : Char) : Bool :=
  char.isAlphanum || char == '_' || char == '-'

/-- A control character, which no string or comment may hold. -/
def isControl (char : Char) : Bool :=
  (char.toNat < 0x20 && char != '\t') || char == '\x7f'

/-- A space or a tab. -/
def isBlank (char : Char) : Bool :=
  char == ' ' || char == '\t'

/-- The text without the blanks at its start. -/
def skipBlanks (text : List Char) : List Char :=
  text.dropWhile isBlank

/-- Nothing but blanks and a comment is left of a line. -/
def endsLine (text : List Char) : Bool :=
  match skipBlanks text with
  | [] => true
  | char :: comment => char == '#' && comment.all fun char => !isControl char

/-! ## Strings -/

/-- The value of a hexadecimal digit. -/
def hexDigit (char : Char) : Option Nat :=
  if '0' ≤ char ∧ char ≤ '9' then some (char.toNat - '0'.toNat)
  else if 'a' ≤ char ∧ char ≤ 'f' then some (char.toNat - 'a'.toNat + 10)
  else if 'A' ≤ char ∧ char ≤ 'F' then some (char.toNat - 'A'.toNat + 10)
  else none

/-- The scalar that hexadecimal digits name. -/
def hexScalar (digits : List Char) : Option Char := do
  let value ← digits.foldlM
    (fun value char => (hexDigit char).map (value * 16 + ·)) 0
  if value.isValidChar then some (Char.ofNat value) else none

/-- The character that a letter after a backslash stands for. -/
def escaped (letter : Char) : Option Char :=
  if letter = 'b' then some '\x08'
  else if letter = 't' then some '\t'
  else if letter = 'n' then some '\n'
  else if letter = 'f' then some '\x0c'
  else if letter = 'r' then some '\r'
  else if letter = '\x22' then some '\x22'
  else if letter = '\x5c' then some '\x5c'
  else none

/-- A character in front of a string that is read on. -/
def prepend (char : Char) :
    Option (List Char × List Char) → Option (List Char × List Char) :=
  Option.map fun (text, rest) => (char :: text, rest)

/-- The rest of a string after its quote, and what follows it. -/
def readBasic : List Char → Option (List Char × List Char)
  | [] => none
  | head :: rest =>
      if head = '\x22' then some ([], rest)
      else if head = '\x5c' then
        match rest with
        | [] => none
        | letter :: rest =>
            if letter = 'u' then
              match rest with
              | a :: b :: c :: d :: rest =>
                  (hexScalar [a, b, c, d]).bind fun char =>
                    prepend char (readBasic rest)
              | _ => none
            else if letter = 'U' then
              match rest with
              | a :: b :: c :: d :: e :: f :: g :: h :: rest =>
                  (hexScalar [a, b, c, d, e, f, g, h]).bind fun char =>
                    prepend char (readBasic rest)
              | _ => none
            else
              (escaped letter).bind fun char => prepend char (readBasic rest)
      else if isControl head then none
      else prepend head (readBasic rest)

/-- The rest of a literal string after its quote, and what follows it. -/
def readLiteral : List Char → Option (List Char × List Char)
  | [] => none
  | head :: rest =>
      if head = '\x27' then some ([], rest)
      else if isControl head then none
      else prepend head (readLiteral rest)

/-! ## Keys and values -/

/-- A key that needs no quotes. -/
def IsBare (key : List Char) : Prop :=
  key ≠ [] ∧ ∀ char ∈ key, isBareChar char = true

instance (key : List Char) : Decidable (IsBare key) :=
  inferInstanceAs (Decidable (_ ∧ _))

/-- A key at the start of a text, and what follows it. -/
def readKey (text : List Char) : Option (List Char × List Char) :=
  match text with
  | [] => none
  | head :: rest =>
      if head = '\x22' then readBasic rest
      else if head = '\x27' then readLiteral rest
      else if isBareChar head then
        some (head :: rest.takeWhile isBareChar, rest.dropWhile isBareChar)
      else none

/-- Keys with dots in between, at most as many as the fuel allows. -/
def readPath : (fuel : Nat) → List Char →
    Option (List (List Char) × List Char)
  | 0, _ => none
  | fuel + 1, text => do
      let (key, rest) ← readKey (skipBlanks text)
      match skipBlanks rest with
      | [] => some ([key], [])
      | next :: more =>
          if next = '.' then do
            let (keys, rest) ← readPath fuel more
            some (key :: keys, rest)
          else some ([key], next :: more)

/-- A value that is not a table. -/
inductive Scalar
  | string (text : List Char)
  | integer (value : Int)
  | boolean (value : Bool)
deriving DecidableEq

/-- A decimal number without leading zeros. -/
def readDecimal (digits : List Char) : Option Nat :=
  if digits = [] ∨ (digits.head? = some '0' ∧ digits.length ≠ 1) then none
  else if digits.all Char.isDigit then some (Nat.ofDigitChars 10 digits 0)
  else none

/-- An integer of 64 bits. -/
def readInteger (token : List Char) : Option Int :=
  match token with
  | [] => none
  | head :: rest =>
      let value : Option Int :=
        if head = '-' then (readDecimal rest).map Int.negOfNat
        else if head = '+' then (readDecimal rest).map Int.ofNat
        else (readDecimal token).map Int.ofNat
      value.filter fun value => -2 ^ 63 ≤ value ∧ value < 2 ^ 63

/-- A boolean or an integer. -/
def readToken (token : List Char) : Option Scalar :=
  if token = ['t', 'r', 'u', 'e'] then some (.boolean true)
  else if token = ['f', 'a', 'l', 's', 'e'] then some (.boolean false)
  else (readInteger token).map .integer

/-- A character of a boolean or an integer. -/
def isTokenChar (char : Char) : Bool :=
  char.isAlphanum || char == '+' || char == '-'

/-- A value at the start of a text, and what follows it. -/
def readValue (text : List Char) : Option (Scalar × List Char) :=
  match text with
  | [] => none
  | head :: rest =>
      if head = '\x22' then
        (readBasic rest).map fun (text, rest) => (.string text, rest)
      else if head = '\x27' then
        (readLiteral rest).map fun (text, rest) => (.string text, rest)
      else
        (readToken (text.takeWhile isTokenChar)).map fun value =>
          (value, text.dropWhile isTokenChar)

/-! ## Lines and documents -/

/-- What stands on a line. -/
inductive Line
  | blank
  | header (path : List (List Char))
  | pair (key : List Char) (value : Scalar)
deriving DecidableEq

/-- A header after its bracket. -/
def readHeader (text : List Char) : Option Line := do
  let (path, rest) ← readPath (text.length + 1) text
  match rest with
  | [] => none
  | next :: rest =>
      if next = ']' ∧ endsLine rest then some (.header path) else none

/-- A key and its value. -/
def readPair (text : List Char) : Option Line := do
  let (key, rest) ← readKey text
  match skipBlanks rest with
  | [] => none
  | next :: rest =>
      if next = '=' then do
        let (value, rest) ← readValue (skipBlanks rest)
        if endsLine rest then some (.pair key value) else none
      else none

/-- A line. -/
def readLine (text : List Char) : Option Line :=
  if endsLine text then some .blank
  else
    match skipBlanks text with
    | [] => none
    | head :: rest =>
        if head = '[' then readHeader rest else readPair (head :: rest)

/-- The tables that a document opens, and its values by path. -/
structure Document where
  headers : List (List (List Char))
  values : List (List (List Char) × Scalar)
deriving DecidableEq

/-- The document of some lines, within a table. -/
def assemble (table : List (List Char)) : List Line → Document
  | [] => ⟨[], []⟩
  | .blank :: lines => assemble table lines
  | .header path :: lines =>
      let document := assemble path lines
      ⟨path :: document.headers, document.values⟩
  | .pair key value :: lines =>
      let document := assemble table lines
      ⟨document.headers, (table ++ [key], value) :: document.values⟩

/-- The paths of the values of a document. -/
def Document.paths (document : Document) : List (List (List Char)) :=
  document.values.map Prod.fst

/-- No table is opened twice, no key is given twice, and no value is a table. -/
structure Consistent (headers paths : List (List (List Char))) : Prop where
  nodupHeaders : headers.Nodup
  nodupPaths : paths.Nodup
  noTable : ∀ path ∈ paths, ∀ header ∈ headers, ¬ path <+: header
  noInner : ∀ path ∈ paths, ∀ other ∈ paths, path <+: other → path = other

instance (headers paths : List (List (List Char))) :
    Decidable (Consistent headers paths) :=
  decidable_of_iff
    (headers.Nodup ∧ paths.Nodup ∧
      (∀ path ∈ paths, ∀ header ∈ headers, ¬ path <+: header) ∧
      ∀ path ∈ paths, ∀ other ∈ paths, path <+: other → path = other)
    ⟨fun ⟨nodupHeaders, nodupPaths, noTable, noInner⟩ =>
      ⟨nodupHeaders, nodupPaths, noTable, noInner⟩,
      fun ⟨nodupHeaders, nodupPaths, noTable, noInner⟩ =>
        ⟨nodupHeaders, nodupPaths, noTable, noInner⟩⟩

/-- Read a document. -/
def readDocument (text : List Char) : Option Document := do
  let lines ← (text.splitOn '\n').mapM readLine
  let document := assemble [] lines
  if Consistent document.headers document.paths then some document else none

/-! ## Reading bare keys -/

section BareKeys

variable {key : List Char}

theorem takeWhile_bare
    (bare : ∀ char ∈ key, isBareChar char = true)
    {next : Char} (stops : isBareChar next = false) (rest : List Char) :
    (key ++ next :: rest).takeWhile isBareChar = key ∧
      (key ++ next :: rest).dropWhile isBareChar = next :: rest := by
  constructor
  · rw [List.takeWhile_append_of_pos bare,
      List.takeWhile_cons_of_neg (by simp [stops]), List.append_nil]
  · rw [List.dropWhile_append_of_pos bare,
      List.dropWhile_cons_of_neg (by simp [stops])]

theorem isBareChar_not_blank
    {char : Char} (bare : isBareChar char = true) : isBlank char = false := by
  rw [isBlank, Bool.or_eq_false_iff, beq_eq_false_iff_ne, beq_eq_false_iff_ne]
  constructor
  · rintro rfl
    exact absurd bare (by decide)
  · rintro rfl
    exact absurd bare (by decide)

theorem IsBare.exists_cons (bare : IsBare key) :
    ∃ head rest, key = head :: rest ∧ isBareChar head = true ∧
      ∀ char ∈ rest, isBareChar char = true := by
  obtain ⟨nonempty, all⟩ := bare
  obtain ⟨head, rest, rfl⟩ := List.exists_cons_of_ne_nil nonempty
  exact ⟨head, rest, rfl, all head List.mem_cons_self,
    fun char member => all char (List.mem_cons_of_mem _ member)⟩

/-- A bare key is read up to the first character that is not its own. -/
theorem IsBare.readKey
    (bare : IsBare key) {next : Char} (stops : isBareChar next = false)
    (rest : List Char) :
    readKey (key ++ next :: rest) = some (key, next :: rest) := by
  obtain ⟨head, tail, rfl, isBare, all⟩ := bare.exists_cons
  obtain ⟨taken, dropped⟩ := takeWhile_bare all stops rest
  have noQuote : head ≠ '\x22' := by
    rintro rfl
    exact absurd isBare (by decide)
  have noTick : head ≠ '\x27' := by
    rintro rfl
    exact absurd isBare (by decide)
  rw [List.cons_append, Toml.readKey, if_neg noQuote, if_neg noTick,
    if_pos isBare, taken, dropped]

/-- Nothing is skipped before a bare key. -/
theorem IsBare.skipBlanks (bare : IsBare key) (rest : List Char) :
    skipBlanks (key ++ rest) = key ++ rest := by
  obtain ⟨head, tail, rfl, isBare, -⟩ := bare.exists_cons
  rw [Toml.skipBlanks, List.cons_append, List.dropWhile_cons_of_neg]
  rw [isBareChar_not_blank isBare]
  exact Bool.false_ne_true

/-- Keys with dots between them. -/
def writePath (keys : List (List Char)) : List Char :=
  List.intercalate ['.'] keys

/-- A path of bare keys is read up to a bracket. -/
theorem readPath_writePath
    {keys : List (List Char)} (nonempty : keys ≠ [])
    (bare : ∀ key ∈ keys, IsBare key) {fuel : Nat}
    (enough : keys.length ≤ fuel) (rest : List Char) :
    readPath fuel (writePath keys ++ ']' :: rest) =
      some (keys, ']' :: rest) := by
  induction keys generalizing fuel with
  | nil => exact absurd rfl nonempty
  | cons key keys induction =>
      obtain ⟨isBare, others⟩ := List.forall_mem_cons.mp bare
      obtain ⟨fuel, rfl⟩ : ∃ less, fuel = less + 1 :=
        Nat.exists_eq_succ_of_ne_zero
          (Nat.ne_of_gt (Nat.lt_of_lt_of_le (Nat.succ_pos _) enough))
      cases keys with
      | nil =>
          have written : writePath [key] = key := by
            simp [writePath]
          rw [written, readPath, isBare.skipBlanks,
            isBare.readKey (by decide) rest]
          rfl
      | cons next keys =>
          have written : writePath (key :: next :: keys) =
              key ++ '.' :: writePath (next :: keys) := by
            simp [writePath]
          have later := induction (List.cons_ne_nil _ _) others
            (Nat.le_of_succ_le_succ enough)
          rw [written, List.append_assoc, List.cons_append, readPath,
            isBare.skipBlanks, isBare.readKey (by decide) _]
          simp only [Option.bind_eq_bind, Option.bind_some]
          rw [show Toml.skipBlanks ('.' :: (writePath (next :: keys) ++
            ']' :: rest)) = '.' :: (writePath (next :: keys) ++ ']' :: rest)
            from rfl]
          simp only [if_true, later, Option.bind_some]

theorem length_le_writePath (keys : List (List Char)) :
    keys.length ≤ (writePath keys).length + 1 := by
  induction keys with
  | nil => exact Nat.zero_le _
  | cons key keys induction =>
      cases keys with
      | nil => simp
      | cons next keys =>
          have written : writePath (key :: next :: keys) =
              key ++ '.' :: writePath (next :: keys) := by
            simp [writePath]
          rw [written, List.length_append, List.length_cons]
          rw [List.length_cons] at induction ⊢
          simp only [List.length_cons]
          omega

/-- The header of a table with bare keys. -/
theorem readLine_header
    {keys : List (List Char)} (nonempty : keys ≠ [])
    (bare : ∀ key ∈ keys, IsBare key) :
    readLine ('[' :: (writePath keys ++ [']'])) = some (.header keys) := by
  have enough : keys.length ≤ (writePath keys ++ [']']).length + 1 := by
    rw [List.length_append]
    exact (length_le_writePath keys).trans
      (Nat.succ_le_succ (Nat.le_add_right _ _))
  have read := readPath_writePath nonempty bare enough []
  show readHeader (writePath keys ++ [']']) = _
  rw [readHeader, read]
  rfl

/-- A line that starts with a bare key is a pair. -/
theorem IsBare.readLine (bare : IsBare key) (rest : List Char) :
    readLine (key ++ rest) = readPair (key ++ rest) := by
  have skipped := bare.skipBlanks rest
  obtain ⟨head, tail, rfl, isBare, -⟩ := bare.exists_cons
  have noComment : (head == '#') = false := by
    rw [beq_eq_false_iff_ne]
    rintro rfl
    exact absurd isBare (by decide)
  have noBracket : head ≠ '[' := by
    rintro rfl
    exact absurd isBare (by decide)
  rw [List.cons_append] at skipped ⊢
  have open' : endsLine (head :: (tail ++ rest)) = false := by
    rw [endsLine, skipped]
    simp only [noComment, Bool.false_and]
  rw [Toml.readLine, open', if_neg Bool.false_ne_true, skipped]
  exact if_neg noBracket

/-- A bare key, an equals sign and a value. -/
theorem readLine_pair (bare : IsBare key) (text : List Char) :
    readLine (key ++ ([' ', '=', ' '] ++ text)) =
      (readValue (Toml.skipBlanks text)).bind fun (value, rest) =>
        if endsLine rest then some (.pair key value) else none := by
  rw [bare.readLine, readPair, List.cons_append,
    bare.readKey (by decide) _]
  rfl

end BareKeys

/-! ## Reading numbers -/

theorem toDigits_head_zero
    {number : Nat} (zero : (Nat.toDigits 10 number).head? = some '0') :
    number = 0 := by
  induction number using Nat.strong_induction_on with
  | h number induction =>
      by_cases small : number < 10
      · rw [Nat.toDigits_of_lt_base small, List.head?_cons] at zero
        exact Nat.digitChar_eq_zero.mp (Option.some.inj zero)
      · rw [Nat.toDigits_of_base_le (by decide) (Nat.not_lt.mp small),
          List.head?_append_of_ne_nil _ Nat.toDigits_ne_nil] at zero
        have none := induction (number / 10) (by omega) zero
        omega

theorem all_isDigit_toDigits (number : Nat) :
    (Nat.toDigits 10 number).all Char.isDigit = true := by
  rw [List.all_eq_true]
  intro char member
  exact Nat.isDigit_of_mem_toDigits (by decide) (by decide) member

theorem readDecimal_toDigits (number : Nat) :
    readDecimal (Nat.toDigits 10 number) = some number := by
  have canonical : ¬ (Nat.toDigits 10 number = [] ∨
      ((Nat.toDigits 10 number).head? = some '0' ∧
        (Nat.toDigits 10 number).length ≠ 1)) := by
    rintro (empty | ⟨zero, long⟩)
    · exact Nat.toDigits_ne_nil empty
    · rw [toDigits_head_zero zero] at long
      exact long rfl
  rw [readDecimal, if_neg canonical, if_pos (all_isDigit_toDigits number),
    Nat.ofDigitChars_ten_toDigits]

theorem isTokenChar_of_isDigit
    {char : Char} (digit : char.isDigit = true) :
    isTokenChar char = true := by
  rw [isTokenChar, Char.isAlphanum, digit]
  simp

/-- A number within 64 bits is read back. -/
theorem readInteger_toDigits {number : Nat} (small : number < 2 ^ 63) :
    readInteger (Nat.toDigits 10 number) = some (number : Int) := by
  have digits := all_isDigit_toDigits number
  have read := readDecimal_toDigits number
  obtain ⟨head, rest, written⟩ :=
    List.exists_cons_of_ne_nil (Nat.toDigits_ne_nil (n := number) (b := 10))
  rw [written] at digits read ⊢
  rw [List.all_cons, Bool.and_eq_true] at digits
  have noMinus : head ≠ '-' := by
    rintro rfl
    exact absurd digits.1 (by decide)
  have noPlus : head ≠ '+' := by
    rintro rfl
    exact absurd digits.1 (by decide)
  have fits : decide (-2 ^ 63 ≤ (number : Int) ∧ (number : Int) < 2 ^ 63) =
      true := by
    rw [decide_eq_true_eq]
    omega
  rw [readInteger]
  simp only [if_neg noMinus, if_neg noPlus, read, Option.map_some]
  exact (Option.filter_some).trans (if_pos fits)

/-- A number is a value. -/
theorem readValue_toDigits {number : Nat} (small : number < 2 ^ 63) :
    readValue (Nat.toDigits 10 number) =
      some (.integer number, []) := by
  have digits := all_isDigit_toDigits number
  have read := readInteger_toDigits small
  have token : ∀ char ∈ Nat.toDigits 10 number, isTokenChar char = true :=
    fun char member =>
      isTokenChar_of_isDigit (List.all_eq_true.mp digits char member)
  have taken : (Nat.toDigits 10 number).takeWhile isTokenChar =
      Nat.toDigits 10 number := List.takeWhile_eq_self_iff.mpr token
  have dropped : (Nat.toDigits 10 number).dropWhile isTokenChar = [] :=
    List.dropWhile_eq_nil_iff.mpr token
  generalize Nat.toDigits 10 number = text at *
  cases text with
  | nil => cases read
  | cons head rest =>
      rw [List.all_cons, Bool.and_eq_true] at digits
      have differs : ∀ char : Char, char.isDigit = false → head ≠ char := by
        rintro char other rfl
        rw [digits.1] at other
        exact Bool.false_ne_true other.symm
      have noTrue : head :: rest ≠ ['t', 'r', 'u', 'e'] := fun same =>
        differs 't' (by decide) (List.cons.inj same).1
      have noFalse : head :: rest ≠ ['f', 'a', 'l', 's', 'e'] := fun same =>
        differs 'f' (by decide) (List.cons.inj same).1
      rw [readValue, if_neg (differs _ (by decide)),
        if_neg (differs _ (by decide)), taken, dropped, readToken,
        if_neg noTrue, if_neg noFalse, read]
      rfl

/-! ## Reading strings -/

theorem readBasic_quote (rest : List Char) :
    readBasic ('\x22' :: rest) = some ([], rest) := by
  rw [readBasic.eq_def]
  rfl

theorem readBasic_letter
    {letter : Char} (noShort : letter ≠ 'u') (noLong : letter ≠ 'U')
    (rest : List Char) :
    readBasic ('\x5c' :: letter :: rest) =
      (escaped letter).bind fun char => prepend char (readBasic rest) := by
  rw [readBasic.eq_def]
  simp only [if_neg noShort, if_neg noLong]
  rfl

theorem readBasic_plain
    {char : Char} (noQuote : char ≠ '\x22') (noEscape : char ≠ '\x5c')
    (printable : isControl char = false) (rest : List Char) :
    readBasic (char :: rest) = prepend char (readBasic rest) := by
  rw [readBasic.eq_def]
  simp only [if_neg noQuote, if_neg noEscape, printable,
    Bool.false_eq_true, if_false]

/-- No scalar is named between braces. -/
theorem readBasic_brace (rest : List Char) :
    readBasic ('\x5c' :: 'u' :: '\x7b' :: rest) = none := by
  match rest with
  | [] => rfl
  | [_] => rfl
  | [_, _] => rfl
  | b :: c :: d :: rest =>
      have noDigit : hexScalar ['\x7b', b, c, d] = none := rfl
      rw [readBasic.eq_def]
      simp only [noDigit]
      rfl

/-- A bare key and a string. -/
theorem readLine_string
    {key : List Char} (bare : IsBare key) (body : List Char) :
    readLine (key ++ ([' ', '=', ' '] ++ '\x22' :: body)) =
      (readBasic body).bind fun (text, rest) =>
        if endsLine rest then some (.pair key (.string text)) else none := by
  rw [readLine_pair bare]
  show ((readBasic body).map fun (text, rest) =>
    (Scalar.string text, rest)).bind _ = _
  rw [Option.bind_map]
  rfl

/-- A bare key and a number. -/
theorem readLine_number
    {key : List Char} (bare : IsBare key) {number : Nat}
    (small : number < 2 ^ 63) :
    readLine (key ++ ([' ', '=', ' '] ++ Nat.toDigits 10 number)) =
      some (.pair key (.integer number)) := by
  have skipped : skipBlanks (Nat.toDigits 10 number) =
      Nat.toDigits 10 number := by
    have digits := all_isDigit_toDigits number
    generalize Nat.toDigits 10 number = text at *
    cases text with
    | nil => rfl
    | cons head rest =>
        rw [List.all_cons, Bool.and_eq_true] at digits
        have bareHead : isBareChar head = true := by
          rw [isBareChar, Char.isAlphanum, digits.1]
          simp
        rw [skipBlanks, List.dropWhile_cons_of_neg]
        rw [isBareChar_not_blank bareHead]
        exact Bool.false_ne_true
  rw [readLine_pair bare, skipped, readValue_toDigits small]
  rfl

end LightWaf.Theory.Toml
