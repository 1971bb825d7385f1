import LightWaf.Rust.Text
import LightWaf.Theory.Readable

/-!
# Debug formatting

What `{:?}` prints for strings, options, flags and vectors, and that it can be
read back.  Which characters beyond ASCII are escaped depends on the Unicode
version and is a parameter; the text is readable whatever that table says.
-/

namespace LightWaf.Rust

open LightWaf.Theory

/-- The characters beyond ASCII that `{:?}` escapes. -/
structure DebugTables where
  escaped : Char → Bool

/-- A character at which a word of a debug text has ended. -/
def debugStop (char : Char) : Bool :=
  !char.isAlphanum

/-! ## Strings -/

/-- The hexadecimal digits of a scalar value. -/
def hexDigits (value : Nat) : Text :=
  (Nat.digits 16 value).reverse.map Nat.digitChar

section Strings

variable (tables : DebugTables)

/-- Whether a character is written as its scalar value. -/
def DebugTables.byValue (char : Char) : Bool :=
  if isAscii char then char.toNat < 0x20 || char == '\x7f'
  else tables.escaped char

/-- `char::escape_debug` inside a string. -/
def escapeDebug (char : Char) : Text :=
  if char = '\x00' then ['\x5c', '0']
  else if char = '\t' then ['\x5c', 't']
  else if char = '\r' then ['\x5c', 'r']
  else if char = '\n' then ['\x5c', 'n']
  else if char = '\x5c' then ['\x5c', '\x5c']
  else if char = '\x22' then ['\x5c', '\x22']
  else if tables.byValue char then
    ['\x5c', 'u', '\x7b'] ++ hexDigits char.toNat ++ ['\x7d']
  else [char]

/-- A string between quotes. -/
def debugStr (text : Text) : Text :=
  '\x22' :: (text.flatMap (escapeDebug tables) ++ ['\x22'])

/-- The digits are read back from their characters. -/
theorem digits_of_hexDigits (value : Nat) :
    (hexDigits value).map (fun char => (toDigit 16 char).getD 0) =
      (Nat.digits 16 value).reverse := by
  have all : ∀ digit < 16,
      (toDigit 16 (Nat.digitChar digit)).getD 0 = digit := by
    decide
  rw [hexDigits, List.map_map]
  conv_rhs => rw [← List.map_id (Nat.digits 16 value).reverse]
  apply List.map_congr_left
  intro digit member
  exact all digit
    (Nat.digits_lt_base (by decide) (List.mem_reverse.mp member))

theorem hexDigits_injective : Function.Injective hexDigits := by
  intro left right same
  have digits := congrArg
    (List.map fun char => (toDigit 16 char).getD 0) same
  rw [digits_of_hexDigits, digits_of_hexDigits] at digits
  exact Nat.digits.injective 16 (List.reverse_injective digits)

theorem hexDigits_plain (value : Nat) :
    ∀ char ∈ hexDigits value, debugStop char = false := by
  intro char member
  obtain ⟨digit, inside, rfl⟩ := List.mem_map.mp member
  have small : digit < 16 :=
    Nat.digits_lt_base (by decide) (List.mem_reverse.mp inside)
  have all : ∀ digit < 16, debugStop (Nat.digitChar digit) = false := by
    decide
  exact all digit small

/-- The character that a letter after a backslash stands for. -/
def unescaped : Char → Char
  | '0' => '\x00'
  | 't' => '\t'
  | 'r' => '\r'
  | 'n' => '\n'
  | char => char

/-- The three ways a character can be written. -/
theorem escapeDebug_cases (char : Char) :
    (∃ letter, letter ≠ 'u' ∧ unescaped letter = char ∧
        escapeDebug tables char = ['\x5c', letter]) ∨
      escapeDebug tables char =
        '\x5c' :: 'u' :: '\x7b' :: (hexDigits char.toNat ++ ['\x7d']) ∨
      (escapeDebug tables char = [char] ∧ char ≠ '\x5c' ∧
        char ≠ '\x22') := by
  rw [escapeDebug]
  split_ifs with null tab carriage line backslash quote value
  · exact Or.inl ⟨'0', by decide, null.symm, rfl⟩
  · exact Or.inl ⟨'t', by decide, tab.symm, rfl⟩
  · exact Or.inl ⟨'r', by decide, carriage.symm, rfl⟩
  · exact Or.inl ⟨'n', by decide, line.symm, rfl⟩
  · exact Or.inl ⟨'\x5c', by decide, backslash.symm, rfl⟩
  · exact Or.inl ⟨'\x22', by decide, quote.symm, rfl⟩
  · exact Or.inr (Or.inl rfl)
  · exact Or.inr (Or.inr ⟨rfl, backslash, quote⟩)

/-- An escaped character and what follows it can be told apart. -/
theorem escapeDebug_cancel
    {left right : Char} {before after : Text}
    (same : escapeDebug tables left ++ before =
      escapeDebug tables right ++ after) :
    left = right ∧ before = after := by
  rcases escapeDebug_cases tables left with
    ⟨letter, notValue, stands, written⟩ | written | ⟨written, plain, -⟩ <;>
  rcases escapeDebug_cases tables right with
    ⟨letter', notValue', stands', written'⟩ | written' |
      ⟨written', plain', -⟩ <;>
  rw [written, written'] at same
  · obtain ⟨-, letters⟩ := List.cons.inj same
    obtain ⟨rfl, rests⟩ := List.cons.inj letters
    exact ⟨stands.symm.trans stands', rests⟩
  · exact absurd (List.cons.inj (List.cons.inj same).2).1 notValue
  · exact absurd (List.cons.inj same).1.symm plain'
  · exact absurd (List.cons.inj (List.cons.inj same).2).1.symm notValue'
  · have values : hexDigits left.toNat ++ ['\x7d'] ++ before =
        hexDigits right.toNat ++ ['\x7d'] ++ after :=
      (List.cons.inj (List.cons.inj (List.cons.inj same).2).2).2
    rw [List.append_assoc, List.append_assoc] at values
    obtain ⟨digits, rests⟩ := word_cancel (hexDigits_plain _)
      (hexDigits_plain _) (ends_cons (by decide) before)
      (ends_cons (by decide) after) values
    exact ⟨Char.toNat_inj.mp (hexDigits_injective digits),
      (List.cons.inj rests).2⟩
  · exact absurd (List.cons.inj same).1.symm plain'
  · exact absurd (List.cons.inj same).1 plain
  · exact absurd (List.cons.inj same).1 plain
  · exact ⟨(List.cons.inj same).1, (List.cons.inj same).2⟩

/-- No escaped character starts with a quote. -/
theorem escapeDebug_ne_quote
    (char : Char) (before after : Text) :
    escapeDebug tables char ++ before ≠ '\x22' :: after := by
  intro same
  rcases escapeDebug_cases tables char with
    ⟨letter, -, -, written⟩ | written | ⟨written, -, noQuote⟩ <;>
  rw [written] at same
  · exact absurd (List.cons.inj same).1 (by decide)
  · exact absurd (List.cons.inj same).1 (by decide)
  · exact noQuote (List.cons.inj same).1

/-- A string between quotes can be read whatever follows. -/
theorem debugStr_cancel
    {left right before after : Text}
    (same : debugStr tables left ++ before = debugStr tables right ++ after) :
    left = right ∧ before = after := by
  have inner : left.flatMap (escapeDebug tables) ++ ['\x22'] ++ before =
      right.flatMap (escapeDebug tables) ++ ['\x22'] ++ after :=
    (List.cons.inj same).2
  rw [List.append_assoc, List.append_assoc] at inner
  clear same
  induction left generalizing right with
  | nil =>
      cases right with
      | nil => exact ⟨rfl, (List.cons.inj inner).2⟩
      | cons char right =>
          rw [List.flatMap_cons, List.append_assoc] at inner
          exact absurd inner.symm (escapeDebug_ne_quote tables char _ _)
  | cons char left induction =>
      cases right with
      | nil =>
          rw [List.flatMap_cons, List.append_assoc] at inner
          exact absurd inner (escapeDebug_ne_quote tables char _ _)
      | cons other right =>
          rw [List.flatMap_cons, List.flatMap_cons, List.append_assoc,
            List.append_assoc] at inner
          obtain ⟨rfl, tails⟩ := escapeDebug_cancel tables inner
          obtain ⟨rfl, rests⟩ := induction tails
          exact ⟨rfl, rests⟩

/-- A constructor name with a string argument between parentheses. -/
def debugPayload (text : Text) : Text :=
  '(' :: (debugStr tables text ++ [')'])

theorem debugPayload_cancel
    {left right before after : Text}
    (same : debugPayload tables left ++ before =
      debugPayload tables right ++ after) :
    left = right ∧ before = after := by
  have inner : debugStr tables left ++ [')'] ++ before =
      debugStr tables right ++ [')'] ++ after :=
    (List.cons.inj same).2
  rw [List.append_assoc, List.append_assoc] at inner
  obtain ⟨rfl, rests⟩ := debugStr_cancel tables inner
  exact ⟨rfl, (List.cons.inj rests).2⟩

/-! ## Options, flags and vectors -/

/-- An optional string. -/
def debugOption (value : Option Text) : Text :=
  (if value.isSome then "Some".toList else "None".toList) ++
    value.elim [] (debugPayload tables)

theorem readable_debugOption :
    Readable debugStop (debugOption tables) := by
  apply Readable.tagged Option.isSome
    (fun some => if some then "Some".toList else "None".toList)
    (fun value => value.elim [] (debugPayload tables))
  · apply readable_words
    · intro left right same
      cases left <;> cases right <;> first | rfl | exact absurd same (by decide)
    · intro value
      cases value <;> decide
  · intro value rest ends
    cases value with
    | none => exact ends
    | some text => exact ends_cons (by decide) _
  · intro left right before after tags _ _ same
    cases left with
    | none =>
        cases right with
        | none => exact ⟨rfl, same⟩
        | some text => cases tags
    | some text =>
        cases right with
        | none => cases tags
        | some other =>
            obtain ⟨rfl, rests⟩ := debugPayload_cancel tables same
            exact ⟨rfl, rests⟩

end Strings

/-- A flag. -/
def debugBool (value : Bool) : Text :=
  if value then "true".toList else "false".toList

theorem readable_debugBool : Readable debugStop debugBool := by
  apply readable_words
  · intro left right same
    cases left <;> cases right <;> first | rfl | exact absurd same (by decide)
  · intro value
    cases value <;> decide

/-- A vector. -/
def debugVec {α : Type} (code : α → Text) (items : List α) : Text :=
  '[' :: listCode code [',', ' '] ']' items

theorem readable_debugVec
    {α : Type} {code : α → Text} (readable : Readable debugStop code)
    (opens : ∀ item, ∃ char rest, code item = char :: rest ∧ char ≠ ']') :
    Readable debugStop (debugVec code) :=
  (readable_list readable (by decide) (by decide) (by decide) opens).lead ['[']

end LightWaf.Rust
