import LightWaf.Normalizer.Graphql

/-!
# The lexical grammar of GraphQL

The reference for the lexer: the lexical grammar of the October 2021 edition.
A text is accepted when it is a sequence of lexemes, each of which is derived
by its production and respects the lookahead restriction of that production.
The restrictions make the longest match the only one.

The counting rules of the lexer, applied lexeme by lexeme, give the reference
metrics.  The lexer agrees with them on every accepted text that keeps clear
of three things: a comment ended by a lone carriage return, an escaped triple
quote that a byte-wise reading of escapes takes apart, and a number with an
exponent where a name would be a selection.
-/

namespace LightWaf.Normalizer.Grammar

open LightWaf.Rust
open LightWaf.Theory

/-! ## Productions -/

/-- `SourceCharacter`. -/
def sourceCharacter (char : Char) : Bool :=
  char == '\t' || char == '\n' || char == '\r' ||
    (0x20 ≤ char.toNat && char.toNat ≤ 0xFFFF)

/-- `CommentChar`: a source character that does not end the line. -/
def commentChar (char : Char) : Bool :=
  sourceCharacter char && char != '\n' && char != '\r'

/-- `Digit`. -/
def digit (char : Char) : Bool :=
  '0' ≤ char && char ≤ '9'

/-- `NameStart`. -/
def nameStart (char : Char) : Bool :=
  char == '_' || ('A' ≤ char && char ≤ 'Z') || ('a' ≤ char && char ≤ 'z')

/-- `NameContinue`. -/
def nameContinue (char : Char) : Bool :=
  nameStart char || digit char

/-- The single-character punctuators. -/
def punctuators : List Char :=
  ['!', '$', '&', '(', ')', ':', '=', '@', '[', ']', '\x7b', '|', '\x7d']

/-- `StringCharacter`. -/
inductive StringUnit
  | plain (char : Char)
  | escape (char : Char)
  | unicode (digits : Text)

/-- `BlockStringCharacter`. -/
inductive BlockUnit
  | plain (char : Char)
  | escapedQuotes

/-- `ExponentPart`. -/
structure Exponent where
  indicator : Char
  sign : Option Char
  digits : Text

/-- A token or an ignored lexeme. -/
inductive Lexeme
  | byteOrderMark
  | whitespace (char : Char)
  | lineFeed
  | carriageReturn
  | carriageReturnLineFeed
  | comma
  | comment (body : Text)
  | punctuator (char : Char)
  | spread
  | name (first : Char) (others : Text)
  | number (negative : Bool) (integer : Text) (fraction : Option Text)
      (exponent : Option Exponent)
  | string (units : List StringUnit)
  | blockString (units : List BlockUnit)

/-- The text of a string character. -/
def StringUnit.text : StringUnit → Text
  | .plain char => [char]
  | .escape char => ['\x5c', char]
  | .unicode digits => '\x5c' :: 'u' :: digits

/-- The characters an ordinary string can hold. -/
def StringUnit.valid : StringUnit → Bool
  | .plain char => commentChar char && char != '\x22' && char != '\x5c'
  | .escape char =>
      ['\x22', '\x5c', '/', 'b', 'f', 'n', 'r', 't'].contains char
  | .unicode digits =>
      digits.length == 4 && digits.all fun char => (toDigit 16 char).isSome

/-- Three quotes. -/
def tripleQuote : Text := ['\x22', '\x22', '\x22']

/-- The text of a block string after its opening quotes. -/
def blockText : List BlockUnit → Text
  | [] => tripleQuote
  | .plain char :: rest => char :: blockText rest
  | .escapedQuotes :: rest => '\x5c' :: tripleQuote ++ blockText rest

/-- No plain character starts a triple quote, escaped or not. -/
def blockValid : List BlockUnit → Bool
  | [] => true
  | .plain char :: rest =>
      sourceCharacter char &&
        !tripleQuote.isPrefixOf (char :: blockText rest) &&
        !('\x5c' :: tripleQuote).isPrefixOf (char :: blockText rest) &&
        blockValid rest
  | .escapedQuotes :: rest => blockValid rest

/-- The text of an exponent. -/
def Exponent.text (exponent : Exponent) : Text :=
  exponent.indicator :: exponent.sign.toList ++ exponent.digits

/-- One or more digits. -/
def digitRun (text : Text) : Bool :=
  !text.isEmpty && text.all digit

/-- An exponent has an indicator, perhaps a sign, and digits. -/
def Exponent.valid (exponent : Exponent) : Bool :=
  (exponent.indicator == 'e' || exponent.indicator == 'E') &&
    exponent.sign.all (fun sign => sign == '+' || sign == '-') &&
    digitRun exponent.digits

namespace Lexeme

/-- The text of a lexeme. -/
def text : Lexeme → Text
  | .byteOrderMark => ['\uFEFF']
  | .whitespace char => [char]
  | .lineFeed => ['\n']
  | .carriageReturn => ['\r']
  | .carriageReturnLineFeed => ['\r', '\n']
  | .comma => [',']
  | .comment body => '#' :: body
  | .punctuator char => [char]
  | .spread => ['.', '.', '.']
  | .name first others => first :: others
  | .number negative integer fraction exponent =>
      (if negative then ['-'] else []) ++ integer ++
        (fraction.elim [] fun digits => '.' :: digits) ++
        exponent.elim [] Exponent.text
  | .string units => '\x22' :: units.flatMap StringUnit.text ++ ['\x22']
  | .blockString units => tripleQuote ++ blockText units

/-- Whether a lexeme is derived by its production. -/
def valid : Lexeme → Bool
  | .whitespace char => char == '\t' || char == ' '
  | .comment body => body.all commentChar
  | .punctuator char => punctuators.contains char
  | .name first others => nameStart first && others.all nameContinue
  | .number _ integer fraction exponent =>
      (integer == ['0'] || (digitRun integer && integer.head? != some '0')) &&
        fraction.all digitRun && exponent.all Exponent.valid
  | .string units => units.all StringUnit.valid
  | .blockString units => blockValid units
  | _ => true

/-- The characters that must not follow a lexeme. -/
def excluded : Lexeme → Char → Bool
  | .carriageReturn, char => char == '\n'
  | .comment _, char => commentChar char
  | .name _ _, char => nameContinue char
  | .number _ _ _ _, char => digit char || char == '.' || nameStart char
  | .string [], char => char == '\x22'
  | _, _ => false

/-- The lookahead restriction of a lexeme. -/
def lookahead (lexeme : Lexeme) (following : Text) : Bool :=
  !following.head?.any lexeme.excluded

end Lexeme

/-- The text of a sequence of lexemes. -/
def source (lexemes : List Lexeme) : Text :=
  lexemes.flatMap Lexeme.text

/-- Every lexeme is derived and respects its lookahead restriction. -/
def wellLexed : List Lexeme → Bool
  | [] => true
  | lexeme :: rest =>
      lexeme.valid && lexeme.lookahead (source rest) && wellLexed rest

/-- The grammar accepts a text as a sequence of lexemes. -/
def Accepts (text : Text) (lexemes : List Lexeme) : Prop :=
  text = source lexemes ∧ wellLexed lexemes = true

/-! ## Reference metrics -/

/-- The counting rules on one lexeme. -/
def Lexeme.count (state : LexState) : Lexeme → LexState
  | .punctuator '(' => state.openParen
  | .punctuator ')' => state.closeParen
  | .punctuator '\x7b' => state.openBrace
  | .punctuator '\x7d' => state.closeBrace
  | .punctuator ':' => state.colon
  | .punctuator '@' => state.directive
  | .name first others => state.name (asBytes (first :: others))
  | _ => state

/-- The metrics of a reference token stream. -/
def referenceStats (lexemes : List Lexeme) : GraphqlStats :=
  (lexemes.foldl Lexeme.count {}).stats

/-! ## Where the lexer agrees -/

/--
Every escaped triple quote follows an even number of backslashes, and no quote
follows it; the closing quotes may, unless yet another quote comes after them.
`odd` is the parity of the backslashes just before.
-/
def escapesPaired (following : Text) : (odd : Bool) → List BlockUnit → Bool
  | _, [] => true
  | odd, .plain char :: rest =>
      escapesPaired following (char == '\x5c' && !odd) rest
  | odd, .escapedQuotes :: rest =>
      let next := if rest.isEmpty then following else blockText rest
      !odd && next.head? != some '\x22' && escapesPaired following false rest

/-- Whether a lexeme keeps clear of the three disagreements. -/
def Lexeme.regular (state : LexState) (following : Text) : Lexeme → Bool
  | .comment _ =>
      match following with
      | ['\r'] => true
      | '\r' :: next :: _ => next == '\n'
      | _ => true
  | .number _ _ _ (some _) => !state.selecting
  | .blockString units => escapesPaired following false units
  | _ => true

/-- Whether all lexemes do, from a state of the reference count. -/
def regularFrom : LexState → List Lexeme → Bool
  | _, [] => true
  | state, lexeme :: rest =>
      lexeme.regular state (source rest) &&
        regularFrom (lexeme.count state) rest

end LightWaf.Normalizer.Grammar
