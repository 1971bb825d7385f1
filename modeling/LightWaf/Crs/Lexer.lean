import LightWaf.Rust.Search

/-!
# Directive lines of a rule source

The embedding of `waf-detection/src/crs/lexer.rs`.  A separator, quote or
backslash is one ASCII byte, so the byte cursor of the source always stands
between characters and a text is read here character by character.
-/

namespace LightWaf.Crs

open LightWaf.Rust

/-- One logical line: its first physical line, and at least one token. -/
structure DirectiveLine where
  lineNo : Nat
  tokens : List Text
  nonempty : tokens ≠ []

/-- The directive keyword, `tokens[0]`. -/
def DirectiveLine.keyword (line : DirectiveLine) : Text :=
  line.tokens.head line.nonempty

/-! ## Tokens -/

/-- A character between tokens. -/
def isBlank (char : Char) : Bool :=
  char == ' ' || char == '\t'

/-- Where the token loop stands. -/
inductive Cursor
  | between
  | bareword (token : Text)
  | quoted (token : Text)

/--
The token loop.  In a quoted token an escaped quote or backslash loses its
backslash and any other backslash stays; without a closing quote the token
ends with the line.
-/
def readTokens : Cursor → Text → List Text
  | .between, [] => []
  | .between, char :: rest =>
      if isBlank char then readTokens .between rest
      else if char == '\x22' then readTokens (.quoted []) rest
      else readTokens (.bareword [char]) rest
  | .bareword token, [] => [token]
  | .bareword token, char :: rest =>
      if isBlank char then token :: readTokens .between rest
      else readTokens (.bareword (token ++ [char])) rest
  | .quoted token, [] => [token]
  | .quoted token, '\x5c' :: '\x22' :: rest =>
      readTokens (.quoted (token ++ ['\x22'])) rest
  | .quoted token, '\x5c' :: '\x5c' :: rest =>
      readTokens (.quoted (token ++ ['\x5c'])) rest
  | .quoted token, char :: rest =>
      if char == '\x22' then token :: readTokens .between rest
      else readTokens (.quoted (token ++ [char])) rest

/-- `tokenize_logical`: nothing for a blank line or a comment. -/
def tokenizeLogical (line : Text) (lineNo : Nat) : Option DirectiveLine :=
  match line.dropWhile isBlank with
  | [] => none
  | '#' :: _ => none
  | body =>
      if nonempty : readTokens .between body ≠ [] then
        some ⟨lineNo, readTokens .between body, nonempty⟩
      else none

/-! ## Logical lines -/

/--
The line loop: `lineNo` is the number of the next physical line, `logical`
what continued lines have collected, and `start` where that began.
-/
def lexLines : (lineNo : Nat) → (logical : Text) → (start : Nat) →
    List Text → List DirectiveLine
  | _, logical, start, [] =>
      -- A trailing continuation is tokenized as it stands.
      if logical.isEmpty then [] else (tokenizeLogical logical start).toList
  | lineNo, logical, start, rawLine :: rest =>
      let start := if logical.isEmpty then lineNo else start
      match stripSuffix ['\x5c'] (trimEnd rawLine) with
      | some continued =>
          lexLines (lineNo + 1) (logical ++ continued) start rest
      | none =>
          (tokenizeLogical (logical ++ rawLine) start).toList ++
            lexLines (lineNo + 1) [] start rest

/-- `lex`. -/
def lex (input : Text) : List DirectiveLine :=
  lexLines 1 [] 0 (lines input)

/-! ## Line numbers -/

theorem tokenizeLogical_lineNo
    {line : Text} {lineNo : Nat} {directive : DirectiveLine}
    (tokenized : directive ∈ (tokenizeLogical line lineNo).toList) :
    directive.lineNo = lineNo := by
  rw [Option.mem_toList] at tokenized
  unfold tokenizeLogical at tokenized
  split at tokenized
  · cases tokenized
  · cases tokenized
  · split_ifs at tokenized
    cases tokenized
    rfl

/-- A logical line gives at most one directive. -/
theorem pairwise_tokenizeLogical (line : Text) (lineNo : Nat) :
    (tokenizeLogical line lineNo).toList.Pairwise
      (fun left right => left.lineNo < right.lineNo) := by
  cases tokenizeLogical line lineNo with
  | none => exact List.Pairwise.nil
  | some directive => exact List.pairwise_singleton _ _

/--
The directives of the remaining lines start where the pending logical line
does or later, each on a line of its own.
-/
theorem lexLines_increasing
    (remaining : List Text) (lineNo : Nat) (logical : Text) (start : Nat)
    (begun : start < lineNo) :
    (lexLines lineNo logical start remaining).Pairwise
        (fun left right => left.lineNo < right.lineNo) ∧
      ∀ directive ∈ lexLines lineNo logical start remaining,
        (if logical.isEmpty then lineNo else start) ≤
          directive.lineNo := by
  induction remaining generalizing lineNo logical start with
  | nil =>
      rw [lexLines]
      split_ifs with empty
      · exact ⟨List.Pairwise.nil, fun _ member => nomatch member⟩
      · exact ⟨pairwise_tokenizeLogical _ _, fun directive member =>
          (tokenizeLogical_lineNo member).ge⟩
  | cons rawLine rest induction =>
      rw [lexLines]
      generalize current : (if logical.isEmpty then lineNo else start) =
        here
      have within : here < lineNo + 1 := by
        split_ifs at current <;> omega
      cases stripSuffix ['\x5c'] (trimEnd rawLine) with
      | some continued =>
          obtain ⟨ordered, later⟩ :=
            induction (lineNo + 1) (logical ++ continued) here within
          refine ⟨ordered, fun directive member => ?_⟩
          have bound := later directive member
          split_ifs at bound <;> omega
      | none =>
          obtain ⟨ordered, later⟩ :=
            induction (lineNo + 1) [] here within
          have after : ∀ directive ∈ lexLines (lineNo + 1) [] here rest,
              lineNo + 1 ≤ directive.lineNo := later
          constructor
          · apply List.pairwise_append.mpr
            refine ⟨pairwise_tokenizeLogical _ _, ordered, ?_⟩
            intro left leftMember right rightMember
            rw [tokenizeLogical_lineNo leftMember]
            exact within.trans_le (after right rightMember)
          · intro directive member
            rcases List.mem_append.mp member with first | second
            · exact (tokenizeLogical_lineNo first).ge
            · exact within.le.trans (after directive second)

/-- Every directive has a line number of its own. -/
theorem lex_lineNo_nodup (input : Text) :
    ((lex input).map DirectiveLine.lineNo).Nodup := by
  have increasing := (lexLines_increasing (lines input) 1 [] 0
    Nat.one_pos).1
  exact List.pairwise_map.mpr
    (increasing.imp fun smaller => Nat.ne_of_lt smaller)

end LightWaf.Crs
