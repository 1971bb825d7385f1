import LightWaf.Crs.Lexer

/-!
# Lexing what was rendered

A rule source can be written so that `lex` gives back exactly the token lists
it was written from: every token between double quotes, with its quotes and
backslashes escaped, and blanks or continuations between the tokens.

Continuations are joined before quotes are understood.  A quoted token never
brings a backslash to the end of a physical line, so the only lines that need
care are comments: one whose last character, trailing white space aside, is a
backslash takes the next line with it.
-/

namespace LightWaf.Crs

open LightWaf.Rust

/-! ## Rendering -/

/-- How a character stands between double quotes. -/
def escape (char : Char) : Text :=
  if char = '\x22' ∨ char = '\x5c' then ['\x5c', char] else [char]

/-- A token between double quotes. -/
def quote (token : Text) : Text :=
  '\x22' :: (token.flatMap escape ++ ['\x22'])

/-- What may stand between two tokens, any number of times. -/
inductive Gap where
  | space
  | tab
  | continuation
  deriving DecidableEq, Repr

namespace Gap

/-- The gap as it is written. -/
def text : Gap → Text
  | space => [' ']
  | tab => ['\t']
  | continuation => ['\x5c', '\n']

/-- The gap in the logical line. -/
def joined : Gap → Text
  | space => [' ']
  | tab => ['\t']
  | continuation => []

end Gap

/-- A text within one line. -/
abbrev Inline := {text : Text // '\n' ∉ text}

/-- A directive: at least one token, with the gap before each further one. -/
structure Directive where
  first : Inline
  more : List (List Gap × Inline)

namespace Directive

/-- The tokens of a directive. -/
def tokens (directive : Directive) : List Text :=
  directive.first.1 :: directive.more.map fun part => part.2.1

/-- The directive as it is written. -/
def text (directive : Directive) : Text :=
  quote directive.first.1 ++ directive.more.flatMap fun part =>
    part.1.flatMap Gap.text ++ quote part.2.1

end Directive

/-- One entry of a rule source. -/
inductive Item where
  | directive (entry : Directive)
  | blank (text : Text) (blank : ∀ char ∈ text, isBlank char)
  | comment (indent : Text) (blank : ∀ char ∈ indent, isBlank char)
      (text : Inline)
      (closed : (trimEnd ('#' :: text.1)).getLast? ≠ some '\x5c')

namespace Item

/-- The entry as it is written, without its last line feed. -/
def text : Item → Text
  | directive entry => entry.text
  | blank text _ => text
  | comment indent _ text _ => indent ++ '#' :: text.1

/-- The tokens to be read back. -/
def tokens : Item → Option (List Text)
  | directive entry => some entry.tokens
  | blank _ _ => none
  | comment _ _ _ _ => none

end Item

/-- The rest of a source after an entry, when there is one. -/
def ending : Option Text → Text
  | none => []
  | some rest => '\n' :: rest

/-- A source: each entry on its own lines, the last perhaps unterminated. -/
def render (terminated : Bool) : List Item → Text
  | [] => []
  | item :: rest =>
      item.text ++ ending
        (if rest.isEmpty && !terminated then none
        else some (render terminated rest))

/-! ## Tokens of a line -/

theorem readTokens_blank
    {char : Char} (blank : isBlank char = true) (rest : Text) :
    readTokens .between (char :: rest) = readTokens .between rest := by
  rw [readTokens, if_pos blank]

theorem readTokens_escape (token : Text) (char : Char) (rest : Text) :
    readTokens (.quoted token) (escape char ++ rest) =
      readTokens (.quoted (token ++ [char])) rest := by
  by_cases quoted : char = '\x22'
  · subst quoted
    rfl
  · by_cases slash : char = '\x5c'
    · subst slash
      rfl
    · have plain : escape char = [char] := if_neg (by tauto)
      rw [plain, List.singleton_append, readTokens.eq_def]
      simp [quoted, slash]

theorem readTokens_escaped (done token rest : Text) :
    readTokens (.quoted done) (token.flatMap escape ++ '\x22' :: rest) =
      (done ++ token) :: readTokens .between rest := by
  induction token generalizing done with
  | nil => simp [readTokens]
  | cons head tail induction =>
      rw [List.flatMap_cons, List.append_assoc, readTokens_escape, induction]
      simp

/-- A quoted token is read back, whatever it holds. -/
theorem readTokens_quote (token rest : Text) :
    readTokens .between (quote token ++ rest) =
      token :: readTokens .between rest := by
  rw [quote, List.cons_append, List.append_assoc, List.singleton_append,
    readTokens, if_neg (by decide), if_pos (by decide), readTokens_escaped,
    List.nil_append]

theorem readTokens_gaps (gaps : List Gap) (rest : Text) :
    readTokens .between (gaps.flatMap Gap.joined ++ rest) =
      readTokens .between rest := by
  induction gaps with
  | nil => rfl
  | cons gap gaps induction =>
      rw [List.flatMap_cons, List.append_assoc]
      cases gap with
      | space => exact (readTokens_blank (by decide) _).trans induction
      | tab => exact (readTokens_blank (by decide) _).trans induction
      | continuation => exact induction

theorem readTokens_more (more : List (List Gap × Inline)) :
    readTokens .between (more.flatMap fun part =>
        part.1.flatMap Gap.joined ++ quote part.2.1) =
      more.map fun part => part.2.1 := by
  induction more with
  | nil => rfl
  | cons part more induction =>
      rw [List.flatMap_cons, List.append_assoc, readTokens_gaps,
        readTokens_quote, induction, List.map_cons]

/-- The tokens of a logical line. -/
def lineTokens (line : Text) : Option (List Text) :=
  (tokenizeLogical line 0).map DirectiveLine.tokens

theorem map_tokens_tokenizeLogical (line : Text) (lineNo : Nat) :
    (tokenizeLogical line lineNo).map DirectiveLine.tokens =
      lineTokens line := by
  rw [lineTokens, tokenizeLogical.eq_def, tokenizeLogical.eq_def]
  split
  · rfl
  · rfl
  · split <;> rfl

theorem lineTokens_quoted
    {rest : Text} (nonempty : readTokens .between ('\x22' :: rest) ≠ []) :
    lineTokens ('\x22' :: rest) =
      some (readTokens .between ('\x22' :: rest)) := by
  rw [lineTokens, tokenizeLogical.eq_def,
    List.dropWhile_cons_of_neg (by decide)]
  simp [nonempty]

/-- The logical line of a directive gives its tokens. -/
theorem lineTokens_directive (directive : Directive) :
    lineTokens (quote directive.first.1 ++ directive.more.flatMap fun part =>
        part.1.flatMap Gap.joined ++ quote part.2.1) =
      some directive.tokens := by
  have tokens : readTokens .between (quote directive.first.1 ++
      directive.more.flatMap fun part =>
        part.1.flatMap Gap.joined ++ quote part.2.1) =
      directive.tokens := by
    rw [readTokens_quote, readTokens_more, Directive.tokens]
  rw [← tokens]
  exact lineTokens_quoted (tokens ▸ List.cons_ne_nil _ _)

theorem lineTokens_blank
    {text : Text} (blank : ∀ char ∈ text, isBlank char) :
    lineTokens text = none := by
  rw [lineTokens, tokenizeLogical.eq_def,
    List.dropWhile_eq_nil_iff.mpr blank]
  rfl

theorem lineTokens_comment
    {indent : Text} (blank : ∀ char ∈ indent, isBlank char) (text : Text) :
    lineTokens (indent ++ '#' :: text) = none := by
  rw [lineTokens, tokenizeLogical.eq_def, List.dropWhile_append_of_pos blank]
  rfl

/-! ## Physical lines -/

theorem stripSuffix_eq_none
    {text : Text} {char : Char} (other : text.getLast? ≠ some char) :
    stripSuffix [char] text = none := by
  rw [stripSuffix, if_neg]
  intro ends
  obtain ⟨before, rfl⟩ := List.isSuffixOf_iff_suffix.mp ends
  simp at other

theorem trimEnd_concat
    {text : Text} {char : Char} (solid : isWhitespace char = false) :
    trimEnd (text ++ [char]) = text ++ [char] := by
  rw [trimEnd, List.rdropWhile_concat_neg _ _ _ (by simp [solid])]

/-- The lines after an entry. -/
def following : Option Text → List Text
  | none => []
  | some rest => lines rest

/-- The first line of a text, with at most one carriage return removed. -/
theorem lines_ending
    {line : Text} {tail : Option Text} (inline : '\n' ∉ line)
    (nonempty : line ++ ending tail ≠ []) :
    ∃ kept, (kept = line ∨ line = kept ++ ['\r']) ∧
      lines (line ++ ending tail) = kept :: following tail := by
  cases tail with
  | none =>
      rw [ending, List.append_nil] at nonempty
      refine ⟨line, .inl rfl, ?_⟩
      simp [lines, ending, following, List.splitOn_eq_singleton inline,
        nonempty]
  | some rest =>
      have pieces : (line ++ '\n' :: rest).splitOn '\n' =
          line :: rest.splitOn '\n' :=
        List.splitOn_append_cons_self_of_not_mem inline rest
      have more : rest.splitOn '\n' ≠ [] := List.splitOn_ne_nil _ _
      refine ⟨(stripSuffix ['\r'] line).getD line, ?_, ?_⟩
      · by_cases returned : line.getLast? = some '\r'
        · obtain ⟨kept, rfl⟩ := List.getLast?_eq_some_iff.mp returned
          exact .inr (by rw [stripSuffix_append, Option.getD_some])
        · exact .inl (by rw [stripSuffix_eq_none returned, Option.getD_none])
      · simp only [lines, ending, following, pieces,
          List.dropLast_cons_of_ne_nil more, List.map_cons, List.cons_append,
          List.getLast?_cons_of_ne_nil more]

/-- The same for a line that ends in another character. -/
theorem lines_concat_ending
    {text : Text} {last : Char} (inline : '\n' ∉ text ++ [last])
    (other : last ≠ '\r') (tail : Option Text) :
    lines (text ++ [last] ++ ending tail) =
      (text ++ [last]) :: following tail := by
  obtain ⟨kept, rfl | removed, split⟩ :=
    lines_ending inline (List.append_ne_nil_of_left_ne_nil (by simp)
      (ending tail))
  · exact split
  · exact absurd (List.append_inj_right' removed rfl) (by simpa using other)

/-- What the line loop reads, without the line numbers. -/
def tokensOf (logical : Text) (remaining : List Text) : List (List Text) :=
  (lexLines 0 logical 0 remaining).map DirectiveLine.tokens

theorem map_tokens_toList (line : Text) (lineNo : Nat) :
    (tokenizeLogical line lineNo).toList.map DirectiveLine.tokens =
      (lineTokens line).toList := by
  rw [← Option.toList_map, map_tokens_tokenizeLogical]

/-- Line numbers do not decide what is read. -/
theorem map_tokens_lexLines_eq
    (remaining : List Text) (logical : Text)
    (lineNo start otherNo otherStart : Nat) :
    (lexLines lineNo logical start remaining).map DirectiveLine.tokens =
      (lexLines otherNo logical otherStart remaining).map
        DirectiveLine.tokens := by
  induction remaining generalizing lineNo logical start otherNo
      otherStart with
  | nil =>
      rw [lexLines, lexLines]
      split
      · rfl
      · rw [map_tokens_toList, map_tokens_toList]
  | cons rawLine rest induction =>
      rw [lexLines, lexLines]
      cases stripSuffix ['\x5c'] (trimEnd rawLine) with
      | some continued => exact induction _ _ _ _ _
      | none =>
          simp only [List.map_append, map_tokens_toList]
          exact congrArg _ (induction _ _ _ _ _)

theorem map_tokens_lexLines
    (remaining : List Text) (lineNo : Nat) (logical : Text) (start : Nat) :
    (lexLines lineNo logical start remaining).map DirectiveLine.tokens =
      tokensOf logical remaining :=
  map_tokens_lexLines_eq remaining logical lineNo start 0 0

theorem tokensOf_continued
    {logical rawLine continued : Text} (remaining : List Text)
    (ends : stripSuffix ['\x5c'] (trimEnd rawLine) = some continued) :
    tokensOf logical (rawLine :: remaining) =
      tokensOf (logical ++ continued) remaining := by
  rw [tokensOf, lexLines, ends, map_tokens_lexLines]

theorem tokensOf_ended
    {logical rawLine : Text} (remaining : List Text)
    (ends : stripSuffix ['\x5c'] (trimEnd rawLine) = none) :
    tokensOf logical (rawLine :: remaining) =
      (lineTokens (logical ++ rawLine)).toList ++ tokensOf [] remaining := by
  rw [tokensOf, lexLines, ends]
  simp only [List.map_append, map_tokens_lexLines, map_tokens_toList]

/-! ## One entry -/

/--
A gap moves the line loop to a state with the same logical line so far: a
blank stays on the current line, a continuation starts a new one.
-/
theorem tokensOf_gap
    (gap : Gap) (logical : Text) {current : Text}
    (inline : '\n' ∉ current) :
    ∃ logical' current', '\n' ∉ current' ∧
      logical' ++ current' = logical ++ current ++ gap.joined ∧
      ∀ rest, tokensOf logical (lines (current ++ (gap.text ++ rest))) =
        tokensOf logical' (lines (current' ++ rest)) := by
  have written {char : Char} (other : char ≠ '\n') :
      '\n' ∉ current ++ [char] := by
    simpa using ⟨inline, other.symm⟩
  cases gap with
  | space =>
      exact ⟨logical, current ++ [' '], written (by decide),
        by simp [Gap.joined], fun rest => by simp [Gap.text]⟩
  | tab =>
      exact ⟨logical, current ++ ['\t'], written (by decide),
        by simp [Gap.joined], fun rest => by simp [Gap.text]⟩
  | continuation =>
      refine ⟨logical ++ current, [], List.not_mem_nil, by simp [Gap.joined],
        fun rest => ?_⟩
      have split := lines_concat_ending
        (written (by decide : '\x5c' ≠ '\n')) (by decide) (some rest)
      have shape : current ++ (Gap.continuation.text ++ rest) =
          current ++ ['\x5c'] ++ ending (some rest) := by
        simp [Gap.text, ending]
      rw [shape, split]
      apply tokensOf_continued
      rw [trimEnd_concat (by decide), stripSuffix_append]

/-- Gaps only grow the logical line, whatever lines they are written on. -/
theorem tokensOf_gaps
    (gaps : List Gap) (logical : Text) {current : Text}
    (inline : '\n' ∉ current) :
    ∃ logical' current', '\n' ∉ current' ∧
      logical' ++ current' =
        logical ++ current ++ gaps.flatMap Gap.joined ∧
      ∀ rest, tokensOf logical
          (lines (current ++ (gaps.flatMap Gap.text ++ rest))) =
        tokensOf logical' (lines (current' ++ rest)) := by
  induction gaps generalizing logical current with
  | nil => exact ⟨logical, current, inline, by simp, fun rest => rfl⟩
  | cons gap gaps induction =>
      obtain ⟨logical', current', clean, joined, same⟩ :=
        tokensOf_gap gap logical inline
      obtain ⟨logical'', current'', clean', joined', same'⟩ :=
        induction logical' clean
      refine ⟨logical'', current'', clean', ?_, fun rest => ?_⟩
      · rw [joined', joined, List.flatMap_cons, List.append_assoc,
          List.append_assoc]
      · rw [List.flatMap_cons, List.append_assoc, same, same']

theorem newline_not_mem_escaped {token : Text} (inline : '\n' ∉ token) :
    '\n' ∉ token.flatMap escape := by
  intro member
  obtain ⟨char, inside, written⟩ := List.mem_flatMap.mp member
  rw [escape] at written
  split at written
  · obtain found | found : '\n' = '\x5c' ∨ '\n' = char := by
      simpa using written
    · exact absurd found (by decide)
    · exact inline (found ▸ inside)
  · exact inline (List.mem_singleton.mp written ▸ inside)

/-- A directive in progress: the current line ends in a quote. -/
theorem tokensOf_more
    (more : List (List Gap × Inline)) (logical : Text) {current : Text}
    (inline : '\n' ∉ current ++ ['\x22']) (tail : Option Text) :
    tokensOf logical (lines (current ++ ['\x22'] ++
        ((more.flatMap fun part =>
          part.1.flatMap Gap.text ++ quote part.2.1) ++ ending tail))) =
      (lineTokens (logical ++ (current ++ ['\x22']) ++
        more.flatMap fun part =>
          part.1.flatMap Gap.joined ++ quote part.2.1)).toList ++
        tokensOf [] (following tail) := by
  induction more generalizing logical current with
  | nil =>
      rw [List.flatMap_nil, List.nil_append,
        lines_concat_ending inline (by decide), tokensOf_ended,
        List.flatMap_nil, List.append_nil]
      rw [trimEnd_concat (by decide)]
      exact stripSuffix_eq_none (by simp)
  | cons part more induction =>
      obtain ⟨logical', current', clean, joined, same⟩ :=
        tokensOf_gaps part.1 logical inline
      have shape : current' ++ quote part.2.1 =
          (current' ++ '\x22' :: part.2.1.flatMap escape) ++ ['\x22'] := by
        rw [quote, List.append_assoc, List.cons_append]
      have clean' : '\n' ∉ current' ++ quote part.2.1 := by
        rw [quote, List.mem_append, List.mem_cons, List.mem_append]
        have escaped := newline_not_mem_escaped part.2.2
        simp [clean, escaped]
      have later := induction logical' (shape ▸ clean')
      rw [← shape] at later
      simp only [List.flatMap_cons, List.append_assoc] at same later ⊢
      rw [same, later, ← List.append_assoc logical', joined]
      simp only [List.append_assoc]

/-- A directive gives its tokens, and the loop starts again after it. -/
theorem tokensOf_directive (directive : Directive) (tail : Option Text) :
    tokensOf [] (lines (directive.text ++ ending tail)) =
      directive.tokens :: tokensOf [] (following tail) := by
  have shape : quote directive.first.1 =
      '\x22' :: directive.first.1.flatMap escape ++ ['\x22'] := rfl
  have inline : '\n' ∉ quote directive.first.1 := by
    rw [quote, List.mem_cons, List.mem_append]
    have escaped := newline_not_mem_escaped directive.first.2
    simp [escaped]
  have read := tokensOf_more directive.more [] (shape ▸ inline) tail
  rw [← shape, List.nil_append, lineTokens_directive] at read
  rw [Directive.text, List.append_assoc]
  exact read

/-- A line that no backslash ends and that holds no token is dropped. -/
theorem tokensOf_dropped
    {line : Text} (remaining : List Text)
    (closed : (trimEnd line).getLast? ≠ some '\x5c')
    (empty : lineTokens line = none) :
    tokensOf [] (line :: remaining) = tokensOf [] remaining := by
  rw [tokensOf_ended remaining (stripSuffix_eq_none closed), List.nil_append,
    empty]
  rfl

theorem isWhitespace_of_isBlank
    {char : Char} (blank : isBlank char = true) :
    isWhitespace char = true := by
  rw [isBlank, Bool.or_eq_true, beq_iff_eq, beq_iff_eq] at blank
  rcases blank with rfl | rfl <;> decide

/-- A blank line gives nothing. -/
theorem tokensOf_blank
    {text : Text} (blank : ∀ char ∈ text, isBlank char)
    (tail : Option Text) :
    tokensOf [] (lines (text ++ ending tail)) =
      tokensOf [] (following tail) := by
  have trimmed : trimEnd text = [] :=
    List.rdropWhile_eq_nil_iff.mpr fun char member =>
      isWhitespace_of_isBlank (blank char member)
  have inline : '\n' ∉ text := fun member =>
    absurd (blank '\n' member) (by decide)
  by_cases nonempty : text ++ ending tail = []
  · cases tail with
    | none => rw [nonempty, following]; rfl
    | some rest => simp [ending] at nonempty
  · obtain ⟨kept, rfl | removed, split⟩ := lines_ending inline nonempty
    · rw [split]
      exact tokensOf_dropped _ (by rw [trimmed]; decide)
        (lineTokens_blank blank)
    · exact absurd (blank '\r' (by simp [removed])) (by decide)

theorem trimEnd_append
    (left : Text) {right : Text} (solid : trimEnd right ≠ []) :
    trimEnd (left ++ right) = left ++ trimEnd right := by
  have kept : right.reverse.dropWhile isWhitespace ≠ [] := fun empty =>
    solid (by rw [trimEnd, List.rdropWhile, empty, List.reverse_nil])
  rw [trimEnd, trimEnd, List.rdropWhile, List.reverse_append,
    List.dropWhile_append, if_neg (by simpa using kept),
    List.reverse_append, List.reverse_reverse, List.rdropWhile]

theorem trimEnd_hash_ne_nil (text : Text) : trimEnd ('#' :: text) ≠ [] := by
  intro empty
  have blank := List.rdropWhile_eq_nil_iff.mp empty '#' List.mem_cons_self
  exact absurd blank (by decide)

theorem tokensOf_comment_line
    {indent text : Text} (blank : ∀ char ∈ indent, isBlank char)
    (closed : (trimEnd ('#' :: text)).getLast? ≠ some '\x5c')
    (remaining : List Text) :
    tokensOf [] ((indent ++ '#' :: text) :: remaining) =
      tokensOf [] remaining := by
  have solid := trimEnd_hash_ne_nil text
  apply tokensOf_dropped remaining
  · rwa [trimEnd_append indent solid,
      List.getLast?_append_of_ne_nil _ solid]
  · exact lineTokens_comment blank text

/-- A comment line gives nothing. -/
theorem tokensOf_comment
    {indent text : Text} (blank : ∀ char ∈ indent, isBlank char)
    (inline : '\n' ∉ text)
    (closed : (trimEnd ('#' :: text)).getLast? ≠ some '\x5c')
    (tail : Option Text) :
    tokensOf [] (lines (indent ++ '#' :: text ++ ending tail)) =
      tokensOf [] (following tail) := by
  have clean : '\n' ∉ indent ++ '#' :: text := by
    have unbroken : '\n' ∉ indent := fun member =>
      absurd (blank '\n' member) (by decide)
    simpa using ⟨unbroken, inline⟩
  obtain ⟨kept, same | removed, split⟩ := lines_ending clean
    (List.append_ne_nil_of_left_ne_nil (by simp) (ending tail))
  · rw [split, same]
    exact tokensOf_comment_line blank closed _
  · -- A carriage return before the line feed: the rest is still a comment.
    obtain rfl | ⟨others, last, rfl⟩ := List.eq_nil_or_concat' text
    · exact absurd (List.append_inj_right' removed rfl) (by decide)
    · have parts : indent ++ '#' :: others ++ [last] = kept ++ ['\r'] := by
        simpa using removed
      obtain ⟨rfl, ended⟩ := List.append_inj' parts rfl
      obtain rfl := List.singleton_inj.mp ended
      have trimmed : trimEnd ('#' :: (others ++ ['\r'])) =
          trimEnd ('#' :: others) :=
        List.rdropWhile_concat_pos _ ('#' :: others) _ (by decide)
      rw [split]
      exact tokensOf_comment_line blank (trimmed ▸ closed) _

/-! ## The round trip -/

/-- An entry gives its tokens, and the loop starts again after it. -/
theorem tokensOf_item (item : Item) (tail : Option Text) :
    tokensOf [] (lines (item.text ++ ending tail)) =
      item.tokens.toList ++ tokensOf [] (following tail) := by
  cases item with
  | directive entry => exact tokensOf_directive entry tail
  | blank text blank => exact tokensOf_blank blank tail
  | comment indent blank text closed =>
      exact tokensOf_comment blank text.2 closed tail

theorem tokensOf_render (terminated : Bool) (items : List Item) :
    tokensOf [] (lines (render terminated items)) =
      items.filterMap Item.tokens := by
  induction items with
  | nil => rfl
  | cons item rest induction =>
      have later : tokensOf [] (following
          (if rest.isEmpty && !terminated then none
          else some (render terminated rest))) =
          rest.filterMap Item.tokens := by
        split
        · rename_i last
          rw [Bool.and_eq_true, List.isEmpty_iff] at last
          rw [last.1]
          rfl
        · exact induction
      rw [render, tokensOf_item, later, List.filterMap_cons]
      cases item.tokens <;> rfl

/--
Lexing a rendered source returns exactly the token lists of its directives,
in order: blank lines and comments add nothing, and neither the gaps between
tokens nor what the tokens hold changes them.
-/
theorem lex_render (terminated : Bool) (items : List Item) :
    (lex (render terminated items)).map DirectiveLine.tokens =
      items.filterMap Item.tokens := by
  rw [lex, map_tokens_lexLines, tokensOf_render]

/-- A comment that ends in a backslash and a blank swallows a directive. -/
theorem lex_comment_continued :
    ("# off \\ ".toList).getLast? ≠ some '\x5c' ∧
      (lex ("# off \\ \n".toList ++ quote "SecRuleEngine".toList ++
        ['\n'])).map DirectiveLine.tokens ≠ [["SecRuleEngine".toList]] := by
  decide

end LightWaf.Crs
