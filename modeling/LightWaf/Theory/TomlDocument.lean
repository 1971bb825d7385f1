import LightWaf.Theory.Toml

/-!
# Documents and the text they are read from

Lines that are read one by one make up a document, and the lines of tables
make up the document of these tables.  In the other direction, a table of a
document is named on a line of the text, and a name that is not bare stands on
that line between quotes: it is shorter than the text it was taken from.
-/

namespace LightWaf.Theory.Toml

/-! ## Where keys come from -/

theorem prepend_eq_some
    {char : Char} {outcome : Option (List Char × List Char)}
    {read rest : List Char} (reads : prepend char outcome = some (read, rest)) :
    ∃ later, outcome = some (later, rest) ∧ read = char :: later := by
  obtain ⟨⟨later, after⟩, found, same⟩ := Option.map_eq_some_iff.mp reads
  cases same
  exact ⟨later, found, rfl⟩

/-- At least as many characters as were read stand before a quote. -/
def Spans (quote : Char) (text read rest : List Char) : Prop :=
  ∃ body, text = body ++ quote :: rest ∧ read.length ≤ body.length

theorem Spans.prepend
    {quote char : Char} {outcome : Option (List Char × List Char)}
    {after read rest : List Char}
    (spans : ∀ {read}, outcome = some (read, rest) →
      Spans quote after read rest)
    (reads : prepend char outcome = some (read, rest))
    (head : Char) (lead : List Char) :
    Spans quote (head :: (lead ++ after)) read rest := by
  obtain ⟨later, found, rfl⟩ := prepend_eq_some reads
  obtain ⟨body, rfl, shorter⟩ := spans found
  refine ⟨head :: (lead ++ body), by simp, ?_⟩
  rw [List.length_cons, List.length_cons, List.length_append]
  omega

theorem readBasic_spans
    {text read rest : List Char} (reads : readBasic text = some (read, rest)) :
    Spans '\x22' text read rest := by
  fun_induction readBasic text generalizing read with
  | case1 | case3 | case5 | case7 | case9 => cases reads
  | case2 =>
      cases reads
      exact ⟨[], rfl, le_rfl⟩
  | case4 a b c d _ _ induction =>
      obtain ⟨char, -, reads⟩ := Option.bind_eq_some_iff.mp reads
      exact Spans.prepend induction reads _ ['u', a, b, c, d]
  | case6 a b c d e f g h _ _ _ induction =>
      obtain ⟨char, -, reads⟩ := Option.bind_eq_some_iff.mp reads
      exact Spans.prepend induction reads _ ['U', a, b, c, d, e, f, g, h]
  | case8 letter _ _ _ _ induction =>
      obtain ⟨char, -, reads⟩ := Option.bind_eq_some_iff.mp reads
      exact Spans.prepend induction reads _ [letter]
  | case10 _ _ _ _ _ induction => exact Spans.prepend induction reads _ []

theorem readLiteral_spans
    {text read rest : List Char}
    (reads : readLiteral text = some (read, rest)) :
    Spans '\x27' text read rest := by
  fun_induction readLiteral text generalizing read with
  | case1 | case3 => cases reads
  | case2 =>
      cases reads
      exact ⟨[], rfl, le_rfl⟩
  | case4 _ _ _ _ induction => exact Spans.prepend induction reads _ []

/-- A quote, which is no character of a bare key. -/
def isQuote (char : Char) : Bool :=
  char == '\x22' || char == '\x27'

/-- A text that holds two quotes with room for a key between them. -/
def Quotes (key text : List Char) : Prop :=
  ∃ quote before body after, isQuote quote = true ∧
    text = before ++ quote :: (body ++ quote :: after) ∧
      key.length ≤ body.length

theorem Quotes.of_infix
    {key part text : List Char} (quotes : Quotes key part)
    (inside : part <:+: text) : Quotes key text := by
  obtain ⟨quote, before, body, after, isQuote, rfl, room⟩ := quotes
  obtain ⟨left, right, rfl⟩ := inside
  exact ⟨quote, left ++ before, body, after ++ right, isQuote, by simp, room⟩

theorem Spans.quotes
    {quote : Char} {text read rest : List Char}
    (spans : Spans quote text read rest) (isQuote : isQuote quote = true) :
    Quotes read (quote :: text) := by
  obtain ⟨body, rfl, room⟩ := spans
  exact ⟨quote, [], body, rest, isQuote, rfl, room⟩

/-- A key is bare or stands between quotes. -/
theorem readKey_bare_or_quotes
    {text key rest : List Char} (reads : readKey text = some (key, rest)) :
    IsBare key ∨ Quotes key text := by
  cases text with
  | nil => cases reads
  | cons head tail =>
      rw [readKey] at reads
      split_ifs at reads with double single bare
      · subst double
        exact Or.inr ((readBasic_spans reads).quotes rfl)
      · subst single
        exact Or.inr ((readLiteral_spans reads).quotes rfl)
      · cases reads
        refine Or.inl ⟨List.cons_ne_nil _ _, ?_⟩
        rw [List.forall_mem_cons]
        exact ⟨bare, fun char member => List.mem_takeWhile_imp member⟩

theorem readKey_suffix
    {text key rest : List Char} (reads : readKey text = some (key, rest)) :
    rest <:+ text := by
  cases text with
  | nil => cases reads
  | cons head tail =>
      rw [readKey] at reads
      split_ifs at reads with double single bare
      · obtain ⟨body, rfl, -⟩ := readBasic_spans reads
        exact ⟨head :: (body ++ ['\x22']), by simp⟩
      · obtain ⟨body, rfl, -⟩ := readLiteral_spans reads
        exact ⟨head :: (body ++ ['\x27']), by simp⟩
      · cases reads
        exact (List.dropWhile_suffix _).trans (List.suffix_cons _ _)

theorem skipBlanks_suffix (text : List Char) : skipBlanks text <:+ text :=
  List.dropWhile_suffix _

/-- Every key of a path is bare or stands between quotes. -/
theorem readPath_bare_or_quotes
    {fuel : Nat} {text rest : List Char} {keys : List (List Char)}
    (reads : readPath fuel text = some (keys, rest)) :
    ∀ key ∈ keys, IsBare key ∨ Quotes key text := by
  induction fuel generalizing text keys rest with
  | zero => cases reads
  | succ fuel induction =>
      rw [readPath] at reads
      obtain ⟨⟨first, after⟩, found, reads⟩ := Option.bind_eq_some_iff.mp reads
      have own : IsBare first ∨ Quotes first text :=
        (readKey_bare_or_quotes found).imp_right fun quotes =>
          quotes.of_infix (skipBlanks_suffix text).isInfix
      have behind : skipBlanks after <:+ text :=
        (skipBlanks_suffix after).trans
          ((readKey_suffix found).trans (skipBlanks_suffix text))
      dsimp only at reads
      split at reads
      · cases reads
        simpa using own
      · rename_i next more split
        split_ifs at reads with dot
        · obtain ⟨⟨others, final⟩, later, same⟩ :=
            Option.bind_eq_some_iff.mp reads
          cases same
          rw [List.forall_mem_cons]
          refine ⟨own, fun key member => ?_⟩
          refine (induction later key member).imp_right fun quotes => ?_
          rw [split] at behind
          exact quotes.of_infix
            ((List.suffix_cons _ _).trans behind).isInfix
        · cases reads
          simpa using own

theorem readPair_ne_header
    (text : List Char) (path : List (List Char)) :
    readPair text ≠ some (.header path) := by
  intro reads
  rw [readPair] at reads
  obtain ⟨⟨key, after⟩, -, reads⟩ := Option.bind_eq_some_iff.mp reads
  dsimp only at reads
  split at reads
  · cases reads
  · split_ifs at reads with equals
    obtain ⟨⟨value, final⟩, -, reads⟩ := Option.bind_eq_some_iff.mp reads
    dsimp only at reads
    split_ifs at reads
    cases reads

/-- A header stands behind a bracket. -/
theorem readLine_eq_header
    {text : List Char} {path : List (List Char)}
    (reads : readLine text = some (.header path)) :
    ∃ rest, skipBlanks text = '[' :: rest ∧
      readHeader rest = some (.header path) := by
  rw [readLine] at reads
  split_ifs at reads with ends
  · cases reads
  · split at reads
    · cases reads
    · rename_i head rest skipped
      split_ifs at reads with bracket
      · subst bracket
        exact ⟨rest, skipped, reads⟩
      · exact absurd reads (readPair_ne_header _ _)

/-- Every key of a header is bare or stands between quotes on its line. -/
theorem readLine_bare_or_quotes
    {text : List Char} {path : List (List Char)}
    (reads : readLine text = some (.header path)) :
    ∀ key ∈ path, IsBare key ∨ Quotes key text := by
  obtain ⟨rest, skipped, reads⟩ := readLine_eq_header reads
  have inside := skipBlanks_suffix text
  rw [skipped] at inside
  rw [readHeader] at reads
  obtain ⟨⟨keys, after⟩, found, reads⟩ := Option.bind_eq_some_iff.mp reads
  dsimp only at reads
  split at reads
  · cases reads
  · split_ifs at reads with closes
    cases reads
    intro key member
    refine (readPath_bare_or_quotes found key member).imp_right ?_
    intro quotes
    exact quotes.of_infix ((List.suffix_cons _ _).trans inside).isInfix

/-- An element that a list does not have is found behind it. -/
theorem behind_of_not_mem
    {element : Char} {before rest left tail : List Char}
    (same : before ++ rest = left ++ element :: tail)
    (absent : element ∉ before) :
    ∃ more, rest = more ++ element :: tail := by
  rcases List.append_eq_append_iff.mp same with
    ⟨more, -, found⟩ | ⟨more, split, found⟩
  · exact ⟨more, found⟩
  · cases more with
    | nil => exact ⟨[], found.symm⟩
    | cons head more =>
        obtain ⟨rfl, -⟩ := List.cons.inj found
        rw [split] at absent
        exact absurd (List.mem_append_right _ List.mem_cons_self) absent

/-- Between two texts without quotes, the quotes stand in the middle. -/
theorem Quotes.within
    {key before middle after : List Char}
    (quotes : Quotes key (before ++ (middle ++ after)))
    (clearBefore : ∀ char ∈ before, isQuote char = false)
    (clearAfter : ∀ char ∈ after, isQuote char = false) :
    Quotes key middle := by
  obtain ⟨quote, left, body, right, isQuote, same, room⟩ := quotes
  have inBefore : quote ∉ before := fun member => by
    rw [clearBefore quote member] at isQuote
    exact Bool.false_ne_true isQuote
  have inAfter : quote ∉ after := fun member => by
    rw [clearAfter quote member] at isQuote
    exact Bool.false_ne_true isQuote
  obtain ⟨front, split⟩ := behind_of_not_mem same inBefore
  have reversed : after.reverse ++ middle.reverse =
      right.reverse ++ quote :: (front ++ quote :: body).reverse := by
    rw [← List.reverse_append, split]
    simp
  obtain ⟨back, ends⟩ := behind_of_not_mem reversed
    (fun member => inAfter (List.mem_reverse.mp member))
  have found : middle = front ++ quote :: (body ++ quote :: back.reverse) := by
    rw [← List.reverse_reverse middle, ends]
    simp
  exact ⟨quote, front, body, back.reverse, isQuote, found, room⟩

/-- A key that stands between quotes is shorter than the text. -/
theorem Quotes.length_lt
    {key text : List Char} (quotes : Quotes key text) :
    key.length < text.length := by
  obtain ⟨quote, before, body, after, -, rfl, room⟩ := quotes
  simp only [List.length_append, List.length_cons]
  omega

/-- A text with quotes is no bare key. -/
theorem Quotes.not_isBare
    {key text : List Char} (quotes : Quotes key text) : ¬ IsBare text := by
  rintro ⟨-, bare⟩
  obtain ⟨quote, before, body, after, isQuote, rfl, -⟩ := quotes
  have isBare := bare quote
    (List.mem_append_right _ List.mem_cons_self)
  rw [Toml.isQuote, Bool.or_eq_true, beq_iff_eq, beq_iff_eq] at isQuote
  rcases isQuote with rfl | rfl
  · exact absurd isBare (by decide)
  · exact absurd isBare (by decide)

/-! ## Texts without quoted keys -/

/-- A single line that starts with a bare key or has no quotes. -/
def tame (text : List Char) : Bool :=
  text.all (· != '\n') &&
    (text.head?.any isBareChar || text.all fun char => !isQuote char)

theorem single_of_tame {text : List Char} (isTame : tame text = true) :
    '\n' ∉ text := by
  intro member
  have others := (Bool.and_eq_true_iff.mp isTame).1
  exact absurd (List.all_eq_true.mp others '\n' member) (by decide)

/-- A bare key and what follows it on its line. -/
theorem tame_pair
    {key rest : List Char} (bare : IsBare key) (single : '\n' ∉ rest) :
    tame (key ++ rest) = true := by
  rw [tame, Bool.and_eq_true, List.all_append, Bool.and_eq_true,
    Bool.or_eq_true]
  refine ⟨⟨?_, ?_⟩, Or.inl ?_⟩
  · rw [List.all_eq_true]
    intro char member
    rw [bne_iff_ne]
    rintro rfl
    exact absurd (bare.2 _ member) (by decide)
  · rw [List.all_eq_true]
    intro char member
    rw [bne_iff_ne]
    rintro rfl
    exact single member
  · obtain ⟨head, tail, rfl, isBare, -⟩ := bare.exists_cons
    exact isBare

/-- A bare key between texts without quotes. -/
theorem tame_between
    {key before after : List Char} (bare : IsBare key)
    (left : before.all (fun char => char != '\n' && !isQuote char) = true)
    (right : after.all (fun char => char != '\n' && !isQuote char) = true) :
    tame (before ++ key ++ after) = true := by
  have middle : key.all (fun char => char != '\n' && !isQuote char) =
      true := by
    rw [List.all_eq_true]
    intro char member
    have isBare := bare.2 char member
    rw [Bool.and_eq_true, bne_iff_ne, Bool.not_eq_true', isQuote,
      Bool.or_eq_false_iff, beq_eq_false_iff_ne, beq_eq_false_iff_ne]
    refine ⟨?_, ?_, ?_⟩
    · rintro rfl
      exact absurd isBare (by decide)
    · rintro rfl
      exact absurd isBare (by decide)
    · rintro rfl
      exact absurd isBare (by decide)
  have whole : (before ++ key ++ after).all
      (fun char => char != '\n' && !isQuote char) = true := by
    rw [List.all_append, List.all_append, left, middle, right]
    rfl
  rw [List.all_eq_true] at whole
  rw [tame, Bool.and_eq_true, Bool.or_eq_true, List.all_eq_true,
    List.all_eq_true]
  exact ⟨fun char member => (Bool.and_eq_true_iff.mp (whole char member)).1,
    Or.inr fun char member =>
      (Bool.and_eq_true_iff.mp (whole char member)).2⟩

/-- A header on such a line has only bare keys. -/
theorem isBare_of_tame
    {text : List Char} {path : List (List Char)} (isTame : tame text = true)
    (reads : readLine text = some (.header path)) :
    ∀ key ∈ path, IsBare key := by
  rw [tame, Bool.and_eq_true, Bool.or_eq_true] at isTame
  rcases isTame.2 with starts | clear
  · obtain ⟨rest, skipped, -⟩ := readLine_eq_header reads
    cases text with
    | nil => cases starts
    | cons head tail =>
        rw [List.head?_cons, Option.any_some] at starts
        rw [skipBlanks, List.dropWhile_cons_of_neg] at skipped
        · obtain ⟨rfl, -⟩ := List.cons.inj skipped
          exact absurd starts (by decide)
        · rw [isBareChar_not_blank starts]
          exact Bool.false_ne_true
  · intro key member
    rcases readLine_bare_or_quotes reads key member with bare | quotes
    · exact bare
    · obtain ⟨quote, before, body, after, isQuote, rfl, -⟩ := quotes
      have noQuote := List.all_eq_true.mp clear quote
        (List.mem_append_right _ List.mem_cons_self)
      rw [isQuote] at noQuote
      cases noQuote

/-! ## Texts of lines -/

/-- Lines, each with a line feed behind it. -/
def writeLines (texts : List (List Char)) : List Char :=
  texts.flatMap (· ++ ['\n'])

theorem splitOn_writeLines (texts : List (List Char)) :
    (writeLines texts).splitOn '\n' =
      texts.flatMap (·.splitOn '\n') ++ [[]] := by
  induction texts with
  | nil => rfl
  | cons text texts induction =>
      have split : writeLines (text :: texts) =
          text ++ '\n' :: writeLines texts := by
        simp [writeLines]
      rw [split, List.splitOn_append_cons_self, induction,
        List.flatMap_cons, List.append_assoc]

theorem mapM_eq_some_iff
    {α β : Type} {read : α → Option β} {items : List α} {results : List β} :
    items.mapM read = some results ↔
      List.Forall₂ (fun item result => read item = some result)
        items results := by
  induction items generalizing results with
  | nil => simp [eq_comm]
  | cons item items induction =>
      rw [List.mapM_cons, List.forall₂_cons_left_iff]
      constructor
      · intro reads
        obtain ⟨result, first, reads⟩ := Option.bind_eq_some_iff.mp reads
        obtain ⟨others, later, same⟩ := Option.bind_eq_some_iff.mp reads
        cases same
        exact ⟨result, others, first, induction.mp later, rfl⟩
      · rintro ⟨result, others, first, later, rfl⟩
        rw [first, Option.bind_eq_bind, Option.bind_some,
          induction.mpr later]
        rfl

theorem exists_of_mem_left
    {α β : Type} {related : α → β → Prop} {items : List α} {others : List β}
    (all : List.Forall₂ related items others) {item : α}
    (member : item ∈ items) : ∃ other ∈ others, related item other := by
  induction all with
  | nil => cases member
  | cons first _ induction =>
      rcases List.mem_cons.mp member with rfl | member
      · exact ⟨_, List.mem_cons_self, first⟩
      · obtain ⟨other, inside, found⟩ := induction member
        exact ⟨other, List.mem_cons_of_mem _ inside, found⟩

theorem readDocument_eq_some
    {text : List Char} {document : Document}
    (reads : readDocument text = some document) :
    ∃ lines, List.Forall₂ (fun line read => readLine line = some read)
        (text.splitOn '\n') lines ∧
      Consistent document.headers document.paths ∧
        document = assemble [] lines := by
  rw [readDocument] at reads
  obtain ⟨lines, read, reads⟩ := Option.bind_eq_some_iff.mp reads
  dsimp only at reads
  split_ifs at reads with consistent
  cases reads
  exact ⟨lines, mapM_eq_some_iff.mp read, consistent, rfl⟩

theorem assemble_blank (table : List (List Char)) (lines : List Line) :
    assemble table (lines ++ [.blank]) = assemble table lines := by
  induction lines generalizing table with
  | nil => rfl
  | cons line lines induction =>
      cases line with
      | blank => exact induction table
      | header path => simp only [List.cons_append, assemble, induction]
      | pair key value => simp only [List.cons_append, assemble, induction]

/-- Lines that are read one by one make up a document. -/
theorem readDocument_writeLines
    {texts : List (List Char)} {lines : List Line}
    (reads : List.Forall₂ (fun text line => readLine text = some line)
      texts lines)
    (single : ∀ text ∈ texts, '\n' ∉ text)
    (consistent : Consistent (assemble [] lines).headers
      (assemble [] lines).paths) :
    readDocument (writeLines texts) = some (assemble [] lines) := by
  have apart : texts.flatMap (·.splitOn '\n') = texts := by
    clear reads
    induction texts with
    | nil => rfl
    | cons text texts induction =>
        obtain ⟨own, others⟩ := List.forall_mem_cons.mp single
        rw [List.flatMap_cons, List.splitOn_eq_singleton own,
          induction others, List.singleton_append]
  have all : ((writeLines texts).splitOn '\n').mapM readLine =
      some (lines ++ [.blank]) := by
    rw [splitOn_writeLines, apart, mapM_eq_some_iff]
    exact List.rel_append reads (.cons rfl .nil)
  rw [readDocument, all, Option.bind_eq_bind, Option.bind_some]
  dsimp only
  rw [assemble_blank, if_pos consistent]

/-- The table that a value belongs to was opened by a header. -/
theorem header_of_mem_values
    {table : List (List Char)} {lines : List Line}
    {value : List (List Char) × Scalar}
    (member : value ∈ (assemble table lines).values) :
    ∃ path key, value.1 = path ++ [key] ∧
      (path = table ∨ Line.header path ∈ lines) := by
  induction lines generalizing table with
  | nil => cases member
  | cons line lines induction =>
      cases line with
      | blank =>
          obtain ⟨path, key, split, opened⟩ := induction member
          exact ⟨path, key, split,
            opened.imp_right (List.mem_cons_of_mem _)⟩
      | header own =>
          obtain ⟨path, key, split, opened⟩ := induction member
          refine ⟨path, key, split, Or.inr ?_⟩
          rcases opened with rfl | opened
          · exact List.mem_cons_self
          · exact List.mem_cons_of_mem _ opened
      | pair own scalar =>
          rcases List.mem_cons.mp member with rfl | member
          · exact ⟨table, own, rfl, Or.inl rfl⟩
          · obtain ⟨path, key, split, opened⟩ := induction member
            exact ⟨path, key, split,
              opened.imp_right (List.mem_cons_of_mem _)⟩

/-- A table that holds a value is named on a line of the text. -/
theorem line_of_mem_values
    {text : List Char} {document : Document}
    (reads : readDocument text = some document)
    {path : List (List Char)} {key : List Char} {scalar : Scalar}
    (member : (path ++ [key], scalar) ∈ document.values)
    (inner : path ≠ []) :
    ∃ line ∈ text.splitOn '\n', readLine line = some (.header path) := by
  obtain ⟨lines, read, -, rfl⟩ := readDocument_eq_some reads
  obtain ⟨table, last, split, opened⟩ := header_of_mem_values member
  obtain ⟨rfl, -⟩ := List.append_inj' split rfl
  rcases opened with empty | opened
  · exact absurd empty inner
  · obtain ⟨line, inside, found⟩ :=
      exists_of_mem_left (List.Forall₂.flip read) opened
    exact ⟨line, inside, found⟩

theorem infix_intercalate
    {α : Type} {separator line : List α} {lines : List (List α)}
    (member : line ∈ lines) :
    line <:+: List.intercalate separator lines := by
  induction lines with
  | nil => cases member
  | cons first others induction =>
      cases others with
      | nil =>
          rw [List.mem_singleton.mp member, List.intercalate_singleton]
      | cons next others =>
          rw [List.intercalate_cons_cons]
          rcases List.mem_cons.mp member with rfl | member
          · exact ((List.prefix_append _ _).trans
              (List.prefix_append _ _)).isInfix
          · exact (induction member).trans (List.suffix_append _ _).isInfix

theorem infix_of_mem_splitOn
    {separator : Char} {text line : List Char}
    (member : line ∈ text.splitOn separator) : line <:+: text := by
  have inside := @infix_intercalate _ [separator] _ _ member
  rwa [List.intercalate_splitOn] at inside

/-- Every single line of a document can be read. -/
theorem readLine_of_mem
    {texts : List (List Char)} {document : Document}
    (reads : readDocument (writeLines texts) = some document)
    {text : List Char} (member : text ∈ texts) (single : '\n' ∉ text) :
    readLine text ≠ none := by
  obtain ⟨lines, read, -, -⟩ := readDocument_eq_some reads
  have inside : text ∈ (writeLines texts).splitOn '\n' := by
    rw [splitOn_writeLines, List.mem_append]
    refine Or.inl (List.mem_flatMap.mpr ⟨text, member, ?_⟩)
    rw [List.splitOn_eq_singleton single]
    exact List.mem_singleton_self _
  obtain ⟨line, -, found⟩ := exists_of_mem_left read inside
  rw [found]
  exact Option.some_ne_none _

/-- A name that is not bare is taken from a line that is not tame, where it
stands between quotes. -/
theorem quotes_of_mem_values
    {texts : List (List Char)} {document : Document}
    (reads : readDocument (writeLines texts) = some document)
    {path : List (List Char)} {key : List Char} {scalar : Scalar}
    (member : (path ++ [key], scalar) ∈ document.values)
    {name : List Char} (named : name ∈ path) :
    IsBare name ∨ ∃ text ∈ texts, tame text = false ∧ Quotes name text := by
  obtain ⟨line, inside, read⟩ := line_of_mem_values reads member
    (List.ne_nil_of_mem named)
  rw [splitOn_writeLines, List.mem_append] at inside
  rcases inside with inside | inside
  · obtain ⟨text, own, inside⟩ := List.mem_flatMap.mp inside
    cases isTame : tame text with
    | true =>
        rw [List.splitOn_eq_singleton (single_of_tame isTame),
          List.mem_singleton] at inside
        subst inside
        exact Or.inl (isBare_of_tame isTame read name named)
    | false =>
        refine (readLine_bare_or_quotes read name named).imp_right ?_
        intro quotes
        exact ⟨text, own, isTame,
          quotes.of_infix (infix_of_mem_splitOn inside)⟩
  · rw [List.mem_singleton] at inside
    subst inside
    cases read

/-- What only a longer name can excuse holds of no name of a list. -/
theorem not_of_longer
    {names : List (List Char)} {bad : List Char → Prop}
    (longer : ∀ name ∈ names, bad name →
      ∃ other ∈ names, bad other ∧ name.length < other.length) :
    ∀ name ∈ names, ¬ bad name := by
  classical
  intro name member isBad
  obtain ⟨longest, inside, most⟩ :=
    (names.toFinset.filter bad).exists_max_image List.length
      ⟨name, by simpa using ⟨member, isBad⟩⟩
  rw [Finset.mem_filter, List.mem_toFinset] at inside
  obtain ⟨other, also, alsoBad, more⟩ := longer longest inside.1 inside.2
  have atMost := most other (by simpa using ⟨also, alsoBad⟩)
  exact absurd more (Nat.not_lt.mpr atMost)

/-! ## Documents of tables -/

/-- A table and its own pairs. -/
structure Table where
  path : List (List Char)
  pairs : List (List Char × Scalar)

/-- The lines of a table, behind an empty one. -/
def Table.lines (table : Table) : List Line :=
  .blank :: .header table.path ::
    table.pairs.map fun pair => .pair pair.1 pair.2

/-- The values of a table by their paths. -/
def Table.values (table : Table) : List (List (List Char) × Scalar) :=
  table.pairs.map fun pair => (table.path ++ [pair.1], pair.2)

/-- The document of some tables. -/
def ofTables (tables : List Table) : Document :=
  ⟨tables.map Table.path, tables.flatMap Table.values⟩

theorem assemble_pairs
    (table : List (List Char)) (pairs : List (List Char × Scalar))
    (lines : List Line) :
    assemble table
        ((pairs.map fun pair => .pair pair.1 pair.2) ++ lines) =
      ⟨(assemble table lines).headers,
        (pairs.map fun pair => (table ++ [pair.1], pair.2)) ++
          (assemble table lines).values⟩ := by
  induction pairs with
  | nil => rfl
  | cons pair pairs induction =>
      rw [List.map_cons, List.cons_append, assemble, induction]
      rfl

/-- The lines of tables make up their document. -/
theorem assemble_tables (within : List (List Char)) (tables : List Table) :
    assemble within (tables.flatMap Table.lines) = ofTables tables := by
  induction tables generalizing within with
  | nil => rfl
  | cons table tables induction =>
      rw [List.flatMap_cons, Table.lines, List.cons_append, List.cons_append,
        assemble, assemble, assemble_pairs, induction]
      rfl

/-- A section that reads as a table, behind an empty line. -/
def ReadsAs (texts : List (List Char)) (table : Table) : Prop :=
  List.Forall₂ (fun text line => readLine text = some line)
    ([] :: texts) table.lines

theorem cons_intercalate
    {sections : List (List (List Char))} (nonempty : sections ≠ []) :
    [] :: List.intercalate [[]] sections = sections.flatMap ([] :: ·) := by
  induction sections with
  | nil => exact absurd rfl nonempty
  | cons first others induction =>
      cases others with
      | nil => simp
      | cons next others =>
          rw [List.flatMap_cons, ← induction (List.cons_ne_nil _ _),
            List.intercalate_cons_cons]
          simp

/-- Sections with an empty line between them make up the document of their
tables. -/
theorem readDocument_sections
    {sections : List (List (List Char))} {tables : List Table}
    (nonempty : sections ≠ [])
    (reads : List.Forall₂ ReadsAs sections tables)
    (single : ∀ texts ∈ sections, ∀ text ∈ texts, '\n' ∉ text)
    (consistent : Consistent (ofTables tables).headers
      (ofTables tables).paths) :
    readDocument (writeLines (List.intercalate [[]] sections)) =
      some (ofTables tables) := by
  have all : List.Forall₂ (fun text line => readLine text = some line)
      (sections.flatMap ([] :: ·)) (tables.flatMap Table.lines) := by
    clear nonempty single consistent
    induction reads with
    | nil => exact .nil
    | cons read _ induction => exact List.rel_append read induction
  rw [← cons_intercalate nonempty, List.forall₂_cons_left_iff] at all
  obtain ⟨line, lines, blank, read, same⟩ := all
  have isBlank : line = .blank := (Option.some.inj blank).symm
  have document : assemble [] lines = ofTables tables := by
    rw [← assemble_tables [], same, isBlank]
    rfl
  rw [← document] at consistent ⊢
  refine readDocument_writeLines read ?_ consistent
  intro text member
  have inside : text ∈ sections.flatMap ([] :: ·) := by
    rw [← cons_intercalate nonempty]
    exact List.mem_cons_of_mem _ member
  obtain ⟨texts, own, inside⟩ := List.mem_flatMap.mp inside
  rcases List.mem_cons.mp inside with rfl | inside
  · exact List.not_mem_nil
  · exact single texts own text inside

theorem mem_values_ofTables
    {tables : List Table} {value : List (List Char) × Scalar} :
    value ∈ (ofTables tables).values ↔
      ∃ table ∈ tables, value ∈ table.values :=
  List.mem_flatMap

theorem paths_ofTables_append (left right : List Table) :
    (ofTables (left ++ right)).paths =
      (ofTables left).paths ++ (ofTables right).paths := by
  rw [Document.paths, ofTables, List.flatMap_append, List.map_append]
  rfl

theorem headers_ofTables_append (left right : List Table) :
    (ofTables (left ++ right)).headers =
      (ofTables left).headers ++ (ofTables right).headers :=
  List.map_append

theorem values_ofTables_append (left right : List Table) :
    (ofTables (left ++ right)).values =
      (ofTables left).values ++ (ofTables right).values :=
  List.flatMap_append

/-- Tables that all lie below some of the keys at the root. -/
def Below (roots : List Char → Bool) (tables : List Table) : Prop :=
  ∀ header ∈ (ofTables tables).headers, header.head?.any roots = true

theorem Below.paths
    {roots : List Char → Bool} {tables : List Table}
    (below : Below roots tables) :
    ∀ path ∈ (ofTables tables).paths, path.head?.any roots = true := by
  intro path member
  obtain ⟨value, inside, rfl⟩ := List.mem_map.mp member
  obtain ⟨table, own, inside⟩ := mem_values_ofTables.mp inside
  obtain ⟨pair, -, rfl⟩ := List.mem_map.mp inside
  have rooted := below table.path (List.mem_map_of_mem own)
  dsimp only
  cases path : table.path with
  | nil =>
      rw [path] at rooted
      cases rooted
  | cons root rest => rwa [path] at rooted

/-- Nothing lies below any other key. -/
theorem Below.head_ne
    {roots : List Char → Bool} {tables : List Table}
    (below : Below roots tables) {root : List Char}
    (outside : roots root = false) {path : List (List Char)}
    (member : path ∈ (ofTables tables).headers ∨
      path ∈ (ofTables tables).paths) :
    path.head? ≠ some root := by
  intro head
  have rooted : path.head?.any roots = true :=
    member.elim (below path) (below.paths path)
  rw [head, Option.any_some, outside] at rooted
  cases rooted

/-- Paths below different keys are no prefixes of each other. -/
theorem not_prefix_of_roots
    {roots : List Char → Bool} {path other : List (List Char)}
    (left : path.head?.any roots = true)
    (right : other.head?.any (fun root => !roots root) = true) :
    ¬ path <+: other ∧ ¬ other <+: path ∧ path ≠ other := by
  cases path with
  | nil => cases left
  | cons root path =>
      cases other with
      | nil => cases right
      | cons other rest =>
          simp only [List.head?_cons, Option.any_some] at left right
          have differ : root ≠ other := by
            rintro rfl
            rw [left] at right
            cases right
          refine ⟨fun ⟨_, same⟩ => differ (List.cons.inj same).1,
            fun ⟨_, same⟩ => differ (List.cons.inj same).1.symm,
            fun same => differ (List.cons.inj same).1⟩

/-- Two groups of tables below different keys do not disturb each other. -/
theorem Consistent.append
    {roots : List Char → Bool} {left right : List Table}
    (first : Consistent (ofTables left).headers (ofTables left).paths)
    (second : Consistent (ofTables right).headers (ofTables right).paths)
    (below : Below roots left)
    (beside : Below (fun root => !roots root) right) :
    Consistent (ofTables (left ++ right)).headers
      (ofTables (left ++ right)).paths := by
  rw [headers_ofTables_append, paths_ofTables_append]
  constructor
  case nodupHeaders =>
    refine first.nodupHeaders.append second.nodupHeaders ?_
    intro header own other
    exact (not_prefix_of_roots (below header own)
      (beside header other)).2.2 rfl
  case nodupPaths =>
    refine first.nodupPaths.append second.nodupPaths ?_
    intro path own other
    exact (not_prefix_of_roots (below.paths path own)
      (beside.paths path other)).2.2 rfl
  case noTable =>
    intro path pathMember header headerMember
    rcases List.mem_append.mp pathMember with own | own <;>
    rcases List.mem_append.mp headerMember with other | other
    · exact first.noTable path own header other
    · exact (not_prefix_of_roots (below.paths path own)
        (beside header other)).1
    · exact (not_prefix_of_roots (below header other)
        (beside.paths path own)).2.1
    · exact second.noTable path own header other
  case noInner =>
    intro path pathMember other otherMember inside
    rcases List.mem_append.mp pathMember with own | own <;>
    rcases List.mem_append.mp otherMember with also | also
    · exact first.noInner path own other also inside
    · exact absurd inside (not_prefix_of_roots (below.paths path own)
        (beside.paths other also)).1
    · exact absurd inside (not_prefix_of_roots (below.paths other also)
        (beside.paths path own)).2.1
    · exact second.noInner path own other also inside

/-- Tables of one pair each, with names of their own below one key. -/
theorem consistent_siblings
    {α : Type} {items : List α} {name : α → List Char}
    (distinct : (items.map name).Nodup)
    (root key : List Char) (scalar : α → Scalar) :
    let tables := items.map fun item =>
      Table.mk [root, name item] [(key, scalar item)]
    Consistent (ofTables tables).headers (ofTables tables).paths := by
  intro tables
  have headers : (ofTables tables).headers =
      (items.map name).map fun own => [root, own] := by
    simp [ofTables, tables]
  have paths : (ofTables tables).paths =
      (items.map name).map fun own => [root, own, key] := by
    simp [ofTables, tables, Document.paths, Table.values, List.flatMap_map,
      ← List.map_eq_flatMap]
  rw [headers, paths]
  constructor
  case nodupHeaders =>
    refine distinct.map ?_
    intro left right same
    simpa using same
  case nodupPaths =>
    refine distinct.map ?_
    intro left right same
    simpa using same
  case noTable =>
    intro path pathMember header headerMember inside
    obtain ⟨own, -, rfl⟩ := List.mem_map.mp pathMember
    obtain ⟨other, -, rfl⟩ := List.mem_map.mp headerMember
    exact absurd inside.length_le (Nat.lt_irrefl 2)
  case noInner =>
    intro path pathMember other otherMember inside
    obtain ⟨own, -, rfl⟩ := List.mem_map.mp pathMember
    obtain ⟨also, -, rfl⟩ := List.mem_map.mp otherMember
    exact inside.eq_of_length rfl

end LightWaf.Theory.Toml
