import LightWaf.Rust.Utf8

/-!
# Searching, splitting and trimming

What the searching operations return on a text that is put together from
known pieces, and what they can never return.
-/

namespace LightWaf.Rust

/-! ## Lines and words -/

/-- `str::trim_end`. -/
def trimEnd (text : Text) : Text :=
  text.rdropWhile isWhitespace

/--
`str::lines`: a terminated line loses one carriage return before its line
feed, and what follows the last line feed is a line unless it is empty.
-/
def lines (text : Text) : List Text :=
  let pieces := text.splitOn '\n'
  pieces.dropLast.map (fun line => (stripSuffix ['\r'] line).getD line) ++
    (pieces.getLast?.filter fun line => !line.isEmpty).toList

/-- `str::split_whitespace`. -/
def splitWhitespace (text : Text) : List Text :=
  (text.splitOnP isWhitespace).filter fun word => !word.isEmpty

/-! ## The first occurrence -/

section Find

variable {α : Type} [BEq α] [LawfulBEq α]

/-- A needle at the start is found there. -/
theorem findSplit_prefix (first : α) (others rest : List α) :
    findSplit (first :: others) (first :: others ++ rest) =
      some ([], rest) := by
  have starts : (first :: others).isPrefixOf
      (first :: (others ++ rest)) = true :=
    List.isPrefixOf_iff_prefix.mpr (List.prefix_append _ _)
  show findSplit (first :: others) (first :: (others ++ rest)) = _
  rw [findSplit, if_pos starts]
  exact congrArg (fun after => some ([], after)) List.drop_left

/--
A needle whose first item does not recur in it cannot start inside the text
before it and end inside itself, so the first match is the one that is there.
-/
theorem findSplit_append
    {first : α} {others text : List α} (single : first ∉ others)
    (absent : ¬ (first :: others) <:+: text) (rest : List α) :
    findSplit (first :: others) (text ++ (first :: others ++ rest)) =
      some (text, rest) := by
  induction text with
  | nil => exact findSplit_prefix first others rest
  | cons item text induction =>
      have later := induction fun inside =>
        absent (inside.trans (List.suffix_cons item text).isInfix)
      have differs : ¬ (first :: others).isPrefixOf
          (item :: (text ++ (first :: others ++ rest))) = true := by
        intro starts
        have whole := List.isPrefixOf_iff_prefix.mp starts
        have here : (item :: text) <+:
            item :: (text ++ (first :: others ++ rest)) :=
          List.prefix_append _ _
        rcases List.prefix_or_prefix_of_prefix whole here with
          within | ⟨tail, split⟩
        · exact absent within.isInfix
        · obtain ⟨after, continues⟩ := whole
          rw [← split, List.append_assoc, split] at continues
          have crossing : tail ++ after = first :: (others ++ rest) :=
            (List.append_right_inj (item :: text)).mp continues
          cases tail with
          | nil =>
              rw [List.append_nil] at split
              exact absent (split ▸ List.infix_rfl)
          | cons again tail =>
              have same : again = first := (List.cons.inj crossing).1
              have recurs : others = text ++ again :: tail :=
                (List.cons.inj split).2.symm
              apply single
              rw [recurs, same]
              simp
      show findSplit (first :: others) (item :: (text ++ _)) = _
      rw [findSplit, if_neg differs, later]
      rfl

/-- A single item is found where it first stands. -/
theorem findSplit_single
    {item : α} {text : List α} (absent : item ∉ text) (rest : List α) :
    findSplit [item] (text ++ item :: rest) = some (text, rest) := by
  apply findSplit_append (List.not_mem_nil)
  intro inside
  exact absent (inside.subset (by simp))

/-- A text is what stands around a match, with the match between. -/
theorem eq_of_findSplit
    {needle text before after : List α}
    (found : findSplit needle text = some (before, after)) :
    text = before ++ (needle ++ after) := by
  induction text generalizing before with
  | nil =>
      rw [findSplit] at found
      split_ifs at found with empty
      cases found
      rw [List.isEmpty_iff.mp empty]
      rfl
  | cons head tail induction =>
      rw [findSplit] at found
      split_ifs at found with starts
      · cases found
        exact (List.prefix_append_drop
          (List.isPrefixOf_iff_prefix.mp starts))
      · obtain ⟨⟨front, back⟩, inner, same⟩ :=
          Option.map_eq_some_iff.mp found
        cases same
        exact congrArg (head :: ·) (induction inner)

/-- A needle that stands in a text is found, and no later than there. -/
theorem findSplit_of_eq
    {needle text front back : List α}
    (stands : text = front ++ (needle ++ back)) :
    ∃ before after, findSplit needle text = some (before, after) ∧
      before.length ≤ front.length := by
  induction text generalizing front with
  | nil =>
      obtain ⟨-, others⟩ := List.append_eq_nil_iff.mp stands.symm
      have empty : needle = [] := (List.append_eq_nil_iff.mp others).1
      rw [findSplit, empty, List.isEmpty_nil, if_pos rfl]
      exact ⟨[], [], rfl, Nat.zero_le _⟩
  | cons head tail induction =>
      rw [findSplit]
      split_ifs with starts
      · exact ⟨[], _, rfl, Nat.zero_le _⟩
      · cases front with
        | nil =>
            refine absurd (List.isPrefixOf_iff_prefix.mpr ?_) starts
            rw [stands]
            exact List.prefix_append _ _
        | cons first front =>
            obtain ⟨before, after, found, first⟩ :=
              induction (List.cons.inj stands).2
            rw [found]
            exact ⟨head :: before, after, rfl, Nat.succ_le_succ first⟩

/-- The parts around a match are parts of the text. -/
theorem findSplit_subset
    {needle text before after : List α}
    (found : findSplit needle text = some (before, after)) :
    before ⊆ text ∧ after ⊆ text := by
  rw [eq_of_findSplit found]
  exact ⟨List.subset_append_left _ _,
    List.subset_append_of_subset_right _ (List.subset_append_right _ _)⟩

/-- No piece of a split text holds the separator. -/
theorem not_mem_of_mem_splitOn
    {separator : α} {text piece : List α}
    (member : piece ∈ text.splitOn separator) :
    separator ∉ piece := by
  induction text generalizing piece with
  | nil =>
      rw [List.splitOn_nil, List.mem_singleton] at member
      rw [member]
      exact List.not_mem_nil
  | cons head tail induction =>
      rw [List.splitOn_cons_eq_if_modifyHead] at member
      split_ifs at member with same
      · rcases List.mem_cons.mp member with rfl | later
        · exact List.not_mem_nil
        · exact induction later
      · cases pieces : tail.splitOn separator with
        | nil => exact absurd pieces (List.splitOn_ne_nil _ _)
        | cons first others =>
            rw [pieces, List.modifyHead_cons] at member
            rcases List.mem_cons.mp member with rfl | later
            · have rest := induction (by rw [pieces]; exact List.mem_cons_self)
              rw [List.mem_cons, not_or]
              exact ⟨fun equal => same (by simp [equal]), rest⟩
            · exact induction (by rw [pieces]; exact List.mem_cons_of_mem _ later)

omit [LawfulBEq α] in
/-- A piece of a split text is part of the text. -/
theorem subset_of_mem_splitOn
    {separator : α} {text piece : List α}
    (member : piece ∈ text.splitOn separator) :
    piece ⊆ text := by
  induction text generalizing piece with
  | nil =>
      rw [List.splitOn_nil, List.mem_singleton] at member
      rw [member]
      exact List.nil_subset _
  | cons head tail induction =>
      rw [List.splitOn_cons_eq_if_modifyHead] at member
      split_ifs at member
      · rcases List.mem_cons.mp member with rfl | later
        · exact List.nil_subset _
        · exact List.subset_cons_of_subset _ (induction later)
      · cases pieces : tail.splitOn separator with
        | nil => exact absurd pieces (List.splitOn_ne_nil _ _)
        | cons first others =>
            rw [pieces, List.modifyHead_cons] at member
            rcases List.mem_cons.mp member with rfl | later
            · exact List.cons_subset_cons _
                (induction (by rw [pieces]; exact List.mem_cons_self))
            · exact List.subset_cons_of_subset _
                (induction (by rw [pieces]; exact List.mem_cons_of_mem _ later))

end Find

/-! ## Trimming -/

theorem trim_subset (text : Text) : trim text ⊆ text := by
  intro char member
  have start := (List.rdropWhile_prefix _ _).subset member
  exact (List.dropWhile_suffix _).subset start

theorem trimMatches_subset (char : Char) (text : Text) :
    trimMatches char text ⊆ text := by
  intro other member
  have start := (List.rdropWhile_prefix _ _).subset member
  exact (List.dropWhile_suffix _).subset start

/-- Trimming the end keeps a prefix that ends in a visible character. -/
theorem rdropWhile_append_of_last
    {α : Type} (drop : α → Bool) (lead rest : List α)
    (kept : ∀ last ∈ lead.getLast?, drop last = false) :
    ∃ tail, (lead ++ rest).rdropWhile drop = lead ++ tail := by
  induction rest using List.reverseRecOn with
  | nil =>
      refine ⟨[], ?_⟩
      rw [List.append_nil, List.rdropWhile_eq_self_iff]
      intro nonempty
      rw [kept _ (List.getLast?_eq_getLast_of_ne_nil nonempty)]
      decide
  | append_singleton others item induction =>
      by_cases dropped : drop item = true
      · rw [← List.append_assoc, List.rdropWhile_concat_pos _ _ _ dropped]
        exact induction
      · refine ⟨others ++ [item], ?_⟩
        rw [← List.append_assoc, List.rdropWhile_concat_neg _ _ _ dropped]

/-- Nothing is trimmed between two visible ends. -/
theorem trim_eq_self
    {text : Text}
    (starts : ∀ char ∈ text.head?, isWhitespace char = false)
    (ends : ∀ char ∈ text.getLast?, isWhitespace char = false) :
    trim text = text := by
  have front : trimStart text = text := by
    cases text with
    | nil => rfl
    | cons head tail =>
        exact List.dropWhile_cons_of_neg (by simp [starts head rfl])
  rw [trim, front, List.rdropWhile_eq_self_iff]
  intro nonempty
  rw [ends _ (List.getLast?_eq_getLast_of_ne_nil nonempty)]
  decide

theorem trimMatches_eq_self
    {quote : Char} {text : Text} (clean : quote ∉ text) :
    trimMatches quote text = text := by
  have other : ∀ char ∈ text, ¬ (char == quote) = true := by
    rintro char member same
    rw [beq_iff_eq.mp same] at member
    exact clean member
  have front : text.dropWhile (· == quote) = text := by
    cases text with
    | nil => rfl
    | cons head tail =>
        exact List.dropWhile_cons_of_neg (other head (by simp))
  rw [trimMatches, front, List.rdropWhile_eq_self_iff]
  intro nonempty
  exact other _ (List.getLast_mem nonempty)

/-- Quotes around a text without quotes are stripped. -/
theorem trimMatches_quoted
    {quote : Char} {text : Text} (clean : quote ∉ text) :
    trimMatches quote (quote :: (text ++ [quote])) = text := by
  have inner := trimMatches_eq_self clean
  cases text with
  | nil => simp [trimMatches]
  | cons head tail =>
      have differs : ¬ (head == quote) = true := by
        intro same
        exact clean (by simp [beq_iff_eq.mp same])
      have front : (quote :: (head :: tail ++ [quote])).dropWhile
          (· == quote) = (head :: tail).dropWhile (· == quote) ++ [quote] := by
        rw [List.dropWhile_cons_of_pos (by simp), List.cons_append]
        simp [differs]
      rw [trimMatches, front, List.rdropWhile_concat_pos _ _ _ (by simp)]
      exact inner

end LightWaf.Rust
