import Mathlib.Tactic

/-!
# Fields behind escapes

A record is written as its fields with a separator in between, where a mark
takes the special meaning of the item behind it away.  A text whose separators
and marks are all escaped is sealed: splitting passes over it, whatever stands
behind it.
-/

namespace LightWaf.Theory.Escaping

universe u

variable {α : Type u}

/-! ## Sealed texts -/

/-- Every separator and every mark of a text is escaped. -/
inductive Sealed (mark separator : α) : List α → Prop
  | nil : Sealed mark separator []
  | plain {item : α} {rest : List α} (unmarked : item ≠ mark)
      (inside : item ≠ separator) (behind : Sealed mark separator rest) :
      Sealed mark separator (item :: rest)
  | escaped (item : α) {rest : List α} (behind : Sealed mark separator rest) :
      Sealed mark separator (mark :: item :: rest)

variable {mark separator : α}

theorem Sealed.append
    {text other : List α} (first : Sealed mark separator text)
    (second : Sealed mark separator other) :
    Sealed mark separator (text ++ other) := by
  induction first with
  | nil => exact second
  | plain unmarked inside _ induction =>
      exact .plain unmarked inside induction
  | escaped item _ induction => exact .escaped item induction

/-- A text without marks and separators is sealed. -/
theorem sealed_of_plain
    {text : List α}
    (plain : ∀ item ∈ text, item ≠ mark ∧ item ≠ separator) :
    Sealed mark separator text := by
  induction text with
  | nil => exact .nil
  | cons item rest induction =>
      rw [List.forall_mem_cons] at plain
      exact .plain plain.1.1 plain.1.2 (induction plain.2)

/-! ## Writing -/

/--
An escaping: what is written for each item, what an escaped item means, and
what a reader is shown.
-/
structure Code (mark separator : α) where
  write : α → List α
  meaning : α → α
  shown : α → α
  spec : ∀ item,
    (write item = [shown item] ∧ shown item ≠ mark ∧
      shown item ≠ separator) ∨
    ∃ letter, write item = [mark, letter] ∧ meaning letter = shown item

variable (code : Code mark separator)

/-- What is written is sealed. -/
theorem Code.closed (text : List α) :
    Sealed mark separator (text.flatMap code.write) := by
  induction text with
  | nil => exact .nil
  | cons item rest induction =>
      rw [List.flatMap_cons]
      rcases code.spec item with
        ⟨written, unmarked, inside⟩ | ⟨letter, written, -⟩
      · rw [written]
        exact .plain unmarked inside induction
      · rw [written]
        exact .escaped letter induction

variable [DecidableEq α]

/-! ## Reading -/

/--
The pieces between the first separators that are not escaped, at most `limit`
of them, with the escapes still in place.
-/
def splitUnescaped (mark separator : α) :
    (limit : Nat) → (escaped : Bool) → List α → List (List α)
  | _, _, [] => [[]]
  | limit, true, item :: rest =>
      (splitUnescaped mark separator limit false rest).modifyHead (item :: ·)
  | 0, false, item :: rest =>
      (splitUnescaped mark separator 0 (item = mark) rest).modifyHead
        (item :: ·)
  | limit + 1, false, item :: rest =>
      if item = separator then
        [] :: splitUnescaped mark separator limit false rest
      else
        (splitUnescaped mark separator (limit + 1) (item = mark)
          rest).modifyHead (item :: ·)

/-- The escapes undone: an item behind a mark stands for another one. -/
def unescape (mark : α) (meaning : α → α) : List α → List α
  | [] => []
  | [item] => [item]
  | item :: next :: rest =>
      if item = mark then meaning next :: unescape mark meaning rest
      else item :: unescape mark meaning (next :: rest)

theorem splitUnescaped_nil (limit : Nat) (escaped : Bool) :
    splitUnescaped mark separator limit escaped [] = [[]] := by
  cases limit <;> cases escaped <;> rfl

theorem splitUnescaped_escaped (limit : Nat) (item : α) (rest : List α) :
    splitUnescaped mark separator limit true (item :: rest) =
      (splitUnescaped mark separator limit false rest).modifyHead
        (item :: ·) := by
  cases limit <;> rfl

theorem splitUnescaped_separator (limit : Nat) (rest : List α) :
    splitUnescaped mark separator (limit + 1) false (separator :: rest) =
      [] :: splitUnescaped mark separator limit false rest :=
  if_pos rfl

theorem splitUnescaped_cons
    {item : α} (inside : item ≠ separator) (limit : Nat) (rest : List α) :
    splitUnescaped mark separator limit false (item :: rest) =
      (splitUnescaped mark separator limit (item = mark) rest).modifyHead
        (item :: ·) := by
  cases limit with
  | zero => rfl
  | succ limit => exact if_neg inside

/-- Splitting passes over what is sealed. -/
theorem Sealed.split_append
    {text : List α} (closed : Sealed mark separator text)
    (distinct : mark ≠ separator) (limit : Nat) (rest : List α) :
    splitUnescaped mark separator limit false (text ++ rest) =
      (splitUnescaped mark separator limit false rest).modifyHead
        (text ++ ·) := by
  induction closed with
  | nil =>
      rw [List.nil_append]
      cases splitUnescaped mark separator limit false rest <;> rfl
  | @plain item text unmarked inside _ induction =>
      rw [List.cons_append, splitUnescaped_cons inside,
        decide_eq_false unmarked, induction, List.modifyHead_modifyHead]
      rfl
  | @escaped item text _ induction =>
      rw [List.cons_append, List.cons_append, splitUnescaped_cons distinct,
        decide_eq_true rfl, splitUnescaped_escaped, induction,
        List.modifyHead_modifyHead, List.modifyHead_modifyHead]
      rfl

/-- A sealed text is split off in front of a separator. -/
theorem Sealed.split_separator
    {text : List α} (closed : Sealed mark separator text)
    (distinct : mark ≠ separator) (limit : Nat) (rest : List α) :
    splitUnescaped mark separator (limit + 1) false
        (text ++ separator :: rest) =
      text :: splitUnescaped mark separator limit false rest := by
  rw [closed.split_append distinct, splitUnescaped_separator,
    List.modifyHead_cons, List.append_nil]

/-- A sealed text is one piece. -/
theorem Sealed.split_eq
    {text : List α} (closed : Sealed mark separator text)
    (distinct : mark ≠ separator) (limit : Nat) :
    splitUnescaped mark separator limit false text = [text] := by
  have split := closed.split_append distinct limit []
  rw [List.append_nil] at split
  rw [split, splitUnescaped_nil, List.modifyHead_cons, List.append_nil]

/-- What is left after the last split is one piece. -/
theorem splitUnescaped_zero (escaped : Bool) (text : List α) :
    splitUnescaped mark separator 0 escaped text = [text] := by
  induction text generalizing escaped with
  | nil =>
      cases escaped <;> rfl
  | cons item rest induction =>
      cases escaped with
      | false =>
          change (splitUnescaped mark separator 0 (item = mark)
            rest).modifyHead (item :: ·) = [item :: rest]
          rw [induction]
          rfl
      | true =>
          rw [splitUnescaped_escaped, induction]
          rfl

theorem unescape_mark (meaning : α → α) (next : α) (rest : List α) :
    unescape mark meaning (mark :: next :: rest) =
      meaning next :: unescape mark meaning rest :=
  if_pos rfl

theorem unescape_cons
    {item : α} (unmarked : item ≠ mark) (meaning : α → α) (rest : List α) :
    unescape mark meaning (item :: rest) =
      item :: unescape mark meaning rest := by
  cases rest with
  | nil => rfl
  | cons next rest => exact if_neg unmarked

/-- A reader is shown the items that were written. -/
theorem Code.unescape_write (text : List α) :
    unescape mark code.meaning (text.flatMap code.write) =
      text.map code.shown := by
  induction text with
  | nil => rfl
  | cons item rest induction =>
      rw [List.flatMap_cons, List.map_cons]
      rcases code.spec item with
        ⟨written, unmarked, -⟩ | ⟨letter, written, means⟩
      · rw [written, List.singleton_append, unescape_cons unmarked,
          induction]
      · rw [written, List.cons_append, List.singleton_append, unescape_mark,
          means, induction]

/-- A text without marks means itself. -/
theorem unescape_of_plain
    {text : List α} (plain : ∀ item ∈ text, item ≠ mark)
    (meaning : α → α) : unescape mark meaning text = text := by
  induction text with
  | nil => rfl
  | cons item rest induction =>
      rw [List.forall_mem_cons] at plain
      rw [unescape_cons plain.1, induction plain.2]

end LightWaf.Theory.Escaping
