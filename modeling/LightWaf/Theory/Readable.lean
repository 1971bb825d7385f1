import Mathlib.Tactic

/-!
# Readable codes

A code writes a value as a list of symbols.  It is readable when the value and
what follows can be told apart again, provided that what follows starts with a
stop symbol or is empty.  Words without stop symbols are readable, and so is
everything put together from readable codes with delimiters between them.
-/

namespace LightWaf.Theory

variable {σ α β τ : Type} {stop : σ → Bool}

/-- A text at which a word has ended. -/
def Ends (stop : σ → Bool) (rest : List σ) : Prop :=
  ∀ symbol ∈ rest.head?, stop symbol = true

/-- The value and what follows are determined by the whole text. -/
def Readable (stop : σ → Bool) (code : α → List σ) : Prop :=
  ∀ left right before after, Ends stop before → Ends stop after →
    code left ++ before = code right ++ after →
      left = right ∧ before = after

theorem ends_nil : Ends stop [] := by
  intro symbol member
  cases member

theorem ends_cons
    {symbol : σ} (stops : stop symbol = true) (rest : List σ) :
    Ends stop (symbol :: rest) := by
  intro other member
  cases member
  exact stops

theorem Readable.injective
    {code : α → List σ} (readable : Readable stop code) :
    Function.Injective code := by
  intro left right same
  exact (readable left right [] [] ends_nil ends_nil (by rw [same])).1

/-! ## Words -/

/-- A word ends where the first stop symbol stands. -/
theorem word_cancel
    {left right before after : List σ}
    (leftWord : ∀ symbol ∈ left, stop symbol = false)
    (rightWord : ∀ symbol ∈ right, stop symbol = false)
    (beforeEnds : Ends stop before) (afterEnds : Ends stop after)
    (same : left ++ before = right ++ after) :
    left = right ∧ before = after := by
  induction left generalizing right with
  | nil =>
      cases right with
      | nil => exact ⟨rfl, same⟩
      | cons symbol right =>
          have stops := beforeEnds symbol (by
            rw [List.nil_append] at same
            rw [same]
            rfl)
          rw [rightWord symbol (by simp)] at stops
          cases stops
  | cons symbol left induction =>
      cases right with
      | nil =>
          have stops := afterEnds symbol (by
            rw [List.nil_append] at same
            rw [← same]
            rfl)
          rw [leftWord symbol (by simp)] at stops
          cases stops
      | cons other right =>
          obtain ⟨rfl, tails⟩ := List.cons.inj same
          obtain ⟨rfl, rests⟩ := induction
            (fun item member => leftWord item (by simp [member]))
            (fun item member => rightWord item (by simp [member])) tails
          exact ⟨rfl, rests⟩

/-- Different words without stop symbols are readable. -/
theorem readable_words
    {word : α → List σ} (injective : Function.Injective word)
    (plain : ∀ value, ∀ symbol ∈ word value, stop symbol = false) :
    Readable stop word := by
  intro left right before after beforeEnds afterEnds same
  obtain ⟨words, rests⟩ := word_cancel (plain left) (plain right) beforeEnds
    afterEnds same
  exact ⟨injective words, rests⟩

/-! ## Putting codes together -/

namespace Readable

variable {code : α → List σ}

/-- A fixed text in front. -/
theorem lead (readable : Readable stop code) (text : List σ) :
    Readable stop fun value => text ++ code value := by
  intro left right before after beforeEnds afterEnds same
  rw [List.append_assoc, List.append_assoc] at same
  exact readable left right before after beforeEnds afterEnds
    (List.append_cancel_left same)

/-- A fixed text behind, starting with a stop symbol. -/
theorem trail
    (readable : Readable stop code) (symbol : σ)
    (stops : stop symbol = true) (rest : List σ) :
    Readable stop fun value => code value ++ symbol :: rest := by
  intro left right before after _ _ same
  rw [List.append_assoc, List.append_assoc] at same
  obtain ⟨values, rests⟩ := readable left right _ _ (ends_cons stops _)
    (ends_cons stops _) same
  exact ⟨values, (List.append_right_inj (symbol :: rest)).mp rests⟩

/-- Two codes with a delimiter between them. -/
theorem both
    {second : β → List σ} (readable : Readable stop code)
    (later : Readable stop second) (symbol : σ)
    (stops : stop symbol = true) (rest : List σ) :
    Readable stop fun pair : α × β =>
      code pair.1 ++ symbol :: (rest ++ second pair.2) := by
  rintro ⟨left, left'⟩ ⟨right, right'⟩ before after beforeEnds afterEnds same
  simp only [List.append_assoc, List.cons_append] at same
  obtain ⟨rfl, rests⟩ := readable left right _ _ (ends_cons stops _)
    (ends_cons stops _) same
  have tails := (List.append_right_inj rest).mp (List.cons.inj rests).2
  obtain ⟨rfl, remaining⟩ := later left' right' before after beforeEnds
    afterEnds tails
  exact ⟨rfl, remaining⟩

/-- A code of parts that determine the value. -/
theorem comap
    (readable : Readable stop code) {parts : β → α}
    (injective : Function.Injective parts) :
    Readable stop fun value => code (parts value) := by
  intro left right before after beforeEnds afterEnds same
  obtain ⟨values, rests⟩ := readable _ _ before after beforeEnds afterEnds same
  exact ⟨injective values, rests⟩

/--
A tag and then a payload.  The payload is empty or starts with a stop symbol,
and among values with one tag it tells the value.
-/
theorem tagged
    (tag : β → τ) (word : τ → List σ) (payload : β → List σ)
    (words : Readable stop word)
    (ends : ∀ value rest, Ends stop rest → Ends stop (payload value ++ rest))
    (payloads : ∀ left right before after, tag left = tag right →
      Ends stop before → Ends stop after →
      payload left ++ before = payload right ++ after →
        left = right ∧ before = after) :
    Readable stop fun value => word (tag value) ++ payload value := by
  intro left right before after beforeEnds afterEnds same
  rw [List.append_assoc, List.append_assoc] at same
  obtain ⟨tags, rests⟩ := words _ _ _ _ (ends left before beforeEnds)
    (ends right after afterEnds) same
  exact payloads left right before after tags beforeEnds afterEnds rests

end Readable

/-! ## Lists -/

section Lists

variable (code : α → List σ) (separator : List σ) (close : σ)

/-- Further items, each after a separator, and the closing symbol. -/
def listTail : List α → List σ
  | [] => [close]
  | item :: rest => separator ++ (code item ++ listTail rest)

/-- Items between separators, and the closing symbol. -/
def listCode : List α → List σ
  | [] => [close]
  | item :: rest => code item ++ listTail code separator close rest

variable {code close} {first : σ} {others : List σ}

theorem ends_listTail
    (closes : stop close = true) (separates : stop first = true)
    (items : List α) (rest : List σ) :
    Ends stop (listTail code (first :: others) close items ++ rest) := by
  cases items with
  | nil => exact ends_cons closes _
  | cons item items => exact ends_cons separates _

theorem listTail_cancel
    (readable : Readable stop code) (closes : stop close = true)
    (separates : stop first = true) (differs : first ≠ close)
    (left right : List α) (before after : List σ)
    (same : listTail code (first :: others) close left ++ before =
      listTail code (first :: others) close right ++ after) :
    left = right ∧ before = after := by
  induction left generalizing right with
  | nil =>
      cases right with
      | nil => exact ⟨rfl, (List.cons.inj same).2⟩
      | cons item right => exact absurd (List.cons.inj same).1.symm differs
  | cons item left induction =>
      cases right with
      | nil => exact absurd (List.cons.inj same).1 differs
      | cons other right =>
          simp only [listTail, List.append_assoc] at same
          have items := (List.append_right_inj (first :: others)).mp same
          obtain ⟨rfl, tails⟩ := readable item other _ _
            (ends_listTail closes separates left before)
            (ends_listTail closes separates right after) items
          obtain ⟨rfl, rests⟩ := induction right tails
          exact ⟨rfl, rests⟩

/-- A list of readable items that do not start with the closing symbol. -/
theorem readable_list
    (readable : Readable stop code) (closes : stop close = true)
    (separates : stop first = true) (differs : first ≠ close)
    (opens : ∀ item, ∃ symbol rest, code item = symbol :: rest ∧
      symbol ≠ close) :
    Readable stop (listCode code (first :: others) close) := by
  intro left right before after _ _ same
  cases left with
  | nil =>
      cases right with
      | nil => exact ⟨rfl, (List.cons.inj same).2⟩
      | cons item right =>
          obtain ⟨symbol, rest, starts, other⟩ := opens item
          rw [listCode, listCode, starts] at same
          exact absurd (List.cons.inj same).1.symm other
  | cons item left =>
      cases right with
      | nil =>
          obtain ⟨symbol, rest, starts, other⟩ := opens item
          rw [listCode, listCode, starts] at same
          exact absurd (List.cons.inj same).1 other
      | cons item' right =>
          rw [listCode, listCode, List.append_assoc, List.append_assoc]
            at same
          obtain ⟨rfl, tails⟩ := readable item item' _ _
            (ends_listTail closes separates left before)
            (ends_listTail closes separates right after) same
          obtain ⟨rfl, rests⟩ := listTail_cancel readable closes separates
            differs left right before after tails
          exact ⟨rfl, rests⟩

end Lists

end LightWaf.Theory
