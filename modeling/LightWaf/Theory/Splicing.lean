import LightWaf.Theory.Scan

/-!
# Lists with parts replaced

`Splice` relates a list to what it becomes when disjoint parts of it are
replaced: a derivation walks the list from the left and either keeps the next
element or puts something in place of the next few.  Both choices may depend
on all that comes before and after.  A scanner that keeps or replaces yields
such a derivation, and counts and filters are read off it.
-/

namespace LightWaf.Theory.Splicing

open LightWaf.Theory.Scan

universe u v

variable {α : Type u} {β : Type v}

/--
The list after `before` becomes `out` when a number of its parts is replaced.
`keeps` speaks of an element that stays, `replaces` of a part and what is put
in its place; both know what comes before in the original list and what comes
after.
-/
inductive Splice (keeps : List α → α → List α → Prop)
    (replaces : List α → List α → List α → List α → Prop) :
    List α → List α → List α → Nat → Prop
  | nil (before : List α) : Splice keeps replaces before [] [] 0
  | keep {before rest out : List α} {item : α} {count : Nat}
      (kept : keeps before item rest)
      (later : Splice keeps replaces (before ++ [item]) rest out count) :
      Splice keeps replaces before (item :: rest) (item :: out) count
  | replace {before dropped put after out : List α} {count : Nat}
      (replaced : replaces before dropped put after)
      (later : Splice keeps replaces (before ++ dropped) after out count) :
      Splice keeps replaces before (dropped ++ after) (put ++ out) (count + 1)

section Rules

variable {keeps keeps' : List α → α → List α → Prop}
variable {replaces replaces' : List α → List α → List α → List α → Prop}
variable {before items out : List α} {count : Nat}

/-- What holds of the replacements within one list may be weakened. -/
theorem Splice.imp
    (splice : Splice keeps replaces before items out count) {whole : List α}
    (here : before ++ items = whole)
    (weakerKept : ∀ before item rest, before ++ item :: rest = whole →
      keeps before item rest → keeps' before item rest)
    (weaker : ∀ before dropped put after,
      before ++ (dropped ++ after) = whole →
        replaces before dropped put after →
          replaces' before dropped put after) :
    Splice keeps' replaces' before items out count := by
  induction splice with
  | nil before => exact .nil before
  | keep kept later induction =>
      refine .keep (weakerKept _ _ _ here kept) (induction ?_)
      rw [List.append_assoc]
      exact here
  | replace replaced later induction =>
      refine .replace (weaker _ _ _ _ here replaced) (induction ?_)
      rw [List.append_assoc]
      exact here

/-- Replacements that agree on some elements leave the list of those. -/
theorem Splice.filter_eq
    (splice : Splice keeps replaces before items out count)
    (picks : α → Bool)
    (same : ∀ before dropped put after,
      replaces before dropped put after →
        put.filter picks = dropped.filter picks) :
    out.filter picks = items.filter picks := by
  induction splice with
  | nil before => rfl
  | keep kept later induction =>
      rw [List.filter_cons, List.filter_cons, induction]
  | replace replaced later induction =>
      rw [List.filter_append, List.filter_append, induction,
        same _ _ _ _ replaced]

/-- Replacements that bring no more of some elements leave no more. -/
theorem Splice.countP_le
    (splice : Splice keeps replaces before items out count)
    (picks : α → Bool)
    (fewer : ∀ before dropped put after,
      replaces before dropped put after →
        put.countP picks ≤ dropped.countP picks) :
    out.countP picks ≤ items.countP picks := by
  induction splice with
  | nil before => exact le_rfl
  | keep kept later induction =>
      rw [List.countP_cons, List.countP_cons]
      exact Nat.add_le_add_right induction _
  | replace replaced later induction =>
      rw [List.countP_append, List.countP_append]
      exact Nat.add_le_add (fewer _ _ _ _ replaced) induction

/-- Where something is replaced, the list has a part that can be. -/
theorem Splice.exists_replaced
    (splice : Splice keeps replaces before items out count)
    (some : 0 < count) :
    ∃ earlier dropped put after,
      items = earlier ++ (dropped ++ after) ∧
        replaces (before ++ earlier) dropped put after := by
  induction splice with
  | nil before => exact absurd some (Nat.lt_irrefl 0)
  | @keep before rest out item count kept later induction =>
      obtain ⟨earlier, dropped, put, after, rfl, replaced⟩ := induction some
      refine ⟨item :: earlier, dropped, put, after, rfl, ?_⟩
      rw [List.append_assoc] at replaced
      exact replaced
  | @replace before dropped put after out count replaced later induction =>
      refine ⟨[], dropped, put, after, rfl, ?_⟩
      rw [List.append_nil]
      exact replaced

/-- Where nothing is replaced, it does not matter what could be. -/
theorem Splice.of_none
    (splice : Splice keeps replaces before items out count)
    (none : count = 0) :
    Splice keeps replaces' before items out count := by
  induction splice with
  | nil before => exact .nil before
  | keep kept later induction => exact .keep kept (induction none)
  | replace replaced later induction => cases none

/-- Where nothing is replaced, every element is kept. -/
theorem Splice.kept_of_none
    (splice : Splice keeps replaces before items out count)
    (none : count = 0) {lead rest : List α} {item : α}
    (here : items = lead ++ item :: rest) :
    keeps (before ++ lead) item rest := by
  induction splice generalizing lead with
  | nil before => cases lead <;> cases here
  | keep kept later induction =>
      cases lead with
      | nil =>
          cases here
          rw [List.append_nil]
          exact kept
      | cons first lead =>
          cases here
          have inner := induction none rfl
          rw [List.append_assoc] at inner
          exact inner
  | replace replaced later induction => cases none

end Rules

/-! ## Deletions -/

/--
A way to delete parts: nothing is put in place of one, it begins with a marked
element, and no marked element follows it.
-/
structure Deletes (marked : α → Prop)
    (replaces : List α → List α → List α → List α → Prop) : Prop where
  nothing : ∀ {before dropped put after},
    replaces before dropped put after → put = []
  begins : ∀ {before dropped put after},
    replaces before dropped put after →
      ∃ head tail, dropped = head :: tail ∧ marked head
  follows : ∀ {before dropped put after},
    replaces before dropped put after →
      ∀ next ∈ after.head?, ¬ marked next

section Deletions

variable {marked : α → Prop}
variable {keeps keeps' : List α → α → List α → Prop}
variable {replaces replaces' : List α → List α → List α → List α → Prop}

/-- What is left of a list that no deletion begins with begins like it. -/
theorem Deletes.head_eq
    (deletes : Deletes marked replaces)
    {before items out : List α} {count : Nat}
    (splice : Splice keeps replaces before items out count)
    (plain : ∀ first ∈ items.head?, ¬ marked first) :
    out.head? = items.head? := by
  cases splice with
  | nil => rfl
  | keep => rfl
  | replace replaced later =>
      obtain ⟨head, tail, rfl, mark⟩ := deletes.begins replaced
      exact absurd mark (plain head rfl)

/-- After a deletion no marked element comes first. -/
theorem Deletes.not_marked_head
    (deletes : Deletes marked replaces)
    {before dropped put after out later : List α} {count : Nat}
    (replaced : replaces before dropped put after)
    (splice : Splice keeps replaces later after out count) :
    ∀ first ∈ out.head?, ¬ marked first := by
  rw [deletes.head_eq splice (deletes.follows replaced)]
  exact deletes.follows replaced

/--
The list and what is left of it determine what was deleted: of two ways to
delete that agree on how far a part reaches, both have been taken together.
-/
theorem Splice.both
    (deletes : Deletes marked replaces) (deletes' : Deletes marked replaces')
    (determined : ∀ {before dropped put after dropped' put' after'},
      replaces before dropped put after →
        replaces' before dropped' put' after' →
          dropped ++ after = dropped' ++ after' → dropped = dropped')
    {before items out : List α} {count count' : Nat}
    (splice : Splice keeps replaces before items out count)
    (splice' : Splice keeps' replaces' before items out count') :
    Splice keeps
      (fun before dropped put after => replaces before dropped put after ∧
        replaces' before dropped put after)
      before items out count := by
  induction splice generalizing count' with
  | nil before => exact .nil before
  | @keep before rest out item count kept later induction =>
      generalize whole : item :: rest = items at splice'
      generalize left : item :: out = remains at splice'
      cases splice' with
      | nil => cases whole
      | keep kept' later' =>
          cases whole
          cases left
          exact .keep kept (induction later')
      | replace replaced' later' =>
          -- One way keeps a marked element that the other deletes.
          obtain ⟨head, tail, rfl, mark⟩ := deletes'.begins replaced'
          cases deletes'.nothing replaced'
          cases whole
          have plain := deletes'.not_marked_head replaced' later'
          rw [List.nil_append] at left
          rw [← left] at plain
          exact absurd mark (plain _ rfl)
  | @replace before dropped put after out count replaced later induction =>
      generalize whole : dropped ++ after = items at splice'
      cases deletes.nothing replaced
      rw [List.nil_append] at splice' ⊢
      cases splice' with
      | nil =>
          obtain ⟨head, tail, rfl, mark⟩ := deletes.begins replaced
          cases whole
      | keep kept' later' =>
          obtain ⟨head, tail, rfl, mark⟩ := deletes.begins replaced
          cases whole
          have plain := deletes.not_marked_head replaced later
          exact absurd mark (plain _ rfl)
      | replace replaced' later' =>
          cases deletes'.nothing replaced'
          cases determined replaced replaced' whole
          cases List.append_cancel_left whole
          exact .replace ⟨replaced, replaced'⟩ (induction later')

end Deletions

/-! ## Scanners -/

/--
A scanner that at every turn keeps the element or replaces it with some that
follow makes a splice.  `written` is what a state has put out and `flag` says
whether something was replaced; `holds` relates a state to what it has read.
-/
theorem splice_of_scan
    {step : β → α → List α → β × Nat} {written : β → List α}
    {flag : β → Bool} {holds : List α → β → List α → Prop}
    {keeps : List α → α → List α → Prop}
    {replaces : List α → List α → List α → List α → Prop}
    (turn : ∀ before state head tail, holds before state (head :: tail) →
      (∃ next, step state head tail = (next, 0) ∧
        written next = written state ++ [head] ∧ flag next = flag state ∧
        keeps before head tail ∧ holds (before ++ [head]) next tail) ∨
      (∃ next span put, step state head tail = (next, span) ∧
        written next = written state ++ put ∧ flag next = true ∧
        replaces before (head :: tail.take span) put (tail.drop span) ∧
        holds (before ++ head :: tail.take span) next (tail.drop span)))
    {before items : List α} {state : β} (start : holds before state items) :
    ∃ out count,
      written (scan step 0 state items) = written state ++ out ∧
      (flag (scan step 0 state items) = true ↔
        flag state = true ∨ 0 < count) ∧
      Splice keeps replaces before items out count := by
  induction size : items.length using Nat.strong_induction_on
    generalizing before state items with
  | _ bound induction =>
      cases items with
      | nil =>
          refine ⟨[], 0, (List.append_nil _).symm, ?_, .nil before⟩
          rw [scan, or_iff_left (Nat.lt_irrefl 0)]
      | cons head tail =>
          rw [scan_cons]
          rcases turn before state head tail start with
            ⟨next, stepped, wrote, flagged, kept, continued⟩ |
            ⟨next, span, put, stepped, wrote, flagged, replaced, continued⟩
          · rw [stepped, List.drop_zero]
            obtain ⟨out, count, total, raised, splice⟩ :=
              induction tail.length (by rw [← size]; exact Nat.lt_succ_self _)
                continued rfl
            refine ⟨head :: out, count, ?_, ?_, .keep kept splice⟩
            · rw [total, wrote, List.append_assoc]
              rfl
            · rw [raised, flagged]
          · rw [stepped]
            obtain ⟨out, count, total, raised, splice⟩ :=
              induction (tail.drop span).length (by
                rw [← size, List.length_drop, List.length_cons]
                omega) continued rfl
            refine ⟨put ++ out, count + 1, ?_, ?_, ?_⟩
            · rw [total, wrote, List.append_assoc]
            · rw [raised, flagged]
              simp
            · have spliced := Splice.replace replaced splice
              rw [List.cons_append, List.take_append_drop] at spliced
              exact spliced

end LightWaf.Theory.Splicing
