import LightWaf.Detection.Content
import LightWaf.Rust.Search

/-!
# Collapsed block comments

`collapse_sql_block_comments` against what it is for: every closed comment,
taken from the left and each up to its first closer, becomes one space.  The
space on the seam belongs to no opener, so that the result has no closed
comment left.
-/

namespace LightWaf.Detection

open LightWaf.Rust

/-! ## Closed comments -/

/-- What opens a comment. -/
def opener : Text :=
  "/*".toList

/-- What closes a comment. -/
def closer : Text :=
  "*/".toList

/-- A text read as what precedes a comment, the comment and what follows. -/
def CommentAt (text before inside after : Text) : Prop :=
  text = before ++ (opener ++ (inside ++ (closer ++ after)))

/-- A text with a closed comment. -/
def HasClosedComment (text : Text) : Prop :=
  ∃ before inside after, CommentAt text before inside after

/-- The closed comment that begins first, up to its first closer. -/
structure FirstComment (text before inside after : Text) : Prop where
  comment : CommentAt text before inside after
  leftmost : ∀ before' inside' after',
    CommentAt text before' inside' after' → before.length ≤ before'.length
  shortest : ∀ inside' after',
    CommentAt text before inside' after' → inside.length ≤ inside'.length

/-- A text with each closed comment, from the left, replaced by a space. -/
inductive Collapses : Text → Text → Prop
  | kept {text : Text} (none : ¬ HasClosedComment text) : Collapses text text
  | comment {text before inside after collapsed : Text}
      (first : FirstComment text before inside after)
      (rest : Collapses after collapsed) :
      Collapses text (before ++ ' ' :: collapsed)

theorem FirstComment.unique
    {text before inside after before' inside' after' : Text}
    (first : FirstComment text before inside after)
    (again : FirstComment text before' inside' after') :
    before = before' ∧ after = after' := by
  have starts : before.length = before'.length :=
    Nat.le_antisymm (first.leftmost _ _ _ again.comment)
      (again.leftmost _ _ _ first.comment)
  have same := first.comment.symm.trans again.comment
  obtain ⟨rfl, rest⟩ := List.append_inj same starts
  have ends : inside.length = inside'.length :=
    Nat.le_antisymm (first.shortest _ _ again.comment)
      (again.shortest _ _ first.comment)
  have insides := List.append_cancel_left rest
  obtain ⟨rfl, after⟩ := List.append_inj insides ends
  exact ⟨rfl, List.append_cancel_left after⟩

/-- A text collapses to one text. -/
theorem Collapses.unique
    {text collapsed other : Text} (collapses : Collapses text collapsed)
    (again : Collapses text other) :
    collapsed = other := by
  induction collapses generalizing other with
  | kept none =>
      cases again with
      | kept => rfl
      | comment first rest => exact absurd ⟨_, _, _, first.comment⟩ none
  | comment first rest induction =>
      cases again with
      | kept none => exact absurd ⟨_, _, _, first.comment⟩ none
      | comment first' rest' =>
          obtain ⟨rfl, rfl⟩ := first.unique first'
          rw [induction rest']

/-! ## The loop -/

/-- Splitting at the first opener and then at the first closer. -/
theorem firstComment_of_findSplit
    {text before inner inside after : Text}
    (opens : findSplit opener text = some (before, inner))
    (closes : findSplit closer inner = some (inside, after)) :
    FirstComment text before inside after := by
  have here : CommentAt text before inside after := by
    rw [CommentAt, eq_of_findSplit opens, eq_of_findSplit closes]
  refine ⟨here, fun before' inside' after' comment => ?_,
    fun inside' after' comment => ?_⟩
  · obtain ⟨front, back, found, le⟩ := findSplit_of_eq comment
    cases opens.symm.trans found
    exact le
  · have same : inner = inside' ++ (closer ++ after') := by
      have whole := (eq_of_findSplit opens).symm.trans comment
      exact List.append_cancel_left (List.append_cancel_left whole)
    obtain ⟨front, back, found, le⟩ := findSplit_of_eq same
    cases closes.symm.trans found
    exact le

theorem not_hasClosedComment_of_no_opener
    {text : Text} (absent : findSplit opener text = none) :
    ¬ HasClosedComment text := by
  rintro ⟨before, inside, after, comment⟩
  obtain ⟨front, back, found, -⟩ := findSplit_of_eq comment
  cases absent.symm.trans found

/-- What the first opener does not find closed is not closed later. -/
theorem not_hasClosedComment_of_no_closer
    {text before inner : Text}
    (opens : findSplit opener text = some (before, inner))
    (absent : findSplit closer inner = none) :
    ¬ HasClosedComment text := by
  rintro ⟨before', inside', after', comment⟩
  obtain ⟨front, back, found, le⟩ := findSplit_of_eq comment
  cases opens.symm.trans found
  -- The closer stands at or after the end of the first opener.
  have whole := (eq_of_findSplit opens).symm.trans comment
  rw [← List.append_assoc, ← List.append_assoc before'] at whole
  have longer : (before ++ opener).length ≤ (before' ++ opener).length := by
    simpa using le
  obtain ⟨between, -, split⟩ : ∃ between,
      before' ++ opener = before ++ opener ++ between ∧
        inner = between ++ (inside' ++ (closer ++ after')) := by
    rcases List.append_eq_append_iff.mp whole with
      ⟨between, left, right⟩ | ⟨between, left, right⟩
    · exact ⟨between, left, right⟩
    · have short := congrArg List.length left
      rw [@List.length_append _ _ between] at short
      have none : between = [] :=
        List.eq_nil_of_length_eq_zero (by omega)
      rw [none, List.append_nil] at left
      rw [none, List.nil_append] at right
      exact ⟨[], by rw [left, List.append_nil], right.symm⟩
  rw [← List.append_assoc] at split
  obtain ⟨front, back, closes, -⟩ := findSplit_of_eq split
  cases absent.symm.trans closes

/-- The loop collapses the closed comments and says whether it met one. -/
theorem collapseComments_spec
    {fuel : Nat} {text : Text} (enough : text.length ≤ fuel) :
    Collapses text (collapseComments fuel text).1 ∧
      ((collapseComments fuel text).2 = true ↔ HasClosedComment text) := by
  induction fuel generalizing text with
  | zero =>
      have absent : ¬ HasClosedComment text := by
        rw [List.eq_nil_of_length_eq_zero (Nat.le_zero.mp enough)]
        exact not_hasClosedComment_of_no_opener rfl
      exact ⟨.kept absent, by simp [collapseComments, absent]⟩
  | succ fuel induction =>
      rw [collapseComments]
      cases opens : findSplit "/*".toList text with
      | none =>
          have absent := not_hasClosedComment_of_no_opener opens
          exact ⟨.kept absent, by simp [absent]⟩
      | some parts =>
          obtain ⟨before, inner⟩ := parts
          dsimp only
          cases closes : findSplit "*/".toList inner with
          | none =>
              have absent := not_hasClosedComment_of_no_closer opens closes
              exact ⟨.kept absent, by simp [absent]⟩
          | some parts =>
              obtain ⟨inside, after⟩ := parts
              have first := firstComment_of_findSplit opens closes
              have shorter : after.length ≤ fuel := by
                have length := congrArg List.length first.comment
                simp [opener, closer] at length
                omega
              exact ⟨.comment first (induction shorter).1,
                iff_of_true rfl ⟨before, inside, after, first.comment⟩⟩

/-! ## The seam -/

/-- No opener stands before the first comment. -/
theorem FirstComment.no_opener
    {text before inside after : Text}
    (first : FirstComment text before inside after) :
    ¬ opener <:+: before := by
  rintro ⟨front, back, split⟩
  have earlier : CommentAt text front (back ++ (opener ++ inside)) after := by
    rw [CommentAt, first.comment, ← split]
    simp
  have le := first.leftmost _ _ _ earlier
  rw [← split] at le
  simp [opener] at le

/-- A space closes no comment and opens none. -/
theorem not_hasClosedComment_seam
    {before collapsed : Text} (unopened : ¬ opener <:+: before)
    (none : ¬ HasClosedComment collapsed) :
    ¬ HasClosedComment (before ++ ' ' :: collapsed) := by
  rintro ⟨front, inside, after, comment⟩
  rcases List.append_eq_append_iff.mp comment with
    ⟨between, left, right⟩ | ⟨between, left, right⟩
  · cases between with
    | nil => cases right
    | cons space between =>
        cases right
        exact none ⟨between, inside, after, rfl⟩
  · match between, right with
    | [], right => cases right
    | [_], right => cases right
    | first :: second :: between, right =>
        have starts := congrArg (List.take 2) right
        have same : opener = [first, second] := starts
        exact unopened ⟨front, between, by rw [left, same]; simp⟩

/-- A collapsed text has no closed comment. -/
theorem Collapses.not_hasClosedComment
    {text collapsed : Text} (collapses : Collapses text collapsed) :
    ¬ HasClosedComment collapsed := by
  induction collapses with
  | kept none => exact none
  | comment first rest induction =>
      exact not_hasClosedComment_seam first.no_opener induction

theorem collapseSqlBlockComments_eq_none_iff (text : Text) :
    collapseSqlBlockComments text = none ↔ ¬ HasClosedComment text := by
  have met := (collapseComments_spec (Nat.le_refl text.length)).2
  rw [collapseSqlBlockComments, ← met]
  rcases collapseComments text.length text with ⟨collapsed, changed⟩
  cases changed <;> simp

theorem collapses_of_eq_some
    {text collapsed : Text}
    (changed : collapseSqlBlockComments text = some collapsed) :
    Collapses text collapsed := by
  have collapses := (collapseComments_spec (Nat.le_refl text.length)).1
  rw [collapseSqlBlockComments] at changed
  split at changed
  · rename_i result same
    cases changed
    rw [same] at collapses
    exact collapses
  · cases changed

/--
Nothing is returned exactly for a text without a closed comment; otherwise the
text with every closed comment collapsed, in which nothing is left to collapse.
-/
theorem collapseSqlBlockComments_exact (text : Text) :
    (collapseSqlBlockComments text = none ↔ ¬ HasClosedComment text) ∧
      (∀ collapsed, collapseSqlBlockComments text = some collapsed ↔
        HasClosedComment text ∧ Collapses text collapsed) ∧
      (collapseSqlBlockComments text).bind collapseSqlBlockComments =
        none := by
  have none_iff := collapseSqlBlockComments_eq_none_iff text
  refine ⟨none_iff, fun collapsed => ⟨fun changed => ?_, ?_⟩, ?_⟩
  · refine ⟨?_, collapses_of_eq_some changed⟩
    by_contra absent
    cases changed.symm.trans (none_iff.mpr absent)
  · rintro ⟨closed, collapses⟩
    cases changed : collapseSqlBlockComments text with
    | none => exact absurd closed (none_iff.mp changed)
    | some other => rw [(collapses_of_eq_some changed).unique collapses]
  · cases changed : collapseSqlBlockComments text with
    | none => rfl
    | some collapsed =>
        exact (collapseSqlBlockComments_eq_none_iff collapsed).mpr
          (collapses_of_eq_some changed).not_hasClosedComment

end LightWaf.Detection
