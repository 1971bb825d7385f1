import Mathlib.Tactic

/-!
# Sessions in a trace

A trace of events in which some events open a session and others close one.
Sessions are separated when no session is opened twice without a closing
event in between.  A trace put together from segments that each begin with
their only opening event is separated exactly when every segment but the last
closes what it opened.
-/

namespace LightWaf.Theory.Session

universe u

variable {α : Type u}

/-- Before any opening event stands a closing one. -/
def Guarded (opens closes : α → Prop) (trace : List α) : Prop :=
  ∀ middle second after, trace = middle ++ second :: after →
    opens second → ∃ event ∈ middle, closes event

/-- Between any two opening events stands a closing one. -/
def Separated (opens closes : α → Prop) (trace : List α) : Prop :=
  ∀ before first rest, trace = before ++ first :: rest →
    opens first → Guarded opens closes rest

/-- A segment begins with its only opening event. -/
def IsSession (opens : α → Prop) (segment : List α) : Prop :=
  ∃ first rest, segment = first :: rest ∧ opens first ∧
    ∀ event ∈ rest, ¬ opens event

variable {opens closes : α → Prop}

/-! ## Event by event -/

@[simp]
theorem guarded_nil : Guarded opens closes [] := by
  intro middle second after split
  cases middle <;> cases split

@[simp]
theorem guarded_cons
    (event : α)
    (trace : List α) :
    Guarded opens closes (event :: trace) ↔
      ¬ opens event ∧ (closes event ∨ Guarded opens closes trace) := by
  constructor
  · intro guarded
    constructor
    · intro opened
      obtain ⟨closing, inside, _⟩ := guarded [] event trace rfl opened
      cases inside
    · by_contra unguarded
      rw [not_or] at unguarded
      apply unguarded.2
      rintro middle second after rfl opened
      obtain ⟨closing, inside, closed⟩ :=
        guarded (event :: middle) second after rfl opened
      rcases List.mem_cons.mp inside with rfl | inside
      · exact absurd closed unguarded.1
      · exact ⟨closing, inside, closed⟩
  · rintro ⟨unopened, guarded⟩ middle second after split opened
    cases middle with
    | nil =>
        cases split
        exact absurd opened unopened
    | cons head middle =>
        cases split
        rcases guarded with closed | guarded
        · exact ⟨event, by simp, closed⟩
        · obtain ⟨closing, inside, closed⟩ :=
            guarded middle second after rfl opened
          exact ⟨closing, List.mem_cons_of_mem event inside, closed⟩

@[simp]
theorem separated_nil : Separated opens closes [] := by
  intro before first rest split
  cases before <;> cases split

@[simp]
theorem separated_cons
    (event : α)
    (trace : List α) :
    Separated opens closes (event :: trace) ↔
      (opens event → Guarded opens closes trace) ∧
      Separated opens closes trace := by
  constructor
  · intro separated
    constructor
    · exact separated [] event trace rfl
    · rintro before first rest rfl
      exact separated (event :: before) first rest rfl
  · rintro ⟨guarded, separated⟩ before first rest split
    cases before with
    | nil =>
        cases split
        exact guarded
    | cons head before =>
        cases split
        exact separated before first rest rfl

instance decidableGuarded [DecidablePred opens] [DecidablePred closes] :
    DecidablePred (Guarded opens closes)
  | [] => .isTrue guarded_nil
  | event :: trace =>
      have := decidableGuarded trace
      decidable_of_iff _ (guarded_cons event trace).symm

instance decidableSeparated [DecidablePred opens] [DecidablePred closes] :
    DecidablePred (Separated opens closes)
  | [] => .isTrue separated_nil
  | event :: trace =>
      have := decidableSeparated trace
      decidable_of_iff _ (separated_cons event trace).symm

/-! ## Segment by segment -/

/-- What opens nothing is of no account before a trace. -/
theorem separated_append_of_quiet
    (quiet trace : List α)
    (unopened : ∀ event ∈ quiet, ¬ opens event) :
    Separated opens closes (quiet ++ trace) ↔
      Separated opens closes trace := by
  induction quiet with
  | nil => rfl
  | cons event quiet induction =>
      have still := unopened event List.mem_cons_self
      rw [List.cons_append, separated_cons, induction
        (fun other inside => unopened other
          (List.mem_cons_of_mem event inside))]
      simp [still]

/-- A trace that opens with its first event is guarded by what precedes. -/
theorem guarded_append_of_quiet
    (quiet trace : List α)
    (unopened : ∀ event ∈ quiet, ¬ opens event)
    (opening : ∀ next ∈ trace.head?, opens next) :
    Guarded opens closes (quiet ++ trace) ↔
      (trace ≠ [] → ∃ event ∈ quiet, closes event) := by
  induction quiet with
  | nil =>
      cases trace with
      | nil => simp
      | cons next trace =>
          have opened := opening next rfl
          simp [opened]
  | cons event quiet induction =>
      have still := unopened event List.mem_cons_self
      rw [List.cons_append, guarded_cons, induction
        (fun other inside => unopened other
          (List.mem_cons_of_mem event inside))]
      simp only [List.exists_mem_cons_iff]
      tauto

/-- A trace of sessions opens with its first event. -/
theorem opens_head_flatten
    (segments : List (List α))
    (sessions : ∀ segment ∈ segments, IsSession opens segment) :
    ∀ next ∈ segments.flatten.head?, opens next := by
  cases segments with
  | nil => simp
  | cons segment segments =>
      obtain ⟨first, rest, rfl, opened, _⟩ :=
        sessions segment List.mem_cons_self
      simpa using opened

/--
Sessions one after the other are separated exactly when each of them but the
last closes what it opened.
-/
theorem separated_flatten_iff
    (exclusive : ∀ event, opens event → ¬ closes event)
    (segments : List (List α))
    (sessions : ∀ segment ∈ segments, IsSession opens segment) :
    Separated opens closes segments.flatten ↔
      ∀ segment ∈ segments.dropLast, ∃ event ∈ segment, closes event := by
  induction segments with
  | nil => simp
  | cons segment segments induction =>
      have laterSessions : ∀ other ∈ segments, IsSession opens other :=
        fun other inside => sessions other
          (List.mem_cons_of_mem segment inside)
      obtain ⟨first, rest, rfl, opened, unopened⟩ :=
        sessions segment List.mem_cons_self
      have unclosed := exclusive first opened
      rw [List.flatten_cons, List.cons_append, separated_cons,
        guarded_append_of_quiet rest _ unopened
          (opens_head_flatten segments laterSessions),
        separated_append_of_quiet rest _ unopened, induction laterSessions]
      cases segments with
      | nil => simp
      | cons next segments =>
          obtain ⟨head, tail, rfl, _⟩ :=
            laterSessions next List.mem_cons_self
          simp [opened, unclosed]

end LightWaf.Theory.Session
