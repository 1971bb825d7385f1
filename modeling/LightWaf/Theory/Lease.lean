import LightWaf.Theory.History

/-!
# Leases

A table of leases with deadlines, from which a holder acquires what is free,
extends what it still holds, and gives back what it still holds.  A lease of no
duration is not granted, nor one that would outlast all time.  The history of a
run tells for each operation when it was carried out and whether it was granted.

Two facts are derived: a lease that is not given back is not granted to anyone
before its deadline, and who owns a lease has owned it ever since it was
granted.
-/

namespace LightWaf.Theory.Lease

universe u v

variable {κ : Type u} {η : Type v}

/-- The time, the end of all time, and who was granted what, until when. -/
structure Table (κ : Type u) (η : Type v) where
  now : Nat
  limit : Nat
  lease : κ → Option (η × Nat)

/-- The operations on a table, the passing of time, and what is no concern. -/
inductive Op (κ : Type u) (η : Type v)
  | acquire (key : κ) (holder : η) (ttl : Nat)
  | extend (key : κ) (holder : η) (ttl : Nat)
  | release (key : κ) (holder : η)
  | pass (duration : Nat)
  | skip

/-- An operation that was carried out. -/
structure Event (κ : Type u) (η : Type v) where
  time : Nat
  op : Op κ η
  granted : Bool

namespace Event

/-- A lease is granted. -/
def Grants (event : Event κ η) (key : κ) (holder : η) : Prop :=
  event.granted = true ∧ ∃ ttl, event.op = .acquire key holder ttl

/-- A lease is granted or extended. -/
def Secures (event : Event κ η) (key : κ) (holder : η) (ttl : Nat) : Prop :=
  event.granted = true ∧
    (event.op = .acquire key holder ttl ∨ event.op = .extend key holder ttl)

/-- A lease is given back. -/
def Releases (event : Event κ η) (key : κ) (holder : η) : Prop :=
  event.granted = true ∧ event.op = .release key holder

/-- A lease is given back, or has its deadline changed. -/
def Alters (event : Event κ η) (key : κ) (holder : η) : Prop :=
  event.Releases key holder ∨
    event.granted = true ∧ ∃ ttl, event.op = .extend key holder ttl

end Event

namespace Table

/-- The owner of a lease. -/
def owner (table : Table κ η) (key : κ) : Option η :=
  (table.lease key).map Prod.fst

/-- A duration that a lease may be granted for. -/
def Admits (table : Table κ η) (ttl : Nat) : Prop :=
  0 < ttl ∧ table.now + ttl < table.limit

instance (table : Table κ η) (ttl : Nat) : Decidable (table.Admits ttl) :=
  inferInstanceAs (Decidable (_ ∧ _))

/-- Time passes; the leases past their deadline are gone. -/
def pass (table : Table κ η) (duration : Nat) : Table κ η :=
  { table with
    now := table.now + duration
    lease := fun key =>
      (table.lease key).filter fun lease => table.now + duration ≤ lease.2 }

variable [DecidableEq κ] [DecidableEq η]

/-- The lease of a key is replaced. -/
def set (table : Table κ η) (key : κ) (lease : Option (η × Nat)) :
    Table κ η :=
  { table with lease := Function.update table.lease key lease }

/-- One operation, and whether it is granted. -/
def apply (table : Table κ η) : Op κ η → Table κ η × Bool
  | .acquire key holder ttl =>
      if table.owner key = none ∧ table.Admits ttl then
        (table.set key (some (holder, table.now + ttl)), true)
      else (table, false)
  | .extend key holder ttl =>
      if table.owner key = some holder ∧ table.Admits ttl then
        (table.set key (some (holder, table.now + ttl)), true)
      else (table, false)
  | .release key holder =>
      if table.owner key = some holder then (table.set key none, true)
      else (table, false)
  | .pass duration => (table.pass duration, true)
  | .skip => (table, true)

/-- The event of an operation. -/
def event (table : Table κ η) (op : Op κ η) : Event κ η :=
  ⟨table.now, op, (table.apply op).2⟩

/-- The table after an operation. -/
def after (table : Table κ η) (op : Op κ η) : Table κ η :=
  (table.apply op).1

/-- The table after some operations. -/
abbrev run (table : Table κ η) (ops : List (Op κ η)) : Table κ η :=
  History.run after table ops

/-- The events of some operations. -/
abbrev history (table : Table κ η) (ops : List (Op κ η)) :
    List (Event κ η) :=
  History.history after event table ops

variable {table : Table κ η} {key : κ} {holder : η}

/-! ## One operation -/

omit [DecidableEq κ] [DecidableEq η] in
theorem owner_eq_some_iff :
    table.owner key = some holder ↔
      ∃ deadline, table.lease key = some (holder, deadline) := by
  unfold owner
  cases table.lease key with
  | none => simp
  | some lease => simp [Prod.ext_iff]

omit [DecidableEq η] in
theorem lease_set (other : κ) (lease : Option (η × Nat)) :
    (table.set other lease).lease key =
      if key = other then lease else table.lease key :=
  Function.update_apply table.lease other lease key

/-- What is not granted changes nothing. -/
theorem apply_of_refused
    {op : Op κ η} (refused : (table.apply op).2 = false) :
    (table.apply op).1 = table := by
  cases op with
  | acquire target taker ttl =>
      rw [apply] at refused ⊢
      split at refused
      · cases refused
      · rename_i held
        rw [if_neg held]
  | extend target taker ttl =>
      rw [apply] at refused ⊢
      split at refused
      · cases refused
      · rename_i foreign
        rw [if_neg foreign]
  | release target taker =>
      rw [apply] at refused ⊢
      split at refused
      · cases refused
      · rename_i foreign
        rw [if_neg foreign]
  | pass duration => cases refused
  | skip => cases refused

theorem free_of_acquire
    {target : κ} {taker : η} {ttl : Nat}
    (granted : (table.apply (.acquire target taker ttl)).2 = true) :
    table.owner target = none ∧ table.Admits ttl := by
  rw [apply] at granted
  split at granted
  · assumption
  · cases granted

theorem owned_of_extend
    {target : κ} {taker : η} {ttl : Nat}
    (granted : (table.apply (.extend target taker ttl)).2 = true) :
    table.owner target = some taker ∧ table.Admits ttl := by
  rw [apply] at granted
  split at granted
  · assumption
  · cases granted

theorem owned_of_release
    {target : κ} {taker : η}
    (granted : (table.apply (.release target taker)).2 = true) :
    table.owner target = some taker := by
  rw [apply] at granted
  split at granted
  · assumption
  · cases granted

/-- The lease of a key after a granted operation. -/
theorem lease_of_granted
    {op : Op κ η} (granted : (table.apply op).2 = true) :
    (table.apply op).1.lease key =
      match op with
      | .acquire target taker ttl | .extend target taker ttl =>
          if key = target then some (taker, table.now + ttl)
          else table.lease key
      | .release target _ => if key = target then none else table.lease key
      | .pass duration => (table.lease key).filter fun lease =>
          table.now + duration ≤ lease.2
      | .skip => table.lease key := by
  cases op with
  | acquire target taker ttl =>
      rw [apply, if_pos (free_of_acquire granted)]
      exact lease_set ..
  | extend target taker ttl =>
      rw [apply, if_pos (owned_of_extend granted)]
      exact lease_set ..
  | release target taker =>
      rw [apply, if_pos (owned_of_release granted)]
      exact lease_set ..
  | pass duration => rfl
  | skip => rfl

theorem now_apply (op : Op κ η) :
    (table.apply op).1.now =
      table.now + (match op with | .pass duration => duration | _ => 0) := by
  cases op with
  | acquire target taker ttl =>
      rw [apply]
      split <;> rfl
  | extend target taker ttl =>
      rw [apply]
      split <;> rfl
  | release target taker =>
      rw [apply]
      split <;> rfl
  | pass duration => rfl
  | skip => rfl

/-- The owner of a lease gets it by a grant and keeps it otherwise. -/
theorem owner_of_apply
    {op : Op κ η} (owns : (table.apply op).1.owner key = some holder) :
    (table.event op).Grants key holder ∨
      table.owner key = some holder ∧
        (∀ other, ¬ (table.event op).Grants key other) ∧
        ∀ other, ¬ (table.event op).Releases key other := by
  cases granted : (table.apply op).2 with
  | false =>
      rw [apply_of_refused granted] at owns
      have refused : ¬ (table.event op).granted = true :=
        ne_true_of_eq_false granted
      exact .inr ⟨owns, fun _ grants => refused grants.1,
        fun _ releases => refused releases.1⟩
  | true =>
      obtain ⟨deadline, lease⟩ := owner_eq_some_iff.mp owns
      rw [lease_of_granted granted] at lease
      -- only an operation on the key itself can be a grant or a release
      cases op with
      | acquire target taker ttl =>
          dsimp only at lease
          split at lease
          · rename_i same
            cases lease
            subst same
            exact .inl ⟨granted, ttl, rfl⟩
          · rename_i differ
            refine .inr ⟨owner_eq_some_iff.mpr ⟨deadline, lease⟩, ?_, ?_⟩
            · rintro other ⟨-, _, op⟩
              cases op
              exact differ rfl
            · rintro other ⟨-, op⟩
              cases op
      | extend target taker ttl =>
          refine .inr ⟨?_, ?_, ?_⟩
          · dsimp only at lease
            split at lease
            · rename_i same
              cases lease
              subst same
              exact (owned_of_extend granted).1
            · exact owner_eq_some_iff.mpr ⟨deadline, lease⟩
          · rintro other ⟨-, _, op⟩
            cases op
          · rintro other ⟨-, op⟩
            cases op
      | release target taker =>
          dsimp only at lease
          split at lease
          · cases lease
          · rename_i differ
            refine .inr ⟨owner_eq_some_iff.mpr ⟨deadline, lease⟩, ?_, ?_⟩
            · rintro other ⟨-, _, op⟩
              cases op
            · rintro other ⟨-, op⟩
              cases op
              exact differ rfl
      | pass duration =>
          have before := (Option.filter_eq_some_iff.mp lease).1
          refine .inr ⟨owner_eq_some_iff.mpr ⟨deadline, before⟩, ?_, ?_⟩
          · rintro other ⟨-, _, op⟩
            cases op
          · rintro other ⟨-, op⟩
            cases op
      | skip =>
          refine .inr ⟨owns, ?_, ?_⟩
          · rintro other ⟨-, _, op⟩
            cases op
          · rintro other ⟨-, op⟩
            cases op

/-! ## Runs -/

/-- Who owns a lease has owned it ever since it was granted. -/
theorem exists_grant_of_owner
    {ops : List (Op κ η)} (free : table.owner key = none)
    (owns : (table.run ops).owner key = some holder) :
    ∃ before grant after,
      table.history ops = before ++ grant :: after ∧
        grant.Grants key holder ∧
        ∀ event ∈ after, (∀ other, ¬ event.Grants key other) ∧
          ∀ other, ¬ event.Releases key other := by
  induction ops using List.reverseRecOn with
  | nil =>
      change table.owner key = some holder at owns
      rw [free] at owns
      cases owns
  | append_singleton ops op induction =>
      rw [Table.run, History.run_append] at owns
      rw [Table.history, History.history_append]
      rcases owner_of_apply owns with grants | ⟨owned, ungranted, unreleased⟩
      · exact ⟨_, _, [], rfl, grants,
          fun _ member => absurd member List.not_mem_nil⟩
      · obtain ⟨before, grant, after, cut, grants, kept⟩ := induction owned
        refine ⟨before, grant, after ++ [(table.run ops).event op], ?_, grants,
          ?_⟩
        · refine (congrArg (· ++ [(table.run ops).event op]) cut).trans ?_
          rw [List.append_assoc]
          rfl
        · intro event member
          rcases List.mem_append.mp member with member | member
          · exact kept event member
          · rw [List.mem_singleton.mp member]
            exact ⟨ungranted, unreleased⟩

/-- A lease lasts until its deadline. -/
def Secured (table : Table κ η) (key : κ) (holder : η) (deadline : Nat) :
    Prop :=
  deadline < table.now ∨ table.lease key = some (holder, deadline)

theorem secured_of_secures
    {op : Op κ η} {ttl : Nat} (secures : (table.event op).Secures key holder ttl) :
    (table.apply op).1.Secured key holder (table.now + ttl) := by
  obtain ⟨granted, op | op⟩ := secures
  · cases op
    exact .inr ((lease_of_granted granted).trans (if_pos rfl))
  · cases op
    exact .inr ((lease_of_granted granted).trans (if_pos rfl))

theorem Secured.apply
    {deadline : Nat} (secured : table.Secured key holder deadline) {op : Op κ η}
    (unaltered : ¬ (table.event op).Alters key holder) :
    (table.apply op).1.Secured key holder deadline := by
  cases granted : (table.apply op).2 with
  | false => rwa [apply_of_refused granted]
  | true =>
      rcases secured with expired | lease
      · refine .inl (expired.trans_le ?_)
        rw [now_apply]
        exact Nat.le_add_right _ _
      · have owns := owner_eq_some_iff.mpr ⟨deadline, lease⟩
        rw [Secured, lease_of_granted granted]
        cases op with
        | acquire target taker ttl =>
            refine .inr ((if_neg ?_).trans lease)
            rintro rfl
            rw [(free_of_acquire granted).1] at owns
            cases owns
        | extend target taker ttl =>
            refine .inr ((if_neg ?_).trans lease)
            rintro rfl
            rw [(owned_of_extend granted).1] at owns
            cases owns
            exact unaltered (.inr ⟨granted, ttl, rfl⟩)
        | release target taker =>
            refine .inr ((if_neg ?_).trans lease)
            rintro rfl
            rw [owned_of_release granted] at owns
            cases owns
            exact unaltered (.inl ⟨granted, rfl⟩)
        | pass duration =>
            by_cases alive : table.now + duration ≤ deadline
            · refine .inr (Option.filter_eq_some_iff.mpr ⟨lease, ?_⟩)
              exact decide_eq_true alive
            · exact .inl (not_le.mp alive)
        | skip => exact .inr lease

theorem Secured.run
    {deadline : Nat} (secured : table.Secured key holder deadline)
    {ops : List (Op κ η)}
    (unaltered : ∀ event ∈ table.history ops, ¬ event.Alters key holder) :
    (table.run ops).Secured key holder deadline := by
  induction ops generalizing table with
  | nil => exact secured
  | cons op rest induction =>
      rw [history, History.history, List.forall_mem_cons] at unaltered
      exact induction (secured.apply unaltered.1) unaltered.2

/--
A lease that is neither given back nor extended again is granted to nobody
before its deadline.
-/
theorem lt_time_of_grants
    {ops : List (Op κ η)} {before between after : List (Event κ η)}
    {first second : Event κ η} {ttl : Nat} {other : η}
    (cut : table.history ops = before ++ first :: (between ++ second :: after))
    (secures : first.Secures key holder ttl)
    (unaltered : ∀ event ∈ between, ¬ event.Alters key holder)
    (grants : second.Grants key other) :
    first.time + ttl < second.time := by
  obtain ⟨start, op, rest, -, rfl, behind⟩ := History.exists_of_history_eq_cons cut
  obtain ⟨passed, last, _, rfl, rfl, -⟩ :=
    History.exists_of_history_eq_cons behind
  have secured := (secured_of_secures secures).run unaltered
  obtain ⟨granted, _, taken⟩ := grants
  change last = _ at taken
  subst taken
  rcases secured with expired | lease
  · exact expired
  · have owned := owner_eq_some_iff.mpr ⟨_, lease⟩
    cases (free_of_acquire granted).1.symm.trans owned

end Table

end LightWaf.Theory.Lease
