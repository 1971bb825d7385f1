import Mathlib.Tactic

/-!
# Counters that start again

A counter shows how many events there were since it was last set to zero, and
nothing tells when that was.  Two readings bound the events between them from
below: what has been gained is what was counted on, or all that is shown if
that is less than before.
-/

namespace LightWaf.Theory.Resets

/-- What a counter shows, and how many events there have been in all. -/
structure Reading where
  shown : Nat
  total : Nat

/-- What is gained from one shown value to another. -/
def gain (before after : Nat) : Nat :=
  if before ≤ after then after - before else after

namespace Reading

/-- The reading after the counter was set to zero. -/
def reset (reading : Reading) : Reading :=
  ⟨0, reading.total⟩

/--
One reading may come after another: the counter has counted on, or it was set
to zero and shows no more than the events since.
-/
structure Leads (first second : Reading) : Prop where
  later : first.total ≤ second.total
  counted : second.shown + first.total ≤ second.total ∨
    second.shown + first.total = first.shown + second.total

variable {first second third : Reading}

theorem Leads.refl (reading : Reading) : reading.Leads reading :=
  ⟨le_rfl, .inr rfl⟩

theorem Leads.trans (before : first.Leads second) (after : second.Leads third) :
    first.Leads third := by
  obtain ⟨earlier, sinceFirst⟩ := before
  obtain ⟨later, sinceSecond⟩ := after
  refine ⟨earlier.trans later, ?_⟩
  omega

theorem Leads.reset (before : first.Leads second) :
    first.Leads second.reset :=
  before.trans ⟨le_rfl, .inl (Nat.zero_add _).le⟩

/-- A counter that started at zero shows no more than there was. -/
theorem Leads.shown_le (leads : Leads ⟨0, 0⟩ second) :
    second.shown ≤ second.total := by
  obtain ⟨-, counted⟩ := leads
  dsimp only at counted
  omega

/-- What is gained between two readings has happened between them. -/
theorem Leads.gain_le (leads : first.Leads second) :
    first.total + gain first.shown second.shown ≤ second.total := by
  obtain ⟨later, counted⟩ := leads
  rw [gain]
  split_ifs <;> omega

end Reading

end LightWaf.Theory.Resets
