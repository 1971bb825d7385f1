import LightWaf.Detection.TransportParity

/-!
# What expanding base64 costs

`expand_base64` is written here as in the source: it changes the budget and
the list that its caller passes in, and calls itself on what it has decoded.
The decoded text may be longer than the value, so it is the budget that bounds
the calls; every layer removed and every pass applied is paid from it.
-/

namespace LightWaf.Detection

open LightWaf.Rust
open LightWaf.Normalizer

/--
The arguments that `expand_base64` changes, and two counts of what it does
that the source does not keep.
-/
structure Expansion where
  budget : Nat
  out : List Text
  /-- The base64 layers removed. -/
  layers : Nat := 0
  /-- The percent and overlong passes applied. -/
  passes : Nat := 0

section Unicode

variable (unicode : UnicodeTables)

/-- `expand_base64`; `none` when calls nest deeper than the fuel. -/
def expandBase64Into : (fuel : Nat) → Text → Expansion → Option Expansion
  | 0, _, _ => none
  | fuel + 1, value, state =>
      if state.budget = 0 || !isBase64Candidate value base64MinLen then
        some state
      else
        match base64Decode value with
        | none => some state
        | some decoded =>
            if !mostlyPrintable decoded then some state
            else do
              let canonical :=
                percentOverlongFixpoint decoded false (state.budget - 1)
              let canon := unicode.nfkc (fromUtf8Lossy canonical.bytes)
              let inner ← expandBase64Into fuel canon
                { state with
                  budget := canonical.budget
                  layers := state.layers + 1
                  passes := state.passes + canonical.passes }
              some { inner with out := inner.out ++ [canon] }

/-- One call, by the payload of its value. -/
theorem expandBase64Into_succ
    (fuel : Nat) (value : Text) (state : Expansion) :
    expandBase64Into unicode (fuel + 1) value state =
      if state.budget = 0 then some state
      else
        match base64Payload value with
        | none => some state
        | some decoded =>
            let canonical :=
              percentOverlongFixpoint decoded false (state.budget - 1)
            let canon := unicode.nfkc (fromUtf8Lossy canonical.bytes)
            (expandBase64Into unicode fuel canon
              { state with
                budget := canonical.budget
                layers := state.layers + 1
                passes := state.passes + canonical.passes }).map
              fun inner => { inner with out := inner.out ++ [canon] } := by
  rw [expandBase64Into, base64Payload]
  by_cases spent : state.budget = 0
  · simp [spent]
  · cases isBase64Candidate value base64MinLen with
    | false => simp [spent]
    | true =>
        cases base64Decode value with
        | none => simp [spent]
        | some decoded =>
            cases printable : mostlyPrintable decoded with
            | false => simp [spent, Option.filter_some, printable]
            | true =>
                simp only [spent, Option.filter_some, printable,
                  decide_false, Bool.not_true, Bool.or_self,
                  Bool.false_eq_true, if_false, if_true]
                exact Option.map_eq_bind.symm

/-- An expansion spends no more than its budget. -/
theorem expansionSpent_le (fuel budget : Nat) (value : Text) :
    expansionSpent unicode fuel budget value ≤ budget := by
  induction fuel generalizing budget value with
  | zero => exact Nat.zero_le budget
  | succ fuel induction =>
      cases budget with
      | zero => exact le_rfl
      | succ budget =>
          rw [expansionSpent]
          cases base64Payload value with
          | none => exact Nat.zero_le _
          | some decoded =>
              have paid := percentOverlongFixpoint_budget decoded false budget
              have inner := induction
                (percentOverlongFixpoint decoded false budget).budget
                (unicode.nfkc (fromUtf8Lossy
                  (percentOverlongFixpoint decoded false budget).bytes))
              dsimp only
              omega

/-- More fuel changes no answer. -/
theorem expandBase64Into_more
    {fuel more : Nat} (further : fuel ≤ more)
    {value : Text} {state final : Expansion}
    (done : expandBase64Into unicode fuel value state = some final) :
    expandBase64Into unicode more value state = some final := by
  induction fuel generalizing more value state final with
  | zero => cases done
  | succ fuel induction =>
      obtain ⟨more, rfl⟩ : ∃ less, more = less + 1 := ⟨more - 1, by omega⟩
      rw [expandBase64Into_succ] at done ⊢
      split_ifs at done ⊢ with spent
      · exact done
      · cases payload : base64Payload value with
        | none =>
            rw [payload] at done
            exact done
        | some decoded =>
            rw [payload] at done
            obtain ⟨inner, called, rfl⟩ := Option.map_eq_some_iff.mp done
            dsimp only at called ⊢
            rw [induction (Nat.le_of_succ_le_succ further) called]
            rfl

/--
A call with more fuel than budget returns.  It pushes what the recursion over
the budget gives, one text for each layer, and the budget that is gone has
been spent on layers and passes.
-/
theorem expandBase64Into_spec
    {fuel : Nat} (value : Text) (state : Expansion)
    (enough : state.budget < fuel) :
    ∃ final, expandBase64Into unicode fuel value state = some final ∧
      final.out =
        state.out ++ expandBase64 unicode fuel state.budget value ∧
      final.layers = state.layers +
        (expandBase64 unicode fuel state.budget value).length ∧
      final.budget + final.layers + final.passes =
        state.budget + state.layers + state.passes := by
  induction fuel generalizing value state with
  | zero => exact absurd enough (Nat.not_lt_zero _)
  | succ fuel induction =>
      obtain ⟨budget, out, layers, passes⟩ := state
      cases budget with
      | zero =>
          refine ⟨_, expandBase64Into_succ unicode fuel value _, ?_⟩
          rw [expandBase64_zero]
          exact ⟨(List.append_nil out).symm, rfl, rfl⟩
      | succ budget =>
          rw [expandBase64Into_succ, if_neg (Nat.succ_ne_zero budget),
            expandBase64_succ]
          cases base64Payload value with
          | none => exact ⟨_, rfl, (List.append_nil out).symm, rfl, rfl⟩
          | some decoded =>
              dsimp only
              rw [Nat.add_sub_cancel]
              have paid := percentOverlongFixpoint_budget decoded false budget
              generalize percentOverlongFixpoint decoded false budget =
                canonical at paid ⊢
              generalize unicode.nfkc (fromUtf8Lossy canonical.bytes) = canon
              obtain ⟨inner, called, pushed, removed, accounted⟩ :=
                induction canon ⟨canonical.budget, out, layers + 1,
                  passes + canonical.passes⟩ (by
                    dsimp only at enough ⊢
                    omega)
              rw [called]
              dsimp only at pushed removed accounted
              refine ⟨_, rfl, ?_, ?_, ?_⟩
              · dsimp only
                rw [pushed, List.append_assoc]
              · dsimp only
                rw [removed, List.length_append, List.length_singleton]
                omega
              · dsimp only
                omega

/--
For every value and every budget the expansion returns, with any fuel beyond
the budget.  It pushes no more texts than the budget has units and never
raises it, and what it spends is the number of layers removed and of passes
applied.  A fresh expansion yields at most `PIPELINE_CAP` texts.
-/
theorem expandBase64Into_bounded
    (value : Text) (budget : Nat) (out : List Text) :
    (∃ final pushed,
      (∀ fuel, budget < fuel →
        expandBase64Into unicode fuel value ⟨budget, out, 0, 0⟩ =
          some final) ∧
      final.out = out ++ pushed ∧
      pushed = expandBase64 unicode budget budget value ∧
      pushed.length ≤ budget ∧
      final.budget ≤ budget ∧
      final.layers + final.passes = budget - final.budget) ∧
    (base64Derived unicode value).length ≤ pipelineCap := by
  have bounded : ∀ start : Nat, ∃ final pushed,
      (∀ fuel, start < fuel →
        expandBase64Into unicode fuel value ⟨start, out, 0, 0⟩ =
          some final) ∧
      final.out = out ++ pushed ∧
      pushed = expandBase64 unicode start start value ∧
      pushed.length ≤ start ∧
      final.budget ≤ start ∧
      final.layers + final.passes = start - final.budget := by
    intro start
    obtain ⟨final, called, appended, removed, accounted⟩ :=
      expandBase64Into_spec unicode value ⟨start, out, 0, 0⟩
        (Nat.lt_succ_self start)
    have same : expandBase64 unicode (start + 1) start value =
        expandBase64 unicode start start value :=
      (expandBase64_less unicode value (Nat.le_succ start) le_rfl le_rfl
        (expansionSpent_le unicode _ _ _)).symm
    dsimp only at appended removed accounted
    rw [same] at appended removed
    refine ⟨final, _, ?_, appended, rfl, ?_, ?_, ?_⟩
    · intro fuel more
      exact expandBase64Into_more unicode more called
    · omega
    · omega
    · omega
  obtain ⟨_, pushed, _, _, rfl, short, _⟩ := bounded pipelineCap
  exact ⟨bounded budget, short⟩

end Unicode

end LightWaf.Detection
