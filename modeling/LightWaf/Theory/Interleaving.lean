import Mathlib.Tactic

/-!
# Programs of atomic statements

A program is a sequence of statements on a state that it shares with others.
Each statement is atomic, and what a program does next depends on what its
statements have found.  A program guarantees a relation if each of its
statements keeps to it, in whatever state it is executed: then it does not
matter how the statements of several programs are interleaved.
-/

namespace LightWaf.Theory.Interleaving

universe u v

/-- A program with a result, over a shared state. -/
inductive Prog (σ : Type u) (ρ : Type v)
  | done (result : ρ)
  | exec (effect : σ → σ) (next : σ → Prog σ ρ)

namespace Prog

variable {σ : Type u} {ρ : Type v}

/-- A statement that changes nothing. -/
def read (next : σ → Prog σ ρ) : Prog σ ρ :=
  .exec id next

/-- Every statement of a program keeps to a relation. -/
def Guarantee (relation : σ → σ → Prop) : Prog σ ρ → Prop
  | .done _ => True
  | .exec effect next =>
      ∀ state, relation state (effect state) ∧ Guarantee relation (next state)

variable {relation : σ → σ → Prop}

theorem guarantee_done (result : ρ) :
    (done result : Prog σ ρ).Guarantee relation :=
  trivial

theorem guarantee_exec
    {effect : σ → σ} {next : σ → Prog σ ρ}
    (kept : ∀ state, relation state (effect state))
    (rest : ∀ state, (next state).Guarantee relation) :
    (exec effect next).Guarantee relation :=
  fun state => ⟨kept state, rest state⟩

theorem guarantee_read
    (refl : ∀ state, relation state state) {next : σ → Prog σ ρ}
    (rest : ∀ state, (next state).Guarantee relation) :
    (read next).Guarantee relation :=
  guarantee_exec refl rest

end Prog

end LightWaf.Theory.Interleaving
