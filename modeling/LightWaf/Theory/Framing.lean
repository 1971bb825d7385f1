import Mathlib.Tactic

/-!
# Length-prefixed fields

A field is written behind a header of fixed width that tells its length.  A
sequence of such fields can be read in one way only, whatever they hold.
-/

namespace LightWaf.Theory.Framing

universe u

variable {α : Type u}

/-- Headers of one width that tell lengths below a bound apart. -/
structure Header (α : Type u) (bound : Nat) where
  write : Nat → List α
  width : Nat
  length_write : ∀ length, (write length).length = width
  injective : ∀ first second, first < bound → second < bound →
    write first = write second → first = second

variable {bound : Nat} (header : Header α bound)

/-- A field behind its header. -/
def frame (field : List α) : List α :=
  header.write field.length ++ field

/-- A framed field ends where its header says. -/
theorem frame_append_inj
    {field other rest left : List α}
    (fits : field.length < bound) (otherFits : other.length < bound)
    (same : frame header field ++ rest = frame header other ++ left) :
    field = other ∧ rest = left := by
  rw [frame, frame, List.append_assoc, List.append_assoc] at same
  obtain ⟨headers, tails⟩ := List.append_inj same (by
    rw [header.length_write, header.length_write])
  exact List.append_inj tails
    (header.injective _ _ fits otherFits headers)

end LightWaf.Theory.Framing
