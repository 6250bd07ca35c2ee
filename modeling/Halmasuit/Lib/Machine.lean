import Mathlib.Data.Nat.Notation

/-!
# Arithmetic of a fixed width

The result of an operation on integers of a fixed width, from what it is on the numbers: one that
does not fit stops a program that was built to check, and wraps in one that was not.

- `unsigned_of_lt`, `signed_of_fits`: what fits is the number, in either build;
- `unsigned_checked`, `signed_checked`: a build that checks goes on only with the number;
- `unsigned_wrapping`, `signed_wrapping`: one that wraps goes on with the remainder.
-/

namespace Halmasuit.Lib.Machine

/-- How a program was built. -/
inductive Build where
  | checked
  | wrapping
  deriving DecidableEq

/-- An unsigned integer of a type with `bound` values. -/
def unsigned (build : Build) (bound n : Nat) : Option Nat :=
  if n < bound then some n
  else match build with
    | .checked => none
    | .wrapping => some (n % bound)

/-- The difference of two such integers. -/
def unsignedSub (build : Build) (bound a b : Nat) : Option Nat :=
  if b ≤ a then some (a - b)
  else match build with
    | .checked => none
    | .wrapping => some (a + bound - b)

/-- A value of the signed type with `half` negative ones. -/
def Fits (half : Nat) (z : Int) : Prop := -half ≤ z ∧ z < half

instance (half : Nat) (z : Int) : Decidable (Fits half z) := inferInstanceAs (Decidable (_ ∧ _))

/-- A signed integer, in two's complement. -/
def signed (build : Build) (half : Nat) (z : Int) : Option Int :=
  if Fits half z then some z
  else match build with
    | .checked => none
    | .wrapping => some (z.bmod (2 * half))

section
variable {build : Build} {bound half n m : Nat} {z w : Int}

theorem unsigned_of_lt (h : n < bound) : unsigned build bound n = some n := if_pos h

theorem unsignedSub_of_le {a b : Nat} (h : b ≤ a) : unsignedSub build bound a b = some (a - b) :=
  if_pos h

theorem unsigned_checked : unsigned .checked bound n = some m ↔ n < bound ∧ m = n := by
  unfold unsigned
  by_cases h : n < bound <;> simp [h, eq_comm]

theorem unsigned_wrapping (bound n : Nat) : unsigned .wrapping bound n = some (n % bound) := by
  unfold unsigned
  split
  · rw [Nat.mod_eq_of_lt ‹_›]
  · rfl

theorem bmod_of_fits (h : Fits half z) : z.bmod (2 * half) = z := by
  obtain ⟨hle, hlt⟩ := h
  refine Int.bmod_eq_of_le ?_ ?_ <;> omega

theorem signed_of_fits (h : Fits half z) : signed build half z = some z := if_pos h

theorem signed_checked : signed .checked half z = some w ↔ Fits half z ∧ w = z := by
  unfold signed
  by_cases h : Fits half z <;> simp [h, eq_comm]

theorem signed_wrapping (half : Nat) (z : Int) :
    signed .wrapping half z = some (z.bmod (2 * half)) := by
  unfold signed
  split
  · rw [bmod_of_fits ‹_›]
  · rfl

end

end Halmasuit.Lib.Machine
