import Mathlib.Algebra.BigOperators.Group.List.Basic
import Mathlib.Algebra.GroupWithZero.Nat
import Halmasuit.Lib.Run

/-!
# What a run costs

A potential bounds what the steps of a machine emit, when every input pays for what it brings in.

- `run_amortised`: what a run emits is paid for by its inputs and by the potential it starts with;
- `exists_drain`: where some input that pays nothing always makes something happen, a run of such
  inputs comes to rest, and is no longer than the potential.
-/

namespace Halmasuit.Lib

variable {σ ι ε : Type}

section Amortised

variable (Inv : σ → Prop) (potential : σ → Nat) (pay : ι → Nat) (counts : ε → Bool)
  {step : σ → ι → σ × List ε}

theorem run_amortised
    (hstep : ∀ s i, Inv s → Inv (step s i).1 ∧
      ((step s i).2.filter counts).length + potential (step s i).1 ≤ potential s + pay i)
    (is : List ι) : ∀ s, Inv s →
      ((run step s is).2.filter counts).length + potential (run step s is).1 ≤
        potential s + (is.map pay).sum := by
  induction is with
  | nil =>
    intro s _
    simp [run]
  | cons i is ih =>
    intro s hs
    obtain ⟨hinv, hle⟩ := hstep s i hs
    have ih := ih _ hinv
    simp only [run, List.filter_append, List.length_append, List.map_cons, List.sum_cons]
    omega

theorem exists_drain (rest : σ → Prop)
    (hstep : ∀ s i, Inv s → Inv (step s i).1 ∧
      ((step s i).2.filter counts).length + potential (step s i).1 ≤ potential s + pay i)
    (hmoves : ∀ s, ¬ rest s → ∃ i, pay i = 0 ∧ 0 < ((step s i).2.filter counts).length) :
    ∀ (k : Nat) (s : σ), Inv s → potential s ≤ k →
      ∃ is : List ι, is.length ≤ k ∧ (∀ i ∈ is, pay i = 0) ∧ rest (run step s is).1 := by
  intro k
  induction k with
  | zero =>
    intro s hs hk
    by_cases hrest : rest s
    · exact ⟨[], Nat.le_refl _, by simp, hrest⟩
    · obtain ⟨i, hpay, hmove⟩ := hmoves s hrest
      have hle := (hstep s i hs).2
      omega
  | succ k ih =>
    intro s hs hk
    by_cases hrest : rest s
    · exact ⟨[], Nat.zero_le _, by simp, hrest⟩
    · obtain ⟨i, hpay, hmove⟩ := hmoves s hrest
      obtain ⟨hinv, hle⟩ := hstep s i hs
      obtain ⟨is, hlen, hfree, hend⟩ := ih (step s i).1 hinv (by omega)
      refine ⟨i :: is, Nat.succ_le_succ hlen, fun j hj => ?_, hend⟩
      rcases List.mem_cons.mp hj with rfl | hj
      · exact hpay
      · exact hfree j hj

end Amortised

end Halmasuit.Lib
