import Mathlib.Data.List.Basic

/-!
# Switching virtual terminals

How Linux switches from one virtual terminal to another when one of them, `home`, belongs to a
process (`VT_SETMODE` with `VT_PROCESS`). A switch away from it is not made: the process is sent a
signal, and the switch is completed when it answers with `VT_RELDISP`. A switch to it is made at
once, and the process is told by another signal.

* The signals are real-time signals, and are queued. The one for a release has the lower number, so
  it is delivered first, in whatever order they were sent (`dequeue`).
* An answer to no question is an error, unless it is `VT_ACKACQ`, which changes nothing. Any other
  answer than 0 completes the switch, `VT_ACKACQ` too (`reldisp`).
* The other terminals are in `VT_AUTO`, and in text mode.

- `change_cases`: what a request for a switch does;
- `reldisp_cases`: what an answer does.
-/

namespace Halmasuit.Lib.Vt

/-- The two signals. -/
inductive Signal where
  | release
  | acquire
  deriving DecidableEq, Repr

/-- The terminals, as the kernel has them. -/
structure Terminals where
  home : Nat
  /-- `fg_console`. -/
  active : Nat
  /-- `vt_newvt`, where a switch away from `home` is to go. -/
  newvt : Option Nat
  releases : Nat
  acquires : Nat
  deriving DecidableEq, Repr

namespace Terminals

/-- `complete_change_console`. -/
def complete (k : Terminals) (v : Nat) : Terminals :=
  { k with active := v, acquires := if v = k.home then k.acquires + 1 else k.acquires }

/-- `change_console`, for whoever asks. -/
def change (k : Terminals) (v : Nat) : Terminals :=
  if v = k.active then k
  else if k.active = k.home then { k with newvt := some v, releases := k.releases + 1 }
  else k.complete v

/-- `VT_RELDISP`. -/
def reldisp (k : Terminals) (arg : Nat) : Terminals :=
  match k.newvt with
  | none => k
  | some v =>
    if arg = 0 then { k with newvt := none } else { k with newvt := none }.complete v

/-- The next signal that the process gets. -/
def dequeue (k : Terminals) : Option (Signal × Terminals) :=
  if 0 < k.releases then some (.release, { k with releases := k.releases - 1 })
  else if 0 < k.acquires then some (.acquire, { k with acquires := k.acquires - 1 })
  else none

/-- The signals that the process has not got, in the order in which it will. -/
def queued (k : Terminals) : List Signal :=
  List.replicate k.releases .release ++ List.replicate k.acquires .acquire

/-- A switch away from `home` is only asked for while it is active, and goes somewhere else. -/
def WellFormed (k : Terminals) : Prop := ∀ v, k.newvt = some v → k.active = k.home ∧ v ≠ k.home

/-- `home` is active and is to stay so. -/
def AtHome (k : Terminals) : Prop := k.active = k.home ∧ k.newvt = none

instance (k : Terminals) : Decidable k.AtHome := inferInstanceAs (Decidable (_ ∧ _))

theorem dequeue_queued {k k' : Terminals} {sig : Signal} (h : k.dequeue = some (sig, k')) :
    k.queued = sig :: k'.queued ∧ k'.home = k.home ∧ k'.active = k.active ∧ k'.newvt = k.newvt := by
  unfold dequeue at h
  split at h
  · next hpos =>
    cases h
    refine ⟨?_, rfl, rfl, rfl⟩
    obtain ⟨m, hm⟩ := Nat.exists_eq_succ_of_ne_zero (Nat.ne_of_gt hpos)
    simp [queued, hm, List.replicate_succ]
  · next hzero =>
    split at h
    · next hpos =>
      cases h
      refine ⟨?_, rfl, rfl, rfl⟩
      obtain ⟨m, hm⟩ := Nat.exists_eq_succ_of_ne_zero (Nat.ne_of_gt hpos)
      have hrel : k.releases = 0 := Nat.eq_zero_of_not_pos hzero
      simp [queued, hm, hrel, List.replicate_succ]
    · cases h

/-- A request is for the active terminal, is put to the process, or is granted. -/
theorem change_cases (k : Terminals) (v : Nat) :
    (k.change v = k) ∨
    (k.active = k.home ∧ v ≠ k.home ∧
      k.change v = { k with newvt := some v, releases := k.releases + 1 }) ∨
    (k.active ≠ k.home ∧ v ≠ k.active ∧ k.change v = k.complete v) := by
  unfold change
  by_cases hv : v = k.active
  · exact .inl (if_pos hv)
  · by_cases hhome : k.active = k.home
    · exact .inr (.inl ⟨hhome, hhome ▸ hv, by rw [if_neg hv, if_pos hhome]⟩)
    · exact .inr (.inr ⟨hhome, hv, by rw [if_neg hv, if_neg hhome]⟩)

/-- An answer other than 0 is to no question, or completes a switch away. -/
theorem reldisp_cases {k : Terminals} (hk : k.WellFormed) {arg : Nat} (harg : arg ≠ 0) :
    (k.newvt = none ∧ k.reldisp arg = k) ∨
    ∃ v, k.newvt = some v ∧ k.active = k.home ∧ v ≠ k.home ∧
      k.reldisp arg = { k with newvt := none, active := v } := by
  unfold reldisp
  cases hnew : k.newvt with
  | none => exact .inl ⟨rfl, rfl⟩
  | some v =>
    obtain ⟨hactive, hv⟩ := hk v hnew
    exact .inr ⟨v, rfl, hactive, hv, by simp [harg, complete, hv]⟩

theorem WellFormed.change {k : Terminals} (h : k.WellFormed) (v : Nat) : (k.change v).WellFormed := by
  rcases k.change_cases v with heq | ⟨hhome, hv, heq⟩ | ⟨hhome, hv, heq⟩
  · rw [heq]
    exact h
  · rw [heq]
    intro v' hv'
    cases hv'
    exact ⟨hhome, hv⟩
  · rw [heq]
    intro v' hv'
    exact absurd (h v' hv').1 hhome

theorem WellFormed.reldisp {k : Terminals} (h : k.WellFormed) {arg : Nat} (harg : arg ≠ 0) :
    (k.reldisp arg).WellFormed := by
  rcases reldisp_cases h harg with ⟨hnew, heq⟩ | ⟨v, -, -, -, heq⟩
  · rw [heq]
    exact h
  · rw [heq]
    intro v' hv'
    cases hv'

end Terminals

end Halmasuit.Lib.Vt
