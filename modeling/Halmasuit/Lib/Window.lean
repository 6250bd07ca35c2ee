import Mathlib.Data.List.Basic

/-!
# A sliding window over a pruned history

A limiter that keeps the instants of what it allowed, and drops the ones that are `width` old or
more whenever it is asked. The instants it dropped are lost, so what it can say of a window is what
`Kept` says: for the instants that are less than `width` old, the history counts as all of them do.

- `Kept.later`, `Kept.prune`, `Kept.snoc`: the clock moves on, the old ones are dropped, one more is
  allowed;
- `Kept.recent`: the length of a pruned history is the number of the recent ones;
- `span_snoc_le`, `spanAfter_snoc_le`: an instant that is allowed at fewer than `max` recent ones
  keeps every window within `max`, whichever end of the window counts.
-/

namespace Halmasuit.Lib.Window

/-- The instants from `t` on and before `t + width`. -/
def span (width t : Nat) (times : List Nat) : Nat :=
  times.countP fun x => decide (t ≤ x) && decide (x < t + width)

/-- The instants after `t` and up to `t + width`. -/
def spanAfter (width t : Nat) (times : List Nat) : Nat :=
  times.countP fun x => decide (t < x) && decide (x ≤ t + width)

/-- The instants less than `width` before `now`. -/
def recent (width now : Nat) (times : List Nat) : Nat :=
  times.countP fun x => decide (now < x + width)

/-- `kept` counts as `all` do, as far as the clock at `now` reaches back. -/
structure Kept (width now : Nat) (all kept : List Nat) : Prop where
  past : ∀ x ∈ all, x ≤ now
  counts : ∀ p : Nat → Bool, (∀ x, p x = true → now < x + width) → all.countP p = kept.countP p

section
variable {width now : Nat} {all kept : List Nat}

theorem Kept.nil (width now : Nat) : Kept width now [] [] := ⟨by simp, fun _ _ => rfl⟩

/-- The clock moves on. -/
theorem Kept.later (h : Kept width now all kept) {now' : Nat} (hle : now ≤ now') :
    Kept width now' all kept := by
  refine ⟨fun x hx => ?_, fun p hp => h.counts p fun x hx => ?_⟩
  · exact Nat.le_trans (h.past x hx) hle
  · have := hp x hx
    omega

/-- The old instants are dropped. -/
theorem Kept.prune (h : Kept width now all kept) {q : Nat → Bool}
    (hq : ∀ x, now < x + width → q x = true) : Kept width now all (kept.filter q) := by
  refine ⟨h.past, fun p hp => ?_⟩
  rw [h.counts p hp, List.countP_filter]
  refine List.countP_congr fun x _ => ?_
  by_cases hx : p x = true
  · simp [hx, hq x (hp x hx)]
  · simp [hx]

/-- One more instant. -/
theorem Kept.snoc (h : Kept width now all kept) : Kept width now (all ++ [now]) (kept ++ [now]) := by
  refine ⟨fun x hx => ?_, fun p hp => ?_⟩
  · rcases List.mem_append.mp hx with hx | hx
    · exact h.past x hx
    · exact Nat.le_of_eq (List.mem_singleton.mp hx)
  · rw [List.countP_append, List.countP_append, h.counts p hp]

/-- What is left after the old ones are dropped is what is recent. -/
theorem Kept.recent (h : Kept width now all kept) {q : Nat → Bool}
    (hq : ∀ x, q x = true ↔ now < x + width) :
    (kept.filter q).length = recent width now all := by
  have hrecent := h.counts (fun x => decide (now < x + width)) (by simp)
  rw [← List.countP_eq_length_filter, Window.recent, hrecent]
  refine List.countP_congr fun x _ => ?_
  rw [hq, decide_eq_true_iff]

end

/-- **The limit.** A new instant at fewer than `max` recent ones, for any choice of instants that lie
less than `width` apart. -/
theorem countP_snoc_le {width now max : Nat} {all : List Nat} {p : Nat → Bool}
    (hp : ∀ x y, p x = true → p y = true → x < y + width) (hroom : recent width now all < max)
    (hle : all.countP p ≤ max) : (all ++ [now]).countP p ≤ max := by
  rw [List.countP_append, List.countP_singleton]
  by_cases hnow : p now = true
  · -- an instant that is chosen with the new one is recent
    have hsub : all.countP p ≤ recent width now all :=
      List.countP_mono_left fun x _ hx => decide_eq_true (hp now x hnow hx)
    rw [if_pos hnow]
    omega
  · rw [if_neg hnow]
    exact hle

theorem span_snoc_le {width now max t : Nat} {all : List Nat} (hroom : recent width now all < max)
    (hle : span width t all ≤ max) : span width t (all ++ [now]) ≤ max := by
  refine countP_snoc_le (fun x y hx hy => ?_) hroom hle
  simp only [Bool.and_eq_true, decide_eq_true_eq] at hx hy
  omega

theorem spanAfter_snoc_le {width now max t : Nat} {all : List Nat}
    (hroom : recent width now all < max) (hle : spanAfter width t all ≤ max) :
    spanAfter width t (all ++ [now]) ≤ max := by
  refine countP_snoc_le (fun x y hx hy => ?_) hroom hle
  simp only [Bool.and_eq_true, decide_eq_true_eq] at hx hy
  omega

end Halmasuit.Lib.Window
