import Mathlib.Data.Option.Basic
import Mathlib.Order.Basic

/-!
# Page flips

A display that shows one frame while at most one other is on its way and at most one is held back. A
frame that is queued goes to the device unless one is on its way; the device completes a flip; the
completion is acknowledged, and what was held back goes to the device. Frames are numbered in the
order they are queued.

`Sound` is what keeps such a queue going: a frame is on its way only while the device has a flip to
complete. `behind` counts the flips a frame still waits for; `behind_flip` says that each one
counts, and `behind_queue` that later frames do not put it off.
-/

namespace Halmasuit.Lib

/-- The frames of a display. -/
structure FlipQueue where
  /-- The newest frame on the screen. -/
  shown : Nat
  /-- The frame that was handed to the device and is not acknowledged. -/
  pending : Option Nat
  /-- The frame that is held back. -/
  queued : Option Nat
  /-- The device has a flip to complete. -/
  inFlight : Bool
  deriving DecidableEq, Repr

namespace FlipQueue

/-- A frame is queued. -/
def queue (q : FlipQueue) (n : Nat) : FlipQueue :=
  if q.pending.isSome then { q with queued := some n }
  else { q with pending := some n, inFlight := true }

/-- The device completes a flip. -/
def complete (q : FlipQueue) : FlipQueue := { q with inFlight := false }

/-- A completed flip is acknowledged. -/
def submitted (q : FlipQueue) : FlipQueue :=
  match q.pending with
  | none => q
  | some n => ⟨n, q.queued, none, q.queued.isSome⟩

/-- The newest frame. -/
def newest (q : FlipQueue) : Nat := (q.queued.or q.pending).getD q.shown

/-- A frame on its way has a flip to complete, a frame is held back only by one on its way, and they
are in order, up to a bound. -/
structure Sound (q : FlipQueue) (bound : Nat) : Prop where
  inFlight : q.inFlight = q.pending.isSome
  held : ∀ n ∈ q.queued, ∃ m ∈ q.pending, m ≤ n ∧ n ≤ bound
  pending : ∀ m ∈ q.pending, q.shown ≤ m ∧ m ≤ bound
  shown : q.shown ≤ bound

/-- How many flips there are before a frame, or a newer one, is on the screen. -/
def behind (q : FlipQueue) (n : Nat) : Nat :=
  if n ≤ q.shown then 0 else if q.pending.any (n ≤ ·) then 1 else 2

theorem behind_le (q : FlipQueue) (n : Nat) : q.behind n ≤ 2 := by
  unfold behind
  split_ifs <;> omega

theorem Sound.mono {q : FlipQueue} {b b' : Nat} (h : q.Sound b) (hb : b ≤ b') : q.Sound b' := by
  refine ⟨h.inFlight, fun n hn => ?_, fun m hm => ?_, Nat.le_trans h.shown hb⟩
  · obtain ⟨m, hm, hmn, hnb⟩ := h.held n hn
    exact ⟨m, hm, hmn, Nat.le_trans hnb hb⟩
  · obtain ⟨hshown, hmb⟩ := h.pending m hm
    exact ⟨hshown, Nat.le_trans hmb hb⟩

/-- Nothing is held back where nothing is on its way. -/
theorem Sound.queued_none {q : FlipQueue} {b : Nat} (h : q.Sound b) (hp : q.pending = none) :
    q.queued = none := by
  rw [Option.eq_none_iff_forall_not_mem]
  intro n hn
  obtain ⟨m, hm, -⟩ := h.held n hn
  rw [hp] at hm
  cases hm

theorem queue_none {q : FlipQueue} (hp : q.pending = none) (n : Nat) :
    q.queue n = { q with pending := some n, inFlight := true } := by
  simp [queue, hp]

theorem queue_some {q : FlipQueue} {m : Nat} (hp : q.pending = some m) (n : Nat) :
    q.queue n = { q with queued := some n } := by
  simp [queue, hp]

theorem flip_none {q : FlipQueue} (hp : q.pending = none) :
    q.complete.submitted = q.complete := by
  simp [complete, submitted, hp]

theorem flip_some {q : FlipQueue} {m : Nat} (hp : q.pending = some m) :
    q.complete.submitted = ⟨m, q.queued, none, q.queued.isSome⟩ := by
  simp [complete, submitted, hp]

theorem sound_queue {q : FlipQueue} {b n : Nat} (h : q.Sound b) (hn : b ≤ n) :
    (q.queue n).Sound n := by
  have hshown : q.shown ≤ n := Nat.le_trans h.shown hn
  cases hp : q.pending with
  | none =>
    rw [queue_none hp]
    refine ⟨rfl, fun k hk => ?_, fun m hm => ?_, hshown⟩
    · have hk' : k ∈ q.queued := hk
      rw [h.queued_none hp] at hk'
      cases hk'
    · cases hm
      exact ⟨hshown, Nat.le_refl _⟩
  | some m =>
    obtain ⟨hm, hmb⟩ := h.pending m hp
    rw [queue_some hp]
    refine ⟨h.inFlight, fun k hk => ?_, fun k hk => ?_, hshown⟩
    · cases hk
      exact ⟨m, hp, Nat.le_trans hmb hn, Nat.le_refl _⟩
    · have hk' : k ∈ q.pending := hk
      rw [hp] at hk'
      cases hk'
      exact ⟨hm, Nat.le_trans hmb hn⟩

theorem sound_flip {q : FlipQueue} {b : Nat} (h : q.Sound b) : q.complete.submitted.Sound b := by
  cases hp : q.pending with
  | none =>
    rw [flip_none hp]
    exact ⟨by simp [complete, hp], h.held, h.pending, h.shown⟩
  | some m =>
    obtain ⟨-, hmb⟩ := h.pending m hp
    rw [flip_some hp]
    refine ⟨rfl, fun n hn => absurd hn (by simp), fun n hn => ?_, hmb⟩
    obtain ⟨k, hk, hkn, hnb⟩ := h.held n hn
    rw [hp] at hk
    cases hk
    exact ⟨hkn, hnb⟩

theorem newest_queue {q : FlipQueue} {b : Nat} (h : q.Sound b) (n : Nat) :
    (q.queue n).newest = n := by
  cases hp : q.pending with
  | none =>
    rw [queue_none hp]
    simp [newest, h.queued_none hp]
  | some m =>
    rw [queue_some hp]
    simp [newest]

theorem newest_flip (q : FlipQueue) :
    q.complete.submitted.newest = q.newest := by
  cases hp : q.pending with
  | none =>
    rw [flip_none hp]
    rfl
  | some m =>
    rw [flip_some hp]
    cases hq : q.queued with
    | none => simp [newest, hp, hq]
    | some n => simp [newest, hq]

/-- A newer frame does not put an older one off. -/
theorem behind_queue {q : FlipQueue} {n k : Nat} (hk : k ≤ n) :
    (q.queue n).behind k ≤ q.behind k := by
  cases hp : q.pending with
  | some m =>
    rw [queue_some hp]
    exact Nat.le_refl _
  | none =>
    rw [queue_none hp]
    unfold behind
    by_cases hs : k ≤ q.shown
    · simp [hs]
    · simp [hs, hk, hp]

/-- A flip brings every frame one nearer. -/
theorem behind_flip {q : FlipQueue} {b k : Nat} (h : q.Sound b) (hk : k ≤ q.newest)
    (hf : q.inFlight = true) : q.complete.submitted.behind k ≤ q.behind k - 1 := by
  have hsome : q.pending.isSome = true := by rw [← h.inFlight, hf]
  obtain ⟨m, hp⟩ := Option.isSome_iff_exists.mp hsome
  obtain ⟨hm, -⟩ := h.pending m hp
  rw [flip_some hp]
  unfold behind
  by_cases hkm : k ≤ m
  · simp [hkm]
  · have hks : ¬ k ≤ q.shown := by omega
    cases hq : q.queued with
    | none =>
      have hnew : q.newest = m := by simp [newest, hp, hq]
      omega
    | some n =>
      have hnew : q.newest = n := by simp [newest, hq]
      rw [hnew] at hk
      simp [hkm, hks, hp, hk]

theorem shown_of_behind {q : FlipQueue} {k : Nat} (h : q.behind k = 0) : k ≤ q.shown := by
  unfold behind at h
  by_contra hk
  rw [if_neg hk] at h
  split_ifs at h

theorem Sound.newest_le {q : FlipQueue} {b : Nat} (h : q.Sound b) : q.newest ≤ b := by
  unfold newest
  cases hq : q.queued with
  | some n =>
    obtain ⟨-, -, -, hnb⟩ := h.held n hq
    exact hnb
  | none =>
    cases hp : q.pending with
    | some m => exact (h.pending m hp).2
    | none => exact h.shown

/-! ## Frames queued one after the other -/

/-- From one queue to a later one, by frames whose numbers go up from the first bound to the
second. -/
inductive Later (q : FlipQueue) (b : Nat) : FlipQueue → Nat → Prop
  | refl : Later q b q b
  | skip {q' : FlipQueue} {b' : Nat} : Later q b q' b' → Later q b q' (b' + 1)
  | queue {q' : FlipQueue} {b' : Nat} : Later q b q' b' → Later q b (q'.queue (b' + 1)) (b' + 1)

theorem Later.trans {q q' q'' : FlipQueue} {b b' b'' : Nat} (h : Later q b q' b')
    (h' : Later q' b' q'' b'') : Later q b q'' b'' := by
  induction h' with
  | refl => exact h
  | skip _ ih => exact ih.skip
  | queue _ ih => exact ih.queue

theorem Later.sound {q q' : FlipQueue} {b b' : Nat} (h : Later q b q' b') (hq : q.Sound b) :
    q'.Sound b' := by
  induction h with
  | refl => exact hq
  | skip _ ih => exact ih.mono (Nat.le_succ _)
  | queue _ ih => exact sound_queue ih (Nat.le_succ _)

theorem Later.behind {q q' : FlipQueue} {b b' k : Nat} (h : Later q b q' b') (hq : q.Sound b)
    (hk : k ≤ q.newest) : k ≤ q'.newest ∧ q'.behind k ≤ q.behind k := by
  induction h with
  | refl => exact ⟨hk, Nat.le_refl _⟩
  | skip _ ih => exact ih
  | @queue q' b' hlater ih =>
    obtain ⟨hk', hle⟩ := ih
    have hsound : q'.Sound b' := hlater.sound hq
    have hkb : k ≤ b' + 1 := Nat.le_succ_of_le (Nat.le_trans hk' hsound.newest_le)
    rw [newest_queue hsound]
    exact ⟨hkb, Nat.le_trans (behind_queue hkb) hle⟩

end FlipQueue

end Halmasuit.Lib
