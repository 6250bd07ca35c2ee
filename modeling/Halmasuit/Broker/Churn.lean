import Halmasuit.Broker.Ownership
import Mathlib.Data.List.TakeWhile

/-!
# The churn limit of the auth slot

`AuthSlot` on its own (`slot.rs` 91–228): any sequence of `create_at`, `reap_current` and
`cancel_current`, with the clock read by each `create_at`. `recent` holds the instants of the last
forks; a call drops the ones that are `window` old or more, relative to its own clock, and refuses
when `max_per_window` are left.

The pruning forgets an instant for good, so what makes the limit hold is that the clock does not run
backwards: an instant that was dropped is out of every window that a later fork lies in
(`Pruned.forgotten`). Two forks exactly `window` apart are not in one window.

- **`slot_limits`**: in any `window` at most `max_per_window` forks succeed; the forks and waits
  alternate, so that there is at most one worker and every other one was waited for once; and a
  refused `create_at` leaves what it says it leaves.
-/

namespace Halmasuit.Broker

open Halmasuit.Lib

/-! ## Calls of the slot -/

/-- A call of the slot, with what it reads of the world: the clock, whether `waitpid` succeeds on
the worker, what the fork gives. -/
inductive SlotCall where
  | create (now : Instant) (peerUid : UInt32) (waits : Bool) (spawn : Option Pid)
  | reapCurrent (waits : Bool)
  | cancelCurrent (waits : Bool)
  deriving DecidableEq, Repr

/-- The clock of a call that reads it. -/
def SlotCall.now : SlotCall → Option Instant
  | .create now _ _ _ => some now
  | _ => none

/-- `waitpid(2)` succeeds on the slot's own child. -/
def SlotCall.waits : SlotCall → Bool
  | .create _ _ waits _ => waits
  | .reapCurrent waits => waits
  | .cancelCurrent waits => waits

/-- The slot, and the instants of all its forks. -/
structure SlotLog where
  slot : AuthSlot
  forks : List Instant
  deriving DecidableEq, Repr

/-- The instant of the fork, where a call forks. -/
def forkOf (now : Instant) : Except SlotError Unit → List Instant
  | .ok () => [now]
  | .error _ => []

/-- One call. -/
def SlotLog.step (s : SlotLog) : SlotCall → SlotLog × List LoopEvent
  | .create now peerUid waits spawn =>
    let r := s.slot.createAt now peerUid waits spawn
    (⟨r.1, s.forks ++ forkOf now r.2.2⟩, r.2.1)
  | .reapCurrent waits => (⟨(s.slot.reapCurrent waits).1, s.forks⟩, (s.slot.reapCurrent waits).2)
  | .cancelCurrent waits =>
    (⟨(s.slot.cancelCurrent waits).1, s.forks⟩, (s.slot.cancelCurrent waits).2)

/-! ## The window -/

/-- The forks from `t` on and before `t + window`. -/
def inWindow (window t : Nat) (forks : List Nat) : Nat :=
  forks.countP fun x => decide (t ≤ x) && decide (x < t + window)

/-- The forks after `t` and up to `t + window`. -/
def inWindow' (window t : Nat) (forks : List Nat) : Nat :=
  forks.countP fun x => decide (t < x) && decide (x ≤ t + window)

/-- `recent` is what is left of the forks: the ones before it are `window` old at `now`, the clock
of the last call. -/
structure Pruned (window now : Nat) (forks recent : List Nat) : Prop where
  split : ∃ old, forks = old ++ recent ∧ ∀ x ∈ old, x + window ≤ now
  past : ∀ x ∈ forks, x ≤ now

/-- The clock moves on. -/
theorem Pruned.later {window now now' : Nat} {forks recent : List Nat}
    (h : Pruned window now forks recent) (hle : now ≤ now') : Pruned window now' forks recent := by
  obtain ⟨⟨old, heq, hold⟩, hpast⟩ := h
  refine ⟨⟨old, heq, fun x hx => ?_⟩, fun x hx => ?_⟩
  · exact Nat.le_trans (hold x hx) hle
  · exact Nat.le_trans (hpast x hx) hle

/-- Pruning. -/
theorem Pruned.prune {window now : Nat} {forks recent : List Nat}
    (h : Pruned window now forks recent) :
    Pruned window now forks (recent.dropWhile fun x => decide (window ≤ now - x)) := by
  obtain ⟨⟨old, heq, hold⟩, hpast⟩ := h
  refine ⟨⟨old ++ recent.takeWhile fun x => decide (window ≤ now - x), ?_, fun x hx => ?_⟩, hpast⟩
  · rw [List.append_assoc, List.takeWhile_append_dropWhile, heq]
  · rcases List.mem_append.mp hx with hx | hx
    · exact hold x hx
    · have hlong := List.mem_takeWhile_imp hx
      have hle : x ≤ now := by
        refine hpast x ?_
        rw [heq]
        exact List.mem_append_right _ ((List.takeWhile_sublist _).subset hx)
      simp only [decide_eq_true_eq] at hlong
      omega

/-- A fork at `now`. -/
theorem Pruned.fork {window now : Nat} {forks recent : List Nat}
    (h : Pruned window now forks recent) :
    Pruned window now (forks ++ [now]) (recent ++ [now]) := by
  obtain ⟨⟨old, heq, hold⟩, hpast⟩ := h
  refine ⟨⟨old, by rw [heq, List.append_assoc], hold⟩, fun x hx => ?_⟩
  rcases List.mem_append.mp hx with hx | hx
  · exact hpast x hx
  · exact Nat.le_of_eq (List.mem_singleton.mp hx)

/-- What was forgotten is in no window that reaches back less than `window` from `now`. -/
theorem Pruned.forgotten {window now : Nat} {forks recent : List Nat}
    (h : Pruned window now forks recent) {p : Nat → Bool}
    (hp : ∀ x, p x = true → now < x + window) : forks.countP p ≤ recent.length := by
  obtain ⟨⟨old, heq, hold⟩, -⟩ := h
  have hnone : old.countP p = 0 := by
    rw [List.countP_eq_zero]
    intro x hx hpx
    have h1 := hold x hx
    have h2 := hp x hpx
    omega
  rw [heq, List.countP_append, hnone, Nat.zero_add]
  exact List.countP_le_length

/-- A fork that the limit allows keeps every window within it. -/
theorem Pruned.countP_fork_le {window now max : Nat} {forks recent : List Nat}
    (h : Pruned window now forks recent) (hroom : recent.length < max) {p : Nat → Bool}
    (hp : p now = true → ∀ x, p x = true → now < x + window) (hle : forks.countP p ≤ max) :
    (forks ++ [now]).countP p ≤ max := by
  rw [List.countP_append]
  by_cases hnow : p now = true
  · have := h.forgotten (hp hnow)
    simp only [List.countP_singleton, hnow, if_true]
    omega
  · simpa [List.countP_singleton, hnow] using hle

/-! ## One call -/

/-- Every way `create_at` can go, with the history it leaves. -/
theorem createAt_outcomes (slot : AuthSlot) (now : Instant) (peerUid : UInt32) (waits : Bool)
    (spawn : Option Pid) :
    slot.createAt now peerUid waits spawn = (slot, [], .error .unauthorized) ∨
    slot.createAt now peerUid waits spawn
      = ({ slot with recent := slot.pruned now }, [], .error .throttled) ∨
    slot.createAt now peerUid waits spawn
      = ({ slot with recent := slot.pruned now, inflight := none }, slot.reaping true waits,
          .error .worker) ∨
    ((slot.pruned now).length < slot.maxPerWindow ∧ ∃ pid, slot.createAt now peerUid waits spawn
      = ({ slot with recent := slot.pruned now ++ [now], inflight := some ⟨pid⟩ },
          slot.reaping true waits ++ [.spawned pid], .ok ())) := by
  unfold AuthSlot.createAt
  by_cases hpeer : peerUid ≠ slot.relayPeerUid
  · exact .inl (if_pos hpeer)
  rw [if_neg hpeer]
  by_cases hfull : slot.maxPerWindow ≤ (slot.pruned now).length
  · exact .inr (.inl (if_pos hfull))
  rw [if_neg hfull]
  by_cases hwait : slot.inflight.isSome ∧ waits = false
  · exact .inr (.inr (.inl (if_pos hwait)))
  rw [if_neg hwait]
  cases spawn with
  | none => exact .inr (.inr (.inl rfl))
  | some pid => exact .inr (.inr (.inr ⟨Nat.lt_of_not_le hfull, pid, rfl⟩))

/-- A wait for a worker, whether `waitpid` succeeded or not. -/
def LoopEvent.waited : LoopEvent → LoopEvent
  | .lost pid => .reaped pid false
  | e => e

theorem reaping_waited (slot : AuthSlot) (killed waits : Bool) :
    (slot.reaping killed waits).map LoopEvent.waited = slot.reaping (killed && waits) true := by
  unfold AuthSlot.reaping
  cases slot.inflight with
  | none => rfl
  | some i => cases waits <;> simp [LoopEvent.waited]

/-- What holds of a slot after its calls so far, the last of which read the clock at `now`. -/
structure Limits (max window : Nat) (s : SlotLog) (tr : List LoopEvent) (now : Nat) : Prop where
  maxEq : s.slot.maxPerWindow = max
  windowEq : s.slot.window = window
  pruned : Pruned window now s.forks s.slot.recent
  fits : ∀ t, inWindow window t s.forks ≤ max
  fits' : ∀ t, inWindow' window t s.forks ≤ max
  waited : ledger (tr.map LoopEvent.waited) = some (s.slot.inflight.map (·.pid))

/-- A worker forked into an empty slot. -/
theorem ledger_spawned {tr : List LoopEvent} (h : ledger tr = some none) (pid : Pid) :
    ledger (tr ++ [LoopEvent.spawned pid]) = some (some pid) := by
  rw [ledger_append, h]
  rfl

section

variable {max window now : Nat} {s : SlotLog} {tr : List LoopEvent}

/-- The slot's worker, waited for. -/
theorem Limits.ledger_waited (h : Limits max window s tr now) (killed waits : Bool) :
    ledger ((tr ++ s.slot.reaping killed waits).map LoopEvent.waited) = some none := by
  rw [List.map_append, reaping_waited]
  exact ledger_reaping h.waited (fun _ => rfl) _

/-- A call that forks nothing. -/
theorem Limits.keep (h : Limits max window s tr now) {s' : SlotLog} {es : List LoopEvent}
    (hmax : s'.slot.maxPerWindow = s.slot.maxPerWindow) (hwindow : s'.slot.window = s.slot.window)
    (hforks : s'.forks = s.forks) (hpruned : Pruned window now s.forks s'.slot.recent)
    (hwaited : ledger ((tr ++ es).map LoopEvent.waited) = some (s'.slot.inflight.map (·.pid))) :
    Limits max window s' (tr ++ es) now := by
  refine ⟨by rw [hmax, h.maxEq], by rw [hwindow, h.windowEq], ?_, ?_, ?_, hwaited⟩
  · rwa [hforks]
  · rw [hforks]
    exact h.fits
  · rw [hforks]
    exact h.fits'

/-- `create_at` at a clock that is not behind. -/
theorem Limits.create (h : Limits max window s tr now) {now' : Nat} (hle : now ≤ now')
    (peerUid : UInt32) (waits : Bool) (spawn : Option Pid) :
    Limits max window (s.step (.create now' peerUid waits spawn)).1
      (tr ++ (s.step (.create now' peerUid waits spawn)).2) now' := by
  have hp := h.pruned.later hle
  have hbase : Limits max window s tr now' :=
    ⟨h.maxEq, h.windowEq, hp, h.fits, h.fits', h.waited⟩
  have hprune : Pruned window now' s.forks (s.slot.pruned now') := by
    rw [AuthSlot.pruned, h.windowEq]
    exact hp.prune
  have hreap := h.ledger_waited true waits
  simp only [SlotLog.step]
  rcases createAt_outcomes s.slot now' peerUid waits spawn with heq | heq | heq | ⟨hroom, pid, heq⟩
  · rw [heq]
    exact hbase.keep rfl rfl (by simp [forkOf]) hp (by simpa using h.waited)
  · rw [heq]
    exact hbase.keep rfl rfl (by simp [forkOf]) hprune (by simpa using h.waited)
  · rw [heq]
    exact hbase.keep rfl rfl (by simp [forkOf]) hprune hreap
  · rw [heq]
    rw [h.maxEq] at hroom
    refine ⟨h.maxEq, h.windowEq, hprune.fork, fun t => ?_, fun t => ?_, ?_⟩
    · refine hprune.countP_fork_le hroom (fun hin x hx => ?_) (h.fits t)
      simp only [Bool.and_eq_true, decide_eq_true_eq] at hin hx
      omega
    · refine hprune.countP_fork_le hroom (fun hin x hx => ?_) (h.fits' t)
      simp only [Bool.and_eq_true, decide_eq_true_eq] at hin hx
      omega
    · rw [← List.append_assoc, List.map_append]
      exact ledger_spawned hreap pid

/-- A call, at a clock that is not behind. -/
theorem Limits.step (h : Limits max window s tr now) (c : SlotCall)
    (hle : ∀ now', c.now = some now' → now ≤ now') :
    Limits max window (s.step c).1 (tr ++ (s.step c).2) (c.now.getD now) := by
  cases c with
  | create now' peerUid waits spawn => exact h.create (hle now' rfl) peerUid waits spawn
  | reapCurrent waits => exact h.keep rfl rfl rfl h.pruned (h.ledger_waited false waits)
  | cancelCurrent waits => exact h.keep rfl rfl rfl h.pruned (h.ledger_waited true waits)

end

/-- Where `waitpid` succeeds, no worker is lost. -/
theorem step_lost (s : SlotLog) {c : SlotCall} (hwaits : c.waits = true) :
    ∀ e ∈ (s.step c).2, e.waited = e := by
  have hreap : ∀ killed, ∀ e ∈ s.slot.reaping killed true, e.waited = e := by
    intro killed e he
    obtain ⟨pid, rfl⟩ := mem_reaping he
    rfl
  cases c with
  | create now peerUid waits spawn =>
    obtain rfl : waits = true := hwaits
    intro e he
    simp only [SlotLog.step] at he
    rcases createAt_outcomes s.slot now peerUid true spawn with heq | heq | heq | ⟨-, pid, heq⟩
    · simp [heq] at he
    · simp [heq] at he
    · exact hreap true e (by simpa [heq] using he)
    · rw [heq] at he
      rcases List.mem_append.mp he with he | he
      · exact hreap true e he
      · obtain rfl := List.mem_singleton.mp he
        rfl
  | reapCurrent waits =>
    obtain rfl : waits = true := hwaits
    exact hreap false
  | cancelCurrent waits =>
    obtain rfl : waits = true := hwaits
    exact hreap true

/-! ## Whole runs -/

/-- The clocks of the calls, in order. -/
def clocks (calls : List SlotCall) : List Nat := calls.filterMap SlotCall.now

theorem limits_run {max window : Nat} (calls : List SlotCall) :
    ∀ (s : SlotLog) (tr : List LoopEvent) (now : Nat), (now :: clocks calls).Pairwise (· ≤ ·) →
      Limits max window s tr now → ∃ now', Limits max window (run SlotLog.step s calls).1
        (tr ++ (run SlotLog.step s calls).2) now' := by
  induction calls with
  | nil =>
    intro s tr now _ h
    exact ⟨now, by simpa [run] using h⟩
  | cons c calls ih =>
    intro s tr now htimes h
    have hle : ∀ now', c.now = some now' → now ≤ now' := by
      intro now' hnow
      refine (List.pairwise_cons.mp htimes).1 now' ?_
      simp [clocks, hnow]
    have htimes' : (c.now.getD now :: clocks calls).Pairwise (· ≤ ·) := by
      cases hnow : c.now with
      | none => simpa [clocks, hnow] using htimes
      | some now' =>
        have hclocks : clocks (c :: calls) = now' :: clocks calls := by simp [clocks, hnow]
        rw [hclocks] at htimes
        exact (List.pairwise_cons.mp htimes).2
    obtain ⟨now', hrun⟩ := ih _ _ _ htimes' (h.step c hle)
    exact ⟨now', by simpa [run] using hrun⟩

theorem run_lost (calls : List SlotCall) : ∀ s : SlotLog, (∀ c ∈ calls, c.waits = true) →
    (run SlotLog.step s calls).2.map LoopEvent.waited = (run SlotLog.step s calls).2 := by
  induction calls with
  | nil => exact fun s _ => rfl
  | cons c calls ih =>
    intro s hwaits
    have hstep : (s.step c).2.map LoopEvent.waited = (s.step c).2 := by
      rw [List.map_congr_left (step_lost s (hwaits c (by simp))), List.map_id']
    simp only [run, List.map_append, hstep]
    rw [ih _ fun c' hc' => hwaits c' (by simp [hc'])]

/-- What the two refusals leave. -/
theorem createAt_refused (slot : AuthSlot) (now : Instant) (peerUid : UInt32) (waits : Bool)
    (spawn : Option Pid) :
    let r := slot.createAt now peerUid waits spawn
    (r.2.2 = .error .unauthorized → r.1 = slot ∧ r.2.1 = []) ∧
    (r.2.2 = .error .throttled → r.1.inflight = slot.inflight ∧ r.2.1 = []) := by
  intro r
  rcases createAt_outcomes slot now peerUid waits spawn with heq | heq | heq | ⟨-, pid, heq⟩ <;>
    simp [r, heq]

/-- **The churn limit and the single worker.** Over every sequence of calls whose clocks do not run
backwards:

- in any stretch of time of length `window`, half-open at either end, at most `maxPerWindow` forks
  succeed;
- at no time does the slot have two workers, and every worker but the current one was waited for
  once; where `waitpid` succeeds on the slot's own child, none is lost;
- `Unauthorized` leaves the slot as it is, history included, and `Throttled` leaves the worker. -/
theorem slot_limits (relayPeerUid : UInt32) (maxPerWindow window : Nat) (calls : List SlotCall)
    (htimes : (clocks calls).Pairwise (· ≤ ·)) :
    let s := run SlotLog.step ⟨.new relayPeerUid maxPerWindow window, []⟩ calls
    (∀ t, inWindow window t s.1.forks ≤ maxPerWindow ∧
      inWindow' window t s.1.forks ≤ maxPerWindow) ∧
    ledger (s.2.map LoopEvent.waited) = some (s.1.slot.inflight.map (·.pid)) ∧
    ((∀ c ∈ calls, c.waits = true) → ledger s.2 = some (s.1.slot.inflight.map (·.pid))) ∧
    ∀ now peerUid waits spawn, let r := s.1.slot.createAt now peerUid waits spawn
      (r.2.2 = .error .unauthorized → r.1 = s.1.slot ∧ r.2.1 = []) ∧
      (r.2.2 = .error .throttled → r.1.inflight = s.1.slot.inflight ∧ r.2.1 = []) := by
  intro s
  have hstart : Limits maxPerWindow window ⟨.new relayPeerUid maxPerWindow window, []⟩ [] 0 := by
    refine ⟨rfl, rfl, ⟨⟨[], rfl, by simp⟩, by simp⟩, fun t => ?_, fun t => ?_, rfl⟩
    · simp [inWindow]
    · simp [inWindow']
  have htimes' : (0 :: clocks calls).Pairwise (· ≤ ·) :=
    List.pairwise_cons.mpr ⟨fun _ _ => Nat.zero_le _, htimes⟩
  obtain ⟨now, h⟩ := limits_run calls _ _ _ htimes' hstart
  rw [List.nil_append] at h
  refine ⟨fun t => ⟨h.fits t, h.fits' t⟩, h.waited, fun hwaits => ?_, createAt_refused s.1.slot⟩
  have hlost := run_lost calls ⟨.new relayPeerUid maxPerWindow window, []⟩ hwaits
  have hw := h.waited
  rwa [hlost] at hw

/-- Two forks a window: the third waits until the first is `window` old, and then takes its place. A
stranger in between changes nothing. -/
theorem third_fork_waits :
    let calls : List SlotCall :=
      [.create 0 7 true (some 100), .create 4 7 true (some 101), .create 9 7 true (some 102),
        .create 9 8 true (some 103), .reapCurrent true, .create 10 7 true (some 104)]
    let s := run SlotLog.step ⟨.new 7 2 10, []⟩ calls
    s.1.forks = [0, 4, 10] ∧ inWindow 10 0 s.1.forks = 2 ∧ inWindow' 10 0 s.1.forks = 2 ∧
      ledger s.2 = some (some 104) := by
  refine ⟨by decide +kernel, by decide +kernel, by decide +kernel, ?_⟩
  have h := slot_limits 7 2 10 [.create 0 7 true (some 100), .create 4 7 true (some 101),
    .create 9 7 true (some 102), .create 9 8 true (some 103), .reapCurrent true,
    .create 10 7 true (some 104)] (by decide +kernel)
  exact h.2.2.1 (by decide +kernel)

end Halmasuit.Broker
