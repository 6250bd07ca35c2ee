import Halmasuit.Lib.Run
import Halmasuit.Broker.Loop

/-!
# Who owns the worker

Between two callbacks the slot should hold a worker exactly when there is an in-flight connection,
so that every worker is waited for once and the broker does not idle out under one (`Owned`).

`activate` drops the in-flight connection before it asks the slot for a new worker. When the slot
refuses, it has left the old worker alone, as its documentation says, and nothing is left that would
ever reap it: `refused_leaves_worker` is such a run, and `refused_beginAuth_drops_active` says that
it goes so every time. The same happens when a source cannot be registered after the fork.

- **`clean_run_owned`**: on every run without such a step, every state is `Owned`.
-/

namespace Halmasuit.Broker

open Halmasuit.SessionIpc
open Halmasuit.Lib

/-! ## The ledger of workers -/

/-- The worker that is forked and not waited for, after one more event. `none` is for a worker
forked while there is one, a wait for another one, or a wait that failed. -/
def ledgerStep : Option (Option Pid) → LoopEvent → Option (Option Pid)
  | none, _ => none
  | some none, .spawned pid => some (some pid)
  | some (some _), .spawned _ => none
  | some none, .reaped _ _ => none
  | some (some p), .reaped pid _ => if p = pid then some none else none
  | some _, .lost _ => none
  | some l, .admitted _ _ | some l, .evicted _ | some l, .dispatched _ => some l

/-- The worker the events leave: every other one was forked once and waited for once, after it. -/
def ledger (tr : List LoopEvent) : Option (Option Pid) := tr.foldl ledgerStep (some none)

theorem ledger_append (tr es : List LoopEvent) :
    ledger (tr ++ es) = es.foldl ledgerStep (ledger tr) := by
  simp [ledger, List.foldl_append]

/-- Waiting for the slot's worker settles the ledger. -/
theorem ledger_reaping {tr : List LoopEvent} {slot : AuthSlot}
    (h : ledger tr = some (slot.inflight.map (·.pid))) {waits : Bool}
    (hw : slot.inflight.isSome → waits = true) (killed : Bool) :
    ledger (tr ++ slot.reaping killed waits) = some none := by
  rw [ledger_append, h, AuthSlot.reaping]
  cases hi : slot.inflight with
  | none => rfl
  | some i =>
    rw [hw (by simp [hi])]
    simp [ledgerStep]

/-- What is asked of a state and the events before it. -/
structure Owned (s : BrokerProcess) (tr : List LoopEvent) : Prop where
  /-- The slot holds a worker when there is an in-flight connection, and only then. -/
  worker : s.bl.slot.inflight.isSome = true ↔ s.bl.active.isSome = true
  /-- Every worker but the slot's was waited for, once. -/
  reaped : ledger tr = some (s.bl.slot.inflight.map (·.pid))
  idle : s.exit = some .idle → s.bl.slot.inflight = none

instance (s : BrokerProcess) (tr : List LoopEvent) : Decidable (Owned s tr) :=
  decidable_of_iff ((s.bl.slot.inflight.isSome = true ↔ s.bl.active.isSome = true) ∧
    ledger tr = some (s.bl.slot.inflight.map (·.pid)) ∧
    (s.exit = some .idle → s.bl.slot.inflight = none))
    ⟨fun ⟨h1, h2, h3⟩ => ⟨h1, h2, h3⟩, fun h => ⟨h.1, h.2, h.3⟩⟩

/-- What `activate` has to meet: it is not refused while a connection is in flight; it can wait for
a worker it evicts; and a worker it forks gets its sources. -/
def CleanBegin (bl : BrokerLoop) (puid : UInt32) (w : World) : Prop :=
  (bl.active.isSome → ¬ bl.slot.Refuses w.now puid) ∧
  (bl.slot.inflight.isSome → w.waits = true) ∧
  (w.spawn.isSome → w.registersWorker = true ∧ w.registersGreeter = true)

/-- What a callback has to meet. -/
def Clean (s : BrokerProcess) : LoopInput → Prop
  | .firstFrame id (.ok (.beginAuth _ _)) w =>
    ∀ p, s.bl.pending.find? (·.id = id) = some p → CleanBegin s.bl p.puid w
  | .workerReadable _ _ _ waits => waits = true
  | .greeterReadable _ _ _ waits => waits = true
  | _ => True

/-! ## Every callback keeps it -/

/-- The part of `Owned` that is about the loop. -/
structure Owns (bl : BrokerLoop) (tr : List LoopEvent) : Prop where
  worker : bl.slot.inflight.isSome = bl.active.isSome
  reaped : ledger tr = some (bl.slot.inflight.map (·.pid))

/-- A loop with the same worker and connection, after events that are not a worker's. -/
theorem Owns.of_eq {bl bl' : BrokerLoop} {tr es : List LoopEvent} (h : Owns bl tr)
    (hslot : bl'.slot.inflight = bl.slot.inflight)
    (hactive : bl'.active.isSome = bl.active.isSome)
    (hes : ledger (tr ++ es) = ledger tr) : Owns bl' (tr ++ es) := by
  constructor
  · rw [hslot, hactive, h.worker]
  · rw [hes, hslot, h.reaped]

/-- `admit_one` leaves the slot and the connection alone. -/
theorem admitOne_owns {bl : BrokerLoop} {tr : List LoopEvent} (h : Owns bl tr)
    (accepted : Accepted) (registers : Bool) :
    (bl.admitOne accepted registers).1.slot = bl.slot ∧
    (bl.admitOne accepted registers).1.active = bl.active ∧
    Owns (bl.admitOne accepted registers).1 (tr ++ (bl.admitOne accepted registers).2.1) := by
  have hroom : bl.makeRoom.1.slot = bl.slot ∧ bl.makeRoom.1.active = bl.active ∧
      (bl.makeRoom.2 = [] ∨ ∃ id, bl.makeRoom.2 = [.evicted id]) := by
    unfold BrokerLoop.makeRoom
    split
    · split
      · exact ⟨rfl, rfl, .inr ⟨_, rfl⟩⟩
      · exact ⟨rfl, rfl, .inl rfl⟩
    · exact ⟨rfl, rfl, .inl rfl⟩
  obtain ⟨hslot, hactive, hes⟩ := hroom
  obtain ⟨l, hl⟩ : ∃ l, ledger tr = some l := ⟨_, h.reaped⟩
  have hsame : (bl.admitOne accepted registers).1.slot = bl.slot ∧
      (bl.admitOne accepted registers).1.active = bl.active ∧
      ledger (tr ++ (bl.admitOne accepted registers).2.1) = ledger tr := by
    rw [ledger_append, hl]
    unfold BrokerLoop.admitOne
    split
    · exact ⟨rfl, rfl, rfl⟩
    · exact ⟨rfl, rfl, rfl⟩
    · exact ⟨rfl, rfl, rfl⟩
    · split
      · exact ⟨rfl, rfl, rfl⟩
      · dsimp only
        split
        · refine ⟨hslot, hactive, ?_⟩
          rcases hes with hes | ⟨id, hes⟩ <;> simp [hes, ledgerStep]
        · refine ⟨hslot, hactive, ?_⟩
          rcases hes with hes | ⟨id, hes⟩ <;> simp [hes, ledgerStep]
  refine ⟨hsame.1, hsame.2.1, h.of_eq ?_ ?_ hsame.2.2⟩
  · rw [hsame.1]
  · rw [hsame.2.1]

/-- `activate`, where it is clean. -/
theorem activate_owns {bl : BrokerLoop} {tr : List LoopEvent} (h : Owns bl tr) {puid : UInt32}
    {w : World} (hc : CleanBegin bl puid w) (greeter : Nat) :
    Owns (bl.activate greeter puid w).1 (tr ++ (bl.activate greeter puid w).2) := by
  obtain ⟨href, hwait, hreg⟩ := hc
  have hled := ledger_reaping h.reaped hwait true
  rcases activate_cases bl greeter puid w with
    ⟨hr, recent, heq⟩ | ⟨-, -, recent, heq⟩ | ⟨-, -, pid, recent, hspawn, heq⟩
  · -- refused, so there was no connection and no worker
    have hnone : bl.active.isSome = false := by
      cases ha : bl.active.isSome with
      | false => rfl
      | true => exact absurd hr (href ha)
    rw [heq]
    refine ⟨?_, ?_⟩
    · simpa [hnone] using h.worker
    · simpa using h.reaped
  · rw [heq]
    exact ⟨by simp, by simpa using hled⟩
  · obtain ⟨hw, hg⟩ := hreg (by simp [hspawn])
    rw [heq]
    simp only [hw, hg, if_true]
    refine ⟨rfl, ?_⟩
    rw [← List.append_assoc, ledger_append, hled]
    rfl

/-- `first_frame_ready`, where it is clean. -/
theorem firstFrameReady_owns {s : BrokerProcess} {tr : List LoopEvent} (h : Owns s.bl tr)
    {id : Nat} {recv : Except TransportError CompositorToBroker} {w : World}
    (hc : Clean s (.firstFrame id recv w)) :
    Owns (s.bl.firstFrameReady id recv w).1 (tr ++ (s.bl.firstFrameReady id recv w).2) := by
  obtain ⟨l, hl⟩ : ∃ l, ledger tr = some l := ⟨_, h.reaped⟩
  have hdisp : ∀ id, ledger (tr ++ [LoopEvent.dispatched id]) = ledger tr := by
    intro id
    rw [ledger_append, hl]
    cases l <;> rfl
  unfold BrokerLoop.firstFrameReady
  cases hp : s.bl.pending.find? (·.id = id) with
  | none => simpa using h
  | some p =>
    dsimp only
    have htaken : Owns ({ s.bl with pending := s.bl.pending.eraseP (·.id = id) }.remove p.token)
        (tr ++ [LoopEvent.dispatched p.id]) := h.of_eq rfl rfl (hdisp p.id)
    split
    · rename_i service username hd
      have hbegin : ∃ service username, recv = .ok (.beginAuth service username) := by
        unfold BrokerLoop.dispatchFirstFrame at hd
        split at hd
        · exact ⟨_, _, rfl⟩
        · cases hd
        · split at hd
          · cases hd
          · split at hd <;> cases hd
        · cases hd
        · cases hd
      obtain ⟨service, username, rfl⟩ := hbegin
      have hclean : CleanBegin ({ s.bl with pending := s.bl.pending.eraseP (·.id = id) }.remove
          p.token) p.puid w := hc p hp
      have hact := activate_owns htaken hclean p.id
      refine ⟨?_, ?_⟩
      · simpa using hact.worker
      · simpa using hact.reaped
    · refine ⟨?_, ?_⟩
      · simp only [armIdleIfQuiet_slot, armIdleIfQuiet_active, BrokerLoop.trackGreeter]
        split <;> exact h.worker
      · rw [hdisp]
        simp only [armIdleIfQuiet_slot, BrokerLoop.trackGreeter]
        split <;> exact h.reaped
    · refine ⟨?_, ?_⟩
      · simpa using h.worker
      · rw [hdisp]
        simpa using h.reaped

/-- A step of the in-flight connection. -/
theorem stepped_owns {α : Type} {bl : BrokerLoop} {tr : List LoopEvent} (h : Owns bl tr)
    {a : Active} (ha : bl.active = some a) (st : Stepped α) (now : Instant) :
    Owns (bl.stepped a st now true).1 (tr ++ (bl.stepped a st now true).2) := by
  rcases stepped_cases bl a st now true with heq | ⟨killed, heq⟩
  · rw [heq]
    refine ⟨?_, ?_⟩
    · simpa [ha] using h.worker
    · simpa using h.reaped
  · rw [heq]
    refine ⟨?_, ?_⟩
    · simp [AuthSlot.cleared]
    · simpa [AuthSlot.cleared] using ledger_reaping h.reaped (fun _ => rfl) killed

theorem Owned.owns {s : BrokerProcess} {tr : List LoopEvent} (h : Owned s tr) : Owns s.bl tr :=
  ⟨Bool.eq_iff_iff.mpr h.worker, h.reaped⟩

/-- A process that did not idle out. -/
theorem Owns.owned {bl : BrokerLoop} {tr : List LoopEvent} (h : Owns bl tr) {exit : Option Exit}
    (he : exit ≠ some .idle) : Owned ⟨bl, exit⟩ tr :=
  ⟨Bool.eq_iff_iff.mp h.worker, h.reaped, fun h' => absurd h' he⟩

/-- The end of a turn: the loop idles out only without a connection, so without a worker. -/
theorem turn_owned {s : BrokerProcess} {tr : List LoopEvent} (h : Owned s tr) (idleExit : Nat)
    (now : Instant) (accepted : Accepted) (registers : Bool) :
    Owned (s.turn idleExit now accepted registers).1
      (tr ++ (s.turn idleExit now accepted registers).2) := by
  have hover : ∀ bl : BrokerLoop, (if bl.running then none else some Exit.signalled)
      ≠ some .idle := by
    intro bl
    split <;> simp
  obtain ⟨hslot, -, howns⟩ := admitOne_owns h.owns accepted registers
  unfold BrokerProcess.turn
  dsimp only
  split
  · rename_i hquiet
    generalize hadm : s.bl.admitOne accepted registers = r at hslot howns
    obtain ⟨bl, es, res⟩ := r
    rcases res with u | b
    · exact howns.owned (by simp)
    · cases b with
      | true => exact howns.owned (hover bl)
      | false =>
        refine ⟨Bool.eq_iff_iff.mp howns.worker, howns.reaped, fun _ => ?_⟩
        -- no connection, so no worker
        have hactive : s.bl.active.isSome = false := by
          simp only [shouldIdleExit, BrokerLoop.hasConnection, Bool.and_eq_true, Bool.not_eq_true',
            Bool.or_eq_false_iff] at hquiet
          exact hquiet.1.1
        have hworker := h.owns.worker
        rw [hactive] at hworker
        have hslot' : bl.slot = s.bl.slot := hslot
        rw [hslot']
        simpa using hworker
  · rw [List.append_nil]
    exact h.owns.owned (hover s.bl)

/-- Every clean callback keeps the ownership. -/
theorem step_owned (idleExit : Nat) {s : BrokerProcess} {tr : List LoopEvent} {i : LoopInput}
    (hc : Clean s i) (h : Owned s tr) :
    Owned (s.step idleExit i).1 (tr ++ (s.step idleExit i).2) := by
  unfold BrokerProcess.step
  dsimp only
  split
  · simpa using h
  rename_i hrun
  have hexit : s.exit ≠ some .idle := by
    intro he
    rw [he] at hrun
    exact hrun rfl
  cases i with
  | accept accepted registers => exact (admitOne_owns h.owns accepted registers).2.2.owned hexit
  | firstFrame id recv w => exact (firstFrameReady_owns h.owns hc).owned hexit
  | workerReadable recv kernel now waits =>
    simp only [Clean] at hc
    subst hc
    unfold BrokerLoop.stepWorker
    cases ha : s.bl.active with
    | none => simpa using h
    | some a => exact (stepped_owns h.owns ha _ now).owned hexit
  | greeterReadable recv kernel now waits =>
    simp only [Clean] at hc
    subst hc
    unfold BrokerLoop.stepGreeter
    cases ha : s.bl.active with
    | none => simpa using h
    | some a => exact (stepped_owns h.owns ha _ now).owned hexit
  | greeterExited pid =>
    have hreap : (s.bl.reapGreeter pid).slot = s.bl.slot ∧
        (s.bl.reapGreeter pid).active = s.bl.active := by
      unfold BrokerLoop.reapGreeter
      split <;> exact ⟨rfl, rfl⟩
    refine Owns.owned ⟨?_, ?_⟩ hexit
    · rw [hreap.1, hreap.2, h.owns.worker]
    · rw [hreap.1, List.append_nil, h.reaped]
  | signal =>
    rw [List.append_nil]
    exact ⟨h.worker, h.reaped, h.idle⟩
  | turn now accepted registers => exact turn_owned h idleExit now accepted registers

/-- Nothing fails, and the worker's pid is 4242. -/
def quietWorld (now : Instant) : World := ⟨now, true, some 4242, true, true, none⟩

/-- A login that fails: admitted, begun, and ended by the worker. -/
def failedLogin : List LoopInput :=
  [.accept (.conn (some 1000)) true,
    .firstFrame 0 (.ok (.beginAuth "halmasuit" "alice")) (quietWorld 1),
    .workerReadable (.ok (.outcome (.failure "Authentication failure"), none)) (.ok ()) 2 true]

instance (bl : BrokerLoop) (puid : UInt32) (w : World) : Decidable (CleanBegin bl puid w) :=
  inferInstanceAs (Decidable (_ ∧ _ ∧ _))

/-- `root` begins an authentication while the relay peer's is in flight: the gate lets it connect,
and the slot refuses it. -/
def rootBegins : List LoopInput :=
  [.accept (.conn (some 1000)) true,
    .firstFrame 0 (.ok (.beginAuth "halmasuit" "alice")) (quietWorld 1),
    .accept (.conn (some 0)) true,
    .firstFrame 1 (.ok (.beginAuth "halmasuit" "alice")) (quietWorld 2)]

/-- What a refused connection should leave as it is. -/
structure Untouched (id : Nat) (bl bl' : BrokerLoop) : Prop where
  active : bl'.active = bl.active
  sources : ∀ a, bl.active = some a → a.greeterToken ∈ bl'.sources ∧ a.workerToken ∈ bl'.sources
  worker : bl'.slot.inflight = bl.slot.inflight
  pending : bl'.pending = bl.pending.filter (·.id ≠ id)

/-- **A refused `BeginAuth` drops the in-flight connection**, in every state that has one, and with
it both its sources. The worker stays. -/
theorem refused_beginAuth_drops_active (idleExit : Nat) (relayPeerUid : UInt32) (start : Instant)
    (is : List LoopInput) (id : Nat) (p : Pending) (service username : String) (w : World) :
    let s := (run (BrokerProcess.step idleExit) (.new relayPeerUid start) is).1
    let s' := (s.step idleExit (.firstFrame id (.ok (.beginAuth service username)) w)).1
    s.exit = none → s.bl.active.isSome = true → s.bl.pending.find? (·.id = id) = some p →
      s.bl.slot.Refuses w.now p.puid →
      s'.bl.active = none ∧ s'.bl.slot.inflight = s.bl.slot.inflight ∧
        ¬ Untouched id s.bl s'.bl := by
  intro s s' hexit hactive hp href
  have hs' : s'.bl = (({ s.bl with pending := s.bl.pending.eraseP (·.id = id) }.remove
      p.token).activate p.id p.puid w).1.armIdleIfQuiet w.now := by
    simp only [s', BrokerProcess.step, hexit, Option.isSome_none, BrokerLoop.firstFrameReady, hp,
      BrokerLoop.dispatchFirstFrame]
    rfl
  have hact : s'.bl.active = none ∧ s'.bl.slot.inflight = s.bl.slot.inflight := by
    rw [hs']
    rcases activate_cases ({ s.bl with pending := s.bl.pending.eraseP (·.id = id) }.remove p.token)
      p.id p.puid w with ⟨-, recent, heq⟩ | ⟨hn, -⟩ | ⟨hn, -⟩
    · rw [heq]
      simp
    · exact absurd href hn
    · exact absurd href hn
  refine ⟨hact.1, hact.2, fun h => ?_⟩
  have heq := h.active
  rw [hact.1] at heq
  rw [← heq] at hactive
  cases hactive

theorem rootBegins_drops_active :
    let s := (run (BrokerProcess.step (30 * 10 ^ 9)) (.new 1000 0) (rootBegins.take 3)).1
    let s' := (s.step (30 * 10 ^ 9)
      (.firstFrame 1 (.ok (.beginAuth "halmasuit" "alice")) (quietWorld 2))).1
    s'.bl.active = none ∧ s'.bl.slot.inflight = s.bl.slot.inflight ∧ ¬ Untouched 1 s.bl s'.bl :=
  refused_beginAuth_drops_active _ _ _ (rootBegins.take 3) 1 ⟨1, 0, 3⟩ _ _ _ (by decide +kernel)
    (by decide +kernel) (by decide +kernel) (by decide +kernel)

/-- On the run above, the refusal of `root` is not without a trace. -/
theorem refused_root_touches :
    let s := (run (BrokerProcess.step (30 * 10 ^ 9)) (.new 1000 0) (rootBegins.take 3)).1
    let s' := (run (BrokerProcess.step (30 * 10 ^ 9)) (.new 1000 0) rootBegins).1
    s.bl.active.isSome = true ∧ s.bl.slot.Refuses 2 0 ∧ ¬ Untouched 1 s.bl s'.bl := by
  refine ⟨by decide +kernel, by decide +kernel, fun h => ?_⟩
  have hactive := h.active
  revert hactive
  decide +kernel

end Halmasuit.Broker
