import Halmasuit.Broker.Greeter
import Halmasuit.Broker.Refusals

/-!
# The gates

Three places ask for the uid of a peer (`broker.rs`): `admit_one` (955–1035) before a connection
becomes pending, and `serve_root_fd_request` (717–775) and `serve_spawn_greeter_request` (846–895)
before they serve its first frame. The two services give a peer something of root's: a descriptor of
the broker's root directory, or a greeter. The machine is the broker process with its refusal log.

The clock that `record_refusal` reads, and whether `/proc/self/root` opens, are part of the input.

- **`gates_agree`**: on every run, nobody gets past the first gate and is refused at another; a root
  descriptor goes to root or the relay peer only, once for a connection; and the lines about the
  peers that are refused keep to one a minute.
-/

namespace Halmasuit.Broker

open Halmasuit.Lib
open Halmasuit.SessionIpc

/-- What the gates do. -/
inductive GateEvent where
  | loop (e : LoopEvent)
  /-- `RootFd` is sent on the connection, with the descriptor. -/
  | rootFd (id : Nat) (puid : UInt32)
  /-- `record_refusal`, by the listener or by a service. -/
  | refused (service : Bool) (r : Refusal)

/-- The broker process, with the `refusal_log` of its loop. -/
structure Gated where
  process : BrokerProcess
  log : RefusalLog

/-- `record_refusal`, with its event. -/
def RefusalLog.refuse (log : RefusalLog) (service : Bool) (now : Instant)
    (puid relayPeerUid : UInt32) : RefusalLog × List GateEvent :=
  let r := log.recordRefusal now puid relayPeerUid
  (r.1, [.refused service ⟨puid, now, r.2⟩])

/-- The gate of `admit_one`. -/
def RefusalLog.admitGate (log : RefusalLog) (now : Instant) (relayPeerUid : UInt32) :
    Accepted → RefusalLog × List GateEvent
  | .conn (some puid) =>
    if puid ≠ 0 ∧ puid ≠ relayPeerUid then log.refuse false now puid relayPeerUid else (log, [])
  | _ => (log, [])

/-- `serve_root_fd_request`. -/
def RefusalLog.serveRootFdRequest (log : RefusalLog) (now : Instant) (p : Pending)
    (relayPeerUid : UInt32) (opens : Bool) : RefusalLog × List GateEvent :=
  if p.puid ≠ 0 ∧ p.puid ≠ relayPeerUid then log.refuse true now p.puid relayPeerUid
  else (log, if opens then [.rootFd p.id p.puid] else [])

/-- The gate of `serve_spawn_greeter_request`. -/
def RefusalLog.spawnGreeterGate (log : RefusalLog) (now : Instant) (p : Pending)
    (relayPeerUid : UInt32) : RefusalLog × List GateEvent :=
  if p.puid ≠ 0 ∧ p.puid ≠ relayPeerUid then log.refuse true now p.puid relayPeerUid else (log, [])

/-- `dispatch_first_frame`, as far as the gates. -/
def RefusalLog.serve (log : RefusalLog) (now : Instant) (p : Pending) (relayPeerUid : UInt32)
    (opens : Bool) : Except TransportError CompositorToBroker → RefusalLog × List GateEvent
  | .ok .requestRootFd => log.serveRootFdRequest now p relayPeerUid opens
  | .ok .spawnGreeter => log.spawnGreeterGate now p relayPeerUid
  | _ => (log, [])

/-- The gates that a callback comes to. -/
def Gated.gates (idleExit : Nat) (g : Gated) (now : Instant) (opens : Bool) :
    LoopInput → RefusalLog × List GateEvent
  | .accept accepted _ => g.log.admitGate now g.process.bl.slot.relayPeerUid accepted
  | .turn t accepted _ =>
    let elapsed := g.process.bl.idleSince.any fun since => decide (idleExit ≤ t - since)
    if shouldIdleExit g.process.bl.hasConnection elapsed then
      g.log.admitGate now g.process.bl.slot.relayPeerUid accepted
    else (g.log, [])
  | .firstFrame id recv _ =>
    match g.process.bl.pending.find? (·.id = id) with
    | some p => g.log.serve now p g.process.bl.slot.relayPeerUid opens recv
    | none => (g.log, [])
  | _ => (g.log, [])

/-- One callback of a broker that has not ended. -/
def Gated.step (idleExit : Nat) (g : Gated) (i : LoopInput × Instant × Bool) :
    Gated × List GateEvent :=
  if g.process.exit.isSome then (g, [])
  else
    let r := g.process.step idleExit i.1
    let s := g.gates idleExit i.2.1 i.2.2 i.1
    (⟨r.1, s.1⟩, r.2.map .loop ++ s.2)

/-! ## What is right about them -/

/-- The events of the loop. -/
def loops (tr : List GateEvent) : List LoopEvent :=
  tr.filterMap fun
    | .loop e => some e
    | _ => none

/-- The refusals. -/
def refusals (tr : List GateEvent) : List Refusal :=
  tr.filterMap fun
    | .refused _ r => some r
    | _ => none

/-- Root, or the relay peer. -/
def Trusted (relayPeerUid puid : UInt32) : Prop := puid = 0 ∨ puid = relayPeerUid

/-- What is right about an event, after the events before it. -/
def GateOk (relayPeerUid : UInt32) (pre : List GateEvent) : GateEvent → Prop
  | .loop _ => True
  | .rootFd id puid =>
    Trusted relayPeerUid puid ∧ .loop (.admitted id puid) ∈ pre ∧ .loop (.dispatched id) ∈ pre ∧
      ∀ puid', .rootFd id puid' ∉ pre
  | .refused service r =>
    service = false ∧ ¬ Trusted relayPeerUid r.puid ∧ LineOk relayPeerUid (refusals pre) r

theorem not_trusted_iff {relayPeerUid puid : UInt32} :
    (puid ≠ 0 ∧ puid ≠ relayPeerUid) ↔ ¬ Trusted relayPeerUid puid := by
  unfold Trusted
  rw [not_or]

theorem mem_loops {tr : List GateEvent} {e : LoopEvent} : e ∈ loops tr ↔ .loop e ∈ tr := by
  unfold loops
  rw [List.mem_filterMap]
  constructor
  · rintro ⟨g, hg, heq⟩
    cases g with
    | loop e' =>
      obtain rfl := Option.some.inj heq
      exact hg
    | rootFd id puid => cases heq
    | refused service r => cases heq
  · exact fun h => ⟨_, h, rfl⟩

theorem loops_map (es : List LoopEvent) : loops (es.map .loop) = es := by
  unfold loops
  rw [List.filterMap_map]
  exact List.filterMap_some

theorem refusals_map (es : List LoopEvent) : refusals (es.map .loop) = [] := by
  unfold refusals
  rw [List.filterMap_map, List.filterMap_eq_nil_iff]
  exact fun _ _ => rfl

theorem loops_append (tr tr' : List GateEvent) : loops (tr ++ tr') = loops tr ++ loops tr' :=
  List.filterMap_append

theorem refusals_append (tr tr' : List GateEvent) :
    refusals (tr ++ tr') = refusals tr ++ refusals tr' := List.filterMap_append

/-! ## Where a pending connection comes from -/

section
variable {bl : BrokerLoop} {p : Pending}

theorem makeRoom_pending (h : p ∈ bl.makeRoom.1.pending) : p ∈ bl.pending := by
  unfold BrokerLoop.makeRoom at h
  cases hp : bl.pending with
  | nil =>
    rw [hp] at h
    simp only [hp] at h
    exact h
  | cons old rest =>
    rw [hp] at h
    dsimp only at h
    split at h
    · exact List.mem_cons_of_mem _ h
    · rw [hp] at h
      exact h

/-- A connection is pending from its admission on. -/
theorem admitOne_pending (accepted : Accepted) (registers : Bool)
    (h : p ∈ (bl.admitOne accepted registers).1.pending) :
    p ∈ bl.pending ∨ .admitted p.id p.puid ∈ (bl.admitOne accepted registers).2.1 := by
  unfold BrokerLoop.admitOne at h ⊢
  split at h
  · exact .inl h
  · exact .inl h
  · exact .inl h
  · rename_i puid
    dsimp only at h ⊢
    split at h
    · exact .inl h
    · rename_i hgate
      rw [if_neg hgate]
      cases registers with
      | false => exact .inl (makeRoom_pending h)
      | true =>
        rcases List.mem_append.mp h with h | h
        · exact .inl (makeRoom_pending h)
        · obtain rfl := List.mem_singleton.mp h
          exact .inr (List.mem_append_right _ (List.mem_singleton.mpr rfl))

theorem activate_pending (bl : BrokerLoop) (greeter : Nat) (puid : UInt32) (w : World) :
    (bl.activate greeter puid w).1.pending = bl.pending := by
  rcases activate_cases bl greeter puid w with
    ⟨-, recent, heq⟩ | ⟨-, -, recent, heq⟩ | ⟨-, -, pid, recent, -, heq⟩
  · rw [heq]
    exact dropActive_pending bl w.now
  · rw [heq]
    exact dropActive_pending bl w.now
  · rw [heq]
    dsimp only
    split
    · split <;> exact dropActive_pending bl w.now
    · exact dropActive_pending bl w.now

theorem firstFrameReady_pending (id : Nat) (recv : Except TransportError CompositorToBroker)
    (w : World) (h : p ∈ (bl.firstFrameReady id recv w).1.pending) : p ∈ bl.pending := by
  unfold BrokerLoop.firstFrameReady at h
  split at h
  · exact h
  · dsimp only at h
    have hrest : p ∈ bl.pending.eraseP (·.id = id) := by
      split at h
      · rw [armIdleIfQuiet_pending, activate_pending] at h
        exact h
      · rw [armIdleIfQuiet_pending] at h
        unfold BrokerLoop.trackGreeter at h
        split at h <;> exact h
      · rw [armIdleIfQuiet_pending] at h
        exact h
    exact List.mem_of_mem_eraseP hrest

theorem stepped_pending {α : Type} (bl : BrokerLoop) (a : Active) (st : Stepped α) (now : Instant)
    (waits : Bool) : (bl.stepped a st now waits).1.pending = bl.pending := by
  rcases stepped_cases bl a st now waits with heq | ⟨killed, heq⟩
  · rw [heq]
  · rw [heq]
    exact dropActive_pending _ now

theorem step_pending (idleExit : Nat) (s : BrokerProcess) (i : LoopInput)
    (h : p ∈ (s.step idleExit i).1.bl.pending) :
    p ∈ s.bl.pending ∨ .admitted p.id p.puid ∈ (s.step idleExit i).2 := by
  unfold BrokerProcess.step at h ⊢
  dsimp only at h ⊢
  split at h
  · exact .inl h
  rename_i hexit
  rw [if_neg hexit]
  cases i with
  | accept accepted registers => exact admitOne_pending accepted registers h
  | firstFrame id recv w => exact .inl (firstFrameReady_pending id recv w h)
  | workerReadable recv kernel now waits =>
    dsimp only at h
    unfold BrokerLoop.stepWorker at h
    split at h
    · exact .inl h
    · rw [stepped_pending] at h
      exact .inl h
  | greeterReadable recv kernel now waits =>
    dsimp only at h
    unfold BrokerLoop.stepGreeter at h
    split at h
    · exact .inl h
    · rw [stepped_pending] at h
      exact .inl h
  | greeterExited pid =>
    dsimp only at h
    unfold BrokerLoop.reapGreeter at h
    split at h <;> exact .inl h
  | signal => exact .inl h
  | turn now accepted registers =>
    dsimp only at h ⊢
    have hadm : p ∈ (s.bl.admitOne accepted registers).1.pending →
        p ∈ s.bl.pending ∨ .admitted p.id p.puid ∈ (s.bl.admitOne accepted registers).2.1 :=
      admitOne_pending accepted registers
    unfold BrokerProcess.turn at h ⊢
    dsimp only at h ⊢
    split at h
    · rename_i hidle
      rw [if_pos hidle]
      generalize s.bl.admitOne accepted registers = r at h hadm ⊢
      obtain ⟨bl, es, res⟩ := r
      rcases res with u | b
      · exact hadm h
      · cases b <;> exact hadm h
    · exact .inl h

end

/-- The first frame of a pending connection is dispatched. -/
theorem firstFrameReady_dispatched {bl : BrokerLoop} {id : Nat} {p : Pending}
    (hp : bl.pending.find? (·.id = id) = some p) (recv : Except TransportError CompositorToBroker)
    (w : World) : .dispatched p.id ∈ (bl.firstFrameReady id recv w).2 := by
  unfold BrokerLoop.firstFrameReady
  rw [hp]
  dsimp only
  split <;> exact List.mem_cons_self

/-! ## Every run -/

/-- The broker after the events before. -/
structure GatesOk (relayPeerUid : UInt32) (g : Gated) (tr : List GateEvent) : Prop where
  tabled : Tabled relayPeerUid g.process.bl (loops tr)
  admitted : ∀ p ∈ g.process.bl.pending, .admitted p.id p.puid ∈ loops tr
  rooted : ∀ id puid, .rootFd id puid ∈ tr → .dispatched id ∈ loops tr
  entries : ∀ puid, EntryOk (refusals tr) puid (g.log puid)
  trace : Always (GateOk relayPeerUid) tr

section
variable {relayPeerUid : UInt32} {g : Gated} {tr : List GateEvent}

/-- A peer that waits is trusted. -/
theorem GatesOk.trusted (h : GatesOk relayPeerUid g tr) {p : Pending}
    (hp : p ∈ g.process.bl.pending) : Trusted relayPeerUid p.puid := by
  obtain ⟨pre, post, heq⟩ := List.append_of_mem (h.admitted p hp)
  exact (h.tabled.table.trace _ _ _ heq).1

/-- What the gates of a callback can do: nothing, refuse a peer at the listener, or send a root
descriptor to a connection that waited. -/
theorem gates_cases (h : GatesOk relayPeerUid g tr) (idleExit : Nat) (now : Instant) (opens : Bool)
    (i : LoopInput) (hexit : g.process.exit.isSome = false) :
    g.gates idleExit now opens i = (g.log, []) ∨
    (∃ puid, ¬ Trusted relayPeerUid puid ∧
      g.gates idleExit now opens i = g.log.refuse false now puid relayPeerUid) ∨
    ∃ p ∈ g.process.bl.pending, g.gates idleExit now opens i = (g.log, [.rootFd p.id p.puid]) ∧
      .dispatched p.id ∈ (g.process.step idleExit i).2 := by
  have hgates : ∀ accepted, g.log.admitGate now g.process.bl.slot.relayPeerUid accepted =
      (g.log, []) ∨ ∃ puid, ¬ Trusted relayPeerUid puid ∧
        g.log.admitGate now g.process.bl.slot.relayPeerUid accepted =
          g.log.refuse false now puid relayPeerUid := by
    intro accepted
    rw [h.tabled.uid]
    unfold RefusalLog.admitGate
    split
    · rename_i puid
      by_cases hgate : puid ≠ 0 ∧ puid ≠ relayPeerUid
      · exact .inr ⟨puid, not_trusted_iff.mp hgate, if_pos hgate⟩
      · exact .inl (if_neg hgate)
    · exact .inl rfl
  unfold Gated.gates
  cases i with
  | accept accepted registers => exact (hgates accepted).imp_right .inl
  | turn t accepted registers =>
    dsimp only
    split
    · exact (hgates accepted).imp_right .inl
    · exact .inl rfl
  | firstFrame id recv w =>
    dsimp only
    cases hp : g.process.bl.pending.find? (·.id = id) with
    | none => exact .inl rfl
    | some p =>
      have hmem := List.mem_of_find?_eq_some hp
      have hgate : ¬ (p.puid ≠ 0 ∧ p.puid ≠ relayPeerUid) := by
        rw [not_trusted_iff, not_not]
        exact h.trusted hmem
      dsimp only
      rw [h.tabled.uid]
      unfold RefusalLog.serve RefusalLog.serveRootFdRequest RefusalLog.spawnGreeterGate
      rw [if_neg hgate, if_neg hgate]
      split
      · cases opens with
        | false => exact .inl rfl
        | true =>
          refine .inr (.inr ⟨p, hmem, rfl, ?_⟩)
          have hdisp := firstFrameReady_dispatched hp (.ok .requestRootFd) w
          simpa [BrokerProcess.step, hexit] using hdisp
      · exact .inl rfl
      · exact .inl rfl
  | workerReadable recv kernel t waits => exact .inl rfl
  | greeterReadable recv kernel t waits => exact .inl rfl
  | greeterExited pid => exact .inl rfl
  | signal => exact .inl rfl

theorem gatedStep_ok (h : GatesOk relayPeerUid g tr) (idleExit : Nat)
    (i : LoopInput × Instant × Bool) :
    GatesOk relayPeerUid (g.step idleExit i).1 (tr ++ (g.step idleExit i).2) := by
  obtain ⟨i, now, opens⟩ := i
  unfold Gated.step
  cases hexit : g.process.exit.isSome with
  | true => simpa using h
  | false =>
    rw [if_neg (by decide)]
    dsimp only
    have hstep := step_tabled idleExit h.tabled i
    -- the events of the loop, which no gate has seen
    have hloops : loops (tr ++ ((g.process.step idleExit i).2.map .loop)) =
        loops tr ++ (g.process.step idleExit i).2 := by
      rw [loops_append, loops_map]
    have hrefusals : refusals (tr ++ ((g.process.step idleExit i).2.map .loop)) = refusals tr := by
      rw [refusals_append, refusals_map, List.append_nil]
    have hadmitted : ∀ p ∈ (g.process.step idleExit i).1.bl.pending,
        .admitted p.id p.puid ∈ loops tr ++ (g.process.step idleExit i).2 := by
      intro p hp
      rcases step_pending idleExit g.process i hp with hp | hp
      · exact List.mem_append_left _ (h.admitted p hp)
      · exact List.mem_append_right _ hp
    have hrooted : ∀ id puid, .rootFd id puid ∈ tr ++ ((g.process.step idleExit i).2.map .loop) →
        .rootFd id puid ∈ tr := by
      intro id puid hmem
      rcases List.mem_append.mp hmem with hmem | hmem
      · exact hmem
      · obtain ⟨e, -, heq⟩ := List.mem_map.mp hmem
        cases heq
    have htrace : Always (GateOk relayPeerUid)
        (tr ++ ((g.process.step idleExit i).2.map .loop)) := by
      refine h.trace.append_of_forall fun e he pre => ?_
      obtain ⟨e, -, rfl⟩ := List.mem_map.mp he
      trivial
    rw [← List.append_assoc]
    rcases gates_cases h idleExit now opens i hexit with
      heq | ⟨puid, hpuid, heq⟩ | ⟨p, hp, heq, hdisp⟩
    · rw [heq, List.append_nil]
      refine ⟨by rwa [hloops], by rwa [hloops], fun id puid hmem => ?_, ?_, htrace⟩
      · rw [hloops]
        exact List.mem_append_left _ (h.rooted id puid (hrooted id puid hmem))
      · rw [hrefusals]
        exact h.entries
    · rw [heq]
      obtain ⟨hline, hentries⟩ := recordRefusal_entries h.entries now puid relayPeerUid
      unfold RefusalLog.refuse
      dsimp only
      refine ⟨?_, ?_, fun id puid' hmem => ?_, ?_, htrace.snoc ⟨rfl, hpuid, ?_⟩⟩
      · rw [loops_append, hloops]
        simpa [loops] using hstep
      · rw [loops_append, hloops]
        simpa [loops] using hadmitted
      · rw [loops_append, hloops]
        have hmem' := hrooted id puid' (by simpa using hmem)
        exact List.mem_append_left _ (List.mem_append_left _ (h.rooted id puid' hmem'))
      · rw [refusals_append, hrefusals]
        exact hentries
      · rw [hrefusals]
        exact hline
    · rw [heq]
      dsimp only
      have hwaiting := h.tabled.table.waiting p hp
      refine ⟨?_, ?_, fun id puid' hmem => ?_, ?_, htrace.snoc ⟨h.trusted hp, ?_, ?_, ?_⟩⟩
      · rw [loops_append, hloops]
        simpa [loops] using hstep
      · rw [loops_append, hloops]
        simpa [loops] using hadmitted
      · rw [loops_append, hloops]
        refine List.mem_append_left _ ?_
        rcases List.mem_append.mp hmem with hmem | hmem
        · exact List.mem_append_left _ (h.rooted id puid' (hrooted id puid' hmem))
        · obtain ⟨rfl, -⟩ := GateEvent.rootFd.inj (List.mem_singleton.mp hmem)
          exact List.mem_append_right _ hdisp
      · rw [refusals_append, hrefusals]
        simpa [refusals] using h.entries
      · exact List.mem_append_left _ (mem_loops.mp (h.admitted p hp))
      · exact mem_loops.mp (by rw [hloops]; exact List.mem_append_right _ hdisp)
      · intro puid' hmem
        exact hwaiting.2.2 (h.rooted p.id puid' (hrooted p.id puid' hmem))

end

/-- **The gates agree.** On every run of the broker, a service refuses nobody, as whoever it would
refuse has been turned away by the listener; a root descriptor is sent to root or the relay peer, on
a connection that was let in and dispatched under that uid, and once; and of the peers that are
turned away there is a line at most once a minute for each. -/
theorem gates_agree (idleExit : Nat) (relayPeerUid : UInt32) (start : Instant)
    (is : List (LoopInput × Instant × Bool)) :
    Always (GateOk relayPeerUid)
      (run (Gated.step idleExit) ⟨.new relayPeerUid start, fun _ => none⟩ is).2 := by
  have h0 : GatesOk relayPeerUid ⟨.new relayPeerUid start, fun _ => none⟩ [] := by
    refine ⟨new_tabled relayPeerUid start, fun p hp => ?_, by simp, fun puid => List.filter_nil,
      always_nil _⟩
    cases hp
  exact (run_invariant_init (GatesOk relayPeerUid) h0
    (fun g tr i h => gatedStep_ok h idleExit i) is).trace

end Halmasuit.Broker
