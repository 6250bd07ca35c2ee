import Halmasuit.Broker.Relay

/-!
# The broker's loop

`halmasuit-session/src/slot.rs` 36–228 and `broker.rs` 360–1182: the single auth slot, the table of
pending connections, the in-flight connection, and the callbacks of the calloop loop that change
them. One step of `BrokerProcess` is one callback, or one call of `admit_one` where a callback makes
several.

What a callback reads of the world is part of its input: the clock (read once a callback), what
`accept` gives, the frame received, and whether `fork`, `waitpid` and the registration of a source
succeed. `sources` holds the tokens registered with calloop. The readability callback of a pending
connection only removes its own source and schedules `first_frame_ready`; here that call may come
for any id at any time. Logging is left out.

- `createAt_cases`, `admitOne_cases`, `activate_cases`: every way the three can go.
-/

namespace Halmasuit.Broker

open Halmasuit.SessionIpc

/-- `Instant`, as nanoseconds from some origin. -/
abbrev Instant : Type := Nat

abbrev Pid : Type := UInt32

/-- `RegistrationToken`. -/
abbrev Token : Type := Nat

/-- What an observer of the broker sees. -/
inductive LoopEvent where
  /-- A connection became pending under an id. -/
  | admitted (id : Nat) (puid : UInt32)
  /-- The oldest pending connection was dropped for a new one. -/
  | evicted (id : Nat)
  /-- The first frame of a pending connection was read. -/
  | dispatched (id : Nat)
  /-- A session worker was forked. -/
  | spawned (pid : Pid)
  /-- `waitpid` returned for the worker, after a SIGKILL or not. -/
  | reaped (pid : Pid) (killed : Bool)
  /-- `waitpid` failed for the worker, whose handle is gone. -/
  | lost (pid : Pid)
  deriving DecidableEq, Repr

/-! ## The auth slot -/

/-- `SlotError`. -/
inductive SlotError where
  | unauthorized
  | throttled
  | worker
  deriving DecidableEq, Repr

/-- `InFlight`: the worker, with its channel. -/
structure InFlight where
  pid : Pid
  deriving DecidableEq, Repr

/-- `AuthSlot`. -/
structure AuthSlot where
  relayPeerUid : UInt32
  maxPerWindow : Nat
  window : Nat
  inflight : Option InFlight
  /-- The instants of the recent forks, oldest first. -/
  recent : List Instant
  deriving DecidableEq, Repr

/-- `AuthSlot::new`. -/
def AuthSlot.new (relayPeerUid : UInt32) (maxPerWindow window : Nat) : AuthSlot :=
  ⟨relayPeerUid, maxPerWindow, window, none, []⟩

/-- `DEFAULT_MAX_PER_WINDOW`. -/
def defaultMaxPerWindow : Nat := 5

/-- `DEFAULT_WINDOW`. -/
def defaultWindow : Nat := 10 * 10 ^ 9

/-- `AuthSlot::with_defaults`. -/
def AuthSlot.withDefaults (relayPeerUid : UInt32) : AuthSlot :=
  .new relayPeerUid defaultMaxPerWindow defaultWindow

/-- The entries the throttle still counts: the ones older than the window go. -/
def AuthSlot.pruned (slot : AuthSlot) (now : Instant) : List Instant :=
  slot.recent.dropWhile fun front => decide (slot.window ≤ now - front)

/-- The slot without its worker. -/
def AuthSlot.cleared (slot : AuthSlot) : AuthSlot := { slot with inflight := none }

/-- Waiting for the slot's worker, when there is one. -/
def AuthSlot.reaping (slot : AuthSlot) (killed waits : Bool) : List LoopEvent :=
  match slot.inflight with
  | some i => [if waits then .reaped i.pid killed else .lost i.pid]
  | none => []

theorem mem_reaping {slot : AuthSlot} {killed waits : Bool} {e : LoopEvent}
    (he : e ∈ slot.reaping killed waits) :
    ∃ pid, e = if waits then .reaped pid killed else .lost pid := by
  unfold AuthSlot.reaping at he
  split at he
  · exact ⟨_, List.mem_singleton.mp he⟩
  · cases he

/-- `AuthSlot::create_at`. `waits` is whether `waitpid` succeeds on an evicted worker, `spawn` what
the fork gives. -/
def AuthSlot.createAt (slot : AuthSlot) (now : Instant) (peerUid : UInt32) (waits : Bool)
    (spawn : Option Pid) : AuthSlot × List LoopEvent × Except SlotError Unit :=
  if peerUid ≠ slot.relayPeerUid then (slot, [], .error .unauthorized)
  else if slot.maxPerWindow ≤ (slot.pruned now).length then
    ({ slot with recent := slot.pruned now }, [], .error .throttled)
  else
    let free := { slot with recent := slot.pruned now, inflight := none }
    let evicted := slot.reaping true waits
    if slot.inflight.isSome ∧ waits = false then (free, evicted, .error .worker)
    else
      match spawn with
      | none => (free, evicted, .error .worker)
      | some pid =>
        ({ free with recent := slot.pruned now ++ [now], inflight := some ⟨pid⟩ },
          evicted ++ [.spawned pid], .ok ())

/-- `AuthSlot::reap_current`. -/
def AuthSlot.reapCurrent (slot : AuthSlot) (waits : Bool) : AuthSlot × List LoopEvent :=
  (slot.cleared, slot.reaping false waits)

/-- `AuthSlot::cancel_current`. -/
def AuthSlot.cancelCurrent (slot : AuthSlot) (waits : Bool) : AuthSlot × List LoopEvent :=
  (slot.cleared, slot.reaping true waits)

/-- `create` refuses the peer, or refuses to fork so soon. -/
def AuthSlot.Refuses (slot : AuthSlot) (now : Instant) (peerUid : UInt32) : Prop :=
  peerUid ≠ slot.relayPeerUid ∨ slot.maxPerWindow ≤ (slot.pruned now).length

instance (slot : AuthSlot) (now : Instant) (peerUid : UInt32) :
    Decidable (slot.Refuses now peerUid) :=
  inferInstanceAs (Decidable (_ ∨ _))

/-! ## The loop's state -/

/-- `Active`: the in-flight connection. Its greeter channel is named by the id it was admitted
under. -/
structure Active where
  greeter : Nat
  relay : Relay
  greeterToken : Token
  workerToken : Token
  deriving DecidableEq, Repr

/-- `Pending`, with its channel. The id is a `u64` that no run exhausts. -/
structure Pending where
  id : Nat
  puid : UInt32
  token : Token
  deriving DecidableEq, Repr

/-- `SpawnedGreeter`. -/
structure SpawnedGreeter where
  pid : Pid
  token : Token
  deriving DecidableEq, Repr

/-- `MAX_PENDING`. -/
def maxPending : Nat := 8

/-- `BrokerLoop`. `sources` and `nextToken` are the state of its `LoopHandle`. -/
structure BrokerLoop where
  slot : AuthSlot
  active : Option Active
  /-- Oldest first. -/
  pending : List Pending
  nextPendingId : Nat
  greeters : List SpawnedGreeter
  idleSince : Option Instant
  running : Bool
  sources : List Token
  nextToken : Token
  deriving DecidableEq, Repr

/-- `BrokerLoop::new`. -/
def BrokerLoop.new (relayPeerUid : UInt32) (now : Instant) : BrokerLoop :=
  ⟨.withDefaults relayPeerUid, none, [], 0, [], some now, true, [], 0⟩

/-- `insert_source`, where the registration succeeds. -/
def BrokerLoop.registered (bl : BrokerLoop) : BrokerLoop :=
  { bl with sources := bl.nextToken :: bl.sources, nextToken := bl.nextToken + 1 }

/-- `loop_handle.remove`. -/
def BrokerLoop.remove (bl : BrokerLoop) (token : Token) : BrokerLoop :=
  { bl with sources := bl.sources.filter (· ≠ token) }

/-- `BrokerLoop::has_connection`. -/
def BrokerLoop.hasConnection (bl : BrokerLoop) : Bool := bl.active.isSome || !bl.pending.isEmpty

/-- `BrokerLoop::arm_idle_if_quiet`. -/
def BrokerLoop.armIdleIfQuiet (bl : BrokerLoop) (now : Instant) : BrokerLoop :=
  if bl.hasConnection then bl else { bl with idleSince := some now }

/-- `BrokerLoop::drop_active`. -/
def BrokerLoop.dropActive (bl : BrokerLoop) (now : Instant) : BrokerLoop :=
  match bl.active with
  | some a =>
    (({ bl with active := none }.remove a.greeterToken).remove a.workerToken).armIdleIfQuiet now
  | none => bl.armIdleIfQuiet now

/-! ## Admission -/

/-- What `accept_seqpacket` gives: nothing to accept, an errno, or a connection with the uid
`peer_uid` finds on it. -/
inductive Accepted where
  | wouldBlock
  | failed
  | conn (puid : Option UInt32)
  deriving DecidableEq, Repr

/-- The eviction in `admit_one`. -/
def BrokerLoop.makeRoom (bl : BrokerLoop) : BrokerLoop × List LoopEvent :=
  match bl.pending with
  | old :: rest =>
    if maxPending ≤ bl.pending.length then
      ({ bl with pending := rest }.remove old.token, [.evicted old.id])
    else (bl, [])
  | [] => (bl, [])

/-- `admit_one`: the loop, its events, and whether there was something to accept. -/
def BrokerLoop.admitOne (bl : BrokerLoop) (accepted : Accepted) (registers : Bool) :
    BrokerLoop × List LoopEvent × Except Unit Bool :=
  match accepted with
  | .wouldBlock => (bl, [], .ok false)
  | .failed => (bl, [], .error ())
  | .conn none => (bl, [], .ok true)
  | .conn (some puid) =>
    if puid ≠ 0 ∧ puid ≠ bl.slot.relayPeerUid then (bl, [], .ok true)
    else
      let room := bl.makeRoom.1
      let id := room.nextPendingId
      let numbered := { room with nextPendingId := id + 1 }
      if registers then
        ({ numbered.registered with
            pending := room.pending ++ [⟨id, puid, numbered.nextToken⟩], idleSince := none },
          bl.makeRoom.2 ++ [.admitted id puid], .ok true)
      else (numbered, bl.makeRoom.2, .error ())

/-! ## The first frame -/

/-- What handling a first frame reads of the world. -/
structure World where
  now : Instant
  /-- `waitpid` succeeds on the worker `create` evicts. -/
  waits : Bool
  /-- What forking the session worker gives. -/
  spawn : Option Pid
  /-- Registering the worker's source succeeds, and the greeter's. -/
  registersWorker : Bool
  registersGreeter : Bool
  /-- What forking a greeter gives, its spec included. -/
  spawnGreeter : Option Pid
  deriving DecidableEq, Repr

/-- `FirstFrame`. -/
inductive FirstFrame where
  | beginAuth (service username : String)
  | greeterSpawned (pid : Pid)
  | handled
  deriving DecidableEq, Repr

/-- `dispatch_first_frame`, with what `serve_spawn_greeter_request` gives. The replies to
`RequestRootFd` and `SpawnGreeter` go out on a connection that is dropped next, and are left out. -/
def BrokerLoop.dispatchFirstFrame (bl : BrokerLoop) (puid : UInt32) (w : World) :
    Except TransportError CompositorToBroker → FirstFrame
  | .ok (.beginAuth service username) => .beginAuth service username
  | .ok .requestRootFd => .handled
  | .ok .spawnGreeter =>
    if puid ≠ 0 ∧ puid ≠ bl.slot.relayPeerUid then .handled
    else
      match w.spawnGreeter with
      | some pid => .greeterSpawned pid
      | none => .handled
  | .ok _ => .handled
  | .error _ => .handled

/-- `activate`. -/
def BrokerLoop.activate (bl : BrokerLoop) (greeter : Nat) (puid : UInt32) (w : World) :
    BrokerLoop × List LoopEvent :=
  let dropped := bl.dropActive w.now
  match dropped.slot.createAt w.now puid w.waits w.spawn with
  | (slot, es, .error _) => ({ dropped with slot := slot }, es)
  | (slot, es, .ok ()) =>
    let created := { dropped with slot := slot }
    match slot.inflight with
    | none =>
      ({ created with slot := (slot.cancelCurrent w.waits).1 },
        es ++ (slot.cancelCurrent w.waits).2)
    | some _ =>
      if w.registersWorker then
        if w.registersGreeter then
          ({ created.registered.registered with
              idleSince := none,
              active := some ⟨greeter, Relay.new, created.nextToken + 1, created.nextToken⟩ }, es)
        else (created.registered.remove created.nextToken, es)
      else (created, es)

/-- `BrokerLoop::track_greeter`. -/
def BrokerLoop.trackGreeter (bl : BrokerLoop) (pid : Pid) (registers : Bool) : BrokerLoop :=
  if registers then { bl.registered with greeters := bl.greeters ++ [⟨pid, bl.nextToken⟩] } else bl

/-- `BrokerLoop::first_frame_ready`. -/
def BrokerLoop.firstFrameReady (bl : BrokerLoop) (id : Nat)
    (recv : Except TransportError CompositorToBroker) (w : World) :
    BrokerLoop × List LoopEvent :=
  match bl.pending.find? (·.id = id) with
  | none => (bl, [])
  | some p =>
    let taken := { bl with pending := bl.pending.eraseP (·.id = id) }.remove p.token
    match taken.dispatchFirstFrame p.puid w recv with
    | .beginAuth _ _ =>
      ((taken.activate p.id p.puid w).1.armIdleIfQuiet w.now,
        .dispatched p.id :: (taken.activate p.id p.puid w).2)
    | .greeterSpawned pid =>
      ((taken.trackGreeter pid w.registersGreeter).armIdleIfQuiet w.now, [.dispatched p.id])
    | .handled => (taken.armIdleIfQuiet w.now, [.dispatched p.id])

/-! ## The in-flight connection -/

/-- `reap_for_disposition`. -/
def reapForDisposition (slot : AuthSlot) (waits : Bool) : Disposition → AuthSlot × List LoopEvent
  | .completed _ | .authFailed _ => slot.reapCurrent waits
  | .cancelled => slot.cancelCurrent waits

/-- `BrokerLoop::step` after the relay's own step. -/
def BrokerLoop.stepped {α : Type} (bl : BrokerLoop) (a : Active) (st : Stepped α) (now : Instant)
    (waits : Bool) : BrokerLoop × List LoopEvent :=
  let moved := { bl with active := some { a with relay := st.relay } }
  match st.res with
  | .ok .continue => (moved, [])
  | .ok (.finished disp) =>
    ({ moved.dropActive now with
        slot := (reapForDisposition (moved.dropActive now).slot waits disp).1 },
      (reapForDisposition (moved.dropActive now).slot waits disp).2)
  | .error _ =>
    ({ moved.dropActive now with slot := ((moved.dropActive now).slot.cancelCurrent waits).1 },
      ((moved.dropActive now).slot.cancelCurrent waits).2)

/-- `BrokerLoop::step` on the worker's side. -/
def BrokerLoop.stepWorker (bl : BrokerLoop)
    (recv : Except TransportError (ParentMessage × Option Fd))
    (kernel : Except TransportError Unit) (now : Instant) (waits : Bool) :
    BrokerLoop × List LoopEvent :=
  match bl.active with
  | none => (bl, [])
  | some a =>
    bl.stepped a (a.relay.onWorkerReadable (bl.slot.inflight.map fun _ => recv) kernel) now waits

/-- `BrokerLoop::step` on the greeter's side. -/
def BrokerLoop.stepGreeter (bl : BrokerLoop) (recv : Except TransportError CompositorToBroker)
    (kernel : Except TransportError Unit) (now : Instant) (waits : Bool) :
    BrokerLoop × List LoopEvent :=
  match bl.active with
  | none => (bl, [])
  | some a =>
    bl.stepped a (a.relay.onGreeterReadable recv bl.slot.inflight.isSome kernel) now waits

/-- `BrokerLoop::reap_greeter`. The order of the greeters is not kept in the source. -/
def BrokerLoop.reapGreeter (bl : BrokerLoop) (pid : Pid) : BrokerLoop :=
  match bl.greeters.find? (·.pid = pid) with
  | some g => { bl with greeters := bl.greeters.eraseP (·.pid = pid) }.remove g.token
  | none => bl

/-! ## Runs -/

/-- `should_idle_exit`. -/
def shouldIdleExit (hasActiveConn idleWindowElapsed : Bool) : Bool :=
  !hasActiveConn && idleWindowElapsed

/-- Why `run_broker_loop` returned. -/
inductive Exit where
  | idle
  | signalled
  | acceptFailed
  deriving DecidableEq, Repr

/-- The broker process: its loop, and how it ended. -/
structure BrokerProcess where
  bl : BrokerLoop
  exit : Option Exit
  deriving DecidableEq, Repr

def BrokerProcess.new (relayPeerUid : UInt32) (now : Instant) : BrokerProcess :=
  ⟨.new relayPeerUid now, none⟩

/-- The callbacks. -/
inductive LoopInput where
  /-- One `admit_one` of the listener's callback. -/
  | accept (accepted : Accepted) (registers : Bool)
  | firstFrame (id : Nat) (recv : Except TransportError CompositorToBroker) (w : World)
  | workerReadable (recv : Except TransportError (ParentMessage × Option Fd))
      (kernel : Except TransportError Unit) (now : Instant) (waits : Bool)
  | greeterReadable (recv : Except TransportError CompositorToBroker)
      (kernel : Except TransportError Unit) (now : Instant) (waits : Bool)
  | greeterExited (pid : Pid)
  /-- SIGTERM or SIGINT. -/
  | signal
  /-- The end of a turn of the loop, with what its last `accept` gives. -/
  | turn (now : Instant) (accepted : Accepted) (registers : Bool)
  deriving DecidableEq, Repr

/-- The end of a turn: the idle check, then the loop's condition. -/
def BrokerProcess.turn (idleExit : Nat) (s : BrokerProcess) (now : Instant) (accepted : Accepted)
    (registers : Bool) : BrokerProcess × List LoopEvent :=
  let exited (bl : BrokerLoop) : Option Exit := if bl.running then none else some .signalled
  let elapsed := s.bl.idleSince.any fun t => decide (idleExit ≤ now - t)
  if shouldIdleExit s.bl.hasConnection elapsed then
    match s.bl.admitOne accepted registers with
    | (bl, es, .ok true) => (⟨bl, exited bl⟩, es)
    | (bl, es, .ok false) => (⟨bl, some .idle⟩, es)
    | (bl, es, .error ()) => (⟨bl, some .acceptFailed⟩, es)
  else (⟨s.bl, exited s.bl⟩, [])

/-- One callback of a broker that has not ended. -/
def BrokerProcess.step (idleExit : Nat) (s : BrokerProcess) (i : LoopInput) :
    BrokerProcess × List LoopEvent :=
  let same (r : BrokerLoop × List LoopEvent) : BrokerProcess × List LoopEvent :=
    (⟨r.1, s.exit⟩, r.2)
  if s.exit.isSome then (s, [])
  else
    match i with
    | .accept accepted registers =>
      same ((s.bl.admitOne accepted registers).1, (s.bl.admitOne accepted registers).2.1)
    | .firstFrame id recv w => same (s.bl.firstFrameReady id recv w)
    | .workerReadable recv kernel now waits => same (s.bl.stepWorker recv kernel now waits)
    | .greeterReadable recv kernel now waits => same (s.bl.stepGreeter recv kernel now waits)
    | .greeterExited pid => same (s.bl.reapGreeter pid, [])
    | .signal => same ({ s.bl with running := false }, [])
    | .turn now accepted registers => s.turn idleExit now accepted registers

/-! ## What the pieces do -/

/-- Every way `create` can go. -/
theorem createAt_cases (slot : AuthSlot) (now : Instant) (peerUid : UInt32) (waits : Bool)
    (spawn : Option Pid) :
    (slot.Refuses now peerUid ∧ ∃ recent e,
      slot.createAt now peerUid waits spawn
        = ({ slot with recent := recent }, [], .error e)) ∨
    (¬ slot.Refuses now peerUid ∧ (slot.inflight.isSome ∧ waits = false ∨ spawn = none) ∧
      ∃ recent, slot.createAt now peerUid waits spawn
        = ({ slot with recent := recent, inflight := none }, slot.reaping true waits,
            .error .worker)) ∨
    (¬ slot.Refuses now peerUid ∧ (slot.inflight.isSome → waits = true) ∧
      ∃ pid recent, spawn = some pid ∧ slot.createAt now peerUid waits spawn
        = ({ slot with recent := recent, inflight := some ⟨pid⟩ },
            slot.reaping true waits ++ [.spawned pid], .ok ())) := by
  unfold AuthSlot.createAt AuthSlot.Refuses
  by_cases hpeer : peerUid ≠ slot.relayPeerUid
  · refine .inl ⟨.inl hpeer, slot.recent, .unauthorized, ?_⟩
    rw [if_pos hpeer]
  by_cases hfull : slot.maxPerWindow ≤ (slot.pruned now).length
  · refine .inl ⟨.inr hfull, slot.pruned now, .throttled, ?_⟩
    rw [if_neg hpeer, if_pos hfull]
  have hnot : ¬ (peerUid ≠ slot.relayPeerUid ∨ slot.maxPerWindow ≤ (slot.pruned now).length) := by
    rintro (h | h)
    · exact hpeer h
    · exact hfull h
  rw [if_neg hpeer, if_neg hfull]
  by_cases hwait : slot.inflight.isSome ∧ waits = false
  · refine .inr (.inl ⟨hnot, .inl hwait, slot.pruned now, ?_⟩)
    simp only [if_pos hwait]
  have hwaits : slot.inflight.isSome → waits = true := by
    intro h
    cases waits with
    | true => rfl
    | false => exact absurd ⟨h, rfl⟩ hwait
  simp only [if_neg hwait]
  cases spawn with
  | none => exact .inr (.inl ⟨hnot, .inr rfl, slot.pruned now, rfl⟩)
  | some pid => exact .inr (.inr ⟨hnot, hwaits, pid, _, rfl, rfl⟩)

section
variable (bl : BrokerLoop) (now : Instant) (token : Token)

@[simp] theorem remove_slot : (bl.remove token).slot = bl.slot := rfl
@[simp] theorem remove_active : (bl.remove token).active = bl.active := rfl
@[simp] theorem remove_pending : (bl.remove token).pending = bl.pending := rfl
@[simp] theorem remove_nextPendingId : (bl.remove token).nextPendingId = bl.nextPendingId := rfl
@[simp] theorem remove_idleSince : (bl.remove token).idleSince = bl.idleSince := rfl

@[simp] theorem registered_slot : bl.registered.slot = bl.slot := rfl
@[simp] theorem registered_active : bl.registered.active = bl.active := rfl
@[simp] theorem registered_pending : bl.registered.pending = bl.pending := rfl
@[simp] theorem registered_nextPendingId : bl.registered.nextPendingId = bl.nextPendingId := rfl
@[simp] theorem registered_idleSince : bl.registered.idleSince = bl.idleSince := rfl

@[simp] theorem armIdleIfQuiet_slot : (bl.armIdleIfQuiet now).slot = bl.slot := by
  unfold BrokerLoop.armIdleIfQuiet
  split <;> rfl

@[simp] theorem armIdleIfQuiet_active : (bl.armIdleIfQuiet now).active = bl.active := by
  unfold BrokerLoop.armIdleIfQuiet
  split <;> rfl

@[simp] theorem armIdleIfQuiet_pending : (bl.armIdleIfQuiet now).pending = bl.pending := by
  unfold BrokerLoop.armIdleIfQuiet
  split <;> rfl

@[simp] theorem armIdleIfQuiet_nextPendingId :
    (bl.armIdleIfQuiet now).nextPendingId = bl.nextPendingId := by
  unfold BrokerLoop.armIdleIfQuiet
  split <;> rfl

@[simp] theorem armIdleIfQuiet_sources : (bl.armIdleIfQuiet now).sources = bl.sources := by
  unfold BrokerLoop.armIdleIfQuiet
  split <;> rfl

@[simp] theorem dropActive_slot : (bl.dropActive now).slot = bl.slot := by
  unfold BrokerLoop.dropActive
  split <;> simp

@[simp] theorem dropActive_active : (bl.dropActive now).active = none := by
  unfold BrokerLoop.dropActive
  split <;> simp_all

@[simp] theorem dropActive_pending : (bl.dropActive now).pending = bl.pending := by
  unfold BrokerLoop.dropActive
  split <;> simp

@[simp] theorem dropActive_nextPendingId :
    (bl.dropActive now).nextPendingId = bl.nextPendingId := by
  unfold BrokerLoop.dropActive
  split <;> simp

end

/-- Every way `activate` can go. -/
theorem activate_cases (bl : BrokerLoop) (greeter : Nat) (puid : UInt32) (w : World) :
    (bl.slot.Refuses w.now puid ∧ ∃ recent,
      bl.activate greeter puid w
        = ({ bl.dropActive w.now with slot := { bl.slot with recent := recent } }, [])) ∨
    (¬ bl.slot.Refuses w.now puid ∧ (bl.slot.inflight.isSome ∧ w.waits = false ∨ w.spawn = none) ∧
      ∃ recent, bl.activate greeter puid w
        = ({ bl.dropActive w.now with
              slot := { bl.slot with recent := recent, inflight := none } },
            bl.slot.reaping true w.waits)) ∨
    (¬ bl.slot.Refuses w.now puid ∧ (bl.slot.inflight.isSome → w.waits = true) ∧
      ∃ pid recent, w.spawn = some pid ∧
        (let created := { bl.dropActive w.now with
            slot := { bl.slot with recent := recent, inflight := some ⟨pid⟩ } }
        bl.activate greeter puid w
          = (if w.registersWorker then
              if w.registersGreeter then
                { created.registered.registered with
                  idleSince := none,
                  active := some ⟨greeter, Relay.new, created.nextToken + 1, created.nextToken⟩ }
              else created.registered.remove created.nextToken
            else created, bl.slot.reaping true w.waits ++ [.spawned pid]))) := by
  rcases createAt_cases bl.slot w.now puid w.waits w.spawn with
    ⟨href, recent, e, hc⟩ | ⟨href, hfail, recent, hc⟩ | ⟨href, hwaits, pid, recent, hspawn, hc⟩
  · refine .inl ⟨href, recent, ?_⟩
    simp only [BrokerLoop.activate, dropActive_slot, hc]
  · refine .inr (.inl ⟨href, hfail, recent, ?_⟩)
    simp only [BrokerLoop.activate, dropActive_slot, hc]
  · refine .inr (.inr ⟨href, hwaits, pid, recent, hspawn, ?_⟩)
    simp only [BrokerLoop.activate, dropActive_slot, hc]
    split <;> [split; skip] <;> rfl

/-- A relay step keeps the connection, or drops it and then clears the slot. -/
theorem stepped_cases {α : Type} (bl : BrokerLoop) (a : Active) (st : Stepped α) (now : Instant)
    (waits : Bool) :
    let moved := { bl with active := some { a with relay := st.relay } }
    bl.stepped a st now waits = (moved, []) ∨
    ∃ killed, bl.stepped a st now waits
      = ({ moved.dropActive now with slot := bl.slot.cleared }, bl.slot.reaping killed waits) := by
  intro moved
  unfold BrokerLoop.stepped
  dsimp only
  rw [dropActive_slot]
  split
  · exact .inl rfl
  · rename_i disp _
    cases disp with
    | completed outcome => exact .inr ⟨false, rfl⟩
    | authFailed reason => exact .inr ⟨false, rfl⟩
    | cancelled => exact .inr ⟨true, rfl⟩
  · exact .inr ⟨true, rfl⟩

end Halmasuit.Broker
