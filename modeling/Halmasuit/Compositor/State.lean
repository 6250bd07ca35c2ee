import Halmasuit.Compositor.Scene
import Halmasuit.Lib.Run
import Mathlib.Data.List.AList

/-!
# The compositor

`HalmasuitState` (`halmasuit/src/main.rs`): the scene, and the greetd connections with the calloop
sources that drive them: `handle_listener_ready` (2257–2375), `handle_connection_ready` (2398–2523),
`handle_broker_ready` (2539–2616), `arm_leader_pidfd_backstop` and `handle_leader_pidfd_ready`
(2629–2704), and the Wayland accept gate (5084–5117).

* `step` runs one callback of the event loop. A callback runs only while its source is registered;
  `PostAction::Remove` and `loop_handle.remove` take the source out, and a deferred `ConnState` drop
  waits in `idles`.
* The results of `read` and `write` on the greeter's stream are lists; where a list ends, the call
  would block.
* Clients are never forgotten: a surface may come from any client that was let in.

Headlines:
* `step_moves`: what each callback does to the scene.
* `Moves.ungated`: the same, for the callbacks that do not call the swap gate.
* `step_gateCalls`: what a callback says to the swap gate, and what the gate answers.
-/

namespace Halmasuit.Compositor

open Halmasuit.Greetd (Request SpawnRequest)
open Halmasuit.SessionIpc
open Halmasuit.Lib

/-! ## Connections -/

/-- `ConnState`. The tokens say whether the field is `Some`. -/
structure ConnState where
  episode : BrokerEpisode
  writeBuf : List UInt8
  brokerToken : Bool
  greeterToken : Bool
  terminate : Bool
  spawned : Bool
  leaderPidfd : Option Fd
  leaderPidfdToken : Bool
  deriving DecidableEq, Repr

/-- The `ConnState` of an accepted greeter. -/
def ConnState.new (service : String) : ConnState :=
  ⟨.new service, [], true, true, false, false, none, false⟩

/-- What both callbacks do with the outcome of a call of the episode. -/
def ConnState.fed (cs : ConnState) (a : Acted) : ConnState :=
  { cs with
    episode := a.ep
    writeBuf := cs.writeBuf ++ a.out.greeterReply
    spawned := cs.spawned || a.out.spawned.isSome
    terminate := cs.terminate || a.out.terminate }

/-- The end of the greeter's side, which ends the episode only before the hand-off. -/
def ConnState.greeterGone (cs : ConnState) : ConnState :=
  { cs with terminate := cs.terminate || !cs.spawned }

/-- A calloop source. -/
inductive Source where
  | greeter (id : Nat)
  | broker (id : Nat)
  | leader (id : Nat)
  | pivotPoll
  deriving DecidableEq, Repr

/-- `HalmasuitState`. -/
structure HalmasuitState extends Scene where
  connections : AList fun _ : Nat => ConnState
  nextConnId : Nat
  /-- The sources registered with the event loop. -/
  sources : List Source
  /-- The connections whose `ConnState` an idle callback will drop. -/
  idles : List Nat
  greeterUid : UInt32
  pamService : String
  /-- The uids of the Wayland clients that were let in. -/
  clients : List UInt32

/-- The state `main` builds; in the initramfs the pivot-poll timer is registered. -/
def HalmasuitState.start (inInitramfs : Bool) (greeterUid : UInt32) (pamService : String)
    (greeter : Option UInt32) : HalmasuitState where
  foreground := .greeter
  foregroundToplevel := none
  focus := none
  seenLayerRoles := []
  greeter := greeter
  sessionUid := none
  swap := .new
  sessionFirstFrameEmitted := false
  greeterSwap := if greeter.isSome then GreeterSwapGate.new.greeterSpawned.2 else .new
  shutdownArmed := !inInitramfs
  shuttingDown := false
  shouldExit := false
  connections := ∅
  nextConnId := 0
  sources := if inInitramfs then [.pivotPoll] else []
  idles := []
  greeterUid := greeterUid
  pamService := pamService
  clients := []

namespace HalmasuitState

/-- `loop_handle.remove`, and `PostAction::Remove` of the running source. -/
def unregister (s : HalmasuitState) (src : Source) : HalmasuitState :=
  { s with sources := s.sources.filter (· ≠ src) }

/-- The `ConnState` of a connection that is in the table. -/
def setConn (s : HalmasuitState) (id : Nat) (cs : ConnState) : HalmasuitState :=
  { s with connections := s.connections.insert id cs }

/-! ## Accepting a greeter -/

/-- What the kernel says while a greeter is accepted. -/
structure Accept where
  uid : UInt32
  setNonblocking : Bool
  connectBroker : Bool
  insertGreeter : Bool
  insertBroker : Bool
  deriving DecidableEq, Repr

/-- `MAX_GREETD_CONNECTIONS`. -/
def maxGreetdConnections : Nat := 4

/-- One turn of `handle_listener_ready`. -/
def accept (s : HalmasuitState) (a : Accept) : HalmasuitState :=
  if a.uid ≠ s.greeterUid then s
  else if maxGreetdConnections ≤ s.connections.keys.length then s
  else if !a.setNonblocking then s
  else
    let id := s.nextConnId
    let s' := { s with nextConnId := id + 1 }
    if a.connectBroker && a.insertGreeter && a.insertBroker then
      { s' with
        connections := s.connections.insert id (.new s.pamService)
        sources := .greeter id :: .broker id :: s.sources }
    else s'

/-! ## The greeter's stream -/

/-- The result of a `read`; no bytes are the end of the stream. -/
inductive ReadResult where
  | ok (env : Env) (bytes : List UInt8)
  | wouldBlock
  | error

/-- The result of a `write`. -/
inductive WriteResult where
  | ok (n : Nat)
  | wouldBlock
  | error
  deriving DecidableEq, Repr

/-- What a readiness callback of the greeter's source finds. -/
structure StreamReady where
  readable : Bool
  reads : List ReadResult
  writable : Bool
  writes : List WriteResult

section
variable (fromSlice : List UInt8 → Option Request)

/-- `spawned` of an outcome: the record of the session, and the event. -/
def recorded (sc : Scene) (id : Nat) (spawned : Option SpawnRequest) : Scene × List Event :=
  match spawned with
  | none => (sc, [])
  | some spawn =>
    (sc.recordSessionStarted spawn,
      [.spawned id spawn (sc.recordSessionStarted spawn).sessionUid sc.swap])

/-- The read loop of `handle_connection_ready`. -/
def readLoop (id : Nat) : ConnState → Scene → List ReadResult → ConnState × Scene × List Event
  | cs, sc, [] => (cs, sc, [])
  | cs, sc, .wouldBlock :: _ => (cs, sc, [])
  | cs, sc, .error :: _ => ({ cs.greeterGone with writeBuf := [] }, sc, [])
  | cs, sc, .ok env bytes :: reads =>
    if bytes = [] then (cs.greeterGone, sc, [])
    else
      let a := cs.episode.onGreeterBytes fromSlice env bytes
      let r := recorded sc id a.out.spawned
      if a.out.terminate then (cs.fed a, r.1, r.2)
      else
        let next := readLoop id (cs.fed a) r.1 reads
        (next.1, next.2.1, r.2 ++ next.2.2)

/-- The write loop of `handle_connection_ready`. -/
def writeLoop : ConnState → List WriteResult → ConnState
  | cs, [] => cs
  | cs, w :: ws =>
    if cs.writeBuf = [] then cs
    else
      match w with
      | .ok 0 => { cs.greeterGone with writeBuf := [] }
      | .ok (n + 1) => writeLoop { cs with writeBuf := cs.writeBuf.drop (n + 1) } ws
      | .wouldBlock => cs
      | .error => { cs.greeterGone with writeBuf := [] }

/-- The end of `handle_connection_ready`: full teardown, detaching the greeter, or neither. -/
def greeterEnd (s : HalmasuitState) (id : Nat) (cs : ConnState) : HalmasuitState × List Event :=
  if cs.terminate && cs.writeBuf.isEmpty then
    let s := if cs.brokerToken then s.unregister (.broker id) else s
    let s := if cs.leaderPidfdToken then s.unregister (.leader id) else s
    ({ s.unregister (.greeter id) with connections := s.connections.erase id }, [.removed id])
  else if !cs.terminate && cs.spawned && cs.greeterToken && cs.writeBuf.isEmpty then
    ((s.setConn id { cs with greeterToken := false }).unregister (.greeter id), [])
  else (s.setConn id cs, [])

/-- `handle_connection_ready`. -/
def handleConnectionReady (s : HalmasuitState) (id : Nat) (r : StreamReady) :
    HalmasuitState × List Event :=
  match s.connections.lookup id with
  | none => (s.unregister (.greeter id), [])
  | some cs =>
    let read := if r.readable then readLoop fromSlice id cs s.toScene r.reads
      else (cs, s.toScene, [])
    let cs := if r.writable then writeLoop read.1 r.writes else read.1
    let e := greeterEnd { s with toScene := read.2.1 } id cs
    (e.1, read.2.2 ++ e.2)

/-! ## The broker's channel -/

/-- `arm_leader_pidfd_backstop`. -/
def armLeaderPidfdBackstop (s : HalmasuitState) (id : Nat) (ok : Bool) : HalmasuitState :=
  match s.connections.lookup id with
  | none => s
  | some cs =>
    match cs.episode.leaderPidfd with
    | none => s
    | some fd =>
      let cs := { cs with episode := { cs.episode with leaderPidfd := none } }
      if ok then
        { s.setConn id { cs with leaderPidfd := some fd, leaderPidfdToken := true } with
          sources := .leader id :: s.sources }
      else s.setConn id { cs with leaderPidfd := none }

/-- A call of the gate from a callback of the event loop. -/
def feedGate (s : HalmasuitState) (c : GateCall) (w : Answers) : HalmasuitState × List Event :=
  ({ s with toScene := (s.toScene.feedGate c w).1 }, (s.toScene.feedGate c w).2)

/-- The swap gate is fed what the broker said. -/
def feedOutcome (s : HalmasuitState) (id : Nat) (out : EpisodeOutcome) (w : Answers) :
    HalmasuitState × List Event :=
  let opened :=
    if out.sessionOpened then
      let g := s.feedGate (.sessionOpened id) w
      (g.1.armLeaderPidfdBackstop id w.armPidfd, g.2)
    else (s, [])
  match out.sessionEnded with
  | none => opened
  | some _ =>
    let g := opened.1.feedGate (.sessionEnded id) w
    (g.1, opened.2 ++ g.2)

/-- The end of `handle_broker_ready`: the `ConnState` of an episode that is over and has no greeter
any more is dropped by an idle callback. -/
def brokerEnd (s : HalmasuitState) (id : Nat) (terminate greeterAttached : Bool) :
    HalmasuitState :=
  if terminate && !greeterAttached then
    { s.unregister (.broker id) with idles := s.idles ++ [id] }
  else s

/-- `handle_broker_ready`. -/
def handleBrokerReady (s : HalmasuitState) (id : Nat) (readable : Bool) (env : Env) (recv : Recv)
    (w : Answers) : HalmasuitState × List Event :=
  match s.connections.lookup id with
  | none => (s.unregister (.broker id), [])
  | some cs =>
    if readable then
      let a := cs.episode.onBrokerReadable fromSlice env recv
      let r := recorded s.toScene id a.out.spawned
      let g := ({ s with toScene := r.1 }.setConn id (cs.fed a)).feedOutcome id a.out w
      (g.1.brokerEnd id (cs.fed a).terminate cs.greeterToken,
        .broker id recv a.out :: (r.2 ++ g.2))
    else (s.brokerEnd id cs.terminate cs.greeterToken, [])

/-- `handle_leader_pidfd_ready`. -/
def handleLeaderPidfdReady (s : HalmasuitState) (id : Nat) (w : Answers) :
    HalmasuitState × List Event :=
  let s := match s.connections.lookup id with
    | none => s
    | some cs => s.setConn id { cs with leaderPidfdToken := false }
  let g := s.feedGate (.leaderExited id) w
  (g.1.unregister (.leader id), g.2)

/-- The idle callback of `handle_broker_ready`. -/
def idle (s : HalmasuitState) : HalmasuitState × List Event :=
  match s.idles with
  | [] => (s, [])
  | id :: rest =>
    let s' := match s.connections.lookup id with
      | some cs => if cs.leaderPidfdToken then s.unregister (.leader id) else s
      | none => s
    ({ s' with connections := s.connections.erase id, idles := rest }, [.removed id])

/-! ## The Wayland socket -/

/-- `wayland_peer_authorized`. -/
def waylandPeerAuthorized (peerUid greeterUid : UInt32) (sessionUid : Option UInt32) : Bool :=
  decide (peerUid = greeterUid) || decide (sessionUid = some peerUid)

/-- The accept callback of the Wayland socket. -/
def waylandConnect (s : HalmasuitState) (uid : UInt32) : HalmasuitState × List Event :=
  if waylandPeerAuthorized uid s.greeterUid s.sessionUid then
    ({ s with clients := uid :: s.clients }, [.peer uid true])
  else (s, [.peer uid false])

/-! ## The event loop -/

/-- One callback, with what it reads of the world. -/
inductive Input where
  | accept (a : Accept)
  | connectionReady (id : Nat) (r : StreamReady)
  | brokerReady (id : Nat) (readable : Bool) (env : Env) (recv : Recv) (w : Answers)
  | leaderPidfdReady (id : Nat) (w : Answers)
  | idle
  | waylandConnect (uid : UInt32)
  | commit (c : Scene.Commit) (w : Answers)
  | newToplevel (t : Surface)
  | toplevelDestroyed (t : Surface) (live : Bool) (w : Answers)
  | prepareForShutdown (arming : Bool) (w : Answers)
  | stopSignal (w : Answers)
  | childReaped (pid : Option UInt32)
  | postPivotSetup (listener : Option (UInt32 × String)) (spawned : Option UInt32) (dropped : Bool)

/-- A callback that acts on the scene alone. -/
def onScene (s : HalmasuitState) (r : Scene × List Event) : HalmasuitState × List Event :=
  ({ s with toScene := r.1 }, r.2)

/-- The `PivotPhase::Setup` tick. -/
def postPivotSetup (s : HalmasuitState) (listener : Option (UInt32 × String))
    (spawned : Option UInt32) (dropped : Bool) : HalmasuitState × List Event :=
  let s := match listener with
    | some (greeterUid, pamService) => { s with greeterUid := greeterUid, pamService := pamService }
    | none => s
  (s.unregister .pivotPoll).onScene (s.toScene.postPivotSetup spawned dropped)

/-- One callback of the event loop, and its events. -/
def step (s : HalmasuitState) : Input → HalmasuitState × List Event
  | .accept a => (s.accept a, [])
  | .connectionReady id r =>
    if Source.greeter id ∈ s.sources then s.handleConnectionReady fromSlice id r else (s, [])
  | .brokerReady id readable env recv w =>
    if Source.broker id ∈ s.sources then s.handleBrokerReady fromSlice id readable env recv w
    else (s, [])
  | .leaderPidfdReady id w =>
    if Source.leader id ∈ s.sources then s.handleLeaderPidfdReady id w else (s, [])
  | .idle => s.idle
  | .waylandConnect uid => s.waylandConnect uid
  | .commit c w =>
    if c.surface.uid ∈ s.clients then s.onScene (s.toScene.commit c w) else (s, [])
  | .newToplevel t =>
    if t.uid ∈ s.clients then s.onScene (s.toScene.newToplevel t, []) else (s, [])
  | .toplevelDestroyed t live w =>
    if t.uid ∈ s.clients then s.onScene (s.toScene.toplevelDestroyed t live w) else (s, [])
  | .prepareForShutdown arming w => s.onScene (s.toScene.prepareForShutdown arming w)
  | .stopSignal w => s.onScene (s.toScene.stopSignal w)
  | .childReaped pid => s.onScene (s.toScene.reapZombieChild pid)
  | .postPivotSetup listener spawned dropped =>
    if Source.pivotPoll ∈ s.sources then s.postPivotSetup listener spawned dropped else (s, [])

end

/-! ## What the callbacks do to the scene -/

/-- The call of the gate a callback makes. -/
def gateCall (s : HalmasuitState) : Input → Option GateCall
  | .brokerReady id readable _ recv _ =>
    if Source.broker id ∈ s.sources ∧ readable = true then
      match (s.connections.lookup id).bind fun cs => cs.episode.event recv with
      | some .sessionOpened => some (.sessionOpened id)
      | some (.sessionEnded _) => some (.sessionEnded id)
      | _ => none
    else none
  | .leaderPidfdReady id _ =>
    if Source.leader id ∈ s.sources then some (.leaderExited id) else none
  | .commit c _ => if c.surface.uid ∈ s.clients then s.toScene.commitCall c else none
  | .toplevelDestroyed t live _ =>
    if t.uid ∈ s.clients then s.toScene.destroyedCall t live else none
  | _ => none

/-- The spawn requests the episode reports while the greeter's stream is read. -/
def readReports (fromSlice : List UInt8 → Option Request) :
    ConnState → List ReadResult → List SpawnRequest
  | cs, .ok env bytes :: reads =>
    if bytes = [] then []
    else
      let a := cs.episode.onGreeterBytes fromSlice env bytes
      a.out.spawned.toList ++
        if a.out.terminate then [] else readReports fromSlice (cs.fed a) reads
  | _, _ => []

/-- The spawn requests the episodes report in a callback. -/
def reports (fromSlice : List UInt8 → Option Request) (s : HalmasuitState) :
    Input → List SpawnRequest
  | .connectionReady id r =>
    match s.connections.lookup id with
    | some cs =>
      if Source.greeter id ∈ s.sources ∧ r.readable = true then readReports fromSlice cs r.reads
      else []
    | none => []
  | .brokerReady id readable env recv _ =>
    match s.connections.lookup id with
    | some cs =>
      if Source.broker id ∈ s.sources ∧ readable = true then
        (cs.episode.onBrokerReadable fromSlice env recv).out.spawned.toList
      else []
    | none => []
  | _ => []

/-- A callback, and what it does to the scene. The callbacks of a connection record the sessions
their events report, or call the gate once; the others are handlers of the scene. -/
inductive Moves (s : HalmasuitState) : Input → Scene → List Event → Prop
  | records {i es} (hc : s.gateCall i = none) (hes : ∀ e ∈ es, e.isPlain = true) :
      Moves s i (s.toScene.records es) es
  | broker {id readable env recv w c es}
      (hc : s.gateCall (.brokerReady id readable env recv w) = some c)
      (hes : ∀ e ∈ es, ∃ recv out, e = .broker id recv out) :
      Moves s (.brokerReady id readable env recv w) (s.toScene.feedGate c w).1
        (es ++ (s.toScene.feedGate c w).2)
  | leader {id w} (hc : s.gateCall (.leaderPidfdReady id w) = some (.leaderExited id)) :
      Moves s (.leaderPidfdReady id w) (s.toScene.feedGate (.leaderExited id) w).1
        (s.toScene.feedGate (.leaderExited id) w).2
  | commit {c w} (hcl : c.surface.uid ∈ s.clients) :
      Moves s (.commit c w) (s.toScene.commit c w).1 (s.toScene.commit c w).2
  | newToplevel {t} (hcl : t.uid ∈ s.clients) :
      Moves s (.newToplevel t) (s.toScene.newToplevel t) []
  | toplevelDestroyed {t live w} (hcl : t.uid ∈ s.clients) :
      Moves s (.toplevelDestroyed t live w) (s.toScene.toplevelDestroyed t live w).1
        (s.toScene.toplevelDestroyed t live w).2
  | prepareForShutdown {arming w} : Moves s (.prepareForShutdown arming w)
      (s.toScene.prepareForShutdown arming w).1 (s.toScene.prepareForShutdown arming w).2
  | stopSignal {w} : Moves s (.stopSignal w) (s.toScene.stopSignal w).1 (s.toScene.stopSignal w).2
  | childReaped {pid} : Moves s (.childReaped pid) (s.toScene.reapZombieChild pid).1
      (s.toScene.reapZombieChild pid).2
  | postPivotSetup {listener spawned dropped} (hsrc : Source.pivotPoll ∈ s.sources) :
      Moves s (.postPivotSetup listener spawned dropped)
        (s.toScene.postPivotSetup spawned dropped).1 (s.toScene.postPivotSetup spawned dropped).2

section
variable {fromSlice : List UInt8 → Option Request}

theorem moves_nothing (s : HalmasuitState) {i : Input} (hc : s.gateCall i = none) :
    Moves s i s.toScene [] :=
  @Moves.records s i [] hc (by simp)

theorem recorded_records (sc : Scene) (id : Nat) (spawned : Option SpawnRequest) :
    (recorded sc id spawned).1 = sc.records (recorded sc id spawned).2 ∧
      ∀ e ∈ (recorded sc id spawned).2, ∃ spawn left gate, e = .spawned id spawn left gate := by
  cases spawned with
  | none => exact ⟨rfl, by simp [recorded]⟩
  | some spawn =>
    refine ⟨rfl, ?_⟩
    simp only [recorded, List.mem_singleton, forall_eq]
    exact ⟨_, _, _, rfl⟩

/-- The read loop records the sessions it reports. -/
theorem readLoop_records (id : Nat) (reads : List ReadResult) : ∀ (cs : ConnState) (sc : Scene),
    (readLoop fromSlice id cs sc reads).2.1 = sc.records (readLoop fromSlice id cs sc reads).2.2 ∧
      ∀ e ∈ (readLoop fromSlice id cs sc reads).2.2, ∃ spawn left gate,
        e = .spawned id spawn left gate := by
  induction reads with
  | nil =>
    intro cs sc
    exact ⟨rfl, by simp [readLoop]⟩
  | cons r reads ih =>
    intro cs sc
    cases r with
    | wouldBlock => exact ⟨rfl, by simp [readLoop]⟩
    | error => exact ⟨rfl, by simp [readLoop]⟩
    | ok env bytes =>
      unfold readLoop
      split
      · exact ⟨rfl, by simp⟩
      · dsimp only
        obtain ⟨hsc, hes⟩ := recorded_records sc id
          (cs.episode.onGreeterBytes fromSlice env bytes).out.spawned
        split
        · exact ⟨hsc, hes⟩
        · obtain ⟨hsc', hes'⟩ := ih (cs.fed (cs.episode.onGreeterBytes fromSlice env bytes))
            (recorded sc id (cs.episode.onGreeterBytes fromSlice env bytes).out.spawned).1
          constructor
          · rw [Scene.records_append, ← hsc]
            exact hsc'
          · intro e he
            rcases List.mem_append.mp he with he | he
            · exact hes e he
            · exact hes' e he

/-- The scene after the `Setup` tick. -/
theorem postPivotSetup_scene (s : HalmasuitState) (listener : Option (UInt32 × String))
    (spawned : Option UInt32) (dropped : Bool) :
    ∃ gs, (s.postPivotSetup listener spawned dropped).1.toScene = { s.toScene with
      greeterSwap := gs
      greeter := spawned.or s.greeter
      shutdownArmed := s.shutdownArmed || dropped } := by
  obtain ⟨gs, heq⟩ := s.toScene.postPivotSetup_eq spawned dropped
  refine ⟨gs, ?_⟩
  rw [← heq]
  cases listener with
  | none => rfl
  | some l => rfl

theorem greeterEnd_scene (s : HalmasuitState) (id : Nat) (cs : ConnState) :
    (greeterEnd s id cs).1.toScene = s.toScene ∧
      ∀ e ∈ (greeterEnd s id cs).2, e = .removed id := by
  unfold greeterEnd
  split
  · dsimp only
    refine ⟨?_, by simp⟩
    split <;> split <;> rfl
  · split
    · exact ⟨rfl, by simp⟩
    · exact ⟨rfl, by simp⟩

theorem armLeaderPidfdBackstop_scene (s : HalmasuitState) (id : Nat) (ok : Bool) :
    (s.armLeaderPidfdBackstop id ok).toScene = s.toScene := by
  unfold armLeaderPidfdBackstop
  split
  · rfl
  · split
    · rfl
    · dsimp only
      split <;> rfl

theorem brokerEnd_scene (s : HalmasuitState) (id : Nat) (terminate greeterAttached : Bool) :
    (s.brokerEnd id terminate greeterAttached).toScene = s.toScene := by
  unfold brokerEnd
  split <;> rfl

theorem records_removed (sc : Scene) {es : List Event} (h : ∀ e ∈ es, ∃ id, e = .removed id) :
    sc.records es = sc := by
  induction es with
  | nil => rfl
  | cons e es ih =>
    obtain ⟨id, rfl⟩ := h e List.mem_cons_self
    exact ih fun e he => h e (List.mem_cons_of_mem _ he)

theorem handleConnectionReady_moves (s : HalmasuitState) (id : Nat) (r : StreamReady) :
    Moves s (.connectionReady id r) (s.handleConnectionReady fromSlice id r).1.toScene
      (s.handleConnectionReady fromSlice id r).2 := by
  unfold handleConnectionReady
  split
  · exact moves_nothing s rfl
  · rename_i cs _
    dsimp only
    generalize hread : (if r.readable = true then readLoop fromSlice id cs s.toScene r.reads
      else (cs, s.toScene, [])) = read
    have hrec : read.2.1 = s.toScene.records read.2.2 ∧
        ∀ e ∈ read.2.2, ∃ spawn left gate, e = .spawned id spawn left gate := by
      rw [← hread]
      split
      · exact readLoop_records id r.reads cs s.toScene
      · exact ⟨rfl, by simp⟩
    obtain ⟨hsc, hes⟩ := hrec
    generalize (if r.writable = true then writeLoop read.1 r.writes else read.1) = cs'
    obtain ⟨hend, hrem⟩ := greeterEnd_scene { s with toScene := read.2.1 } id cs'
    have hscene : (greeterEnd { s with toScene := read.2.1 } id cs').1.toScene
        = s.toScene.records
          (read.2.2 ++ (greeterEnd { s with toScene := read.2.1 } id cs').2) := by
      rw [hend, Scene.records_append, ← hsc]
      exact (records_removed _ fun e he => ⟨id, hrem e he⟩).symm
    rw [hscene]
    refine .records rfl fun e he => ?_
    rcases List.mem_append.mp he with he | he
    · obtain ⟨spawn, left, gate, rfl⟩ := hes e he
      rfl
    · rw [hrem e he]
      rfl

theorem handleBrokerReady_moves (s : HalmasuitState) (id : Nat) (readable : Bool) (env : Env)
    (recv : Recv) (w : Answers) (hsrc : Source.broker id ∈ s.sources) :
    Moves s (.brokerReady id readable env recv w)
      (s.handleBrokerReady fromSlice id readable env recv w).1.toScene
      (s.handleBrokerReady fromSlice id readable env recv w).2 := by
  unfold handleBrokerReady
  cases hlook : s.connections.lookup id with
  | none => exact moves_nothing s (by simp [gateCall, hlook])
  | some cs =>
    cases readable with
    | false =>
      simp only [Bool.false_eq_true, if_false]
      rw [brokerEnd_scene]
      exact moves_nothing s (by simp [gateCall])
    | true =>
      simp only [if_true]
      rw [brokerEnd_scene]
      have hbroker : ∀ out, ∀ e ∈ [Event.broker id recv out],
          ∃ recv out, e = .broker id recv out := by
        intro out e he
        exact ⟨recv, out, List.mem_singleton.mp he⟩
      rcases onBrokerReadable_out fromSlice env cs.episode recv with
        ⟨hev, hout⟩ | ⟨outcome, hev, hout⟩ | ⟨hev, hopened, hended⟩
      · rw [hout]
        simp only [recorded, feedOutcome, EpisodeOutcome.default, List.nil_append, if_true]
        rw [armLeaderPidfdBackstop_scene]
        exact .broker (by simp [gateCall, hsrc, hlook, hev]) (hbroker _)
      · rw [hout]
        simp only [recorded, feedOutcome, EpisodeOutcome.default, List.nil_append,
          Bool.false_eq_true, if_false]
        exact .broker (by simp [gateCall, hsrc, hlook, hev]) (hbroker _)
      · have hcall : s.gateCall (.brokerReady id true env recv w) = none := by
          cases he : cs.episode.event recv with
          | none => simp [gateCall, hlook, he]
          | some ev =>
            obtain ⟨step, rfl⟩ := hev ev he
            simp [gateCall, hlook, he]
        simp only [feedOutcome, hopened, hended, Bool.false_eq_true, if_false, List.append_nil]
        obtain ⟨hsc, hes⟩ := recorded_records s.toScene id
          (cs.episode.onBrokerReadable fromSlice env recv).out.spawned
        have hscene : (recorded s.toScene id
            (cs.episode.onBrokerReadable fromSlice env recv).out.spawned).1
            = s.toScene.records
              (.broker id recv (cs.episode.onBrokerReadable fromSlice env recv).out ::
              (recorded s.toScene id
                (cs.episode.onBrokerReadable fromSlice env recv).out.spawned).2) := hsc
        show Moves s _ (recorded s.toScene id
          (cs.episode.onBrokerReadable fromSlice env recv).out.spawned).1 _
        rw [hscene]
        refine .records hcall fun e he => ?_
        rcases List.mem_cons.mp he with rfl | he
        · rfl
        · obtain ⟨spawn, left, gate, rfl⟩ := hes e he
          rfl

theorem handleLeaderPidfdReady_moves (s : HalmasuitState) (id : Nat) (w : Answers)
    (hsrc : Source.leader id ∈ s.sources) :
    Moves s (.leaderPidfdReady id w) (s.handleLeaderPidfdReady id w).1.toScene
      (s.handleLeaderPidfdReady id w).2 := by
  have hcall : s.gateCall (.leaderPidfdReady id w) = some (.leaderExited id) := if_pos hsrc
  unfold handleLeaderPidfdReady
  split
  · exact .leader hcall
  · exact .leader hcall

theorem idle_moves (s : HalmasuitState) : Moves s .idle s.idle.1.toScene s.idle.2 := by
  unfold idle
  split
  · exact moves_nothing s rfl
  · rename_i id rest _
    have hplain : ∀ e ∈ [Event.removed id], e.isPlain = true := by simp [Event.isPlain]
    dsimp only
    split
    · split <;> exact .records rfl hplain
    · exact .records rfl hplain

variable (fromSlice) in
/-- **What a callback does to the scene.** -/
theorem step_moves (s : HalmasuitState) (i : Input) :
    Moves s i (s.step fromSlice i).1.toScene (s.step fromSlice i).2 := by
  cases i with
  | accept a =>
    unfold step accept
    dsimp only
    split_ifs <;> exact moves_nothing s rfl
  | connectionReady id r =>
    unfold step
    dsimp only
    split_ifs
    · exact handleConnectionReady_moves s id r
    · exact moves_nothing s rfl
  | brokerReady id readable env recv w =>
    unfold step
    dsimp only
    split_ifs with hsrc
    · exact handleBrokerReady_moves s id readable env recv w hsrc
    · exact moves_nothing s (by simp [gateCall, hsrc])
  | leaderPidfdReady id w =>
    unfold step
    dsimp only
    split_ifs with hsrc
    · exact handleLeaderPidfdReady_moves s id w hsrc
    · exact moves_nothing s (by simp [gateCall, hsrc])
  | idle => exact idle_moves s
  | waylandConnect uid =>
    have hplain : ∀ b, ∀ e ∈ [Event.peer uid b], e.isPlain = true := by simp [Event.isPlain]
    unfold step waylandConnect
    dsimp only
    split_ifs
    · exact .records rfl (hplain true)
    · exact .records rfl (hplain false)
  | commit c w =>
    unfold step
    dsimp only
    split_ifs with hcl
    · exact .commit hcl
    · exact moves_nothing s (by simp [gateCall, hcl])
  | newToplevel t =>
    unfold step
    dsimp only
    split_ifs with hcl
    · exact .newToplevel hcl
    · exact moves_nothing s rfl
  | toplevelDestroyed t live w =>
    unfold step
    dsimp only
    split_ifs with hcl
    · exact .toplevelDestroyed hcl
    · exact moves_nothing s (by simp [gateCall, hcl])
  | prepareForShutdown arming w => exact .prepareForShutdown
  | stopSignal w => exact .stopSignal
  | childReaped pid => exact .childReaped
  | postPivotSetup listener spawned dropped =>
    unfold step postPivotSetup
    dsimp only
    split_ifs with hsrc
    · rcases listener with _ | ⟨uid, service⟩
      · exact .postPivotSetup hsrc
      · exact .postPivotSetup hsrc
    · exact moves_nothing s rfl

theorem gateCalls_plain {es : List Event} (h : ∀ e ∈ es, e.isPlain = true) :
    Scene.gateCalls es = [] := by
  unfold Scene.gateCalls
  rw [List.filterMap_eq_nil_iff]
  intro e he
  have hp := h e he
  cases e with
  | gate c a => cases hp
  | _ => rfl

theorem gracefulShutdown_plain (sc : Scene) (w : Answers) :
    ∀ e ∈ (sc.gracefulShutdown w).2, e.isPlain = true := by
  unfold Scene.gracefulShutdown
  split
  · simp
  · dsimp only
    split
    · simp [Event.isPlain]
    · split <;> simp [Event.isPlain]

theorem prepareForShutdown_plain (sc : Scene) (arming : Bool) (w : Answers) :
    ∀ e ∈ (sc.prepareForShutdown arming w).2, e.isPlain = true := by
  unfold Scene.prepareForShutdown
  split_ifs
  · simp
  · simp
  · exact gracefulShutdown_plain sc w

theorem stopSignal_plain (sc : Scene) (w : Answers) :
    ∀ e ∈ (sc.stopSignal w).2, e.isPlain = true := by
  unfold Scene.stopSignal
  split_ifs
  · simp
  · simp [Event.isPlain]
  · exact gracefulShutdown_plain sc w

theorem reapZombieChild_plain (sc : Scene) (reaped : Option UInt32) :
    ∀ e ∈ (sc.reapZombieChild reaped).2, e.isPlain = true := by
  unfold Scene.reapZombieChild
  split
  · simp
  · split <;> simp [Event.isPlain]

theorem postPivotSetup_plain (sc : Scene) (spawned : Option UInt32) (dropped : Bool) :
    ∀ e ∈ (sc.postPivotSetup spawned dropped).2, e.isPlain = true := by
  cases spawned <;> simp [Scene.postPivotSetup, Event.isPlain]

variable (fromSlice) in
/-- What a callback says to the gate, and what the gate answers. -/
theorem step_gateCalls (s : HalmasuitState) (i : Input) :
    Scene.gateCalls (s.step fromSlice i).2
      = (s.gateCall i).toList.map fun c => (c, (s.swap.call c).1) := by
  have hm : Moves s i (s.step fromSlice i).1.toScene (s.step fromSlice i).2 :=
    s.step_moves fromSlice i
  revert hm
  generalize (s.step fromSlice i).2 = es
  generalize (s.step fromSlice i).1.toScene = sc
  intro hm
  cases hm with
  | records hc hes =>
    rw [hc, gateCalls_plain hes]
    rfl
  | broker hc hes =>
    rename_i id readable env recv w c es
    have hplain : ∀ e ∈ es, e.isPlain = true := by
      intro e he
      obtain ⟨recv', out, rfl⟩ := hes e he
      rfl
    rw [hc, Scene.gateCalls_append, gateCalls_plain hplain, Scene.gateCalls_feedGate]
    rfl
  | leader hc =>
    rw [hc, Scene.gateCalls_feedGate]
    rfl
  | @commit c w hcl =>
    have hcall : s.gateCall (.commit c w) = s.toScene.commitCall c := if_pos hcl
    rw [hcall]
    cases h : s.toScene.commitCall c with
    | none =>
      obtain ⟨_, _, _, -, -, hev⟩ := Scene.commit_none _ w h
      rw [hev]
      rfl
    | some call =>
      obtain ⟨_, _, _, -, -, hev⟩ := Scene.commit_some _ w h
      rw [hev]
      rfl
  | newToplevel hcl => rfl
  | @toplevelDestroyed t live w hcl =>
    have hcall : s.gateCall (.toplevelDestroyed t live w) = s.toScene.destroyedCall t live :=
      if_pos hcl
    rw [hcall]
    cases h : s.toScene.destroyedCall t live with
    | none =>
      rw [(Scene.toplevelDestroyed_none _ w h).1]
      rfl
    | some call =>
      rw [(Scene.toplevelDestroyed_some _ w h).2.2, Scene.gateCalls_feedGate]
      rfl
  | prepareForShutdown => exact gateCalls_plain (prepareForShutdown_plain _ _ _)
  | stopSignal => exact gateCalls_plain (stopSignal_plain _ _)
  | childReaped => exact gateCalls_plain (reapZombieChild_plain _ _)
  | postPivotSetup hsrc => exact gateCalls_plain (postPivotSetup_plain _ _ _)

theorem spawns_recorded (sc : Scene) (id : Nat) (spawned : Option SpawnRequest) :
    Scene.spawns (recorded sc id spawned).2 = spawned.toList := by
  cases spawned <;> rfl

theorem spawns_readLoop (id : Nat) (reads : List ReadResult) : ∀ (cs : ConnState) (sc : Scene),
    Scene.spawns (readLoop fromSlice id cs sc reads).2.2 = readReports fromSlice cs reads := by
  induction reads with
  | nil =>
    intro cs sc
    simp [readLoop, readReports]
  | cons r reads ih =>
    intro cs sc
    cases r with
    | wouldBlock => simp [readLoop, readReports]
    | error => simp [readLoop, readReports]
    | ok env bytes =>
      unfold readLoop readReports
      split
      · rfl
      · dsimp only
        split
        · rw [List.append_nil]
          exact spawns_recorded _ _ _
        · rw [Scene.spawns_append, spawns_recorded, ih]

theorem spawns_feedOutcome (s : HalmasuitState) (id : Nat) (out : EpisodeOutcome) (w : Answers) :
    Scene.spawns (s.feedOutcome id out w).2 = [] := by
  unfold feedOutcome feedGate
  dsimp only
  split <;> split_ifs <;> simp

theorem spawns_greeterEnd (s : HalmasuitState) (id : Nat) (cs : ConnState) :
    Scene.spawns (greeterEnd s id cs).2 = [] := by
  unfold greeterEnd
  split
  · rfl
  · split <;> rfl

theorem spawns_handleConnectionReady (s : HalmasuitState) {id : Nat} {r : StreamReady}
    {cs : ConnState} (hlook : s.connections.lookup id = some cs) :
    Scene.spawns (s.handleConnectionReady fromSlice id r).2
      = if r.readable = true then readReports fromSlice cs r.reads else [] := by
  unfold handleConnectionReady
  rw [hlook]
  dsimp only
  rw [Scene.spawns_append, spawns_greeterEnd, List.append_nil]
  split
  · exact spawns_readLoop _ _ _ _
  · rfl

theorem spawns_handleBrokerReady (s : HalmasuitState) {id : Nat} {env : Env} {recv : Recv}
    {w : Answers} {cs : ConnState} (hlook : s.connections.lookup id = some cs) :
    Scene.spawns (s.handleBrokerReady fromSlice id true env recv w).2
      = (cs.episode.onBrokerReadable fromSlice env recv).out.spawned.toList := by
  unfold handleBrokerReady
  rw [hlook]
  simp only [if_true]
  show Scene.spawns (_ ++ _) = _
  rw [Scene.spawns_append, spawns_feedOutcome, List.append_nil]
  exact spawns_recorded _ _ _

variable (fromSlice) in
/-- What a callback reports. -/
theorem step_spawns (s : HalmasuitState) (i : Input) :
    Scene.spawns (s.step fromSlice i).2 = s.reports fromSlice i := by
  cases i with
  | accept a => rfl
  | connectionReady id r =>
    unfold step reports
    dsimp only
    cases hlook : s.connections.lookup id with
    | none => split_ifs <;> simp [handleConnectionReady, hlook]
    | some cs =>
      by_cases hsrc : Source.greeter id ∈ s.sources
      · simp only [hsrc, true_and, if_true]
        exact spawns_handleConnectionReady s hlook
      · simp [hsrc]
  | brokerReady id readable env recv w =>
    unfold step reports
    dsimp only
    cases hlook : s.connections.lookup id with
    | none => split_ifs <;> simp [handleBrokerReady, hlook]
    | some cs =>
      by_cases hsrc : Source.broker id ∈ s.sources
      · cases readable with
        | false => simp [hsrc, handleBrokerReady, hlook]
        | true =>
          simp only [hsrc, if_true, and_self]
          exact spawns_handleBrokerReady s hlook
      · simp [hsrc]
  | leaderPidfdReady id w =>
    unfold step
    dsimp only
    split_ifs
    · unfold handleLeaderPidfdReady
      exact Scene.spawns_feedGate _ _ _
    · rfl
  | idle =>
    unfold step idle
    dsimp only
    split <;> rfl
  | waylandConnect uid =>
    unfold step waylandConnect
    dsimp only
    split_ifs <;> rfl
  | commit c w =>
    unfold step
    dsimp only
    split_ifs
    · exact Scene.spawns_commit _ w c
    · rfl
  | newToplevel t =>
    unfold step
    dsimp only
    split_ifs <;> rfl
  | toplevelDestroyed t live w =>
    unfold step
    dsimp only
    split_ifs
    · exact Scene.spawns_toplevelDestroyed _ w t live
    · rfl
  | prepareForShutdown arming w => exact Scene.spawns_prepareForShutdown _ w arming
  | stopSignal w => exact Scene.spawns_stopSignal _ w
  | childReaped pid => exact Scene.spawns_reapZombieChild _ pid
  | postPivotSetup listener spawned dropped =>
    unfold step postPivotSetup
    dsimp only
    split_ifs
    · cases listener <;> exact Scene.spawns_postPivotSetup _ spawned dropped
    · rfl

variable (fromSlice) in
/-- A callback that calls the gate reports nothing. -/
theorem reports_of_gateCall {s : HalmasuitState} {i : Input} {c : GateCall}
    (hc : s.gateCall i = some c) : s.reports fromSlice i = [] := by
  cases i with
  | brokerReady id readable env recv w =>
    unfold reports
    dsimp only
    cases hlook : s.connections.lookup id with
    | none => rfl
    | some cs =>
      split_ifs with hsrc
      · rcases onBrokerReadable_out fromSlice env cs.episode recv with
          ⟨-, hout⟩ | ⟨_, -, hout⟩ | ⟨hev, -, -⟩
        · simp [hout, EpisodeOutcome.default]
        · simp [hout, EpisodeOutcome.default]
        · unfold gateCall at hc
          simp only [hsrc, hlook, and_self, if_true, Option.bind_some] at hc
          split at hc
          · rename_i he
            obtain ⟨_, h⟩ := hev _ he
            cases h
          · rename_i he
            obtain ⟨_, h⟩ := hev _ he
            cases h
          · cases hc
      · rfl
  | connectionReady id r => cases hc
  | _ => rfl

variable (fromSlice) in
/-- A callback that reports a spawn records it, where no session is recorded. -/
theorem step_recorded (s : HalmasuitState) {i : Input} {spawn : SpawnRequest}
    (h : (s.reports fromSlice i).head? = some spawn) : (s.step fromSlice i).1.toScene
      = { s.toScene with sessionUid := s.sessionUid.or (some spawn.uid) } := by
  have hc : s.gateCall i = none := by
    cases hc : s.gateCall i with
    | none => rfl
    | some c =>
      rw [reports_of_gateCall fromSlice hc] at h
      cases h
  have hrec : ∀ {sc es}, Moves s i sc es → (Scene.spawns es).head? = some spawn →
      sc = { s.toScene with sessionUid := s.sessionUid.or (some spawn.uid) } := by
    intro sc es hm hsp
    cases hm with
    | records hc' hes =>
      rw [Scene.records_eq, hsp]
      rfl
    | broker hc' hes =>
      rw [hc] at hc'
      cases hc'
    | leader hc' =>
      rw [hc] at hc'
      cases hc'
    | _ => cases h
  exact hrec (s.step_moves fromSlice i) (by rw [step_spawns, h])

/-- The scene after a callback that does not call the gate. -/
inductive Ungated (s : HalmasuitState) (es : List Event) : Input → Scene → Prop
  | same {i} : Ungated s es i s.toScene
  | recorded {i spawn} (hn : s.sessionUid = none) (hsp : (Scene.spawns es).head? = some spawn) :
      Ungated s es i { s.toScene with sessionUid := some spawn.uid }
  | committed {k w roles gs f}
      (hf : f = s.focus ∨ (s.foreground = .greeter ∧ f = some (.layer k.surface)) ∨
        ∃ t, s.foregroundToplevel = some t ∧ f = some (.toplevel t)) :
      Ungated s es (.commit k w)
        { s.toScene with seenLayerRoles := roles, greeterSwap := gs, focus := f }
  | newToplevel {t} (hcl : t.uid ∈ s.clients) :
      Ungated s es (.newToplevel t) (s.toScene.newToplevel t)
  | toplevelGone {t live w} : Ungated s es (.toplevelDestroyed t live w)
      { s.toScene with foregroundToplevel := none, focus := none }
  | latched {arming w} (hd : s.shuttingDown = false) :
      Ungated s es (.prepareForShutdown arming w) s.toScene.latched
  | stopped {w} (hd : s.shuttingDown = false) :
      Ungated s es (.stopSignal w) { s.toScene with shouldExit := true }
  | reaped {pid} : Ungated s es (.childReaped pid) { s.toScene with greeter := none }
  | setUp {listener spawned dropped gs} (hsrc : Source.pivotPoll ∈ s.sources) :
      Ungated s es (.postPivotSetup listener spawned dropped) { s.toScene with
        greeterSwap := gs
        greeter := spawned.or s.greeter
        shutdownArmed := s.shutdownArmed || dropped }

theorem Moves.ungated {s : HalmasuitState} {i : Input} {sc : Scene} {es : List Event}
    (h : Moves s i sc es) (hc : s.gateCall i = none) : Ungated s es i sc := by
  cases h with
  | records hc' hes =>
    rw [Scene.records_eq]
    cases hu : s.sessionUid with
    | some u =>
      have hsame : s.toScene = { s.toScene with sessionUid := some u } := by rw [← hu]
      simp only [Option.some_or, ← hsame]
      exact .same
    | none =>
      rw [Option.none_or]
      cases hsp : (Scene.spawns es).head? with
      | none =>
        have hsame : s.toScene = { s.toScene with sessionUid := none } := by rw [← hu]
        simp only [Option.map_none, ← hsame]
        exact .same
      | some spawn => exact .recorded hu hsp
  | broker hc' hes =>
    rw [hc] at hc'
    cases hc'
  | leader hc' =>
    rw [hc] at hc'
    cases hc'
  | commit hcl =>
    rename_i k w
    have hcall : s.toScene.commitCall k = none := by simpa [gateCall, hcl] using hc
    obtain ⟨roles, gs, f, heq, hf, -⟩ := Scene.commit_none _ w hcall
    rw [heq]
    exact .committed hf
  | newToplevel hcl => exact .newToplevel hcl
  | toplevelDestroyed hcl =>
    rename_i t live w
    have hcall : s.toScene.destroyedCall t live = none := by simpa [gateCall, hcl] using hc
    rcases (Scene.toplevelDestroyed_none _ w hcall).2 with heq | ⟨-, heq⟩
    · rw [heq]
      exact .same
    · rw [heq]
      exact .toplevelGone
  | prepareForShutdown =>
    rename_i arming w
    rcases s.toScene.prepareForShutdown_cases w arming with heq | ⟨hd, heq⟩
    · rw [heq]
      exact .same
    · rw [heq]
      exact .latched hd
  | stopSignal =>
    rename_i w
    rcases s.toScene.stopSignal_cases w with heq | ⟨hd, heq⟩
    · rw [heq]
      exact .same
    · rw [heq]
      exact .stopped hd
  | childReaped =>
    rename_i pid
    rcases s.toScene.reapZombieChild_cases pid with heq | heq
    · rw [heq]
      exact .same
    · rw [heq]
      exact .reaped
  | postPivotSetup hsrc =>
    rename_i listener spawned dropped
    obtain ⟨gs, heq⟩ := s.toScene.postPivotSetup_eq spawned dropped
    rw [heq]
    exact .setUp hsrc

end

end HalmasuitState

end Halmasuit.Compositor
