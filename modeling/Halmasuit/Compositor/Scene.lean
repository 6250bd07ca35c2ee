import Halmasuit.Compositor.Episode
import Halmasuit.Compositor.SwapGate

/-!
# The scene

The part of `HalmasuitState` (`halmasuit/src/main.rs`) that says who is on the screen and who has
the keyboard: `foreground`, `foreground_toplevel`, the seat's focus, the greeter's handle, the
session's uid, the two swap gates and the shutdown flags, with the handlers that write them:
`apply_swap_action` (1084–1180), the commit handlers (1226–1507), `new_toplevel` and
`toplevel_destroyed` (1701–1804), `record_session_started` (2744–2753), `graceful_shutdown`
(3638–3737), the stop signals (5155–5215) and the reaper (4130–4165).

* A handler returns the scene after it and the events of the call: what the source emits, and every
  call of the swap gate with the action it returned.
* What a handler reads of the world is its `Answers`: the broker's reply to `SpawnGreeter`, the
  result of the greeter's kill.
* A `Surface` carries the uid of its client, which is fixed when the client connects.
* Rendering is left out: what is composited as foreground is `foreground_toplevel`.

Headlines:
* `feedGate_none`, `feedGate_swap`, `feedGate_revert`: what a call of the gate does to the scene.
* `commit_none`, `commit_some`, `toplevelDestroyed_none`, `toplevelDestroyed_some`: the same for the
  Wayland handlers, by whether they call the gate.
-/

namespace Halmasuit.Compositor

open Halmasuit.Greetd (SpawnRequest)

/-- `Foreground`. -/
inductive Foreground where
  | greeter
  | session
  deriving DecidableEq, Repr

/-- `LayerRole`, of a layer client. -/
inductive LayerRole where
  | background
  | bottom
  | top
  | overlay
  deriving DecidableEq, Repr

/-- A `wl_surface` and the SO_PEERCRED uid of its client. -/
structure Surface where
  id : Nat
  uid : UInt32
  deriving DecidableEq, Repr

/-- What has the keyboard: a layer surface, or a toplevel. -/
inductive Focus where
  | layer (surface : Surface)
  | toplevel (surface : Surface)
  deriving DecidableEq, Repr

def Focus.uid : Focus → UInt32
  | .layer surface => surface.uid
  | .toplevel surface => surface.uid

/-- What the swap gate is told, and about whom: a connection, or the uid of a Wayland client. -/
inductive GateCall where
  | sessionOpened (id : Nat)
  | sessionFirstFrame (uid : UInt32)
  | sessionEnded (id : Nat)
  | leaderExited (id : Nat)
  | toplevelGone (uid : UInt32)
  deriving DecidableEq, Repr

/-- The method of the gate a call is. -/
def SwapGate.call (g : SwapGate) : GateCall → SwapAction × SwapGate
  | .sessionOpened _ => g.sessionOpened
  | .sessionFirstFrame _ => g.sessionFirstFrame
  | .sessionEnded _ => g.sessionEnded
  | .leaderExited _ => g.sessionClientGone
  | .toplevelGone _ => g.sessionClientGone

/-- A revert trigger. -/
def GateCall.isTrigger : GateCall → Bool
  | .sessionOpened _ => false
  | .sessionFirstFrame _ => false
  | .sessionEnded _ => true
  | .leaderExited _ => true
  | .toplevelGone _ => true

/-- The first key. -/
def GateCall.isOpened : GateCall → Bool
  | .sessionOpened _ => true
  | _ => false

/-- The second key. -/
def GateCall.isFirstFrame : GateCall → Bool
  | .sessionFirstFrame _ => true
  | _ => false

/-- What happens in the compositor, in order. -/
inductive Event where
  /-- The episode of a connection reported `spawned`; `left` is `session_uid` after the record and
  `gate` the swap gate at that moment. -/
  | spawned (id : Nat) (spawn : SpawnRequest) (left : Option UInt32) (gate : SwapGate)
  /-- The episode of a connection read its broker channel. -/
  | broker (id : Nat) (recv : Recv) (out : EpisodeOutcome)
  /-- A `ConnState` was dropped. -/
  | removed (id : Nat)
  /-- The swap gate was called. -/
  | gate (c : GateCall) (a : SwapAction)
  | foregroundChanged (f : Foreground)
  | greeterSpawned (pid : UInt32)
  | greeterTerminated (pid : UInt32)
  | greeterKillFailed (pid : UInt32)
  | greeterDiedPreAuth (pid : UInt32)
  | clientFirstFrame (role : LayerRole)
  | shutdown
  /-- A peer of the Wayland socket, and whether it was let in. -/
  | peer (uid : UInt32) (admitted : Bool)
  deriving DecidableEq

/-- Not a call of the gate. -/
def Event.isPlain : Event → Bool
  | .gate _ _ => false
  | _ => true

/-- What an episode made of a read of its broker channel. -/
def Event.brokerOut : Event → Option EpisodeOutcome
  | .broker _ _ out => some out
  | _ => none

/-- What a handler reads of the world. -/
structure Answers where
  /-- `broker_spawn_greeter`. -/
  spawnGreeter : Option UInt32
  /-- `pidfd_send_signal` of the greeter's SIGKILL. -/
  killGreeter : Bool
  /-- `insert_source` of the leader pidfd. -/
  armPidfd : Bool
  deriving DecidableEq, Repr

/-- The scene. -/
structure Scene where
  foreground : Foreground
  foregroundToplevel : Option Surface
  /-- The seat's keyboard focus. -/
  focus : Option Focus
  seenLayerRoles : List LayerRole
  greeter : Option UInt32
  sessionUid : Option UInt32
  swap : SwapGate
  sessionFirstFrameEmitted : Bool
  greeterSwap : GreeterSwapGate
  shutdownArmed : Bool
  shuttingDown : Bool
  shouldExit : Bool
  deriving DecidableEq, Repr

namespace Scene

/-! ## The swap gate -/

/-- `apply_swap_action`, the `Swap` arm: the greeter is taken and killed, and the foreground
toplevel, if there is one, gets the focus. -/
def applySwap (s : Scene) (w : Answers) : Scene × List Event :=
  let killed := match s.greeter with
    | none => []
    | some pid => [if w.killGreeter then Event.greeterTerminated pid else .greeterKillFailed pid]
  ({ s with
      greeter := none
      foreground := .session
      focus := (s.foregroundToplevel.map .toplevel).or s.focus },
    killed ++ [.foregroundChanged .session])

/-- A greeter just spawned by the broker. -/
def greeterUp (s : Scene) (pid : UInt32) : Scene :=
  { s with greeterSwap := s.greeterSwap.greeterSpawned.2, greeter := some pid }

/-- `apply_swap_action`, the `Revert` arm. -/
def applyRevert (s : Scene) (w : Answers) : Scene × List Event :=
  let s' := { s with
    foreground := .greeter
    focus := none
    sessionUid := none
    swap := .new
    greeterSwap := .new }
  match w.spawnGreeter with
  | some pid => (s'.greeterUp pid, [.foregroundChanged .greeter, .greeterSpawned pid])
  | none => (s', [.foregroundChanged .greeter])

/-- `apply_swap_action`. -/
def applySwapAction (s : Scene) (a : SwapAction) (w : Answers) : Scene × List Event :=
  match a with
  | .none => (s, [])
  | .swap => s.applySwap w
  | .revert => s.applyRevert w

/-- A call of the gate, then `apply_swap_action`. -/
def feedGate (s : Scene) (c : GateCall) (w : Answers) : Scene × List Event :=
  let r := s.swap.call c
  let t := { s with swap := r.2 }.applySwapAction r.1 w
  (t.1, .gate c r.1 :: t.2)

/-- `record_session_started`. -/
def recordSessionStarted (s : Scene) (spawn : SpawnRequest) : Scene :=
  match s.sessionUid with
  | some _ => s
  | none => { s with sessionUid := some spawn.uid }

/-! ## The Wayland handlers -/

/-- A commit: the root surface it acts on, and what the handlers read of it. -/
structure Commit where
  surface : Surface
  /-- `is_sync_subsurface` of the committed surface. -/
  sync : Bool
  /-- The layer and the keyboard interactivity, where the surface is a mapped layer. -/
  layer : Option (LayerRole × Bool)
  hasBuffer : Bool
  bufferSize : Option (Int × Int)
  deriving DecidableEq, Repr

/-- A buffer of non-zero size. -/
def Commit.nonEmpty (c : Commit) : Bool :=
  match c.bufferSize with
  | some (w, h) => decide (0 < w) && decide (0 < h)
  | none => false

/-- `handle_layer_shell_commit`, from the first buffer on. -/
def handleLayerShellCommit (s : Scene) (c : Commit) : Scene × List Event :=
  match c.layer with
  | none => (s, [])
  | some (role, interactive) =>
    if !c.hasBuffer then (s, [])
    else
      let fresh := decide (role ∉ s.seenLayerRoles)
      let s' := { s with
        seenLayerRoles := if fresh then role :: s.seenLayerRoles else s.seenLayerRoles
        greeterSwap :=
          if fresh && decide (role = .overlay) && decide (s.foreground = .greeter) then
            s.greeterSwap.greeterFirstFrame.2
          else s.greeterSwap
        focus :=
          if decide (s.foreground = .greeter) && interactive then some (.layer c.surface)
          else s.focus }
      (s', if fresh then [.clientFirstFrame role] else [])

/-- `maybe_emit_session_first_frame`. -/
def maybeEmitSessionFirstFrame (s : Scene) (c : Commit) (w : Answers) : Scene × List Event :=
  if s.sessionFirstFrameEmitted then (s, [])
  else if s.sessionUid ≠ some c.surface.uid then (s, [])
  else if !c.nonEmpty then (s, [])
  else { s with sessionFirstFrameEmitted := true }.feedGate (.sessionFirstFrame c.surface.uid) w

/-- `maybe_focus_foreground_toplevel`. -/
def maybeFocusForegroundToplevel (s : Scene) (c : Commit) : Scene :=
  if s.foregroundToplevel = some c.surface ∧ c.hasBuffer = true then
    { s with focus := some (.toplevel c.surface) }
  else s

/-- `CompositorHandler::commit`. -/
def commit (s : Scene) (c : Commit) (w : Answers) : Scene × List Event :=
  if c.sync then (s, [])
  else
    let r₁ := s.handleLayerShellCommit c
    let r₂ := r₁.1.maybeEmitSessionFirstFrame c w
    (r₂.1.maybeFocusForegroundToplevel c, r₁.2 ++ r₂.2)

/-- `XdgShellHandler::new_toplevel`. -/
def newToplevel (s : Scene) (t : Surface) : Scene := { s with foregroundToplevel := some t }

/-- `surface_client_uid`; `live` says whether the client is still there. -/
def surfaceClientUid (t : Surface) (live : Bool) : Option UInt32 :=
  if live then some t.uid else none

/-- `was_session` of `toplevel_destroyed`. -/
def wasSession (s : Scene) (t : Surface) (live : Bool) : Bool :=
  match s.sessionUid, surfaceClientUid t live with
  | some sid, some suid => decide (sid = suid)
  | _, _ => false

/-- `XdgShellHandler::toplevel_destroyed`. -/
def toplevelDestroyed (s : Scene) (t : Surface) (live : Bool) (w : Answers) :
    Scene × List Event :=
  if s.foregroundToplevel = some t then
    let s' := { s with foregroundToplevel := none, focus := none }
    if s.wasSession t live && !s.shouldExit then s'.feedGate (.toplevelGone t.uid) w else (s', [])
  else (s, [])

/-! ## Shutdown, signals and the greeter's process -/

/-- `graceful_shutdown`. -/
def gracefulShutdown (s : Scene) (w : Answers) : Scene × List Event :=
  if s.shuttingDown then (s, [])
  else
    let killed := match s.greeter with
      | none => []
      | some pid => if w.killGreeter then [Event.greeterTerminated pid] else []
    ({ s with
        greeter := none
        foregroundToplevel := none
        foreground := .greeter
        shuttingDown := true },
      killed ++ [.shutdown])

/-- The `PrepareForShutdown` channel. -/
def prepareForShutdown (s : Scene) (arming : Bool) (w : Answers) : Scene × List Event :=
  if !arming then (s, [])
  else if s.shuttingDown then (s, [])
  else s.gracefulShutdown w

/-- SIGTERM and SIGINT. -/
def stopSignal (s : Scene) (w : Answers) : Scene × List Event :=
  if !s.shutdownArmed then (s, [])
  else if !s.shuttingDown then ({ s with shouldExit := true }, [.shutdown])
  else s.gracefulShutdown w

/-- `ReapOutcome`. -/
inductive ReapOutcome where
  | greeterDiedPreAuth
  | greeterDiedExpected
  | other
  deriving DecidableEq, Repr

/-- `classify_reaped_child`. -/
def classifyReapedChild (reapedPid : UInt32) (greeterPid sessionUid : Option UInt32) :
    ReapOutcome :=
  if greeterPid ≠ some reapedPid then .other
  else if sessionUid = none then .greeterDiedPreAuth
  else .greeterDiedExpected

/-- One turn of `reap_zombie_children`: the child that exited or was killed, if the status says
so. -/
def reapZombieChild (s : Scene) (reaped : Option UInt32) : Scene × List Event :=
  match reaped with
  | none => (s, [])
  | some pid =>
    match classifyReapedChild pid s.greeter s.sessionUid with
    | .greeterDiedPreAuth => ({ s with greeter := none }, [.greeterDiedPreAuth pid])
    | .greeterDiedExpected => ({ s with greeter := none }, [])
    | .other => (s, [])

/-- The part of `run_post_pivot_setup` that writes the scene: the greeter the broker spawned, and
`shutdown_armed` once the privileges are dropped. -/
def postPivotSetup (s : Scene) (spawned : Option UInt32) (dropped : Bool) : Scene × List Event :=
  let r := match spawned with
    | some pid => ({ s with greeterSwap := .new }.greeterUp pid,
        [Event.greeterSpawned pid, .foregroundChanged .greeter])
    | none => (s, [])
  ({ r.1 with shutdownArmed := r.1.shutdownArmed || dropped }, r.2)

/-! ## The record of a session -/

/-- The scene after the `spawned` reports among the events. -/
def records (s : Scene) (es : List Event) : Scene :=
  es.foldl (fun s e => match e with
    | .spawned _ spawn _ _ => s.recordSessionStarted spawn
    | _ => s) s

theorem records_append (s : Scene) (es es' : List Event) :
    s.records (es ++ es') = (s.records es).records es' := by
  simp only [records, List.foldl_append]

/-- The spawn requests the events report. -/
def spawns (es : List Event) : List SpawnRequest :=
  es.filterMap fun
    | .spawned _ spawn _ _ => some spawn
    | _ => none

@[simp] theorem spawns_append (es es' : List Event) :
    spawns (es ++ es') = spawns es ++ spawns es' := by
  simp [spawns]

@[simp] theorem spawns_nil : spawns [] = [] := rfl

/-- Only the session's uid is recorded, once: the first report, where there is no uid yet. -/
theorem records_eq (es : List Event) : ∀ s : Scene, s.records es
    = { s with sessionUid := s.sessionUid.or ((spawns es).head?.map SpawnRequest.uid) } := by
  induction es with
  | nil =>
    intro s
    simp [records]
  | cons e es ih =>
    intro s
    cases e with
    | spawned id spawn left gate =>
      have hrec : s.recordSessionStarted spawn
          = { s with sessionUid := s.sessionUid.or (some spawn.uid) } := by
        unfold recordSessionStarted
        cases hs : s.sessionUid with
        | none => rfl
        | some u =>
          show s = { s with sessionUid := some u }
          rw [← hs]
      have heq : s.records (.spawned id spawn left gate :: es)
          = (s.recordSessionStarted spawn).records es := rfl
      have hsp : spawns (.spawned id spawn left gate :: es) = spawn :: spawns es := rfl
      rw [heq, ih, hrec, hsp]
      simp
    | _ => exact ih s

/-! ## What a call of the gate does -/

section
variable (s : Scene) (c : GateCall) (w : Answers)

/-- All revert triggers are one method. -/
theorem call_trigger {c : GateCall} (hc : c.isTrigger = true) (g : SwapGate) :
    g.call c = g.revertOrDisarm := by
  cases c with
  | sessionOpened id => cases hc
  | sessionFirstFrame uid => cases hc
  | _ => rfl

/-- And so are the keys. -/
theorem call_key {c : GateCall} (hc : c.isTrigger = false) (g : SwapGate) :
    g.call c = g.arm c.isOpened c.isFirstFrame := by
  cases c with
  | sessionOpened id => rfl
  | sessionFirstFrame uid => rfl
  | _ => cases hc

/-- Every way a call can move the gate. -/
theorem call_cases (g : SwapGate) (c : GateCall) :
    (c.isTrigger = false ∧ (∃ o f, g.phase = .arming o f ∧ (o || c.isOpened) = true ∧
      (f || c.isFirstFrame) = true) ∧ g.call c = (.swap, ⟨.swapped⟩)) ∨
    (c.isTrigger = false ∧ ∃ o f, g.phase = .arming o f ∧
      ((o || c.isOpened) && (f || c.isFirstFrame)) = false ∧
      g.call c = (.none, ⟨.arming (o || c.isOpened) (f || c.isFirstFrame)⟩)) ∨
    (c.isTrigger = false ∧ (g.phase = .swapped ∨ g.phase = .done) ∧ g.call c = (.none, g)) ∨
    (c.isTrigger = true ∧ g.phase = .swapped ∧ g.call c = (.revert, ⟨.done⟩)) ∨
    (c.isTrigger = true ∧ g.phase ≠ .swapped ∧ g.call c = (.none, ⟨.done⟩)) := by
  cases hc : c.isTrigger with
  | false =>
    rw [call_key hc]
    rcases arm_cases g c.isOpened c.isFirstFrame with
      ⟨o, f, hg, ho, hf, heq⟩ | ⟨o, f, hg, hno, heq⟩ | ⟨hg, heq⟩
    · exact .inl ⟨rfl, ⟨o, f, hg, ho, hf⟩, heq⟩
    · exact .inr (.inl ⟨rfl, o, f, hg, hno, heq⟩)
    · exact .inr (.inr (.inl ⟨rfl, hg, heq⟩))
  | true =>
    rw [call_trigger hc]
    rcases revertOrDisarm_cases g with ⟨hg, heq⟩ | ⟨⟨o, f, hg⟩, heq⟩ | ⟨hg, heq⟩
    · exact .inr (.inr (.inr (.inl ⟨rfl, hg, heq⟩)))
    · exact .inr (.inr (.inr (.inr ⟨rfl, by simp [hg], heq⟩)))
    · refine .inr (.inr (.inr (.inr ⟨rfl, by simp [hg], ?_⟩)))
      rw [heq, ← hg]

/-- A key completes the gate only if it is armed, and it is no revert trigger. -/
theorem call_swap {g : SwapGate} {c : GateCall} (h : (g.call c).1 = .swap) :
    c.isTrigger = false ∧ (∃ o f, g.phase = .arming o f ∧ (o || c.isOpened) = true ∧
      (f || c.isFirstFrame) = true) ∧ (g.call c).2 = ⟨.swapped⟩ := by
  rcases call_cases g c with ⟨hc, hg, heq⟩ | ⟨-, _, _, -, -, heq⟩ | ⟨-, -, heq⟩ | ⟨-, -, heq⟩ |
    ⟨-, -, heq⟩
  · exact ⟨hc, hg, by rw [heq]⟩
  all_goals
    rw [heq] at h
    cases h

/-- A gate reverts only if it is swapped, on a revert trigger. -/
theorem call_revert {g : SwapGate} {c : GateCall} (h : (g.call c).1 = .revert) :
    c.isTrigger = true ∧ g.phase = .swapped := by
  rcases call_cases g c with ⟨-, -, heq⟩ | ⟨-, _, _, -, -, heq⟩ | ⟨-, -, heq⟩ | ⟨hc, hg, -⟩ |
    ⟨-, -, heq⟩
  · rw [heq] at h
    cases h
  · rw [heq] at h
    cases h
  · rw [heq] at h
    cases h
  · exact ⟨hc, hg⟩
  · rw [heq] at h
    cases h

/-- The gate after a call that changes nothing on the screen. -/
theorem feedGate_none (h : (s.swap.call c).1 = .none) :
    s.feedGate c w = ({ s with swap := (s.swap.call c).2 }, [.gate c .none]) := by
  simp only [feedGate, h, applySwapAction]

theorem feedGate_swap (h : (s.swap.call c).1 = .swap) :
    (s.feedGate c w).1 = { s with
      swap := ⟨.swapped⟩
      greeter := none
      foreground := .session
      focus := (s.foregroundToplevel.map .toplevel).or s.focus } := by
  simp only [feedGate, h, applySwapAction, applySwap, (call_swap h).2.2]

theorem feedGate_revert (h : (s.swap.call c).1 = .revert) :
    (s.feedGate c w).1 = { s with
      foreground := .greeter
      focus := none
      sessionUid := none
      swap := .new
      greeter := w.spawnGreeter.or s.greeter
      greeterSwap :=
        if w.spawnGreeter.isSome then GreeterSwapGate.new.greeterSpawned.2 else .new } := by
  simp only [feedGate, h, applySwapAction, applyRevert]
  cases w.spawnGreeter with
  | none => simp
  | some pid => simp [greeterUp]

/-- No action of the gate touches the foreground toplevel. -/
@[simp] theorem feedGate_foregroundToplevel :
    (s.feedGate c w).1.foregroundToplevel = s.foregroundToplevel := by
  cases h : (s.swap.call c).1 with
  | none => rw [feedGate_none s c w h]
  | swap => rw [feedGate_swap s c w h]
  | revert => rw [feedGate_revert s c w h]

/-- The actions the gate returned, in order. -/
def gateCalls (es : List Event) : List (GateCall × SwapAction) :=
  es.filterMap fun
    | .gate c a => some (c, a)
    | _ => none

@[simp] theorem gateCalls_append (es es' : List Event) :
    gateCalls (es ++ es') = gateCalls es ++ gateCalls es' := by
  simp [gateCalls]

@[simp] theorem gateCalls_nil : gateCalls [] = [] := rfl

theorem mem_gateCalls {es : List Event} {c : GateCall} {a : SwapAction} :
    (c, a) ∈ gateCalls es ↔ .gate c a ∈ es := by
  unfold gateCalls
  rw [List.mem_filterMap]
  constructor
  · rintro ⟨e, he, h⟩
    cases e with
    | gate c' a' =>
      obtain ⟨rfl, rfl⟩ := Prod.mk.inj (Option.some.inj h)
      exact he
    | _ => cases h
  · intro h
    exact ⟨_, h, rfl⟩

/-- A call of the gate is one event of it. -/
@[simp] theorem gateCalls_feedGate :
    gateCalls (s.feedGate c w).2 = [(c, (s.swap.call c).1)] := by
  have happ : gateCalls ({ s with swap := (s.swap.call c).2 }.applySwapAction
      (s.swap.call c).1 w).2 = [] := by
    unfold applySwapAction
    split
    · rfl
    · unfold applySwap
      dsimp only
      split
      · rfl
      · split <;> rfl
    · unfold applyRevert
      dsimp only
      split <;> rfl
  show (c, (s.swap.call c).1) :: gateCalls _ = _
  rw [happ]

/-- No action of the gate reports a spawn. -/
@[simp] theorem spawns_feedGate : spawns (s.feedGate c w).2 = [] := by
  have happ : spawns ({ s with swap := (s.swap.call c).2 }.applySwapAction
      (s.swap.call c).1 w).2 = [] := by
    unfold applySwapAction
    split
    · rfl
    · unfold applySwap
      dsimp only
      split
      · rfl
      · split <;> rfl
    · unfold applyRevert
      dsimp only
      split <;> rfl
  exact happ

/-! ## What the Wayland handlers do -/

/-- The call of the gate a commit makes. -/
def commitCall (k : Commit) : Option GateCall :=
  if k.sync = false ∧ s.sessionFirstFrameEmitted = false ∧ s.sessionUid = some k.surface.uid ∧
      k.nonEmpty = true then
    some (.sessionFirstFrame k.surface.uid)
  else none

/-- The call of the gate the end of a toplevel makes. -/
def destroyedCall (t : Surface) (live : Bool) : Option GateCall :=
  if s.foregroundToplevel = some t ∧ live = true ∧ s.sessionUid = some t.uid ∧
      s.shouldExit = false then
    some (.toplevelGone t.uid)
  else none

/-- A layer commit gives its surface the focus while the foreground is the greeter's. -/
theorem handleLayerShellCommit_cases (k : Commit) :
    (∃ roles gs, (s.handleLayerShellCommit k).1 = { s with
      seenLayerRoles := roles
      greeterSwap := gs
      focus := (s.handleLayerShellCommit k).1.focus }) ∧
    ((s.handleLayerShellCommit k).1.focus = s.focus ∨ (s.foreground = .greeter ∧
      (s.handleLayerShellCommit k).1.focus = some (.layer k.surface))) ∧
    gateCalls (s.handleLayerShellCommit k).2 = [] := by
  unfold handleLayerShellCommit
  split
  · exact ⟨⟨_, _, rfl⟩, .inl rfl, rfl⟩
  · rename_i role interactive hl
    split
    · exact ⟨⟨_, _, rfl⟩, .inl rfl, rfl⟩
    · refine ⟨⟨_, _, rfl⟩, ?_, ?_⟩
      · dsimp only
        split
        · rename_i hf
          have hb : s.foreground = .greeter ∧ interactive = true := by simpa using hf
          exact .inr ⟨hb.1, rfl⟩
        · exact .inl rfl
      · dsimp only
        split <;> rfl

/-- The focus after a commit of the foreground toplevel. -/
theorem maybeFocusForegroundToplevel_cases (k : Commit) :
    ∃ f, s.maybeFocusForegroundToplevel k = { s with focus := f } ∧
      (f = s.focus ∨ ∃ t, s.foregroundToplevel = some t ∧ f = some (.toplevel t)) := by
  unfold maybeFocusForegroundToplevel
  split
  · rename_i h
    exact ⟨_, rfl, .inr ⟨_, h.1, rfl⟩⟩
  · exact ⟨_, rfl, .inl rfl⟩

theorem maybeEmitSessionFirstFrame_none {k : Commit} (hsync : k.sync = false)
    (h : s.commitCall k = none) : s.maybeEmitSessionFirstFrame k w = (s, []) := by
  unfold commitCall at h
  unfold maybeEmitSessionFirstFrame
  split_ifs with h1 h2 h3
  · rfl
  · rfl
  · rfl
  · exfalso
    rw [if_pos ⟨hsync, by simpa using h1, by simpa using h2, by simpa using h3⟩] at h
    cases h

theorem maybeEmitSessionFirstFrame_some {k : Commit} {c : GateCall} (h : s.commitCall k = some c) :
    s.maybeEmitSessionFirstFrame k w =
      { s with sessionFirstFrameEmitted := true }.feedGate c w := by
  unfold commitCall at h
  split_ifs at h with hk
  obtain ⟨-, h1, h2, h3⟩ := hk
  cases h
  unfold maybeEmitSessionFirstFrame
  rw [if_neg (by simp [h1]), if_neg (by simp [h2]), if_neg (by simp [h3])]

/-- A commit that does not call the gate moves the focus alone: to a layer of the greeter's time, or
to the foreground toplevel. -/
theorem commit_none {k : Commit} (h : s.commitCall k = none) :
    ∃ roles gs f, (s.commit k w).1
      = { s with seenLayerRoles := roles, greeterSwap := gs, focus := f } ∧
    (f = s.focus ∨ (s.foreground = .greeter ∧ f = some (.layer k.surface)) ∨
      ∃ t, s.foregroundToplevel = some t ∧ f = some (.toplevel t)) ∧
    gateCalls (s.commit k w).2 = [] := by
  unfold commit
  split
  · exact ⟨_, _, _, rfl, .inl rfl, rfl⟩
  · rename_i hsync
    obtain ⟨⟨roles, gs, heq⟩, hf, hev⟩ := s.handleLayerShellCommit_cases k
    have hcall : (s.handleLayerShellCommit k).1.commitCall k = none := by
      rw [heq]
      exact h
    have htop : (s.handleLayerShellCommit k).1.foregroundToplevel = s.foregroundToplevel := by
      rw [heq]
    dsimp only
    rw [maybeEmitSessionFirstFrame_none _ w (by simpa using hsync) hcall]
    obtain ⟨f', heq', hf'⟩ := (s.handleLayerShellCommit k).1.maybeFocusForegroundToplevel_cases k
    rw [htop] at hf'
    rw [heq', heq]
    refine ⟨roles, gs, f', rfl, ?_, by simpa using hev⟩
    rcases hf' with rfl | htop'
    · rcases hf with hf | hl
      · exact .inl hf
      · exact .inr (.inl hl)
    · exact .inr (.inr htop')

/-- The scene on which the session's first frame calls the gate. -/
def framed (roles : List LayerRole) (gs : GreeterSwapGate) (f : Option Focus) : Scene :=
  { s with
    seenLayerRoles := roles
    greeterSwap := gs
    focus := f
    sessionFirstFrameEmitted := true }

/-- The commit that calls the gate. -/
theorem commit_some {k : Commit} {c : GateCall} (h : s.commitCall k = some c) :
    ∃ roles gs f, let t := s.framed roles gs (s.handleLayerShellCommit k).1.focus
      (s.commit k w).1 = { (t.feedGate c w).1 with focus := f } ∧
      (f = (t.feedGate c w).1.focus ∨
        ∃ t, s.foregroundToplevel = some t ∧ f = some (.toplevel t)) ∧
      gateCalls (s.commit k w).2 = [(c, (s.swap.call c).1)] := by
  have hsync : ¬ k.sync = true := by
    unfold commitCall at h
    split_ifs at h with hk
    simp [hk.1]
  obtain ⟨⟨roles, gs, heq⟩, -, hev⟩ := s.handleLayerShellCommit_cases k
  have hcall : (s.handleLayerShellCommit k).1.commitCall k = some c := by
    rw [heq]
    exact h
  have hfed : (s.handleLayerShellCommit k).1.maybeEmitSessionFirstFrame k w
      = (s.framed roles gs (s.handleLayerShellCommit k).1.focus).feedGate c w := by
    rw [maybeEmitSessionFirstFrame_some _ w hcall]
    generalize (s.handleLayerShellCommit k).1.focus = f at heq ⊢
    rw [heq]
    rfl
  obtain ⟨f, heq', hf⟩ := ((s.framed roles gs (s.handleLayerShellCommit k).1.focus).feedGate c
    w).1.maybeFocusForegroundToplevel_cases k
  rw [feedGate_foregroundToplevel] at hf
  unfold commit
  rw [if_neg hsync]
  dsimp only
  rw [hfed]
  refine ⟨roles, gs, f, heq', hf, ?_⟩
  rw [gateCalls_append, hev, List.nil_append, gateCalls_feedGate]
  rfl

theorem wasSession_iff {t : Surface} {live : Bool} :
    s.wasSession t live = true ↔ live = true ∧ s.sessionUid = some t.uid := by
  unfold wasSession surfaceClientUid
  cases live <;> cases s.sessionUid <;> simp

/-- The end of the toplevel in front calls the gate if it was the session's and the loop goes on. -/
theorem destroyedCall_front {t : Surface} (live : Bool) (hfg : s.foregroundToplevel = some t) :
    s.destroyedCall t live
      = if s.wasSession t live && !s.shouldExit then some (.toplevelGone t.uid) else none := by
  have hiff : (s.wasSession t live && !s.shouldExit) = true ↔ s.foregroundToplevel = some t ∧
      live = true ∧ s.sessionUid = some t.uid ∧ s.shouldExit = false := by
    rw [Bool.and_eq_true, wasSession_iff, and_assoc, Bool.not_eq_true', and_iff_right hfg]
  simp only [destroyedCall, hiff]

/-- The end of a toplevel that does not call the gate. -/
theorem toplevelDestroyed_none {t : Surface} {live : Bool} (h : s.destroyedCall t live = none) :
    gateCalls (s.toplevelDestroyed t live w).2 = [] ∧
    ((s.toplevelDestroyed t live w).1 = s ∨ (s.foregroundToplevel = some t ∧
      (s.toplevelDestroyed t live w).1 =
        { s with foregroundToplevel := none, focus := none })) := by
  unfold toplevelDestroyed
  by_cases hfg : s.foregroundToplevel = some t
  · have hcall : (s.wasSession t live && !s.shouldExit) = false := by
      by_contra hw
      rw [s.destroyedCall_front live hfg, if_pos (by simpa using hw)] at h
      cases h
    rw [if_pos hfg, hcall]
    exact ⟨rfl, .inr ⟨hfg, rfl⟩⟩
  · rw [if_neg hfg]
    exact ⟨rfl, .inl rfl⟩

theorem toplevelDestroyed_some {t : Surface} {live : Bool} {c : GateCall}
    (h : s.destroyedCall t live = some c) :
    s.foregroundToplevel = some t ∧ c = .toplevelGone t.uid ∧
    s.toplevelDestroyed t live w
      = { s with foregroundToplevel := none, focus := none }.feedGate c w := by
  unfold destroyedCall at h
  split_ifs at h with hk
  obtain ⟨hfg, hlive, hu, hexit⟩ := hk
  cases h
  have hw : s.wasSession t live = true := (wasSession_iff s).mpr ⟨hlive, hu⟩
  refine ⟨hfg, rfl, ?_⟩
  simp [toplevelDestroyed, hfg, hw, hexit]

/-! ## What the other handlers do -/

theorem spawns_commit (k : Commit) : spawns (s.commit k w).2 = [] := by
  have hlayer : spawns (s.handleLayerShellCommit k).2 = [] := by
    unfold handleLayerShellCommit
    split
    · rfl
    · split
      · rfl
      · dsimp only
        split <;> rfl
  have hframe : ∀ sc : Scene, spawns (sc.maybeEmitSessionFirstFrame k w).2 = [] := by
    intro sc
    unfold maybeEmitSessionFirstFrame
    split_ifs <;> simp
  unfold commit
  split_ifs
  · rfl
  · simp [hlayer, hframe]

theorem spawns_gracefulShutdown : spawns (s.gracefulShutdown w).2 = [] := by
  unfold gracefulShutdown
  split
  · rfl
  · dsimp only
    split
    · rfl
    · split <;> rfl

theorem spawns_toplevelDestroyed (t : Surface) (live : Bool) :
    spawns (s.toplevelDestroyed t live w).2 = [] := by
  unfold toplevelDestroyed
  dsimp only
  split_ifs <;> simp

theorem spawns_prepareForShutdown (arming : Bool) :
    spawns (s.prepareForShutdown arming w).2 = [] := by
  unfold prepareForShutdown
  split_ifs
  · rfl
  · rfl
  · exact spawns_gracefulShutdown s w

theorem spawns_stopSignal : spawns (s.stopSignal w).2 = [] := by
  unfold stopSignal
  split_ifs
  · rfl
  · rfl
  · exact spawns_gracefulShutdown s w

theorem spawns_reapZombieChild (reaped : Option UInt32) :
    spawns (s.reapZombieChild reaped).2 = [] := by
  unfold reapZombieChild
  split
  · rfl
  · split <;> rfl

theorem spawns_postPivotSetup (spawned : Option UInt32) (dropped : Bool) :
    spawns (s.postPivotSetup spawned dropped).2 = [] := by
  cases spawned <;> rfl

/-- The scene `graceful_shutdown` leaves. -/
def latched : Scene :=
  { s with
    greeter := none
    foregroundToplevel := none
    foreground := .greeter
    shuttingDown := true }

theorem prepareForShutdown_cases (arming : Bool) :
    (s.prepareForShutdown arming w).1 = s ∨
    (s.shuttingDown = false ∧ (s.prepareForShutdown arming w).1 = s.latched) := by
  unfold prepareForShutdown
  split_ifs with ha hd
  · exact .inl rfl
  · exact .inl rfl
  · right
    unfold gracefulShutdown
    rw [if_neg hd]
    exact ⟨by simpa using hd, rfl⟩

/-- A stop signal is a plain stop, or does nothing: the latch is set already when it gets to
`graceful_shutdown`. -/
theorem stopSignal_cases :
    (s.stopSignal w).1 = s ∨
    (s.shuttingDown = false ∧ (s.stopSignal w).1 = { s with shouldExit := true }) := by
  unfold stopSignal
  split_ifs with ha hd
  · exact .inl rfl
  · exact .inr ⟨by simpa using hd, rfl⟩
  · left
    unfold gracefulShutdown
    rw [if_pos (by simpa using hd)]

theorem reapZombieChild_cases (reaped : Option UInt32) :
    (s.reapZombieChild reaped).1 = s ∨
    (s.reapZombieChild reaped).1 = { s with greeter := none } := by
  unfold reapZombieChild
  split
  · exact .inl rfl
  · split
    · exact .inr rfl
    · exact .inr rfl
    · exact .inl rfl

theorem postPivotSetup_eq (spawned : Option UInt32) (dropped : Bool) :
    ∃ gs, (s.postPivotSetup spawned dropped).1 = { s with
      greeterSwap := gs
      greeter := spawned.or s.greeter
      shutdownArmed := s.shutdownArmed || dropped } := by
  cases spawned with
  | none => exact ⟨_, rfl⟩
  | some pid => exact ⟨_, rfl⟩

end

end Scene

end Halmasuit.Compositor
