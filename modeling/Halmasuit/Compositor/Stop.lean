import Halmasuit.Compositor.Pivot
import Halmasuit.Compositor.Windows

/-!
# A plain stop

The main loop (`halmasuit/src/main.rs` 6033–6078). A stop signal sets `should_exit`; after each
dispatch the loop looks at it, asks the session's toplevel to close
(`begin_graceful_session_close`, 1190–1212), and leaves when `foreground_toplevel` is empty or
`GRACEFUL_SESSION_CLOSE_GRACE` has passed.

The session that closes is a logout to everything else: `toplevel_destroyed` (1753–1804) looks at
`should_exit` before it tells the gate, `handle_broker_ready` and `handle_leader_pidfd_ready`
(2575–2704) do not.

Headlines:
* `stop_step_iff`: which steps of a stopping compositor revert nothing, spawn nothing, and leave
  when the session's toplevel is gone.
* `stop_run_iff`: the same over whole runs.
-/

namespace Halmasuit.Compositor

open Halmasuit.Greetd (Request SpawnRequest readRequest)
open Halmasuit.SessionIpc
open Halmasuit.Lib

/-! ## The main loop -/

/-- `GRACEFUL_SESSION_CLOSE_GRACE`, in nanoseconds. -/
def gracefulSessionCloseGrace : Nat := 2 * 10 ^ 9

/-- `begin_graceful_session_close`: whether there is a session toplevel to close. -/
def HalmasuitState.beginGracefulSessionClose (s : HalmasuitState) : Bool :=
  decide (s.foreground = .session) && s.foregroundToplevel.isSome

/-- The main loop: the state, `graceful_deadline`, and whether the loop was left. -/
structure MainLoop where
  state : HalmasuitState
  gracefulDeadline : Option Nat
  left : Bool

/-- A callback of the dispatch, or what comes after the dispatch, with the clock. -/
inductive MainInput where
  | callback (i : HalmasuitState.Input)
  | turn (now : Nat)

namespace MainLoop

/-- The `should_exit` block. -/
def turn (p : MainLoop) (now : Nat) : MainLoop :=
  if p.state.shouldExit then
    match p.gracefulDeadline with
    | none =>
      if p.state.beginGracefulSessionClose then
        { p with gracefulDeadline := some (now + gracefulSessionCloseGrace) }
      else { p with left := true }
    | some deadline =>
      if p.state.foregroundToplevel.isNone || decide (deadline ≤ now) then { p with left := true }
      else p
  else p

/-- One step of the main loop. -/
def step (fromSlice : List UInt8 → Option Request) (p : MainLoop) (m : MainInput) :
    MainLoop × List Event :=
  if p.left then (p, [])
  else
    match m with
    | .callback i => ({ p with state := (p.state.step fromSlice i).1 },
      (p.state.step fromSlice i).2)
    | .turn now => (p.turn now, [])

/-- The session's toplevel is on the screen. -/
def SessionToplevel (s : HalmasuitState) : Prop :=
  s.foreground = .session ∧ ∃ t, s.foregroundToplevel = some t ∧ s.sessionUid = some t.uid

/-- The grace deadline has passed. -/
def Passed (p : MainLoop) (now : Nat) : Prop := ∃ deadline ∈ p.gracefulDeadline, deadline ≤ now

/-- A stop was asked for, and the loop is not left. -/
def Stopping (p : MainLoop) : Prop := p.left = false ∧ p.state.shouldExit = true

/-- What a stopping compositor is to give: nothing is reverted and no greeter is spawned, and a turn
of the loop leaves it if the session's toplevel is gone or the deadline has passed, and only
then. -/
def Stops (fromSlice : List UInt8 → Option Request) (p : MainLoop) : MainInput → Prop
  | .callback i => p.Stopping →
    (∀ c, .gate c .revert ∉ (p.step fromSlice (.callback i)).2) ∧
      ∀ pid, .greeterSpawned pid ∉ (p.step fromSlice (.callback i)).2
  | .turn now => p.Stopping →
    ((p.step fromSlice (.turn now)).1.left = true ↔
      ¬ SessionToplevel p.state ∨ p.Passed now)

/-- What a step of a stopping compositor has to meet: while the session is shown, no connection
reports its end; and the toplevel a turn before the deadline finds in the foreground slot is the
session's, which has the foreground. At the first turn the slot does not matter when the greeter has
the foreground. -/
def Quiet (p : MainLoop) : MainInput → Prop
  | .callback i => p.Stopping → p.state.swap.phase = .swapped →
    ∀ c ∈ p.state.gateCall i, c.isTrigger = false
  | .turn now => p.Stopping → ¬ p.Passed now → ∀ t ∈ p.state.foregroundToplevel,
    (p.gracefulDeadline = none → p.state.foreground = .session) →
      p.state.foreground = .session ∧ p.state.sessionUid = some t.uid

end MainLoop

/-! ## Greeters are spawned on `Revert` -/

/-- A greeter spawned in the events comes with a `Revert` of the gate. -/
def SpawnsOnRevert (es : List Event) : Prop :=
  ∀ pid, .greeterSpawned pid ∈ es → ∃ c, .gate c .revert ∈ es

theorem SpawnsOnRevert.append {es es' : List Event} (h : SpawnsOnRevert es)
    (h' : SpawnsOnRevert es') : SpawnsOnRevert (es ++ es') := by
  intro pid hmem
  rcases List.mem_append.mp hmem with hmem | hmem
  · obtain ⟨c, hc⟩ := h pid hmem
    exact ⟨c, List.mem_append_left _ hc⟩
  · obtain ⟨c, hc⟩ := h' pid hmem
    exact ⟨c, List.mem_append_right _ hc⟩

theorem spawnsOnRevert_of_notMem {es : List Event} (h : ∀ pid, .greeterSpawned pid ∉ es) :
    SpawnsOnRevert es :=
  fun pid hmem => absurd hmem (h pid)

theorem spawnsOnRevert_feedGate (s : Scene) (c : GateCall) (w : Answers) :
    SpawnsOnRevert (s.feedGate c w).2 := by
  cases ha : (s.swap.call c).1 with
  | revert => exact fun _ _ => ⟨c, by simp [Scene.feedGate, ha]⟩
  | none =>
    refine spawnsOnRevert_of_notMem fun pid => ?_
    simp [Scene.feedGate, ha, Scene.applySwapAction]
  | swap =>
    refine spawnsOnRevert_of_notMem fun pid => ?_
    cases hg : s.greeter with
    | none => simp [Scene.feedGate, ha, Scene.applySwapAction, Scene.applySwap, hg]
    | some g =>
      cases hk : w.killGreeter <;>
        simp [Scene.feedGate, ha, Scene.applySwapAction, Scene.applySwap, hg, hk]

theorem spawnsOnRevert_gracefulShutdown (s : Scene) (w : Answers) :
    SpawnsOnRevert (s.gracefulShutdown w).2 := by
  refine spawnsOnRevert_of_notMem fun pid => ?_
  unfold Scene.gracefulShutdown
  split
  · simp
  · cases s.greeter with
    | none => simp
    | some g => cases w.killGreeter <;> simp

theorem spawnsOnRevert_commit (s : Scene) (k : Scene.Commit) (w : Answers) :
    SpawnsOnRevert (s.commit k w).2 := by
  have hlayer : SpawnsOnRevert (s.handleLayerShellCommit k).2 := by
    refine spawnsOnRevert_of_notMem fun pid => ?_
    unfold Scene.handleLayerShellCommit
    split
    · simp
    · split
      · simp
      · dsimp only
        split <;> simp
  have hframe : ∀ t : Scene, SpawnsOnRevert (t.maybeEmitSessionFirstFrame k w).2 := by
    intro t
    unfold Scene.maybeEmitSessionFirstFrame
    split_ifs
    · exact spawnsOnRevert_of_notMem (by simp)
    · exact spawnsOnRevert_of_notMem (by simp)
    · exact spawnsOnRevert_of_notMem (by simp)
    · exact spawnsOnRevert_feedGate _ _ _
  unfold Scene.commit
  split
  · exact spawnsOnRevert_of_notMem (by simp)
  · exact hlayer.append (hframe _)

theorem spawnsOnRevert_toplevelDestroyed (s : Scene) (t : Surface) (live : Bool) (w : Answers) :
    SpawnsOnRevert (s.toplevelDestroyed t live w).2 := by
  unfold Scene.toplevelDestroyed
  dsimp only
  split_ifs
  · exact spawnsOnRevert_feedGate _ _ _
  · exact spawnsOnRevert_of_notMem (by simp)
  · exact spawnsOnRevert_of_notMem (by simp)

theorem spawnsOnRevert_prepareForShutdown (s : Scene) (arming : Bool) (w : Answers) :
    SpawnsOnRevert (s.prepareForShutdown arming w).2 := by
  unfold Scene.prepareForShutdown
  split_ifs
  · exact spawnsOnRevert_of_notMem (by simp)
  · exact spawnsOnRevert_of_notMem (by simp)
  · exact spawnsOnRevert_gracefulShutdown _ _

theorem spawnsOnRevert_stopSignal (s : Scene) (w : Answers) :
    SpawnsOnRevert (s.stopSignal w).2 := by
  unfold Scene.stopSignal
  split_ifs
  · exact spawnsOnRevert_of_notMem (by simp)
  · exact spawnsOnRevert_of_notMem (by simp)
  · exact spawnsOnRevert_gracefulShutdown _ _

theorem spawnsOnRevert_reapZombieChild (s : Scene) (reaped : Option UInt32) :
    SpawnsOnRevert (s.reapZombieChild reaped).2 := by
  refine spawnsOnRevert_of_notMem fun pid => ?_
  unfold Scene.reapZombieChild
  split
  · simp
  · split <;> simp

namespace HalmasuitState

variable {fromSlice : List UInt8 → Option Request}

theorem spawnsOnRevert_feedOutcome (s : HalmasuitState) (id : Nat) (out : EpisodeOutcome)
    (w : Answers) : SpawnsOnRevert (s.feedOutcome id out w).2 := by
  have hopened : SpawnsOnRevert (if out.sessionOpened then
      ((s.feedGate (.sessionOpened id) w).1.armLeaderPidfdBackstop id w.armPidfd,
        (s.feedGate (.sessionOpened id) w).2) else (s, [])).2 := by
    split
    · exact spawnsOnRevert_feedGate _ _ _
    · exact spawnsOnRevert_of_notMem (by simp)
  unfold feedOutcome
  dsimp only
  split
  · exact hopened
  · exact hopened.append (spawnsOnRevert_feedGate _ _ _)

theorem spawnsOnRevert_recorded (sc : Scene) (id : Nat) (spawned : Option SpawnRequest) :
    SpawnsOnRevert (recorded sc id spawned).2 := by
  refine spawnsOnRevert_of_notMem fun pid => ?_
  cases spawned <;> simp [recorded]

theorem spawnsOnRevert_handleConnectionReady (s : HalmasuitState) (id : Nat) (r : StreamReady) :
    SpawnsOnRevert (s.handleConnectionReady fromSlice id r).2 := by
  unfold handleConnectionReady
  split
  · exact spawnsOnRevert_of_notMem (by simp)
  · rename_i cs _
    refine SpawnsOnRevert.append (spawnsOnRevert_of_notMem fun pid hmem => ?_)
      (spawnsOnRevert_of_notMem fun pid hmem => ?_)
    · split at hmem
      · obtain ⟨_, _, _, heq⟩ := (readLoop_records id r.reads cs s.toScene).2 _ hmem
        cases heq
      · cases hmem
    · cases (greeterEnd_scene _ id _).2 _ hmem

theorem spawnsOnRevert_handleBrokerReady (s : HalmasuitState) (id : Nat) (readable : Bool)
    (env : Env) (recv : Recv) (w : Answers) :
    SpawnsOnRevert (s.handleBrokerReady fromSlice id readable env recv w).2 := by
  unfold handleBrokerReady
  split
  · exact spawnsOnRevert_of_notMem (by simp)
  · split
    · refine @SpawnsOnRevert.append [_] _ (spawnsOnRevert_of_notMem (by simp)) ?_
      exact (spawnsOnRevert_recorded _ _ _).append (spawnsOnRevert_feedOutcome _ _ _ _)
    · exact spawnsOnRevert_of_notMem (by simp)

/-- A callback spawns a greeter on `Revert`, or in the setup after the pivot. -/
theorem spawnsOnRevert_step (fromSlice : List UInt8 → Option Request) (s : HalmasuitState)
    (i : Input) (hpoll : i.isSetup = true → Source.pivotPoll ∉ s.sources) :
    SpawnsOnRevert (s.step fromSlice i).2 := by
  have hnil : SpawnsOnRevert [] := spawnsOnRevert_of_notMem (by simp)
  cases i with
  | connectionReady id r =>
    unfold step
    dsimp only
    split_ifs
    · exact spawnsOnRevert_handleConnectionReady s id r
    · exact hnil
  | brokerReady id readable env recv w =>
    unfold step
    dsimp only
    split_ifs
    · exact spawnsOnRevert_handleBrokerReady s id readable env recv w
    · exact hnil
  | leaderPidfdReady id w =>
    unfold step
    dsimp only
    split_ifs
    · exact spawnsOnRevert_feedGate _ _ _
    · exact hnil
  | commit c w =>
    unfold step
    dsimp only
    split_ifs
    · exact spawnsOnRevert_commit _ _ _
    · exact hnil
  | toplevelDestroyed t live w =>
    unfold step
    dsimp only
    split_ifs
    · exact spawnsOnRevert_toplevelDestroyed _ _ _ _
    · exact hnil
  | prepareForShutdown arming w => exact spawnsOnRevert_prepareForShutdown _ _ _
  | stopSignal w => exact spawnsOnRevert_stopSignal _ _
  | childReaped pid => exact spawnsOnRevert_reapZombieChild _ _
  | postPivotSetup listener spawned dropped =>
    unfold step
    dsimp only
    rw [if_neg (hpoll rfl)]
    exact hnil
  | accept a => exact hnil
  | idle =>
    unfold step idle
    dsimp only
    split
    · exact hnil
    · exact spawnsOnRevert_of_notMem (by simp)
  | waylandConnect uid =>
    unfold step waylandConnect
    dsimp only
    split_ifs <;> exact spawnsOnRevert_of_notMem (by simp)
  | newToplevel t =>
    unfold step
    dsimp only
    split_ifs <;> exact hnil

/-- While the pivot is polled for, stop signals are ignored. -/
def Unstopped (s : HalmasuitState) : Prop :=
  Source.pivotPoll ∈ s.sources → s.shutdownArmed = false ∧ s.shouldExit = false

theorem unstopped_step (fromSlice : List UInt8 → Option Request) (s : HalmasuitState) (i : Input)
    (h : s.Unstopped) : (s.step fromSlice i).1.Unstopped := by
  intro hpoll
  have hsrc := pivotPoll_step fromSlice s i hpoll
  obtain ⟨harmed, hexit⟩ := h hsrc
  have hsetup : i.isSetup = false := by
    cases i with
    | postPivotSetup listener spawned dropped =>
      unfold step postPivotSetup onScene unregister at hpoll
      simp [hsrc] at hpoll
    | _ => rfl
  obtain ⟨harmed', hexit'⟩ := (s.step_moves fromSlice i).unarmed hsetup harmed
  exact ⟨harmed', hexit'.trans hexit⟩

theorem unstopped_start (inInitramfs : Bool) (greeterUid : UInt32) (pamService : String)
    (greeter : Option UInt32) : (start inInitramfs greeterUid pamService greeter).Unstopped := by
  intro hpoll
  cases inInitramfs with
  | true => exact ⟨rfl, rfl⟩
  | false => cases hpoll

/-- A callback that reverts nothing: no revert trigger reaches a gate that shows the session. -/
theorem unreverted_iff (fromSlice : List UInt8 → Option Request) (s : HalmasuitState) (i : Input) :
    (∀ c, .gate c .revert ∉ (s.step fromSlice i).2) ↔
      (s.swap.phase = .swapped → ∀ c ∈ s.gateCall i, c.isTrigger = false) := by
  constructor
  · intro h hp c hc
    by_contra htrigger
    refine h c ((gate_mem_step fromSlice s i c _).mpr ⟨hc, ?_⟩)
    rw [Scene.call_trigger (by simpa using htrigger), SwapGate.revertOrDisarm, hp]
  · intro h c hmem
    obtain ⟨hc, ha⟩ := (gate_mem_step fromSlice s i c _).mp hmem
    obtain ⟨htrigger, hp⟩ := Scene.call_revert ha
    rw [h hp c hc] at htrigger
    cases htrigger

end HalmasuitState

namespace MainLoop

open HalmasuitState

theorem turn_state (p : MainLoop) (now : Nat) : (p.turn now).state = p.state := by
  unfold turn
  split
  · split
    · split <;> rfl
    · split <;> rfl
  · rfl

/-- When a turn leaves the loop. -/
theorem turn_left_iff {p : MainLoop} (hp : p.Stopping) (now : Nat) : (p.turn now).left = true ↔
    (p.gracefulDeadline = none ∧ ¬ (p.state.foreground = .session ∧
      p.state.foregroundToplevel ≠ none)) ∨
    (p.gracefulDeadline ≠ none ∧ (p.state.foregroundToplevel = none ∨ p.Passed now)) := by
  obtain ⟨hleft, hexit⟩ := hp
  unfold turn Passed beginGracefulSessionClose
  rw [if_pos hexit]
  cases p.gracefulDeadline with
  | none =>
    by_cases hfg : p.state.foreground = .session
    · cases htop : p.state.foregroundToplevel <;> simp [hfg, hleft]
    · simp [hfg]
  | some deadline =>
    by_cases hd : deadline ≤ now
    · simp [hd]
    · cases htop : p.state.foregroundToplevel <;> simp [hd, hleft]

/-- A turn leaves when the session's toplevel is gone or the deadline has passed, if and only if the
toplevel it finds before the deadline is the session's. -/
theorem turn_stops_iff (p : MainLoop) (now : Nat) (hp : p.Stopping) :
    ((p.turn now).left = true ↔ ¬ SessionToplevel p.state ∨ p.Passed now) ↔
      (¬ p.Passed now → ∀ t ∈ p.state.foregroundToplevel,
        (p.gracefulDeadline = none → p.state.foreground = .session) →
          p.state.foreground = .session ∧ p.state.sessionUid = some t.uid) := by
  rw [turn_left_iff hp]
  by_cases hpassed : p.Passed now
  · have hsome : p.gracefulDeadline ≠ none := by
      rintro hnone
      obtain ⟨d, hd, -⟩ := hpassed
      rw [hnone] at hd
      cases hd
    simp [hpassed, hsome]
  · unfold SessionToplevel
    cases htop : p.state.foregroundToplevel with
    | none =>
      by_cases hd : p.gracefulDeadline = none <;> simp [hd, hpassed]
    | some t =>
      by_cases hfg : p.state.foreground = .session <;>
        by_cases hd : p.gracefulDeadline = none <;> simp [hd, hpassed, hfg]

/-- **One step of the main loop.** -/
theorem stop_step_iff (fromSlice : List UInt8 → Option Request) (p : MainLoop) (m : MainInput)
    (hp : p.state.Unstopped) : p.Stops fromSlice m ↔ p.Quiet m := by
  cases m with
  | callback i =>
    refine forall_congr' fun hstop => ?_
    have hstep : (p.step fromSlice (.callback i)).2 = (p.state.step fromSlice i).2 := by
      simp [step, hstop.1]
    rw [hstep, ← unreverted_iff fromSlice]
    constructor
    · exact fun h => h.1
    · intro h
      refine ⟨h, fun pid hmem => ?_⟩
      have hpoll : Source.pivotPoll ∉ p.state.sources := by
        intro hpoll
        have hrunning := (hp hpoll).2
        rw [hstop.2] at hrunning
        cases hrunning
      obtain ⟨c, hc⟩ := spawnsOnRevert_step fromSlice p.state i (fun _ => hpoll) pid hmem
      exact h c hc
  | turn now =>
    refine forall_congr' fun hstop => ?_
    have hstep : (p.step fromSlice (.turn now)).1 = p.turn now := by simp [step, hstop.1]
    rw [hstep]
    exact turn_stops_iff p now hstop

/-- **A plain stop.** Over every run of the main loop: once a stop signal has set `should_exit`,
nothing is reverted, no greeter is spawned, and the loop is left at the first turn at which the
session's toplevel is gone or the grace deadline has passed, if and only if every step is quiet. -/
theorem stop_run_iff (fromSlice : List UInt8 → Option Request) (inInitramfs : Bool)
    (greeterUid : UInt32) (pamService : String) (greeter : Option UInt32) (ms : List MainInput) :
    (∀ pre m post, ms = pre ++ m :: post → Stops fromSlice (run (step fromSlice)
      ⟨.start inInitramfs greeterUid pamService greeter, none, false⟩ pre).1 m) ↔
    Along (step fromSlice) Quiet ⟨.start inInitramfs greeterUid pamService greeter, none, false⟩
      ms := by
  rw [← along_iff_forall]
  refine along_congr (fun p => p.state.Unstopped) ?_ ?_ ms _ (unstopped_start _ _ _ _)
  · exact fun p m hp => stop_step_iff fromSlice p m hp
  · intro p m hp _
    unfold step
    split_ifs
    · exact hp
    · cases m with
      | callback i => exact p.state.unstopped_step fromSlice i hp
      | turn now =>
        show (p.turn now).state.Unstopped
        rw [turn_state]
        exact hp

/-- A stop while `alice` is logged in: her session closes, and its leader exits before its toplevel
is destroyed. The greeter is spawned again. -/
theorem leader_exit_reverts_stop :
    let p := (run (step readRequest) ⟨booted, none, false⟩
      ((login 0 "alice" 1000 ++ [Input.stopSignal calm]).map MainInput.callback ++ [.turn 0])).1
    let r := p.step readRequest (.callback (.leaderPidfdReady 0 calm))
    p.left = false ∧ p.state.shouldExit = true ∧ p.gracefulDeadline = some (2 * 10 ^ 9) ∧
      r.1.state.foreground = .greeter ∧ r.1.state.greeter = some 51 ∧
      ¬ p.Stops readRequest (.callback (.leaderPidfdReady 0 calm)) := by
  intro p r
  have hleft : p.left = false := by decide +kernel
  have hexit : p.state.shouldExit = true := by decide +kernel
  have hspawned : Event.greeterSpawned 51 ∈ r.2 := by decide +kernel
  refine ⟨hleft, hexit, by decide +kernel, by decide +kernel, by decide +kernel, fun hstops => ?_⟩
  exact (hstops ⟨hleft, hexit⟩).2 51 hspawned

end MainLoop

end Halmasuit.Compositor
