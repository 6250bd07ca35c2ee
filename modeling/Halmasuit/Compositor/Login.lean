import Halmasuit.Compositor.Binding
import Halmasuit.Compositor.State

/-!
# Logins at the compositor

What a callback does to the state of the login: the swap gate, `session_uid`, the emit-once flag of
the session's first frame (`maybe_emit_session_first_frame`, `halmasuit/src/main.rs` 1438–1460) and
the visible scene (`apply_swap_action`, 1084–1180), over runs with any number of logins. Two things
outlive a login here: `Revert` installs a new gate, which the later triggers of the old login still
reach, and nothing takes the emit-once flag down.

Headlines:
* `step_swap`, `step_sessionFirstFrameEmitted`, `step_sessionUid_some`, `step_foreground_some`: the
  state of the login after a callback, by the gate call the callback makes.
* `one_revert_iff`: when the triggers of one login revert once and are inert after that.
* `first_frame_shown_iff`: when a login is shown.
-/

namespace Halmasuit.Compositor

open Halmasuit.Greetd (Request SpawnRequest readRequest)
open Halmasuit.SessionIpc
open Halmasuit.Lib

/-- A revert trigger of the login of `u` on the connection `id`. -/
def GateCall.endsLogin (id : Nat) (u : UInt32) : GateCall → Bool
  | .sessionEnded id' => decide (id' = id)
  | .leaderExited id' => decide (id' = id)
  | .toplevelGone u' => decide (u' = u)
  | _ => false

theorem GateCall.isTrigger_of_endsLogin {c : GateCall} {id : Nat} {u : UInt32}
    (h : c.endsLogin id u = true) : c.isTrigger = true := by
  cases c with
  | sessionOpened id' => cases h
  | sessionFirstFrame u' => cases h
  | _ => rfl

namespace Scene

/-- The gate after a call: `Revert` installs a new one. -/
theorem feedGate_gate (s : Scene) (c : GateCall) (w : Answers) :
    (s.feedGate c w).1.swap = if (s.swap.call c).1 = .revert then .new else (s.swap.call c).2 := by
  cases h : (s.swap.call c).1 with
  | none =>
    rw [feedGate_none s c w h]
    rfl
  | swap =>
    rw [feedGate_swap s c w h, (call_swap h).2.2]
    rfl
  | revert =>
    rw [feedGate_revert s c w h]
    rfl

/-- Only `Revert` touches the session's uid. -/
theorem feedGate_sessionUid (s : Scene) (c : GateCall) (w : Answers) :
    (s.feedGate c w).1.sessionUid
      = if (s.swap.call c).1 = .revert then none else s.sessionUid := by
  cases h : (s.swap.call c).1 with
  | none =>
    rw [feedGate_none s c w h]
    rfl
  | swap =>
    rw [feedGate_swap s c w h]
    rfl
  | revert =>
    rw [feedGate_revert s c w h]
    rfl

/-- The foreground after a call. -/
theorem feedGate_foreground (s : Scene) (c : GateCall) (w : Answers) :
    (s.feedGate c w).1.foreground = match (s.swap.call c).1 with
      | .none => s.foreground
      | .swap => .session
      | .revert => .greeter := by
  cases h : (s.swap.call c).1 with
  | none => rw [feedGate_none s c w h]
  | swap => rw [feedGate_swap s c w h]
  | revert => rw [feedGate_revert s c w h]

/-- No action of the gate touches the emit-once flag. -/
theorem feedGate_sessionFirstFrameEmitted (s : Scene) (c : GateCall) (w : Answers) :
    (s.feedGate c w).1.sessionFirstFrameEmitted = s.sessionFirstFrameEmitted := by
  cases h : (s.swap.call c).1 with
  | none => rw [feedGate_none s c w h]
  | swap => rw [feedGate_swap s c w h]
  | revert => rw [feedGate_revert s c w h]

end Scene

namespace HalmasuitState

/-! ## What a callback does to the login -/

section
variable {s : HalmasuitState} {i : Input} {sc : Scene} {es : List Event}

/-- A callback that does not call the gate leaves the gate and the flag, and may record a
session. -/
theorem Moves.gate_none (h : Moves s i sc es) (hc : s.gateCall i = none) :
    sc.swap = s.swap ∧ sc.sessionFirstFrameEmitted = s.sessionFirstFrameEmitted ∧
    (sc.foreground = s.foreground ∨ sc.foreground = .greeter) ∧
    (sc.sessionUid = s.sessionUid ∨ (s.sessionUid = none ∧ ∃ spawn,
      (Scene.spawns es).head? = some spawn ∧ sc.sessionUid = some spawn.uid)) := by
  cases h.ungated hc with
  | recorded hn hsp => exact ⟨rfl, rfl, .inl rfl, .inr ⟨hn, _, hsp, rfl⟩⟩
  | latched hd => exact ⟨rfl, rfl, .inr rfl, .inl rfl⟩
  | _ => exact ⟨rfl, rfl, .inl rfl, .inl rfl⟩

/-- The answer of the broker to the `SpawnGreeter` a callback may send. -/
def Input.spawnGreeter : Input → Option UInt32
  | .brokerReady _ _ _ _ w => w.spawnGreeter
  | .leaderPidfdReady _ w => w.spawnGreeter
  | .commit _ w => w.spawnGreeter
  | .toplevelDestroyed _ _ w => w.spawnGreeter
  | _ => none

/-- The scene on which a callback calls the gate: the callback wrote the layer roles, the focus, the
foreground toplevel and the emit-once flag before. -/
structure CalledOn (s : Scene) (c : GateCall) (t : Scene) : Prop where
  foreground : t.foreground = s.foreground
  foregroundToplevel : t.foregroundToplevel = s.foregroundToplevel ∨ t.foregroundToplevel = none
  greeter : t.greeter = s.greeter
  sessionUid : t.sessionUid = s.sessionUid
  swap : t.swap = s.swap
  emitted : t.sessionFirstFrameEmitted = (s.sessionFirstFrameEmitted || c.isFirstFrame)
  shuttingDown : t.shuttingDown = s.shuttingDown
  shouldExit : t.shouldExit = s.shouldExit

theorem CalledOn.self (s : Scene) {c : GateCall} (hc : c.isFirstFrame = false) :
    CalledOn s c s where
  foreground := rfl
  foregroundToplevel := .inl rfl
  greeter := rfl
  sessionUid := rfl
  swap := rfl
  emitted := by simp [hc]
  shuttingDown := rfl
  shouldExit := rfl

/-- The focus at the moment a callback calls the gate. -/
def focusBefore (s : HalmasuitState) : Input → Option Focus
  | .commit k _ => (s.toScene.handleLayerShellCommit k).1.focus
  | _ => s.focus

/-- **A callback that calls the gate** applies the action to the scene the call was made on. The
focus is what it was at the call, moved by the action, and moved to the foreground toplevel by a
commit of it. Only the end of a toplevel writes the foreground toplevel and the focus before the
call. -/
theorem Moves.gated (h : Moves s i sc es) {c : GateCall} (hc : s.gateCall i = some c) :
    ∃ t w f, CalledOn s.toScene c t ∧ w.spawnGreeter = i.spawnGreeter ∧
      sc = { (t.feedGate c w).1 with focus := f } ∧
      (f = (t.feedGate c w).1.focus ∨
        ∃ t', s.foregroundToplevel = some t' ∧ f = some (.toplevel t')) ∧
      ((t.foregroundToplevel = s.foregroundToplevel ∧ t.focus = s.focusBefore i) ∨
        ((∃ t' live w', i = .toplevelDestroyed t' live w') ∧ c.isTrigger = true ∧
          t.foregroundToplevel = none ∧ t.focus = none ∧ f = (t.feedGate c w).1.focus)) := by
  cases h with
  | records hc' hes =>
    rw [hc] at hc'
    cases hc'
  | broker hc' hes =>
    rename_i id readable env recv w c' es'
    obtain rfl : c = c' := Option.some.inj (hc.symm.trans hc')
    have hff : c.isFirstFrame = false := by
      unfold gateCall at hc
      dsimp only at hc
      split_ifs at hc
      split at hc <;> cases hc <;> rfl
    exact ⟨s.toScene, w, _, .self s.toScene hff, rfl, rfl, .inl rfl, .inl ⟨rfl, rfl⟩⟩
  | leader hc' =>
    rename_i id w
    obtain rfl : c = .leaderExited id := Option.some.inj (hc.symm.trans hc')
    exact ⟨s.toScene, w, _, .self s.toScene rfl, rfl, rfl, .inl rfl, .inl ⟨rfl, rfl⟩⟩
  | commit hcl =>
    rename_i k w
    have hcall : s.toScene.commitCall k = some c := by simpa [gateCall, hcl] using hc
    have hff : c.isFirstFrame = true := by
      unfold Scene.commitCall at hcall
      split_ifs at hcall
      cases hcall
      rfl
    obtain ⟨roles, gs, f, heq, hf, -⟩ := Scene.commit_some _ w hcall
    refine ⟨s.toScene.framed roles gs _, w, f, ?_, rfl, heq, hf, .inl ⟨rfl, rfl⟩⟩
    exact ⟨rfl, .inl rfl, rfl, rfl, rfl, by simp [Scene.framed, hff], rfl, rfl⟩
  | toplevelDestroyed hcl =>
    rename_i t live w
    have hcall : s.toScene.destroyedCall t live = some c := by simpa [gateCall, hcl] using hc
    obtain ⟨hfg, rfl, heq⟩ := Scene.toplevelDestroyed_some _ w hcall
    refine ⟨{ s.toScene with foregroundToplevel := none, focus := none }, w, _, ?_, rfl,
      congrArg Prod.fst heq, .inl rfl, .inr ⟨⟨_, _, _, rfl⟩, rfl, rfl, rfl, rfl⟩⟩
    exact ⟨rfl, .inr rfl, rfl, rfl, rfl, by simp [GateCall.isFirstFrame], rfl, rfl⟩
  | _ => cases hc

/-- The same, without the focus. -/
theorem Moves.gate_some (h : Moves s i sc es) {c : GateCall} (hc : s.gateCall i = some c) :
    ∃ t w f, CalledOn s.toScene c t ∧ w.spawnGreeter = i.spawnGreeter ∧
      sc = { (t.feedGate c w).1 with focus := f } := by
  obtain ⟨t, w, f, ht, hspawn, heq, -⟩ := h.gated hc
  exact ⟨t, w, f, ht, hspawn, heq⟩

variable (fromSlice : List UInt8 → Option Request)

/-- The gate after a callback. -/
theorem step_swap (s : HalmasuitState) (i : Input) : (s.step fromSlice i).1.swap
    = match s.gateCall i with
      | none => s.swap
      | some c => if (s.swap.call c).1 = .revert then .new else (s.swap.call c).2 := by
  cases hc : s.gateCall i with
  | none => exact ((s.step_moves fromSlice i).gate_none hc).1
  | some c =>
    have hm : Moves s i (s.step fromSlice i).1.toScene _ := s.step_moves fromSlice i
    obtain ⟨t, w, f, ht, -, heq⟩ := hm.gate_some hc
    rw [heq]
    show (t.feedGate c w).1.swap = _
    rw [Scene.feedGate_gate, ht.swap]

/-- The emit-once flag after a callback. -/
theorem step_sessionFirstFrameEmitted (s : HalmasuitState) (i : Input) :
    (s.step fromSlice i).1.sessionFirstFrameEmitted
      = (s.sessionFirstFrameEmitted || (s.gateCall i).any GateCall.isFirstFrame) := by
  cases hc : s.gateCall i with
  | none => simpa using ((s.step_moves fromSlice i).gate_none hc).2.1
  | some c =>
    have hm : Moves s i (s.step fromSlice i).1.toScene _ := s.step_moves fromSlice i
    obtain ⟨t, w, f, ht, -, heq⟩ := hm.gate_some hc
    rw [heq]
    show (t.feedGate c w).1.sessionFirstFrameEmitted = _
    rw [Scene.feedGate_sessionFirstFrameEmitted, ht.emitted]
    rfl

/-- The session's uid after a callback that calls the gate. -/
theorem step_sessionUid_some (s : HalmasuitState) {i : Input} {c : GateCall}
    (hc : s.gateCall i = some c) : (s.step fromSlice i).1.sessionUid
      = if (s.swap.call c).1 = .revert then none else s.sessionUid := by
  have hm : Moves s i (s.step fromSlice i).1.toScene _ := s.step_moves fromSlice i
  obtain ⟨t, w, f, ht, -, heq⟩ := hm.gate_some hc
  rw [heq]
  show (t.feedGate c w).1.sessionUid = _
  rw [Scene.feedGate_sessionUid, ht.swap, ht.sessionUid]

/-- The recorded uid after a callback that the gate does not answer with `Revert`. -/
theorem step_sessionUid_unreverted (s : HalmasuitState) {i : Input}
    (h : ∀ c ∈ s.gateCall i, (s.swap.call c).1 ≠ .revert) : (s.step fromSlice i).1.sessionUid
      = s.sessionUid.or ((s.reports fromSlice i).head?.map SpawnRequest.uid) := by
  cases hsp : (s.reports fromSlice i).head? with
  | some spawn =>
    rw [s.step_recorded fromSlice hsp]
    rfl
  | none =>
    rw [Option.map_none, Option.or_none]
    cases hc : s.gateCall i with
    | some c => rw [s.step_sessionUid_some fromSlice hc, if_neg (h c hc)]
    | none =>
      rcases ((s.step_moves fromSlice i).gate_none hc).2.2.2 with hu | ⟨-, spawn, hsp', -⟩
      · exact hu
      · rw [step_spawns, hsp] at hsp'
        cases hsp'

/-- The foreground after a callback that calls the gate. -/
theorem step_foreground_some (s : HalmasuitState) {i : Input} {c : GateCall}
    (hc : s.gateCall i = some c) : (s.step fromSlice i).1.foreground = match (s.swap.call c).1 with
      | .none => s.foreground
      | .swap => .session
      | .revert => .greeter := by
  have hm : Moves s i (s.step fromSlice i).1.toScene _ := s.step_moves fromSlice i
  obtain ⟨t, w, f, ht, -, heq⟩ := hm.gate_some hc
  rw [heq]
  show (t.feedGate c w).1.foreground = _
  rw [Scene.feedGate_foreground, ht.swap, ht.foreground]

/-! ## A login, callback by callback -/

/-- The broker respawns the greeter, and the kernel does what it is asked. -/
def calm : Answers := ⟨some 51, true, true⟩

/-- The greeter's requests arrive in one read, and its replies are written. -/
def greeterSends (id : Nat) (ms : List Request) : Input :=
  .connectionReady id ⟨true, [.ok quietEnv (greeterFrames ms)], true, [.ok 65536]⟩

def brokerSays (id : Nat) (f : BrokerToCompositor) (fd : Option Fd) : Input :=
  .brokerReady id true quietEnv (.ok (some (f, fd))) calm

/-- A commit of a toplevel with a buffer. -/
def paint (t : Surface) : Scene.Commit := ⟨t, false, none, true, some (800, 600)⟩

/-- `user` authenticates on the connection `id` and starts a session. -/
def authenticate (id : Nat) (user : String) (uid : UInt32) : List Input :=
  [.accept ⟨990, true, true, true, true⟩, greeterSends id [.createSession user],
    brokerSays id (.success user uid 100) none, greeterSends id [.startSession ["/bin/sway"] []]]

/-- A whole login: the session opens, its client connects and paints its toplevel. -/
def login (id : Nat) (user : String) (uid : UInt32) : List Input :=
  authenticate id user uid ++ [brokerSays id .sessionOpened (some 7), .waylandConnect uid,
    .newToplevel ⟨id, uid⟩, .commit (paint ⟨id, uid⟩) calm]

/-- The compositor of a running system, with a greeter of uid 990. -/
def booted : HalmasuitState := .start false 990 "halmasuit" (some 50)

/-! ## The end of a login -/

/-- The callbacks that bring a revert trigger of the login of `u` on the connection `id`: the
broker's `SessionEnded`, the exit of the session leader, the end of a toplevel of the session. -/
def Input.endsLogin (id : Nat) (u : UInt32) : Input → Bool
  | .brokerReady id' readable _ recv _ => decide (id' = id) && readable &&
      match recv with
      | .ok (some (.sessionEnded _, _)) => true
      | _ => false
  | .leaderPidfdReady id' _ => decide (id' = id)
  | .toplevelDestroyed t _ _ => decide (t.uid = u)
  | _ => false

/-- `SessionEnded` is taken as such or refused: it never reports a spawn. -/
theorem onBrokerReadable_sessionEnded_spawned (fromSlice : List UInt8 → Option Request) (env : Env)
    (ep : BrokerEpisode) (outcome : SessionOutcome) (fd : Option Fd) :
    (ep.onBrokerReadable fromSlice env (.ok (some (.sessionEnded outcome, fd)))).out.spawned
      = none := by
  rcases onBrokerReadable_cases fromSlice env ep (.ok (some (.sessionEnded outcome, fd))) with
    ⟨-, h⟩ | heq | ⟨frame, fd', r, ev, r', hrecv, -, hf, hrest⟩
  · cases h
  · rw [heq]
    rfl
  · obtain ⟨rfl, rfl⟩ : frame = .sessionEnded outcome ∧ fd' = fd := by simpa using hrecv.symm
    have hev : ev = .sessionEnded outcome := by
      rcases onBrokerFrame_cases hf with ⟨-, _, _, h, -⟩ | ⟨-, _, _, h, -⟩ | ⟨-, _, _, _, h, -⟩ |
        ⟨-, _, h, -⟩ | ⟨-, h, -⟩ | ⟨-, outcome', h, hev, -⟩
      · cases h
      · cases h
      · cases h
      · cases h
      · cases h
      · cases h
        exact hev
    subst hev
    rcases hrest with ⟨_, h, -⟩ | ⟨_, _, h, -⟩ | ⟨_, _, _, h, -⟩ | ⟨h, -⟩ | ⟨_, h, heq⟩
    · cases h
    · cases h
    · cases h
    · cases h
    · rw [heq]
      rfl

/-- The scene apart from the reference to a toplevel that is gone, and its focus. -/
def Unmoved (s s' : HalmasuitState) : Prop :=
  s'.toScene = { s.toScene with
    foregroundToplevel := s'.foregroundToplevel
    focus := s'.focus }

instance (s s' : HalmasuitState) : Decidable (Unmoved s s') := inferInstanceAs (Decidable (_ = _))

/-- A trigger that does not reach the gate moves nothing. -/
theorem unmoved_of_gateCall_none (s : HalmasuitState) {id : Nat} {u : UInt32} {j : Input}
    (hj : j.endsLogin id u = true) (hc : s.gateCall j = none) :
    Unmoved s (s.step fromSlice j).1 := by
  cases j with
  | brokerReady id' readable env recv w =>
    unfold step
    dsimp only
    split_ifs with hsrc
    · unfold handleBrokerReady
      cases hlook : s.connections.lookup id' with
      | none => rfl
      | some cs =>
        obtain ⟨⟨rfl, rfl⟩, hrecv⟩ : (id' = id ∧ readable = true) ∧ _ := by
          simpa [Input.endsLogin] using hj
        split at hrecv
        · rename_i outcome fd
          have hsp := onBrokerReadable_sessionEnded_spawned fromSlice env cs.episode outcome fd
          rcases onBrokerReadable_out fromSlice env cs.episode
            (.ok (some (.sessionEnded outcome, fd)))
            with ⟨hev, -⟩ | ⟨_, hev, -⟩ | ⟨-, hopened, hended⟩
          · simp [gateCall, hsrc, hlook, hev] at hc
          · simp [gateCall, hsrc, hlook, hev] at hc
          · unfold Unmoved
            simp only [if_true]
            rw [brokerEnd_scene]
            simp only [hsp, recorded, feedOutcome, hopened, hended, Bool.false_eq_true, if_false]
            rfl
        · cases hrecv
    · rfl
  | leaderPidfdReady id' w =>
    have hsrc : Source.leader id' ∉ s.sources := by simpa [gateCall] using hc
    unfold step
    dsimp only
    rw [if_neg hsrc]
    rfl
  | toplevelDestroyed t live w =>
    unfold step
    dsimp only
    split_ifs with hcl
    · have hcall : s.toScene.destroyedCall t live = none := by simpa [gateCall, hcl] using hc
      unfold Unmoved onScene
      rcases (Scene.toplevelDestroyed_none _ w hcall).2 with heq | ⟨-, heq⟩
      · rw [heq]
      · rw [heq]
    · rfl
  | _ => cases hj

/-- A trigger of a login at the gate comes with a callback that brings it. -/
theorem gateCall_endsLogin {s : HalmasuitState} {j : Input} {c : GateCall}
    (hc : s.gateCall j = some c) (id : Nat) (u : UInt32) :
    j.endsLogin id u = true ↔ c.endsLogin id u = true := by
  cases j with
  | brokerReady id' readable env recv w =>
    unfold gateCall at hc
    dsimp only at hc
    split_ifs at hc with hsrc
    obtain ⟨-, rfl⟩ := hsrc
    split at hc
    · rename_i hev
      cases hc
      obtain ⟨cs, -, hev⟩ := Option.bind_eq_some_iff.mp hev
      obtain ⟨r, frame, fd, r', -, rfl, hf⟩ := event_eq_some hev
      obtain ⟨-, rfl, -⟩ := onBrokerFrame_sessionOpened hf
      simp [Input.endsLogin, GateCall.endsLogin]
    · rename_i outcome hev
      cases hc
      obtain ⟨cs, -, hev⟩ := Option.bind_eq_some_iff.mp hev
      obtain ⟨r, frame, fd, r', -, rfl, hf⟩ := event_eq_some hev
      obtain ⟨-, rfl, -⟩ := onBrokerFrame_sessionEnded hf
      simp [Input.endsLogin, GateCall.endsLogin]
    · cases hc
  | leaderPidfdReady id' w =>
    unfold gateCall at hc
    dsimp only at hc
    split_ifs at hc
    cases hc
    rfl
  | commit k w =>
    unfold gateCall Scene.commitCall at hc
    dsimp only at hc
    split_ifs at hc
    cases hc
    simp [Input.endsLogin, GateCall.endsLogin]
  | toplevelDestroyed t live w =>
    unfold gateCall Scene.destroyedCall at hc
    dsimp only at hc
    split_ifs at hc
    cases hc
    rfl
  | _ => cases hc

/-- At a gate that is done, a trigger moves nothing. -/
theorem unmoved_of_done (s : HalmasuitState) {id : Nat} {u : UInt32} {j : Input}
    (hj : j.endsLogin id u = true) (hdone : s.swap.phase = .done) :
    Unmoved s (s.step fromSlice j).1 := by
  have hcall : ∀ c : GateCall, s.swap.call c = (.none, s.swap) := by
    intro c
    cases c <;>
      simp [SwapGate.call, SwapGate.sessionOpened, SwapGate.sessionFirstFrame,
        SwapGate.sessionEnded,
        SwapGate.sessionClientGone, SwapGate.arm, SwapGate.revertOrDisarm, hdone]
  cases hc : s.gateCall j with
  | none => exact s.unmoved_of_gateCall_none fromSlice hj hc
  | some c =>
    have hm : Moves s j (s.step fromSlice j).1.toScene (s.step fromSlice j).2 :=
      s.step_moves fromSlice j
    unfold Unmoved
    revert hm
    generalize (s.step fromSlice j).1.toScene = sc
    generalize (s.step fromSlice j).2 = es
    intro hm
    cases hm with
    | records hc' hes =>
      rw [hc] at hc'
      cases hc'
    | broker hc' hes => rw [Scene.feedGate_none _ _ _ (by rw [hcall]), hcall]
    | leader hc' => rw [Scene.feedGate_none _ _ _ (by rw [hcall]), hcall]
    | toplevelDestroyed hcl =>
      rename_i t live w
      have hd : s.toScene.destroyedCall t live = some c := by simpa [gateCall, hcl] using hc
      rw [(Scene.toplevelDestroyed_some _ w hd).2.2, Scene.feedGate_none _ _ _ (by rw [hcall])]
      simp only [hcall]
    | _ => cases hj

/-- **When a later trigger is inert**: it does not reach the gate, or the gate is done. -/
theorem unmoved_iff (s : HalmasuitState) {id : Nat} {u : UInt32} {j : Input}
    (hj : j.endsLogin id u = true) :
    Unmoved s (s.step fromSlice j).1 ↔ s.gateCall j = none ∨ s.swap.phase = .done := by
  constructor
  · intro h
    cases hc : s.gateCall j with
    | none => exact .inl rfl
    | some c =>
      right
      have htrigger : c.isTrigger = true :=
        GateCall.isTrigger_of_endsLogin ((gateCall_endsLogin hc id u).mp hj)
      have hscene := congrArg Scene.swap h
      have hswap : (s.step fromSlice j).1.swap = s.swap := hscene
      rw [step_swap, hc] at hswap
      dsimp only at hswap
      rw [Scene.call_trigger htrigger] at hswap
      rcases revertOrDisarm_cases s.swap with ⟨hp, heq⟩ | ⟨⟨o, f, hp⟩, heq⟩ | ⟨hp, -⟩
      · simp only [heq, if_true] at hswap
        rw [← hswap] at hp
        cases hp
      · simp only [heq] at hswap
        rw [← hswap] at hp
        cases hp
      · exact hp
  · rintro (hc | hdone)
    · exact s.unmoved_of_gateCall_none fromSlice hj hc
    · exact s.unmoved_of_done fromSlice hj hdone

/-- The reverts that the triggers of a login caused. -/
def revertsOf (id : Nat) (u : UInt32) (tr : List Event) : List (GateCall × SwapAction) :=
  (Scene.gateCalls tr).filter fun p => p.1.endsLogin id u && decide (p.2 = .revert)

/-- A trigger of the login finds the gate done, or does not reach it. -/
def Spent (id : Nat) (u : UInt32) (s : HalmasuitState) (j : Input) : Prop :=
  j.endsLogin id u = true → s.gateCall j = none ∨ s.swap.phase = .done

instance (id : Nat) (u : UInt32) (s : HalmasuitState) (j : Input) : Decidable (Spent id u s j) :=
  inferInstanceAs (Decidable (_ → _))

/-- Spent triggers revert nothing. -/
theorem revertsOf_step_spent (s : HalmasuitState) {id : Nat} {u : UInt32} {j : Input}
    (hj : Spent id u s j) : revertsOf id u (s.step fromSlice j).2 = [] := by
  unfold revertsOf
  rw [step_gateCalls]
  cases hc : s.gateCall j with
  | none => rfl
  | some c =>
    have hno : ¬ (c.endsLogin id u = true ∧ (s.swap.call c).1 = .revert) := by
      rintro ⟨he, hrev⟩
      rcases hj ((gateCall_endsLogin hc id u).mpr he) with hn | hdone
      · rw [hc] at hn
        cases hn
      · rw [(Scene.call_revert hrev).2] at hdone
        cases hdone
    simpa using hno

theorem revertsOf_append (id : Nat) (u : UInt32) (tr tr' : List Event) :
    revertsOf id u (tr ++ tr') = revertsOf id u tr ++ revertsOf id u tr' := by
  simp [revertsOf]

/-- **One revert per login.** From a state in which the session is swapped in and a trigger of its
login reaches the gate, over every continuation: that trigger alone reverts and the later ones move
nothing, if and only if each later one does not reach the gate or finds it done. -/
theorem one_revert_iff (s : HalmasuitState) (i : Input) (c : GateCall) (id : Nat) (u : UInt32)
    (hs : s.swap.phase = .swapped) (hc : s.gateCall i = some c) (he : c.endsLogin id u = true)
    (post : List Input) :
    (revertsOf id u (run (step fromSlice) s (i :: post)).2 = [(c, .revert)] ∧
      (s.step fromSlice i).1.swap = .new ∧
      Along (step fromSlice) (fun s j => j.endsLogin id u = true → Unmoved s (s.step fromSlice j).1)
        (s.step fromSlice i).1 post) ↔
    Along (step fromSlice) (Spent id u) (s.step fromSlice i).1 post := by
  have hcall : s.swap.call c = (.revert, ⟨.done⟩) := by
    rw [Scene.call_trigger (GateCall.isTrigger_of_endsLogin he)]
    simp only [SwapGate.revertOrDisarm, hs]
  have hfirst : revertsOf id u (s.step fromSlice i).2 = [(c, .revert)] := by
    unfold revertsOf
    rw [step_gateCalls, hc]
    simp [hcall, he]
  have hnew : (s.step fromSlice i).1.swap = .new := by
    rw [step_swap, hc]
    simp [hcall]
  have hinert : Along (step fromSlice)
      (fun s j => j.endsLogin id u = true → Unmoved s (s.step fromSlice j).1)
      (s.step fromSlice i).1 post ↔
      Along (step fromSlice) (Spent id u) (s.step fromSlice i).1 post :=
    along_congr (fun _ => True) (fun s j _ => imp_congr_right fun hj => s.unmoved_iff fromSlice hj)
      (fun _ _ _ _ => trivial) post _ trivial
  constructor
  · rintro ⟨-, -, h⟩
    exact hinert.mp h
  · intro h
    refine ⟨?_, hnew, hinert.mpr h⟩
    have hstep : ∀ (s : HalmasuitState) tr j, Spent id u s j → revertsOf id u tr = [] →
        revertsOf id u (tr ++ (s.step fromSlice j).2) = [] := by
      intro s tr j hj htr
      rw [revertsOf_append, htr, s.revertsOf_step_spent fromSlice hj]
      rfl
    have hrest := run_invariant_along (fun _ tr => revertsOf id u tr = []) hstep post
      (s.step fromSlice i).1 [] h rfl
    rw [List.nil_append] at hrest
    show revertsOf id u ((s.step fromSlice i).2 ++ _) = _
    rw [revertsOf_append, hfirst, hrest]
    rfl

/-- The session of `alice` ends, and the exit of its leader is read after the connection is
dropped. -/
theorem ended_login_reverts_once :
    let s := (run (step readRequest) booted (login 0 "alice" 1000)).1
    let ended := brokerSays 0 (.sessionEnded (.exited 0)) none
    let post := [.idle, .leaderPidfdReady 0 calm]
    s.swap.phase = .swapped ∧ s.gateCall ended = some (.sessionEnded 0) ∧
      revertsOf 0 1000 (run (step readRequest) s (ended :: post)).2 = [(.sessionEnded 0, .revert)] ∧
      Along (step readRequest)
        (fun s j => j.endsLogin 0 1000 = true → Unmoved s (s.step readRequest j).1)
        (s.step readRequest ended).1 post := by
  intro s ended post
  have hs : s.swap.phase = .swapped := by decide +kernel
  have hc : s.gateCall ended = some (.sessionEnded 0) := by decide +kernel
  have hspent : Along (step readRequest) (Spent 0 1000) (s.step readRequest ended).1 post := by
    decide +kernel
  obtain ⟨hone, -, hinert⟩ :=
    (one_revert_iff readRequest s ended (.sessionEnded 0) 0 1000 hs hc rfl post).mpr hspent
  exact ⟨hs, hc, hone, hinert⟩

/-- The leader of `alice` exits, which reverts; the `SessionEnded` of the same login then disarms
the gate of the next one. -/
theorem sessionEnded_after_leader_exit_disarms :
    let s := (run (step readRequest) booted (login 0 "alice" 1000)).1
    let exited := .leaderPidfdReady 0 calm
    let ended := brokerSays 0 (.sessionEnded (.exited 0)) none
    s.swap.phase = .swapped ∧ s.gateCall exited = some (.leaderExited 0) ∧
      (s.step readRequest exited).1.swap = .new ∧
      ¬ Unmoved (s.step readRequest exited).1 (run (step readRequest) s [exited, ended]).1 ∧
      (run (step readRequest) s [exited, ended]).1.swap = ⟨.done⟩ := by
  decide +kernel

/-! ## The second key, login after login -/

/-- A client of uid `u` commits a buffer that is not empty. -/
def paints (u : UInt32) (s : HalmasuitState) : Input → Bool
  | .commit k _ =>
    decide (k.surface.uid = u) && decide (u ∈ s.clients) && !k.sync && k.nonEmpty
  | _ => false

/-- No revert trigger reaches the gate. -/
def Untriggered (s : HalmasuitState) (i : Input) : Prop :=
  ∀ c ∈ s.gateCall i, c.isTrigger = false

instance (s : HalmasuitState) (i : Input) : Decidable (Untriggered s i) :=
  inferInstanceAs (Decidable (∀ c ∈ s.gateCall i, _))

/-- The first frames the gate was told of. -/
def firstFrames (tr : List Event) : List GateCall :=
  ((Scene.gateCalls tr).map Prod.fst).filter GateCall.isFirstFrame

theorem firstFrames_append (tr tr' : List Event) :
    firstFrames (tr ++ tr') = firstFrames tr ++ firstFrames tr' := by
  simp [firstFrames]

theorem firstFrames_step (s : HalmasuitState) (i : Input) :
    firstFrames (s.step fromSlice i).2 = (s.gateCall i).toList.filter GateCall.isFirstFrame := by
  unfold firstFrames
  rw [step_gateCalls]
  cases s.gateCall i <;> rfl

/-- Who calls the gate with a first frame: a commit of the recorded session's client that paints,
while the flag is down. -/
theorem gateCall_firstFrame {s : HalmasuitState} {i : Input} {c : GateCall}
    (hc : s.gateCall i = some c) (hf : c.isFirstFrame = true) :
    ∃ u, c = .sessionFirstFrame u ∧ s.sessionUid = some u ∧ paints u s i = true ∧
      s.sessionFirstFrameEmitted = false := by
  cases i with
  | brokerReady id' readable env recv w =>
    unfold gateCall at hc
    dsimp only at hc
    split_ifs at hc
    split at hc <;> cases hc <;> cases hf
  | leaderPidfdReady id' w =>
    unfold gateCall at hc
    dsimp only at hc
    split_ifs at hc
    cases hc
    cases hf
  | commit k w =>
    unfold gateCall Scene.commitCall at hc
    dsimp only at hc
    split_ifs at hc with hcl hk
    cases hc
    obtain ⟨hsync, hflag, hu, hne⟩ := hk
    exact ⟨_, rfl, hu, by simp [paints, hcl, hsync, hne], hflag⟩
  | toplevelDestroyed t live w =>
    unfold gateCall Scene.destroyedCall at hc
    dsimp only at hc
    split_ifs at hc
    cases hc
    cases hf
  | _ => cases hc

/-- A painting commit of the recorded session's client calls the gate while the flag is down. -/
theorem gateCall_of_paints {s : HalmasuitState} {i : Input} {u : UInt32} (hp : paints u s i = true)
    (hu : s.sessionUid = some u) (hf : s.sessionFirstFrameEmitted = false) :
    s.gateCall i = some (.sessionFirstFrame u) := by
  cases i with
  | commit k w =>
    obtain ⟨⟨⟨rfl, hcl⟩, hsync⟩, hne⟩ : ((k.surface.uid = u ∧ u ∈ s.clients) ∧ k.sync = false) ∧
        k.nonEmpty = true := by simpa [paints] using hp
    simp [gateCall, Scene.commitCall, hcl, hsync, hf, hu, hne]
  | _ => cases hp

/-- A recorded uid stays while nothing reverts. -/
theorem step_sessionUid_kept (s : HalmasuitState) {i : Input} {u : UInt32} (hi : Untriggered s i)
    (hu : s.sessionUid = some u) : (s.step fromSlice i).1.sessionUid = some u := by
  cases hc : s.gateCall i with
  | none =>
    rcases ((s.step_moves fromSlice i).gate_none hc).2.2.2 with h | ⟨hn, -⟩
    · rw [h, hu]
    · rw [hu] at hn
      cases hn
  | some c =>
    rw [s.step_sessionUid_some fromSlice hc, if_neg, hu]
    intro hrev
    have htrigger := (Scene.call_revert hrev).1
    rw [hi c hc] at htrigger
    cases htrigger

/-- A session that is recorded is recorded by a callback that does not call the gate. -/
theorem gateCall_of_recorded (s : HalmasuitState) {i : Input} {u : UInt32}
    (hn : s.sessionUid = none)
    (hu : (s.step fromSlice i).1.sessionUid = some u) : s.gateCall i = none := by
  cases hc : s.gateCall i with
  | none => rfl
  | some c =>
    rw [s.step_sessionUid_some fromSlice hc, hn] at hu
    split_ifs at hu

/-- The foreground is the session's only while the gate is swapped, and a gate that has its second
key has a recorded session. -/
structure Keyed (s : HalmasuitState) : Prop where
  foreground : s.foreground = .session → s.swap.phase = .swapped
  unkeyed : s.sessionUid = none → s.swap.phase ≠ .swapped ∧ ∀ o, s.swap.phase ≠ .arming o true

/-- `Swap` needs a recorded session. -/
theorem Keyed.sessionUid_of_swap {s : HalmasuitState} (h : Keyed s) {i : Input} {c : GateCall}
    (hc : s.gateCall i = some c) (ha : (s.swap.call c).1 = .swap) : s.sessionUid ≠ none := by
  obtain ⟨-, ⟨o, f, hp, -, hf⟩, -⟩ := Scene.call_swap ha
  intro hn
  cases hff : c.isFirstFrame with
  | false =>
    have hf' : f = true := by simpa [hff] using hf
    exact (h.unkeyed hn).2 o (by rw [hp, hf'])
  | true =>
    obtain ⟨u, -, hu, -⟩ := gateCall_firstFrame hc hff
    rw [hn] at hu
    cases hu

theorem keyed_step (s : HalmasuitState) (i : Input) (h : Keyed s) :
    Keyed (s.step fromSlice i).1 := by
  cases hc : s.gateCall i with
  | none =>
    obtain ⟨hswap, -, hfg, huid⟩ := (s.step_moves fromSlice i).gate_none hc
    constructor
    · intro hs
      rw [hswap]
      rcases hfg with hfg | hfg
      · exact h.foreground (hfg ▸ hs)
      · rw [hfg] at hs
        cases hs
    · intro hn
      rw [hswap]
      rcases huid with huid | ⟨-, _, -, huid⟩
      · exact h.unkeyed (huid ▸ hn)
      · rw [huid] at hn
        cases hn
  | some c =>
    have hswap := s.step_swap fromSlice i
    have hfg := s.step_foreground_some fromSlice hc
    have huid := s.step_sessionUid_some fromSlice hc
    rw [hc] at hswap
    rcases Scene.call_cases s.swap c with ⟨-, -, heq⟩ | ⟨-, o, f, hp, -, heq⟩ | ⟨-, -, heq⟩ |
      ⟨-, -, heq⟩ | ⟨-, hp, heq⟩
    all_goals simp only [heq, if_true, reduceCtorEq, if_false] at hswap hfg huid
    · constructor
      · intro _
        rw [hswap]
      · intro hn
        rw [huid] at hn
        exact absurd hn (h.sessionUid_of_swap hc (by rw [heq]))
    · constructor
      · intro hs
        rw [hfg] at hs
        rw [h.foreground hs] at hp
        cases hp
      · intro hn
        rw [huid] at hn
        rw [hswap]
        cases hff : c.isFirstFrame with
        | false =>
          refine ⟨by simp, fun o' ho' => (h.unkeyed hn).2 o ?_⟩
          obtain ⟨-, hf⟩ : _ ∧ f = true := by simpa using ho'
          rw [hp, hf]
        | true =>
          obtain ⟨u, -, hu, -⟩ := gateCall_firstFrame hc hff
          rw [hn] at hu
          cases hu
    · constructor
      · rw [hfg, hswap]
        exact h.foreground
      · rw [huid, hswap]
        exact h.unkeyed
    · constructor
      · intro hs
        rw [hfg] at hs
        cases hs
      · intro _
        rw [hswap]
        simp [SwapGate.new]
    · constructor
      · intro hs
        rw [hfg] at hs
        exact absurd (h.foreground hs) hp
      · intro _
        rw [hswap]
        simp

/-- `SessionOpened` reached the gate. -/
def opened (tr : List Event) : Prop := ∃ p ∈ Scene.gateCalls tr, p.1.isOpened = true

/-- A login that can still be shown: the flag was down and the gate armed when its session was
recorded. Where the keys that came are not both in, the gate has `Swap` before it. -/
structure Showing (u : UInt32) (s : HalmasuitState) (tr : List Event) : Prop where
  uid : s.sessionUid = some u
  frames : firstFrames tr
    = if s.sessionFirstFrameEmitted then [GateCall.sessionFirstFrame u] else []
  gate : (∃ c, (c, .swap) ∈ Scene.gateCalls tr) ∨ ∃ o f, s.swap.phase = .arming o f ∧
    (opened tr → o = true) ∧ (s.sessionFirstFrameEmitted = true → f = true) ∧
    (opened tr ∨ s.sessionFirstFrameEmitted = true → (o && f) = false)

theorem showing_step (u : UInt32) (s : HalmasuitState) (tr : List Event) (i : Input)
    (hi : Untriggered s i) (h : Showing u s tr) :
    Showing u (s.step fromSlice i).1 (tr ++ (s.step fromSlice i).2) := by
  have huid := s.step_sessionUid_kept fromSlice hi h.uid
  have hflag := s.step_sessionFirstFrameEmitted fromSlice i
  have hframes := s.firstFrames_step fromSlice i
  have hcalls := s.step_gateCalls fromSlice i
  have hswap := s.step_swap fromSlice i
  cases hc : s.gateCall i with
  | none =>
    simp only [hc, Option.toList_none, List.filter_nil, List.map_nil, Option.any_none,
      Bool.or_false] at hflag hframes hcalls hswap
    refine ⟨huid, ?_, ?_⟩
    · rw [firstFrames_append, hframes, hflag, List.append_nil]
      exact h.frames
    · unfold opened
      rw [Scene.gateCalls_append, hcalls, hflag, hswap, List.append_nil]
      exact h.gate
  | some c =>
    simp only [hc, Option.toList_some, List.map_cons, List.map_nil, Option.any_some]
      at hflag hframes hcalls hswap
    refine ⟨huid, ?_, ?_⟩
    · rw [firstFrames_append, hframes, hflag, h.frames]
      cases hff : c.isFirstFrame with
      | false => simp [hff]
      | true =>
        obtain ⟨u', rfl, hu', -, hdown⟩ := gateCall_firstFrame hc hff
        obtain rfl : u' = u := Option.some.inj (hu'.symm.trans h.uid)
        simp [hdown, GateCall.isFirstFrame]
    · unfold opened
      rw [Scene.gateCalls_append, hcalls]
      rcases h.gate with ⟨c', hm⟩ | ⟨o, f, hp, ho, hf, hof⟩
      · exact .inl ⟨c', List.mem_append_left _ hm⟩
      · rcases Scene.call_cases s.swap c with ⟨-, -, heq⟩ | ⟨-, o', f', hp', hno, heq⟩ |
          ⟨-, hp', -⟩ | ⟨-, hp', -⟩ | ⟨ht, -, -⟩
        · exact .inl ⟨c, by simp [heq]⟩
        · right
          obtain ⟨rfl, rfl⟩ : o' = o ∧ f' = f := by simpa [hp] using hp'.symm
          refine ⟨o' || c.isOpened, f' || c.isFirstFrame, by simp [hswap, heq], ?_, ?_,
            fun _ => hno⟩
          · rintro ⟨p, hp, hpo⟩
            rcases List.mem_append.mp hp with hp | hp
            · simp [ho ⟨p, hp, hpo⟩]
            · obtain rfl := List.mem_singleton.mp hp
              simp [hpo]
          · intro hfl
            rw [hflag] at hfl
            rcases Bool.or_eq_true_iff.mp hfl with hfl | hfl
            · simp [hf hfl]
            · simp [hfl]
        · rw [hp] at hp'
          simp at hp'
        · rw [hp] at hp'
          cases hp'
        · rw [hi c hc] at ht
          cases ht

/-- `Swap` puts the session in the foreground. -/
theorem foreground_of_swap (is : List Input) : ∀ s : HalmasuitState, ∀ c : GateCall,
    (c, .swap) ∈ Scene.gateCalls (run (step fromSlice) s is).2 →
    ∃ is', is' <+: is ∧ (run (step fromSlice) s is').1.foreground = .session := by
  induction is with
  | nil =>
    intro s c h
    cases h
  | cons i is ih =>
    intro s c h
    rcases List.mem_append.mp (Scene.gateCalls_append _ _ ▸ h) with h | h
    · refine ⟨[i], ⟨is, rfl⟩, ?_⟩
      rw [step_gateCalls] at h
      cases hc : s.gateCall i with
      | none => simp [hc] at h
      | some c' =>
        obtain ⟨rfl, ha⟩ : c = c' ∧ .swap = (s.swap.call c').1 := by simpa [hc] using h
        show (s.step fromSlice i).1.foreground = _
        rw [s.step_foreground_some fromSlice hc, ← ha]
    · obtain ⟨is', hpre, hfg⟩ := ih _ c h
      exact ⟨i :: is', List.cons_prefix_cons.mpr ⟨rfl, hpre⟩, hfg⟩

/-- A gate that is done shows nothing. -/
theorem foreground_of_done (is : List Input) (s : HalmasuitState)
    (hq : Along (step fromSlice) Untriggered s is) (hp : s.swap.phase = .done)
    (hfg : s.foreground = .greeter) : (run (step fromSlice) s is).1.foreground = .greeter := by
  have hstep : ∀ (s : HalmasuitState) (_ : List Event) i, Untriggered s i →
      s.swap.phase = .done ∧ s.foreground = .greeter →
      (s.step fromSlice i).1.swap.phase = .done ∧ (s.step fromSlice i).1.foreground = .greeter := by
    rintro s - i hi ⟨hp, hfg⟩
    have hswap := s.step_swap fromSlice i
    cases hc : s.gateCall i with
    | none =>
      obtain ⟨hswap, -, hfg', -⟩ := (s.step_moves fromSlice i).gate_none hc
      refine ⟨by rw [hswap, hp], ?_⟩
      rcases hfg' with h | h
      · rw [h, hfg]
      · exact h
    | some c =>
      rw [hc] at hswap
      have hfg' := s.step_foreground_some fromSlice hc
      have hcall : s.swap.call c = (.none, s.swap) := by
        rw [Scene.call_key (hi c hc)]
        simp only [SwapGate.arm, hp]
      simp only [hcall, reduceCtorEq, if_false] at hswap hfg'
      exact ⟨by rw [hswap, hp], by rw [hfg', hfg]⟩
  exact (run_invariant_along
    (fun s _ => s.swap.phase = .done ∧ s.foreground = .greeter) hstep is s []
    hq ⟨hp, hfg⟩).2

/-- The emit-once flag is never taken down. -/
theorem run_sessionFirstFrameEmitted (is : List Input) (s : HalmasuitState)
    (h : s.sessionFirstFrameEmitted = true) :
    (run (step fromSlice) s is).1.sessionFirstFrameEmitted = true := by
  have hstep : ∀ (s : HalmasuitState) (_ : List Event) i, s.sessionFirstFrameEmitted = true →
      (s.step fromSlice i).1.sessionFirstFrameEmitted = true := by
    intro s _ i h
    rw [step_sessionFirstFrameEmitted, h]
    rfl
  exact run_invariant (fun s _ => s.sessionFirstFrameEmitted = true) hstep is s [] h

/-- While the session's client paints nothing, the flag stays down. -/
theorem run_unpainted (u : UInt32) (is : List Input) (s : HalmasuitState)
    (hq : Along (step fromSlice) (fun s i => Untriggered s i ∧ paints u s i = false) s is)
    (hu : s.sessionUid = some u) (h : s.sessionFirstFrameEmitted = false) :
    (run (step fromSlice) s is).1.sessionUid = some u ∧
      (run (step fromSlice) s is).1.sessionFirstFrameEmitted = false := by
  have hstep : ∀ (s : HalmasuitState) (_ : List Event) i, Untriggered s i ∧ paints u s i = false →
      s.sessionUid = some u ∧ s.sessionFirstFrameEmitted = false →
      (s.step fromSlice i).1.sessionUid = some u ∧
        (s.step fromSlice i).1.sessionFirstFrameEmitted = false := by
    rintro s - i ⟨hi, hp⟩ ⟨hu, h⟩
    refine ⟨s.step_sessionUid_kept fromSlice hi hu, ?_⟩
    rw [step_sessionFirstFrameEmitted, h]
    cases hc : s.gateCall i with
    | none => rfl
    | some c =>
      by_contra hff
      obtain ⟨u', -, hu', hp', -⟩ := gateCall_firstFrame hc (by simpa using hff)
      obtain rfl : u' = u := Option.some.inj (hu'.symm.trans hu)
      rw [hp] at hp'
      cases hp'
  exact run_invariant_along
    (fun s _ => s.sessionUid = some u ∧ s.sessionFirstFrameEmitted = false) hstep is s [] hq ⟨hu, h⟩

/-- The state `main` builds has no key. -/
theorem keyed_start (inInitramfs : Bool) (greeterUid : UInt32) (pamService : String)
    (greeter : Option UInt32) : Keyed (start inInitramfs greeterUid pamService greeter) := by
  constructor
  · intro h
    cases h
  · intro _
    simp [start, SwapGate.new]

/-- **The second key of every login.** Over every run and every session it records, and every
continuation in which no revert trigger reaches the gate: the session's first painting commit calls
`session_first_frame`, once, and with `SessionOpened` the foreground becomes the session's, if and
only if the flag was down and the gate armed when the session was recorded. -/
theorem first_frame_shown_iff (inInitramfs : Bool) (greeterUid : UInt32) (pamService : String)
    (greeter : Option UInt32) (pre : List Input) (r : Input) (u : UInt32) (is₁ : List Input)
    (j : Input) (is₂ : List Input) :
    let s := (run (step fromSlice) (start inInitramfs greeterUid pamService greeter) pre).1
    let s₁ := (s.step fromSlice r).1
    let is := is₁ ++ j :: is₂
    s.sessionUid = none → s₁.sessionUid = some u →
    Along (step fromSlice) Untriggered s₁ is →
    Along (step fromSlice) (fun s i => paints u s i = false) s₁ is₁ →
    paints u (run (step fromSlice) s₁ is₁).1 j = true → opened (run (step fromSlice) s₁ is).2 →
    (((run (step fromSlice) s₁ is₁).1.gateCall j = some (.sessionFirstFrame u) ∧
      firstFrames (run (step fromSlice) s₁ is).2 = [.sessionFirstFrame u] ∧
      ∃ is', is' <+: is ∧ (run (step fromSlice) s₁ is').1.foreground = .session) ↔
    s.sessionFirstFrameEmitted = false ∧ ∃ o f, s.swap.phase = .arming o f) := by
  intro s s₁ is hnone hrec hq hunp hpaint hopen
  have hkeyed : Keyed s := run_invariant (fun s _ => Keyed s)
    (fun s _ i h => s.keyed_step fromSlice i h) pre _ [] (keyed_start _ _ _ _)
  obtain ⟨hswap, hflag, hfg, -⟩ :=
    (s.step_moves fromSlice r).gate_none (s.gateCall_of_recorded fromSlice hnone hrec)
  have hflag : s₁.sessionFirstFrameEmitted = s.sessionFirstFrameEmitted := hflag
  have hswap : s₁.swap = s.swap := hswap
  constructor
  · rintro ⟨hcall, -, is', hpre, hshown⟩
    constructor
    · by_contra hup
      have hup' : s₁.sessionFirstFrameEmitted = true := by simpa [hflag] using hup
      obtain ⟨_, -, -, -, hdown⟩ := gateCall_firstFrame hcall rfl
      rw [run_sessionFirstFrameEmitted fromSlice is₁ s₁ hup'] at hdown
      cases hdown
    · cases hp : s.swap.phase with
      | arming o f => exact ⟨o, f, rfl⟩
      | swapped => exact absurd hp (hkeyed.unkeyed hnone).1
      | done =>
        have hgreeter : s₁.foreground = .greeter := by
          rcases hfg with h | h
          · rw [show s₁.foreground = s.foreground from h]
            cases hs : s.foreground with
            | greeter => rfl
            | session =>
              rw [hkeyed.foreground hs] at hp
              cases hp
          · exact h
        obtain ⟨rest, heq⟩ := hpre
        rw [← heq, along_append] at hq
        rw [foreground_of_done fromSlice is' s₁ hq.1 (by rw [hswap, hp]) hgreeter] at hshown
        cases hshown
  · rintro ⟨hdown, o, f, hp⟩
    have hq' := (along_append is₁ (j :: is₂) s₁).mp hq
    have hun : Along (step fromSlice) (fun s i => Untriggered s i ∧ paints u s i = false) s₁ is₁ :=
      (along_iff_forall is₁ s₁).mpr fun pre i post heq =>
        ⟨(along_iff_forall is₁ s₁).mp hq'.1 pre i post heq,
          (along_iff_forall is₁ s₁).mp hunp pre i post heq⟩
    obtain ⟨hu, hdown₁⟩ := run_unpainted fromSlice u is₁ s₁ hun hrec (by rw [hflag, hdown])
    have hcall := gateCall_of_paints hpaint hu hdown₁
    have hup : (run (step fromSlice) s₁ is).1.sessionFirstFrameEmitted = true := by
      rw [show is = is₁ ++ j :: is₂ from rfl, run_append]
      refine run_sessionFirstFrameEmitted fromSlice is₂ _ ?_
      rw [step_sessionFirstFrameEmitted, hcall]
      simp [GateCall.isFirstFrame]
    have hinit : Showing u s₁ [] := by
      refine ⟨hrec, by simp [hflag, hdown, firstFrames], .inr ⟨o, f, by rw [hswap, hp], ?_, ?_, ?_⟩⟩
      · rintro ⟨p, hm, -⟩
        cases hm
      · simp [hflag, hdown]
      · rintro (⟨p, hm, -⟩ | h)
        · cases hm
        · simp [hflag, hdown] at h
    have hend := run_invariant_along (Showing u) (showing_step fromSlice u) is s₁ [] hq hinit
    rw [List.nil_append] at hend
    refine ⟨hcall, by rw [hend.frames, hup]; rfl, ?_⟩
    rcases hend.gate with ⟨c, hc⟩ | ⟨o', f', -, ho, hf, hof⟩
    · exact foreground_of_swap fromSlice is s₁ c hc
    · have hno := hof (.inl hopen)
      rw [ho hopen, hf hup] at hno
      cases hno

/-- The first login of a boot is shown. -/
theorem first_login_shown :
    let s₁ := (run (step readRequest) booted (authenticate 0 "alice" 1000)).1
    let is := [brokerSays 0 .sessionOpened (some 7), .waylandConnect 1000, .newToplevel ⟨0, 1000⟩,
      .commit (paint ⟨0, 1000⟩) calm]
    firstFrames (run (step readRequest) s₁ is).2 = [.sessionFirstFrame 1000] ∧
      ∃ is', is' <+: is ∧ (run (step readRequest) s₁ is').1.foreground = .session := by
  have h := (first_frame_shown_iff readRequest false 990 "halmasuit" (some 50)
    ((authenticate 0 "alice" 1000).take 3) (greeterSends 0 [.startSession ["/bin/sway"] []]) 1000
    [brokerSays 0 .sessionOpened (some 7), .waylandConnect 1000, .newToplevel ⟨0, 1000⟩]
    (.commit (paint ⟨0, 1000⟩) calm) [] (by decide +kernel) (by decide +kernel) (by decide +kernel)
    (by decide +kernel) (by decide +kernel) ⟨(.sessionOpened 0, .none), by decide +kernel, rfl⟩).mpr
    ⟨by decide +kernel, false, false, by decide +kernel⟩
  exact h.2

/-- The second login of a boot: `bob` logs in after `alice` has logged out, his session opens and
paints, and the gate is not told. -/
theorem second_login_not_shown :
    let s := (run (step readRequest) booted (login 0 "alice" 1000 ++
      [brokerSays 0 (.sessionEnded (.exited 0)) none, .idle])).1
    let tr := run (step readRequest) s (login 1 "bob" 1001)
    s.swap = .new ∧ s.sessionUid = none ∧ tr.1.sessionUid = some 1001 ∧
      Scene.gateCalls tr.2 = [(.sessionOpened 1, .none)] ∧ firstFrames tr.2 = [] ∧
      tr.1.foreground = .greeter := by
  decide +kernel

end

end HalmasuitState

end Halmasuit.Compositor
