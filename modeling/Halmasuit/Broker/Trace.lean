import Halmasuit.Broker.Loop
import Halmasuit.Lib.Run
import Mathlib.Data.List.Forall2

/-!
# What the broker tells of a secret

The trace of frames that can be switched on for the broker (`halmasuit-session/src/wire_trace.rs`,
called at `broker.rs` 237–298, 346, 764, 799 and 878) writes every frame as `Debug` shows it, and
`Secret` shows itself as `Secret(<redacted>)` (`halmasuit-session-ipc/src/lib.rs` 48–52). How a
string is shown is a parameter.

The other messages of the log are left out, and so is the conversation in the worker, which has the
secret and acts on it.

**`secrets_untold`**: two runs of the broker with whatever secrets in the same places, traced or not,
end in the same state, and all that can be seen of them is the same, but for the secrets that are
passed on to the worker.
-/

namespace Halmasuit.Broker

open Halmasuit.Lib
open Halmasuit.SessionIpc

/-! ## The trace -/

/-- `Direction`. -/
inductive Direction where
  | send
  | recv
  deriving DecidableEq, Repr

/-- `Direction::as_str`. -/
def Direction.asStr : Direction → String
  | .send => "send"
  | .recv => "recv"

section
variable (quote : String → String)

/-- `Debug` of a struct. -/
def debugStruct (name : String) (fields : List (String × String)) : String :=
  name ++ " \x7b " ++ ", ".intercalate (fields.map fun f => f.1 ++ ": " ++ f.2) ++ " \x7d"

/-- `Debug` of a list. -/
def debugList (items : List String) : String := "[" ++ ", ".intercalate items ++ "]"

/-- `Debug` of `Secret`. -/
def debugSecret (_ : String) : String := "Secret(<redacted>)"

def PromptStyle.debug : PromptStyle → String
  | .visible => "Visible"
  | .secret => "Secret"

def DisplayStyle.debug : DisplayStyle → String
  | .info => "Info"
  | .error => "Error"

def SessionOutcome.debug : SessionOutcome → String
  | .exited code => debugStruct "Exited" [("code", toString code)]
  | .signaled signal => debugStruct "Signaled" [("signal", toString signal)]

def debugDown : CompositorToBroker → String
  | .beginAuth service username =>
    debugStruct "BeginAuth" [("service", quote service), ("username", quote username)]
  | .convResponse response => debugStruct "ConvResponse" [("response", debugSecret response)]
  | .startSession cmd env =>
    debugStruct "StartSession" [("cmd", debugList (cmd.map quote)),
      ("env", debugList (env.map fun kv => "(" ++ quote kv.1 ++ ", " ++ quote kv.2 ++ ")"))]
  | .cancel => "Cancel"
  | .requestRootFd => "RequestRootFd"
  | .spawnGreeter => "SpawnGreeter"

def debugUp : BrokerToCompositor → String
  | .convPrompt style message =>
    debugStruct "ConvPrompt" [("style", PromptStyle.debug style), ("message", quote message)]
  | .convDisplay style message =>
    debugStruct "ConvDisplay" [("style", DisplayStyle.debug style), ("message", quote message)]
  | .success username uid gid =>
    debugStruct "Success" [("username", quote username), ("uid", toString uid),
      ("gid", toString gid)]
  | .failure reason => debugStruct "Failure" [("reason", quote reason)]
  | .sessionOpened => "SessionOpened"
  | .sessionEnded outcome =>
    debugStruct "SessionEnded" [("outcome", SessionOutcome.debug outcome)]
  | .rootFd => "RootFd"
  | .greeterSpawned pid => debugStruct "GreeterSpawned" [("pid", toString pid)]

/-- `format_line`. -/
def formatLine (direction : Direction) (frame : String) : String :=
  "wire_trace dir=" ++ direction.asStr ++ " frame=" ++ frame

/-- `enabled_from`, of the value of `HALMASUIT_BROKER_TRACE_FRAMES`. -/
def enabledFrom (value : Option String) : Bool := value == some "1"

/-- `maybe_format`. -/
def maybeFormat (enabled : Bool) (direction : Direction) (frame : String) : List String :=
  if enabled then [formatLine direction frame] else []

variable (enabled : Bool)

/-- The lines of `on_worker_readable`: the frame, before it is sent. -/
def Relay.traceWorker (relay : Relay)
    (current : Option (Except TransportError (ParentMessage × Option Fd))) : List String :=
  if relay.phase ≠ .awaitWorker ∧ relay.phase ≠ .sessionRunning then []
  else
    match current with
    | some (.ok (pm, _)) =>
      match pm.relayed relay.phase with
      | some (frame, _, _) => maybeFormat enabled .send (debugUp quote frame)
      | none => []
    | _ => []

/-- The line of `on_greeter_readable`: the frame, whatever it is. -/
def Relay.traceGreeter (relay : Relay) (recv : Except TransportError CompositorToBroker) :
    List String :=
  match relay.phase, recv with
  | .awaitWorker, _ | .sessionRunning, _ => []
  | _, .error _ => []
  | _, .ok frame => maybeFormat enabled .recv (debugDown quote frame)

/-- The lines of `dispatch_first_frame`, with those of the two requests that it serves. `opens` is
whether the root directory can be opened. -/
def BrokerLoop.traceFirstFrame (bl : BrokerLoop) (puid : UInt32) (w : World) (opens : Bool) :
    Except TransportError CompositorToBroker → List String
  | .error _ => []
  | .ok frame =>
    maybeFormat enabled .recv (debugDown quote frame) ++
      if puid ≠ 0 ∧ puid ≠ bl.slot.relayPeerUid then []
      else
        match frame, w.spawnGreeter with
        | .requestRootFd, _ =>
          if opens then maybeFormat enabled .send (debugUp quote .rootFd) else []
        | .spawnGreeter, some pid =>
          -- a pid that does not fit is shown as -1
          let shown := if pid.toNat < 2 ^ 31 then pid.toInt32 else -1
          maybeFormat enabled .send (debugUp quote (.greeterSpawned shown))
        | _, _ => []

end

/-! ## What can be seen -/

/-- What can be seen of a run: the processes, the wire trace, and the frames in
either direction. -/
inductive Seen where
  | event (e : LoopEvent)
  | line (text : String)
  | toGreeter (frame : BrokerToCompositor) (fd : Option Fd)
  | toWorker (frame : CompositorToBroker)
  deriving DecidableEq, Repr

section
variable (quote : String → String) (enabled : Bool) (idleExit : Nat)

/-- The lines and the frames of a callback. -/
def BrokerProcess.tells (s : BrokerProcess) (opens : Bool) : LoopInput → List Seen
  | .firstFrame id recv w =>
    match s.bl.pending.find? (·.id = id) with
    | none => []
    | some p => (s.bl.traceFirstFrame quote enabled p.puid w opens recv).map .line
  | .workerReadable recv kernel _ _ =>
    match s.bl.active with
    | none => []
    | some a =>
      let current := s.bl.slot.inflight.map fun _ => recv
      (a.relay.traceWorker quote enabled current).map .line ++
        (a.relay.onWorkerReadable current kernel).sent.toList.map fun f => .toGreeter f.1 f.2
  | .greeterReadable recv kernel _ _ =>
    match s.bl.active with
    | none => []
    | some a =>
      (a.relay.traceGreeter quote enabled recv).map .line ++
        (a.relay.onGreeterReadable recv s.bl.slot.inflight.isSome kernel).sent.toList.map .toWorker
  | _ => []

/-- One callback, with whether the root directory can be opened then. -/
def BrokerProcess.seenStep (s : BrokerProcess) (i : LoopInput × Bool) :
    BrokerProcess × List Seen :=
  ((s.step idleExit i.1).1,
    (if s.exit.isSome then [] else s.tells quote enabled i.2 i.1) ++
      (s.step idleExit i.1).2.map .event)

end

/-! ## Two runs -/

/-- The frames are the same but for a secret, which may be encoded in both or in neither. -/
inductive AlikeFrame : CompositorToBroker → CompositorToBroker → Prop where
  | same (frame) : AlikeFrame frame frame
  | secret (response response' : String)
      (fits : Fits (CompositorToBroker.convResponse response).toVec ↔
        Fits (CompositorToBroker.convResponse response').toVec) :
      AlikeFrame (.convResponse response) (.convResponse response')

inductive AlikeRecv : Except TransportError CompositorToBroker →
    Except TransportError CompositorToBroker → Prop where
  | ok {frame frame'} (h : AlikeFrame frame frame') : AlikeRecv (.ok frame) (.ok frame')
  | error (e) : AlikeRecv (.error e) (.error e)

/-- The inputs are the same but for a secret. -/
inductive Alike : LoopInput × Bool → LoopInput × Bool → Prop where
  | same (i) : Alike i i
  | firstFrame {recv recv'} (id w opens) (h : AlikeRecv recv recv') :
      Alike (.firstFrame id recv w, opens) (.firstFrame id recv' w, opens)
  | greeterReadable {recv recv'} (kernel now waits opens) (h : AlikeRecv recv recv') :
      Alike (.greeterReadable recv kernel now waits, opens)
        (.greeterReadable recv' kernel now waits, opens)

/-- What is seen is the same but for a secret on its way to the worker. -/
inductive AlikeSeen : Seen → Seen → Prop where
  | same (o) : AlikeSeen o o
  | toWorker {frame frame'} (h : AlikeFrame frame frame') :
      AlikeSeen (.toWorker frame) (.toWorker frame')

theorem alikeSeen_refl (os : List Seen) : List.Forall₂ AlikeSeen os os :=
  List.forall₂_same.mpr fun o _ => .same o

/-- `Debug` tells nothing of a secret. -/
theorem AlikeFrame.debug {quote : String → String} {frame frame' : CompositorToBroker}
    (h : AlikeFrame frame frame') : debugDown quote frame = debugDown quote frame' := by
  cases h with
  | same => rfl
  | secret => rfl

/-- The relay goes on in the same way, whatever a secret is. -/
theorem AlikeFrame.relay {frame frame' : CompositorToBroker} (h : AlikeFrame frame frame')
    (relay : Relay) (current : Bool) (kernel : Except TransportError Unit) :
    let st := relay.onGreeterReadable (.ok frame) current kernel
    let st' := relay.onGreeterReadable (.ok frame') current kernel
    st.relay = st'.relay ∧ st.res = st'.res ∧
      List.Forall₂ AlikeFrame st.sent.toList st'.sent.toList := by
  cases h with
  | same => exact ⟨rfl, rfl, List.forall₂_same.mpr fun f _ => .same f⟩
  | secret response response' fits =>
    cases hp : relay.phase with
    | awaitWorker => simp [Relay.onGreeterReadable, hp]
    | sessionRunning => simp [Relay.onGreeterReadable, hp]
    | awaitGreeterStartSession => simp [Relay.onGreeterReadable, hp]
    | awaitGreeterConvResponse =>
      simp only [Relay.onGreeterReadable, hp, Relay.down]
      cases current with
      | false => simp
      | true =>
        simp only [if_true, Relay.write, send]
        by_cases hfits : Fits (CompositorToBroker.convResponse response).toVec
        · rw [if_pos hfits, if_pos (fits.mp hfits)]
          cases kernel with
          | error e => simp
          | ok u => exact ⟨rfl, rfl, .cons (.secret response response' fits) .nil⟩
        · rw [if_neg hfits, if_neg fun h => hfits (fits.mpr h)]
          simp

/-- And the loop. -/
theorem AlikeRecv.stepGreeter {recv recv' : Except TransportError CompositorToBroker}
    (h : AlikeRecv recv recv') (bl : BrokerLoop) (kernel : Except TransportError Unit)
    (now : Instant) (waits : Bool) :
    bl.stepGreeter recv kernel now waits = bl.stepGreeter recv' kernel now waits := by
  cases h with
  | error => rfl
  | ok h =>
    unfold BrokerLoop.stepGreeter
    cases bl.active with
    | none => rfl
    | some a =>
      obtain ⟨hrelay, hres, -⟩ := h.relay a.relay bl.slot.inflight.isSome kernel
      simp only [BrokerLoop.stepped, hrelay, hres]

theorem AlikeRecv.dispatch {recv recv' : Except TransportError CompositorToBroker}
    (h : AlikeRecv recv recv') (bl : BrokerLoop) (puid : UInt32) (w : World) :
    bl.dispatchFirstFrame puid w recv = bl.dispatchFirstFrame puid w recv' := by
  cases h with
  | error => rfl
  | ok h =>
    cases h with
    | same => rfl
    | secret => rfl

theorem AlikeRecv.traceFirstFrame {recv recv' : Except TransportError CompositorToBroker}
    (h : AlikeRecv recv recv') (quote : String → String) (enabled : Bool) (bl : BrokerLoop)
    (puid : UInt32) (w : World) (opens : Bool) :
    bl.traceFirstFrame quote enabled puid w opens recv =
      bl.traceFirstFrame quote enabled puid w opens recv' := by
  cases h with
  | error => rfl
  | ok h =>
    cases h with
    | same => rfl
    | secret => rfl

theorem AlikeRecv.traceGreeter {recv recv' : Except TransportError CompositorToBroker}
    (h : AlikeRecv recv recv') (quote : String → String) (enabled : Bool) (relay : Relay) :
    relay.traceGreeter quote enabled recv = relay.traceGreeter quote enabled recv' := by
  cases h with
  | error => rfl
  | ok h =>
    unfold Relay.traceGreeter
    cases relay.phase <;> simp only [h.debug]

/-- One callback goes on in the same way. -/
theorem Alike.step {i i' : LoopInput × Bool} (h : Alike i i') (idleExit : Nat)
    (s : BrokerProcess) : s.step idleExit i.1 = s.step idleExit i'.1 := by
  cases h with
  | same => rfl
  | firstFrame id w opens h =>
    simp only [BrokerProcess.step, BrokerLoop.firstFrameReady, h.dispatch]
  | greeterReadable kernel now waits opens h =>
    simp only [BrokerProcess.step, h.stepGreeter]

/-- And tells the same. -/
theorem Alike.tells {i i' : LoopInput × Bool} (h : Alike i i') (quote : String → String)
    (enabled : Bool) (s : BrokerProcess) :
    List.Forall₂ AlikeSeen (s.tells quote enabled i.2 i.1) (s.tells quote enabled i'.2 i'.1) := by
  cases h with
  | same => exact alikeSeen_refl _
  | firstFrame id w opens h =>
    simp only [BrokerProcess.tells, h.traceFirstFrame]
    exact alikeSeen_refl _
  | greeterReadable kernel now waits opens h =>
    simp only [BrokerProcess.tells]
    cases s.bl.active with
    | none => exact .nil
    | some a =>
      simp only [h.traceGreeter]
      refine List.rel_append (alikeSeen_refl _) ?_
      cases h with
      | error => exact alikeSeen_refl _
      | ok h =>
        obtain ⟨-, -, hsent⟩ := h.relay a.relay s.bl.slot.inflight.isSome kernel
        exact List.forall₂_map_left_iff.mpr (List.forall₂_map_right_iff.mpr
          (hsent.imp fun _ _ hframe => .toWorker hframe))

theorem Alike.seenStep {i i' : LoopInput × Bool} (h : Alike i i') (quote : String → String)
    (enabled : Bool) (idleExit : Nat) (s : BrokerProcess) :
    (s.seenStep quote enabled idleExit i).1 = (s.seenStep quote enabled idleExit i').1 ∧
      List.Forall₂ AlikeSeen (s.seenStep quote enabled idleExit i).2
        (s.seenStep quote enabled idleExit i').2 := by
  have hstep := h.step idleExit s
  unfold BrokerProcess.seenStep
  rw [hstep]
  refine ⟨rfl, ?_⟩
  refine List.rel_append ?_ (alikeSeen_refl _)
  split
  · exact .nil
  · exact h.tells quote enabled s

/-- **A secret is told to the worker and to nobody else.** Of two runs with the same inputs but for
the secrets, where of each two both fit a frame or neither does, the broker ends in the same state,
and the processes, the trace and the frames are the same, but for the secrets on their way to the
worker. -/
theorem secrets_untold (quote : String → String) (enabled : Bool) (idleExit : Nat)
    {is is' : List (LoopInput × Bool)} (h : List.Forall₂ Alike is is') (s : BrokerProcess) :
    let r := run (BrokerProcess.seenStep quote enabled idleExit) s is
    let r' := run (BrokerProcess.seenStep quote enabled idleExit) s is'
    r.1 = r'.1 ∧ List.Forall₂ AlikeSeen r.2 r'.2 := by
  induction h generalizing s with
  | nil => exact ⟨rfl, .nil⟩
  | cons hi _ ih =>
    obtain ⟨hstate, hseen⟩ := hi.seenStep quote enabled idleExit s
    simp only [run]
    rw [hstate]
    exact ⟨(ih _).1, List.rel_append hseen (ih _).2⟩

/-- A login up to the answer, with the password `response`. -/
def answered (response : String) : List (LoopInput × Bool) :=
  let w : World := ⟨0, true, some 4242, true, true, none⟩
  [(.accept (.conn (some 990)) true, true),
    (.firstFrame 0 (.ok (.beginAuth "halmasuit" "alice")) w, true),
    (.workerReadable (.ok (.conv (.convPrompt .secret "Password: "), none)) (.ok ()) 0 true, true),
    (.greeterReadable (.ok (.convResponse response)) (.ok ()) 0 true, true)]

theorem secrets_untold_login :
    let start := BrokerProcess.new 990 0
    let r := run (BrokerProcess.seenStep id true 0) start (answered "hunter2")
    let r' := run (BrokerProcess.seenStep id true 0) start (answered "correct horse")
    r.1 = r'.1 ∧ List.Forall₂ AlikeSeen r.2 r'.2 := by
  refine secrets_untold id true 0 ?_ (BrokerProcess.new 990 0)
  refine .cons (.same _) (.cons (.same _) (.cons (.same _) (.cons ?_ .nil)))
  exact .greeterReadable _ _ _ _ (.ok (.secret _ _ (iff_of_true (by decide) (by decide))))

/-- The last line of such a login. -/
example : (run (BrokerProcess.seenStep id true 0) (BrokerProcess.new 990 0)
    (answered "hunter2")).2.contains
      (.line "wire_trace dir=recv frame=ConvResponse \x7b response: Secret(<redacted>) \x7d") := by
  decide

end Halmasuit.Broker
