import Halmasuit.SessionIpc.Wire

/-!
# The broker's relay

`halmasuit-session/src/broker.rs` 115–360: `Relay`, the step-driven machine between the worker's
channel and the greeter's, with the messages a worker sends (`worker.rs` 30–100). One call handles
one datagram. What a call reads of the world (the datagram received, whether the kernel takes the
datagram sent) is a parameter.

- `onWorkerReadable_cases`, `onGreeterReadable_takes`: what the two entry points can do.
-/

namespace Halmasuit.Broker

open Halmasuit.Lib
open Halmasuit.SessionIpc

/-! ## What a worker sends -/

/-- `WorkerOutcome`. -/
inductive WorkerOutcome where
  | success (username : String) (uid gid : UInt32)
  | failure (reason : String)
  | authOk (username : String) (uid gid : UInt32)
  | sessionOpened (username : String) (uid gid : UInt32)
  | sessionEnded (outcome : SessionOutcome)
  deriving DecidableEq, Repr

/-- `ParentMessage`: one datagram from the worker. -/
inductive ParentMessage where
  | conv (frame : BrokerToCompositor)
  | outcome (o : WorkerOutcome)
  deriving DecidableEq, Repr

/-- `serde_json::to_vec` of a worker outcome, an object tagged by `type`. -/
def WorkerOutcome.toVec : WorkerOutcome → List UInt8
  | .success username uid gid =>
    Json.object (("type", Json.string "worker_success") :: identityMembers username uid gid)
  | .failure reason =>
    Json.object [("type", Json.string "worker_failure"), ("reason", Json.string reason)]
  | .authOk username uid gid =>
    Json.object (("type", Json.string "worker_auth_ok") :: identityMembers username uid gid)
  | .sessionOpened username uid gid =>
    Json.object (("type", Json.string "worker_session_opened") :: identityMembers username uid gid)
  | .sessionEnded outcome =>
    Json.object [("type", Json.string "worker_session_ended"), ("outcome", outcome.toVec)]

/-- `serde_json::to_vec` of a worker's datagram; the enum is untagged. -/
def ParentMessage.toVec : ParentMessage → List UInt8
  | .conv frame => frame.toVec
  | .outcome o => o.toVec

/-! ## Channels -/

/-- `TransportError`. -/
inductive TransportError where
  | io
  | codec
  | closed
  | malformed
  deriving DecidableEq, Repr

/-- `SeqpacketChannel::send` and `send_frame_with_fd`, with what the kernel says to the datagram. -/
def send (kernel : Except TransportError Unit) (body : List UInt8) : Except TransportError Unit :=
  if Fits body then kernel else .error .codec

theorem send_ok {kernel : Except TransportError Unit} {body : List UInt8}
    (h : send kernel body = .ok ()) : Fits body ∧ kernel = .ok () := by
  unfold send at h
  split at h
  · rename_i hf
    exact ⟨hf, h⟩
  · cases h

/-! ## The relay -/

/-- `Disposition`. -/
inductive Disposition where
  | completed (outcome : SessionOutcome)
  | authFailed (reason : String)
  | cancelled
  deriving DecidableEq, Repr

/-- `BrokerError`, as the relay returns it. -/
inductive BrokerError where
  | transport (e : TransportError)
  | unexpectedFrame
  | workerGone
  deriving DecidableEq, Repr

/-- `RelayPhase`. -/
inductive RelayPhase where
  | awaitWorker
  | awaitGreeterConvResponse
  | awaitGreeterStartSession
  | sessionRunning
  deriving DecidableEq, Repr

/-- `RelayStep`. -/
inductive RelayStep where
  | continue
  | finished (d : Disposition)
  deriving DecidableEq, Repr

/-- `Relay`. -/
structure Relay where
  phase : RelayPhase
  deriving DecidableEq, Repr

/-- `Relay::new`. -/
def Relay.new : Relay := ⟨.awaitWorker⟩

/-- One relay step: the relay after it, the datagram it wrote, its result. -/
structure Stepped (α : Type) where
  relay : Relay
  sent : Option α
  res : Except BrokerError RelayStep

/-- The end of the arms that write `frame`: `?` on the send, then the phase and the step. -/
def Relay.write {α : Type} (relay : Relay) (kernel : Except TransportError Unit)
    (body : List UInt8) (frame : α) (phase : RelayPhase) (step : RelayStep) : Stepped α :=
  match send kernel body with
  | .error e => ⟨relay, none, .error (.transport e)⟩
  | .ok () => ⟨⟨phase⟩, some frame, .ok step⟩

/-- `Relay::on_worker_readable`. `current` is what `recv_frame_with_fd` gives on the channel of the
slot's worker, `none` where the slot is empty; `kernel` is the answer to the write. -/
def Relay.onWorkerReadable (relay : Relay)
    (current : Option (Except TransportError (ParentMessage × Option Fd)))
    (kernel : Except TransportError Unit) : Stepped (BrokerToCompositor × Option Fd) :=
  if relay.phase ≠ .awaitWorker ∧ relay.phase ≠ .sessionRunning then
    ⟨relay, none, .error .unexpectedFrame⟩
  else
    match current with
    | none => ⟨relay, none, .error .workerGone⟩
    | some (.error e) => ⟨relay, none, .error (.transport e)⟩
    | some (.ok (pm, leaderPidfd)) =>
      let forward (frame : BrokerToCompositor) (fd : Option Fd) (phase : RelayPhase)
          (step : RelayStep) := relay.write kernel frame.toVec (frame, fd) phase step
      match pm with
      | .conv (.convPrompt style message) =>
        forward (.convPrompt style message) none .awaitGreeterConvResponse .continue
      | .conv (.convDisplay style message) =>
        forward (.convDisplay style message) none relay.phase .continue
      | .outcome (.authOk username uid gid) =>
        forward (.success username uid gid) none .awaitGreeterStartSession .continue
      | .outcome (.sessionOpened _ _ _) =>
        forward .sessionOpened leaderPidfd .sessionRunning .continue
      | .outcome (.sessionEnded outcome) =>
        forward (.sessionEnded outcome) none relay.phase (.finished (.completed outcome))
      | .outcome (.failure reason) =>
        forward (.failure reason) none relay.phase (.finished (.authFailed reason))
      | .conv (.success _ _ _) | .conv (.failure _) | .conv .sessionOpened
      | .conv (.sessionEnded _) | .conv .rootFd | .conv (.greeterSpawned _)
      | .outcome (.success _ _ _) => ⟨relay, none, .error .unexpectedFrame⟩

/-- The arm of `on_greeter_readable` that sends a frame down to the slot's worker. -/
def Relay.down (relay : Relay) (frame : CompositorToBroker) (current : Bool)
    (kernel : Except TransportError Unit) : Stepped CompositorToBroker :=
  if current then relay.write kernel frame.toVec frame .awaitWorker .continue
  else ⟨relay, none, .error .workerGone⟩

/-- `Relay::on_greeter_readable`. `recv` is what the greeter's channel gives, `current` whether the
slot holds a worker, `kernel` the answer to the write. -/
def Relay.onGreeterReadable (relay : Relay) (recv : Except TransportError CompositorToBroker)
    (current : Bool) (kernel : Except TransportError Unit) : Stepped CompositorToBroker :=
  match relay.phase, recv with
  | .awaitWorker, _ | .sessionRunning, _ => ⟨relay, none, .error .unexpectedFrame⟩
  | _, .error e => ⟨relay, none, .error (.transport e)⟩
  | .awaitGreeterConvResponse, .ok (.convResponse response) =>
    relay.down (.convResponse response) current kernel
  | .awaitGreeterStartSession, .ok (.startSession cmd env) =>
    relay.down (.startSession cmd env) current kernel
  | _, .ok .cancel => ⟨relay, none, .ok (.finished .cancelled)⟩
  | _, .ok _ => ⟨relay, none, .error .unexpectedFrame⟩

/-! ## Inversion -/

/-- What a worker message becomes: the frame for the greeter, the phase and the step. -/
def ParentMessage.relayed (phase : RelayPhase) :
    ParentMessage → Option (BrokerToCompositor × RelayPhase × RelayStep)
  | .conv (.convPrompt style message) =>
    some (.convPrompt style message, .awaitGreeterConvResponse, .continue)
  | .conv (.convDisplay style message) => some (.convDisplay style message, phase, .continue)
  | .outcome (.authOk username uid gid) =>
    some (.success username uid gid, .awaitGreeterStartSession, .continue)
  | .outcome (.sessionOpened _ _ _) => some (.sessionOpened, .sessionRunning, .continue)
  | .outcome (.sessionEnded o) => some (.sessionEnded o, phase, .finished (.completed o))
  | .outcome (.failure reason) => some (.failure reason, phase, .finished (.authFailed reason))
  | .conv (.success _ _ _) | .conv (.failure _) | .conv .sessionOpened
  | .conv (.sessionEnded _) | .conv .rootFd | .conv (.greeterSpawned _)
  | .outcome (.success _ _ _) => none

theorem write_cases {α : Type} (relay : Relay) (kernel : Except TransportError Unit)
    (body : List UInt8) (frame : α) (phase : RelayPhase) (step : RelayStep) :
    (Fits body ∧ kernel = .ok () ∧
      relay.write kernel body frame phase step = ⟨⟨phase⟩, some frame, .ok step⟩) ∨
    ∃ e, relay.write kernel body frame phase step = ⟨relay, none, .error (.transport e)⟩ := by
  unfold Relay.write
  split
  · rename_i e h
    exact .inr ⟨e, rfl⟩
  · rename_i h
    obtain ⟨hf, hk⟩ := send_ok h
    exact .inl ⟨hf, hk, rfl⟩

/-- In a phase that awaits the worker, a message that has a frame is written to the greeter. -/
theorem onWorkerReadable_relayed {relay : Relay}
    (hp : relay.phase = .awaitWorker ∨ relay.phase = .sessionRunning) {pm : ParentMessage}
    {frame : BrokerToCompositor} {phase : RelayPhase} {step : RelayStep}
    (h : pm.relayed relay.phase = some (frame, phase, step)) (fd : Option Fd)
    (kernel : Except TransportError Unit) :
    ∃ fd', relay.onWorkerReadable (some (.ok (pm, fd))) kernel
      = relay.write kernel frame.toVec (frame, fd') phase step := by
  have hp' : ¬ (relay.phase ≠ .awaitWorker ∧ relay.phase ≠ .sessionRunning) := by
    rintro ⟨h1, h2⟩
    exact hp.elim h1 h2
  unfold Relay.onWorkerReadable
  rw [if_neg hp']
  unfold ParentMessage.relayed at h
  split at h
  all_goals cases h
  all_goals exact ⟨_, rfl⟩

/-- The worker's side: a datagram is forwarded in a phase that awaits the worker, or the step fails
and writes nothing. -/
theorem onWorkerReadable_cases (relay : Relay)
    (current : Option (Except TransportError (ParentMessage × Option Fd)))
    (kernel : Except TransportError Unit) :
    (∃ pm fd frame fd' phase step, current = some (.ok (pm, fd)) ∧
      (relay.phase = .awaitWorker ∨ relay.phase = .sessionRunning) ∧
      pm.relayed relay.phase = some (frame, phase, step) ∧
      relay.onWorkerReadable current kernel = ⟨⟨phase⟩, some (frame, fd'), .ok step⟩) ∨
    ∃ e, relay.onWorkerReadable current kernel = ⟨relay, none, .error e⟩ := by
  by_cases hp : relay.phase ≠ .awaitWorker ∧ relay.phase ≠ .sessionRunning
  · refine .inr ⟨.unexpectedFrame, ?_⟩
    unfold Relay.onWorkerReadable
    rw [if_pos hp]
  have hphase : relay.phase = .awaitWorker ∨ relay.phase = .sessionRunning := by
    by_cases h : relay.phase = .awaitWorker
    · exact .inl h
    · exact .inr (by_contra fun h' => hp ⟨h, h'⟩)
  rcases current with _ | e | ⟨pm, fd⟩
  · refine .inr ⟨.workerGone, ?_⟩
    unfold Relay.onWorkerReadable
    rw [if_neg hp]
  · refine .inr ⟨.transport e, ?_⟩
    unfold Relay.onWorkerReadable
    rw [if_neg hp]
  rcases Option.eq_none_or_eq_some (pm.relayed relay.phase) with h | ⟨⟨frame, phase, step⟩, h⟩
  · refine .inr ⟨.unexpectedFrame, ?_⟩
    unfold Relay.onWorkerReadable
    rw [if_neg hp]
    unfold ParentMessage.relayed at h
    split at h
    all_goals first | rfl | cases h
  · obtain ⟨fd', heq⟩ := onWorkerReadable_relayed hphase h fd kernel
    rw [heq]
    rcases write_cases relay kernel frame.toVec (frame, fd') phase step with ⟨-, -, h'⟩ | ⟨e, h'⟩
    · exact .inl ⟨pm, fd, frame, fd', phase, step, rfl, hphase, h, h'⟩
    · exact .inr ⟨_, h'⟩

/-- A greeter frame the relay takes in the phase. -/
def RelayPhase.Takes : RelayPhase → CompositorToBroker → Prop
  | .awaitGreeterConvResponse, .convResponse _ => True
  | .awaitGreeterStartSession, .startSession _ _ => True
  | _, _ => False

/-- The greeter's side, for a frame the phase takes: it goes down to the worker, or the step fails
for a reason other than the frame. -/
theorem onGreeterReadable_takes {relay : Relay} {frame : CompositorToBroker}
    (h : relay.phase.Takes frame) (current : Bool) (kernel : Except TransportError Unit) :
    (current = true ∧ Fits frame.toVec ∧ kernel = .ok () ∧
      relay.onGreeterReadable (.ok frame) current kernel
        = ⟨⟨.awaitWorker⟩, some frame, .ok .continue⟩) ∨
    ∃ e, e ≠ .unexpectedFrame ∧
      relay.onGreeterReadable (.ok frame) current kernel = ⟨relay, none, .error e⟩ := by
  have hdown : relay.onGreeterReadable (.ok frame) current kernel
      = relay.down frame current kernel := by
    unfold RelayPhase.Takes at h
    split at h
    · rename_i response hp
      simp only [Relay.onGreeterReadable, hp]
    · rename_i cmd env hp
      simp only [Relay.onGreeterReadable, hp]
    · exact h.elim
  rw [hdown, Relay.down]
  cases current with
  | false => exact .inr ⟨.workerGone, by simp, rfl⟩
  | true =>
    rcases write_cases relay kernel frame.toVec frame .awaitWorker .continue with
      ⟨hfit, hk, heq⟩ | ⟨e, heq⟩
    · exact .inl ⟨rfl, hfit, hk, by simpa using heq⟩
    · exact .inr ⟨.transport e, by simp, by simpa using heq⟩

end Halmasuit.Broker
