import Halmasuit.Greetd.Session
import Halmasuit.SessionIpc.Wire

/-!
# The compositor's broker relay

`halmasuit/src/broker_relay.rs` 36–350: `BrokerRelay`, the pure phase machine that translates
between the greetd conversation (`PamStep`) and the broker wire frames.

- `onPamStep_cases`, `onBrokerFrame_cases`, `startSession_cases`: every way the three entry points
  can succeed.
-/

namespace Halmasuit.Compositor

open Halmasuit.Greetd (AuthMessageType PamStep)
open Halmasuit.SessionIpc

/-- `Phase`. -/
inductive Phase where
  | preAuth
  | authing
  | authed
  | starting
  | running
  | done
  deriving DecidableEq, Repr

/-- `PendingResponse`: what to do with the greeter's response to a forwarded challenge. -/
inductive PendingResponse where
  | swallow
  | forward
  deriving DecidableEq, Repr

/-- `RelayEvent`: what an inbound broker frame means to the compositor. -/
inductive RelayEvent where
  | pam (step : PamStep)
  | sessionOpened
  | sessionEnded (outcome : SessionOutcome)
  deriving DecidableEq, Repr

/-- `RelayError`. -/
inductive RelayError where
  | outOfPhase
  deriving DecidableEq, Repr

/-- `BrokerRelay`. -/
structure BrokerRelay where
  service : String
  username : String
  phase : Phase
  pendingResponses : List PendingResponse
  deriving DecidableEq, Repr

/-- `BrokerRelay::new`. -/
def BrokerRelay.new (service username : String) : BrokerRelay := ⟨service, username, .preAuth, []⟩

/-- `prompt_to_kind`. -/
def promptToKind : PromptStyle → AuthMessageType
  | .visible => .visible
  | .secret => .secret

/-- `display_to_kind`. -/
def displayToKind : DisplayStyle → AuthMessageType
  | .info => .info
  | .error => .error

/-- `split_env_pair`: split at the first `=`; without one the value is empty. -/
def splitEnvPair (entry : String) : String × String :=
  let cs := entry.toList
  if '=' ∈ cs then
    (String.ofList (cs.takeWhile (· ≠ '=')), String.ofList ((cs.dropWhile (· ≠ '=')).drop 1))
  else (entry, "")

/-- `BrokerRelay::on_pam_step`: the frame to send, `none` where the response is swallowed. -/
def BrokerRelay.onPamStep (r : BrokerRelay) (response : Option String) :
    Except RelayError (Option CompositorToBroker × BrokerRelay) :=
  match r.phase with
  | .preAuth => .ok (some (.beginAuth r.service r.username), { r with phase := .authing })
  | .authing =>
    match r.pendingResponses with
    | .swallow :: rest => .ok (none, { r with pendingResponses := rest })
    | .forward :: rest =>
      .ok (some (.convResponse (response.getD "")), { r with pendingResponses := rest })
    | [] => .error .outOfPhase
  | .authed | .starting | .running | .done => .error .outOfPhase

/-- `BrokerRelay::on_broker_frame`. -/
def BrokerRelay.onBrokerFrame (r : BrokerRelay) (frame : BrokerToCompositor) :
    Except RelayError (RelayEvent × BrokerRelay) :=
  match r.phase, frame with
  | .authing, .convPrompt style message =>
    .ok (.pam (.challenge (promptToKind style) message),
      { r with pendingResponses := r.pendingResponses ++ [.forward] })
  | .authing, .convDisplay style message =>
    .ok (.pam (.challenge (displayToKind style) message),
      { r with pendingResponses := r.pendingResponses ++ [.swallow] })
  | .authing, .success username uid gid =>
    .ok (.pam (.success username uid gid), { r with phase := .authed })
  | .authing, .failure reason => .ok (.pam (.failure reason), { r with phase := .done })
  | .starting, .sessionOpened => .ok (.sessionOpened, { r with phase := .running })
  | .running, .sessionEnded outcome => .ok (.sessionEnded outcome, { r with phase := .done })
  | _, _ => .error .outOfPhase

/-- `BrokerRelay::start_session`. -/
def BrokerRelay.startSession (r : BrokerRelay) (cmd env : List String) :
    Except RelayError (CompositorToBroker × BrokerRelay) :=
  if r.phase ≠ .authed then .error .outOfPhase
  else .ok (.startSession cmd (env.map splitEnvPair), { r with phase := .starting })

/-- `BrokerRelay::poison`. -/
def BrokerRelay.poison (r : BrokerRelay) : BrokerRelay := { r with phase := .done }

/-! ## Inversion -/

theorem onPamStep_cases {r r' : BrokerRelay} {response : Option String}
    {f : Option CompositorToBroker} (h : r.onPamStep response = .ok (f, r')) :
    (r.phase = .preAuth ∧ f = some (.beginAuth r.service r.username) ∧
      r' = { r with phase := .authing }) ∨
    (r.phase = .authing ∧ f = none ∧ ∃ rest, r.pendingResponses = .swallow :: rest ∧
      r' = { r with pendingResponses := rest }) ∨
    (r.phase = .authing ∧ f = some (.convResponse (response.getD "")) ∧
      ∃ rest, r.pendingResponses = .forward :: rest ∧
        r' = { r with pendingResponses := rest }) := by
  unfold BrokerRelay.onPamStep at h
  split at h
  · rename_i hp
    simp only [Except.ok.injEq, Prod.mk.injEq] at h
    exact .inl ⟨hp, h.1.symm, h.2.symm⟩
  · rename_i hp
    right
    split at h
    · rename_i rest hq
      simp only [Except.ok.injEq, Prod.mk.injEq] at h
      exact .inl ⟨hp, h.1.symm, rest, hq, h.2.symm⟩
    · rename_i rest hq
      simp only [Except.ok.injEq, Prod.mk.injEq] at h
      exact .inr ⟨hp, h.1.symm, rest, hq, h.2.symm⟩
    · simp at h
  all_goals simp at h

theorem onBrokerFrame_cases {r r' : BrokerRelay} {frame : BrokerToCompositor} {ev : RelayEvent}
    (h : r.onBrokerFrame frame = .ok (ev, r')) :
    (r.phase = .authing ∧ ∃ style message, frame = .convPrompt style message ∧
      ev = .pam (.challenge (promptToKind style) message) ∧
      r' = { r with pendingResponses := r.pendingResponses ++ [.forward] }) ∨
    (r.phase = .authing ∧ ∃ style message, frame = .convDisplay style message ∧
      ev = .pam (.challenge (displayToKind style) message) ∧
      r' = { r with pendingResponses := r.pendingResponses ++ [.swallow] }) ∨
    (r.phase = .authing ∧ ∃ username uid gid, frame = .success username uid gid ∧
      ev = .pam (.success username uid gid) ∧ r' = { r with phase := .authed }) ∨
    (r.phase = .authing ∧ ∃ reason, frame = .failure reason ∧ ev = .pam (.failure reason) ∧
      r' = { r with phase := .done }) ∨
    (r.phase = .starting ∧ frame = .sessionOpened ∧ ev = .sessionOpened ∧
      r' = { r with phase := .running }) ∨
    (r.phase = .running ∧ ∃ outcome, frame = .sessionEnded outcome ∧ ev = .sessionEnded outcome ∧
      r' = { r with phase := .done }) := by
  unfold BrokerRelay.onBrokerFrame at h
  split at h
  · rename_i style message hp
    cases h
    exact .inl ⟨hp, style, message, rfl, rfl, rfl⟩
  · rename_i style message hp
    cases h
    exact .inr (.inl ⟨hp, style, message, rfl, rfl, rfl⟩)
  · rename_i username uid gid hp
    cases h
    exact .inr (.inr (.inl ⟨hp, username, uid, gid, rfl, rfl, rfl⟩))
  · rename_i reason hp
    cases h
    exact .inr (.inr (.inr (.inl ⟨hp, reason, rfl, rfl, rfl⟩)))
  · rename_i hp
    cases h
    exact .inr (.inr (.inr (.inr (.inl ⟨hp, rfl, rfl, rfl⟩))))
  · rename_i outcome hp
    cases h
    exact .inr (.inr (.inr (.inr (.inr ⟨hp, outcome, rfl, rfl, rfl⟩))))
  · cases h

/-- Only a broker `Success` becomes a PAM success, its identity unchanged. -/
theorem onBrokerFrame_success {r r' : BrokerRelay} {frame : BrokerToCompositor} {n : String}
    {uid gid : UInt32} (h : r.onBrokerFrame frame = .ok (.pam (.success n uid gid), r')) :
    frame = .success n uid gid := by
  rcases onBrokerFrame_cases h with ⟨-, style, message, -, h', -⟩ | ⟨-, style, message, -, h', -⟩ |
    ⟨-, n', uid', gid', rfl, h', -⟩ | ⟨-, reason, -, h', -⟩ | ⟨-, -, h', -⟩ | ⟨-, outcome, -, h', -⟩
  · simp at h'
  · simp at h'
  · simpa using h'.symm
  · simp at h'
  · simp at h'
  · simp at h'

/-- The authentication speaks while the relay is `Authing`, and does not make it `Running`. -/
theorem onBrokerFrame_pam {r r' : BrokerRelay} {frame : BrokerToCompositor} {step : PamStep}
    (h : r.onBrokerFrame frame = .ok (.pam step, r')) :
    r.phase = .authing ∧ r'.phase ≠ .running := by
  rcases onBrokerFrame_cases h with ⟨hp, style, message, -, -, rfl⟩ |
    ⟨hp, style, message, -, -, rfl⟩ | ⟨hp, n, uid, gid, -, -, rfl⟩ | ⟨hp, reason, -, -, rfl⟩ |
    ⟨-, -, hev, -⟩ | ⟨-, outcome, -, hev, -⟩
  · exact ⟨hp, by simp [hp]⟩
  · exact ⟨hp, by simp [hp]⟩
  · exact ⟨hp, by simp⟩
  · exact ⟨hp, by simp⟩
  · cases hev
  · cases hev

/-- A session ends only from `Running`. -/
theorem onBrokerFrame_sessionEnded {r r' : BrokerRelay} {frame : BrokerToCompositor}
    {outcome : SessionOutcome} (h : r.onBrokerFrame frame = .ok (.sessionEnded outcome, r')) :
    r.phase = .running ∧ frame = .sessionEnded outcome ∧ r' = { r with phase := .done } := by
  simpa using onBrokerFrame_cases h

/-- And opens only from `Starting`. -/
theorem onBrokerFrame_sessionOpened {r r' : BrokerRelay} {frame : BrokerToCompositor}
    (h : r.onBrokerFrame frame = .ok (.sessionOpened, r')) :
    r.phase = .starting ∧ frame = .sessionOpened ∧ r' = { r with phase := .running } := by
  simpa using onBrokerFrame_cases h

/-- A frame leaves the relay outside `Starting`. -/
theorem onBrokerFrame_phase {r r' : BrokerRelay} {frame : BrokerToCompositor} {ev : RelayEvent}
    (h : r.onBrokerFrame frame = .ok (ev, r')) : r'.phase ≠ .starting := by
  rcases onBrokerFrame_cases h with ⟨hp, style, message, -, -, rfl⟩ |
    ⟨hp, style, message, -, -, rfl⟩ | ⟨hp, n, uid, gid, -, -, rfl⟩ | ⟨hp, reason, -, -, rfl⟩ |
    ⟨hp, -, -, rfl⟩ | ⟨hp, outcome, -, -, rfl⟩ <;> simp [hp]

theorem startSession_cases {r r' : BrokerRelay} {cmd env : List String} {f : CompositorToBroker}
    (h : r.startSession cmd env = .ok (f, r')) :
    r.phase = .authed ∧ f = .startSession cmd (env.map splitEnvPair) ∧
      r' = { r with phase := .starting } := by
  unfold BrokerRelay.startSession at h
  split at h
  · cases h
  · rename_i hp
    cases h
    exact ⟨by simpa using hp, rfl, rfl⟩

end Halmasuit.Compositor
