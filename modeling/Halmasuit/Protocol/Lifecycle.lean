import Halmasuit.Broker.Language
import Halmasuit.Compositor.BrokerRelay
import Halmasuit.Session.Bracketing

/-!
# The session worker and the compositor's relay

The frames of one session worker, from the conversation to the end of the session, forwarded by the
broker's relay and heard by the compositor's. The two relays are in lock-step: a prompt is followed
by the compositor's `ConvResponse`, the `AuthOk` by its `StartSession`, and a display is
acknowledged at once. Where they leave it, the connection is over.

The compositor hears a conversation only before the `Success`: its relay refuses every later
conversation frame, and modules do converse in `open_session` (`greeting_at_open_is_refused`).

- `worker_reads`: the order of everything a worker does on its channel, whatever fails.
- **`heard_in_phase`**: nothing else is refused than a conversation or a `Failure` after the
  `Success`, and every such conversation is.
-/

namespace Halmasuit.Protocol

open Halmasuit.Lib
open Halmasuit.SessionIpc
open Halmasuit.Broker
open Halmasuit.Compositor
open Halmasuit.Session

/-! ## Lock-step -/

/-- The two relays. -/
structure Lockstep where
  relay : Relay
  comp : BrokerRelay
  deriving DecidableEq, Repr

/-- A frame the compositor's relay was given, and whether it took it. -/
structure Heard where
  frame : BrokerToCompositor
  accepted : Bool
  deriving DecidableEq, Repr

/-- After the `BeginAuth`. -/
def Lockstep.new (service username : String) : Lockstep :=
  ⟨Relay.new, ⟨service, username, .authing, []⟩⟩

/-- The greeter acknowledges a display, and the relay swallows the response. -/
def acknowledged (frame : BrokerToCompositor) (comp : BrokerRelay) : BrokerRelay :=
  match frame, comp.onPamStep none with
  | .convDisplay _ _, .ok (none, comp') => comp'
  | _, _ => comp

/-- The compositor sends a frame down, where its relay has one to send and the broker's takes it. -/
def Lockstep.down (s : Lockstep)
    (sending : Except RelayError (Option CompositorToBroker × BrokerRelay)) : Option Lockstep :=
  match sending with
  | .ok (some f, comp) =>
    match s.relay.onGreeterReadable (.ok f) true (.ok ()) with
    | ⟨relay, _, .ok .continue⟩ => some ⟨relay, comp⟩
    | _ => none
  | _ => none

/-- A frame of the worker: the broker's relay forwards it, and the compositor's hears it. -/
def Lockstep.up (s : Lockstep) (pm : ParentMessage) : Option Lockstep × List Heard :=
  match s.relay.onWorkerReadable (some (.ok (pm, none))) (.ok ()) with
  | ⟨relay, some (frame, _), res⟩ =>
    match s.comp.onBrokerFrame frame with
    | .ok (_, comp) =>
      (if res = .ok .continue then some ⟨relay, acknowledged frame comp⟩ else none, [⟨frame, true⟩])
    | .error _ => (none, [⟨frame, false⟩])
  | ⟨_, none, _⟩ => (none, [])

/-- One act of the worker. `none` is a connection that is over, or out of step. -/
def Lockstep.act (s : Option Lockstep) (a : Act) : Option Lockstep × List Heard :=
  match s with
  | none => (none, [])
  | some s =>
    match a with
    | .sent pm => s.up pm
    | .received (.convResponse text) => (s.down (s.comp.onPamStep (some text)), [])
    | .received (.startSession cmd env) =>
      (s.down ((s.comp.startSession cmd (env.map fun kv => kv.1 ++ "=" ++ kv.2)).map
        fun r => (some r.1, r.2)), [])
    | .received _ => (none, [])
    | _ => (some s, [])

/-- What the compositor hears of a worker. -/
def heard (service username : String) (acts : List Act) : List Heard :=
  (run Lockstep.act (some (.new service username)) acts).2

/-! ## The order of a worker's frames -/

/-- Where a worker is. -/
inductive Point where
  | auth
  | asked
  | opening
  | running
  | left
  | ended
  deriving DecidableEq, Repr

def Point.next : Point → Act → Option Point
  | .ended, .sent _ => none
  | _, .sent (.outcome (.failure _)) => some .ended
  | .auth, .sent (.conv (.convPrompt _ _)) => some .auth
  | .auth, .sent (.conv (.convDisplay _ _)) => some .auth
  | .auth, .received _ => some .auth
  | .auth, .sent (.outcome (.authOk _ _ _)) => some .asked
  | .asked, .received (.startSession _ _) => some .opening
  | .asked, .received _ => some .left
  | .opening, .sent (.conv (.convPrompt _ _)) => some .opening
  | .opening, .sent (.conv (.convDisplay _ _)) => some .opening
  | .opening, .received _ => some .opening
  | .opening, .sent (.outcome (.sessionOpened _ _ _)) => some .running
  | .running, .sent (.conv (.convPrompt _ _)) => some .running
  | .running, .sent (.conv (.convDisplay _ _)) => some .running
  | .running, .received _ => some .running
  | .running, .sent (.outcome (.sessionEnded _)) => some .ended
  | _, .sent _ => none
  | _, .received _ => none
  | p, _ => some p

/-- A worker that has not ended can still report a failure. -/
def Point.Open (p : Point) : Prop := p ≠ .ended

instance (p : Point) : Decidable p.Open := inferInstanceAs (Decidable (p ≠ .ended))

/-- The places at which libpam may converse. -/
def Point.Talks (p : Point) : Prop := p = .auth ∨ p = .opening ∨ p = .running

theorem read_conversed {p : Point} (h : p.Talks) (m : Conversed) :
    Emit.readAll Point.next p m.acts = some p := by
  rcases h with rfl | rfl | rfl
  all_goals
    unfold Conversed.acts
    split
    · rfl
    · rename_i reply
      cases reply <;> rfl
    · rfl
    · rfl

theorem read_convs {p : Point} (h : p.Talks) (ms : List Conversed) :
    Emit.readAll Point.next p (ms.flatMap Conversed.acts) = some p := by
  induction ms with
  | nil => rfl
  | cons m ms ih =>
    rw [List.flatMap_cons, Emit.readAll_append, read_conversed h m, Option.bind_some, ih]

section
variable {p q : Point}

theorem Point.Talks.open (h : p.Talks) : p.Open := by
  rcases h with rfl | rfl | rfl <;> decide

theorem leads_pamStep (h : p.Talks) (c : PamCall) (e : Int32 → SessionError) :
    Emit.Leads Point.next Point.Open p (pamStep c e) p := by
  constructor
  · intro a _
    exact read_convs h c.convs
  · intro e' _
    exact ⟨p, read_convs h c.convs, h.open⟩

theorem leads_pamBracket (h : p.Talks) (c : PamCall) {act : Bool → Act}
    (hact : ∀ b, p.next (act b) = some p) (e : Int32 → SessionError) :
    Emit.Leads Point.next Point.Open p (pamBracket c act e) p := by
  have hread : Emit.readAll Point.next p (pamBracket c act e).events = some p := by
    show Emit.readAll Point.next p (c.convs.flatMap Conversed.acts ++ [act c.ok]) = some p
    rw [Emit.readAll_append, read_convs h, Option.bind_some]
    simp [Emit.readAll, hact]
  constructor
  · intro a _
    exact hread
  · intro e' _
    exact ⟨p, hread, h.open⟩

theorem leads_sendOutcome (hp : p.Open) (kernel : Except TransportError Unit) {o : WorkerOutcome}
    (ho : p.next (.sent (.outcome o)) = some q) :
    Emit.Leads Point.next Point.Open p (sendOutcome kernel o) q := by
  unfold sendOutcome
  split
  · constructor
    · intro a _
      simp [Emit.readAll, ho]
    · intro e he
      cases he
  · constructor
    · intro a ha
      cases ha
    · intro e _
      exact ⟨p, rfl, hp⟩

end

theorem leads_runAuthPhase (w : Session.World) :
    Emit.Leads Point.next Point.Open .auth (runAuthPhase w) .auth := by
  have hauth : Point.Open .auth := by decide
  unfold runAuthPhase
  refine (leads_pamStep (.inl rfl) _ _).bind fun _ =>
    (leads_pamStep (.inl rfl) _ _).bind fun _ => ?_
  split
  · exact Emit.leads_of_events_nil rfl hauth
  · split
    · exact Emit.leads_of_events_nil rfl hauth
    · exact Emit.leads_of_events_nil rfl hauth

theorem leads_readSpec (w : Session.World) :
    Emit.Leads Point.next Point.Open .asked (readSpec w) .opening := by
  unfold readSpec
  cases w.recvSpec with
  | error e => exact Emit.leads_of_error rfl (r := .asked) rfl (by decide)
  | ok frame =>
    dsimp only
    cases frame with
    | startSession cmd env =>
      have htell : Emit.Leads Point.next Point.Open .asked
          (Emit.tell (.received (.startSession cmd env)) : Work Unit) .opening :=
        Emit.leads_of_ok rfl rfl
      refine htell.bind fun _ => ?_
      exact (Emit.leads_of_events_nil (putEnvs_events w env) (by decide)).bind fun _ =>
        Emit.leads_of_events_nil rfl (by decide)
    | cancel => exact Emit.leads_of_error rfl (r := .left) rfl (by decide)
    | beginAuth service username =>
      exact Emit.leads_of_error rfl (r := .left) rfl (by decide)
    | convResponse response =>
      exact Emit.leads_of_error rfl (r := .left) rfl (by decide)
    | requestRootFd => exact Emit.leads_of_error rfl (r := .left) rfl (by decide)
    | spawnGreeter => exact Emit.leads_of_error rfl (r := .left) rfl (by decide)

theorem leads_runLeader (w : Session.World) (id : ResolvedIdentity) (spec : SessionSpec)
    (groups : List UInt32) :
    Emit.Leads Point.next Point.Open .opening (runLeader w id spec groups) .running := by
  unfold runLeader
  split
  · exact Emit.leads_of_error rfl (r := .opening) rfl (by decide)
  · rename_i leader _
    have htell : Emit.Leads Point.next Point.Open .opening
        (Emit.tell (.spawned leader) : Work Unit) .opening :=
      Emit.leads_of_ok rfl rfl
    refine htell.bind fun _ =>
      (leads_sendOutcome (by decide) w.sendOpened rfl).bind fun _ => ?_
    split
    · exact Emit.leads_of_error rfl (r := .running) rfl (by decide)
    · exact Emit.leads_of_ok rfl rfl

theorem leads_runHandle (w : Session.World) :
    Emit.Leads Point.next Point.Open .auth (runHandle w) .ended := by
  have hlift : ∀ {α : Type} (r : Except SessionError α),
      Emit.Leads Point.next Point.Open .opening (Emit.lift r : Work α) .opening :=
    fun r => Emit.leads_of_events_nil rfl (by decide)
  have hlogin : ∀ id, Emit.Leads Point.next Point.Open .auth (runLogin w id) .running := by
    intro id
    unfold runLogin
    refine (leads_sendOutcome (by decide) w.sendAuthOk rfl).bind fun _ =>
      (leads_readSpec w).bind fun cmd =>
      (leads_pamBracket (.inr (.inl rfl)) w.openSession (fun _ => rfl) _).bind fun _ =>
      (hlift _).bind fun pamEnv => (hlift _).bind fun spec => (hlift _).bind fun groups =>
      (leads_runLeader w id spec groups).bind fun status =>
      (leads_pamBracket (.inr (.inr rfl)) w.closeSession (fun _ => rfl) _).bind fun _ => ?_
    exact Emit.leads_of_events_nil rfl (by decide)
  unfold runHandle
  refine (leads_runAuthPhase w).bind fun id =>
    (leads_pamBracket (.inl rfl) w.setCred (fun _ => rfl) _).bind fun _ =>
    (hlogin id).bind fun status =>
    (leads_pamBracket (.inr (.inr rfl)) w.setCredDeleted (fun _ => rfl) _).bind fun _ => ?_
  exact leads_sendOutcome (by decide) w.sendEnded rfl

/-- The acts of a worker are in order, on every way out. -/
theorem worker_reads (w : Session.World) (service username : String)
    (display : SessionError → String)
    (kernel : Except TransportError Unit) :
    (Emit.readAll Point.next .auth
      (spawnSessionWorker w service username display kernel)).isSome = true := by
  have hrun : Emit.Leads Point.next Point.Open .auth (runSession w service username) .ended := by
    have hsilent : ∀ {e : SessionError},
        Emit.Leads Point.next Point.Open .auth (Emit.fail e : Work Unit) .ended :=
      Emit.leads_of_error rfl (r := .auth) rfl (by decide)
    unfold runSession
    split
    · exact hsilent
    · split
      · exact hsilent
      · have hbody : ∀ p', Emit.readAll Point.next .auth (runHandle w).events = some p' →
            Emit.readAll Point.next .auth (.pamStart :: (runHandle w).events ++ [Act.pamEnd])
              = some p' := by
          intro p' h
          show Emit.readAll Point.next .auth ((runHandle w).events ++ [Act.pamEnd]) = some p'
          rw [Emit.readAll_append, h, Option.bind_some]
          cases p' <;> rfl
        constructor
        · intro a ha
          exact hbody _ ((leads_runHandle w).ok a ha)
        · intro e he
          obtain ⟨p', hp', ho⟩ := (leads_runHandle w).error e he
          exact ⟨p', hbody p' hp', ho⟩
  unfold spawnSessionWorker
  split
  · rename_i hres
    rw [hrun.ok () hres]
    rfl
  · rename_i e hres
    obtain ⟨p', hp', ho⟩ := hrun.error e hres
    rw [Emit.readAll_append, hp', Option.bind_some]
    have hfail : p'.next (.sent (.outcome (.failure (display e)))) = some .ended := by
      cases p' <;> first | rfl | exact absurd rfl ho
    unfold sendOutcome
    split
    · simp [Emit.readAll, hfail]
    · rfl

/-! ## What the compositor hears -/

/-- The `Success` was heard. -/
def Passed (tr : List Heard) : Prop := ∃ username uid gid b, ⟨.success username uid gid, b⟩ ∈ tr

/-- A frame is refused only if it is a conversation or a `Failure` after the `Success`, and every
such conversation is. -/
def InPhase (pre : List Heard) (h : Heard) : Prop :=
  (h.accepted = false → Passed pre ∧
    (conversational h.frame = true ∨ ∃ reason, h.frame = .failure reason)) ∧
  (Passed pre → conversational h.frame = true → h.accepted = false)

/-- The compositor's relay, by where the worker is. -/
def Sync : Point → Option Lockstep → List Heard → Prop
  | _, none, _ => True
  | .auth, some s, tr => s.comp.phase = .authing ∧ ¬ Passed tr
  | .asked, some s, tr => s.comp.phase = .authed ∧ Passed tr
  | .opening, some s, tr => s.comp.phase = .starting ∧ Passed tr
  | .running, some s, tr => s.comp.phase = .running ∧ Passed tr
  | .left, some _, _ => False
  | .ended, some _, _ => False

theorem Passed.append {tr : List Heard} (h : Passed tr) (es : List Heard) : Passed (tr ++ es) := by
  obtain ⟨username, uid, gid, b, hm⟩ := h
  exact ⟨username, uid, gid, b, List.mem_append_left _ hm⟩

theorem not_passed_snoc {tr : List Heard} (h : ¬ Passed tr) {f : BrokerToCompositor} {b : Bool}
    (hf : ∀ username uid gid, f ≠ .success username uid gid) : ¬ Passed (tr ++ [⟨f, b⟩]) := by
  rintro ⟨username, uid, gid, b', hm⟩
  rcases List.mem_append.mp hm with hm | hm
  · exact h ⟨username, uid, gid, b', hm⟩
  · simp only [List.mem_singleton, Heard.mk.injEq] at hm
    exact hf username uid gid hm.1.symm

/-- What becomes of a worker's frame. -/
theorem up_cases (s : Lockstep) (pm : ParentMessage) :
    s.up pm = (none, []) ∨
    ∃ frame phase step, pm.relayed s.relay.phase = some (frame, phase, step) ∧
      ((∃ ev comp, s.comp.onBrokerFrame frame = .ok (ev, comp) ∧
          s.up pm = (if step = .continue then some ⟨⟨phase⟩, acknowledged frame comp⟩ else none,
            [⟨frame, true⟩])) ∨
        (∃ e, s.comp.onBrokerFrame frame = .error e ∧ s.up pm = (none, [⟨frame, false⟩]))) := by
  unfold Lockstep.up
  rcases onWorkerReadable_cases s.relay (some (.ok (pm, none))) (.ok ()) with
    ⟨pm', fd, frame, fd', phase, step, hcur, -, hrel, heq⟩ | ⟨e, heq⟩
  · obtain ⟨rfl, rfl⟩ : pm = pm' ∧ none = fd := by simpa using hcur
    refine .inr ⟨frame, phase, step, hrel, ?_⟩
    rw [heq]
    cases hf : s.comp.onBrokerFrame frame with
    | ok r =>
      obtain ⟨ev, comp⟩ := r
      refine .inl ⟨ev, comp, rfl, ?_⟩
      simp only [hf, Except.ok.injEq]
    | error e =>
      refine .inr ⟨e, rfl, ?_⟩
      simp only [hf]
  · rw [heq]
    exact .inl rfl

/-- What a frame sent down leaves. -/
theorem down_phase {s : Lockstep}
    {sending : Except RelayError (Option CompositorToBroker × BrokerRelay)} {s' : Lockstep}
    (h : s.down sending = some s') : ∃ f, sending = .ok (some f, s'.comp) := by
  unfold Lockstep.down at h
  split at h
  · rename_i f comp
    split at h
    · cases h
      exact ⟨f, rfl⟩
    · cases h
  · cases h

/-- Acknowledging a display does not change the phase. -/
theorem acknowledged_phase {frame : BrokerToCompositor} {comp : BrokerRelay}
    (h : comp.phase = .authing) : (acknowledged frame comp).phase = .authing := by
  unfold acknowledged
  split
  · rename_i comp' hs
    rcases onPamStep_cases hs with ⟨hp, -⟩ | ⟨-, -, rest, -, rfl⟩ | ⟨-, hf, -⟩
    · rw [h] at hp
      cases hp
    · exact h
    · cases hf
  · exact h

theorem acknowledged_of_ne {frame : BrokerToCompositor} {comp : BrokerRelay}
    (h : conversational frame = false) : acknowledged frame comp = comp := by
  unfold acknowledged
  split
  · cases h
  · rfl

/-- A conversation frame is forwarded as it is. -/
theorem conv_relayed {f frame : BrokerToCompositor} {phase phase' : RelayPhase} {step : RelayStep}
    (hf : conversational f = true)
    (h : (ParentMessage.conv f).relayed phase = some (frame, phase', step)) : frame = f := by
  cases f with
  | convPrompt style message =>
    simp only [ParentMessage.relayed, Option.some.injEq, Prod.mk.injEq] at h
    exact h.1.symm
  | convDisplay style message =>
    simp only [ParentMessage.relayed, Option.some.injEq, Prod.mk.injEq] at h
    exact h.1.symm
  | _ => cases hf

theorem sync_none (p : Point) (tr : List Heard) : Sync p none tr := by
  cases p <;> trivial

/-- What one act is to keep, with what was heard before it. -/
def Kept (p : Point) (tr : List Heard) (r : Option Lockstep × List Heard) : Prop :=
  Sync p r.1 (tr ++ r.2) ∧ Always (fun pre h => InPhase (tr ++ pre) h) r.2

theorem kept_silent {p : Point} {tr : List Heard} {s : Option Lockstep} (h : Sync p s tr) :
    Kept p tr (s, []) :=
  ⟨by simpa using h, always_nil _⟩

theorem kept_over (p : Point) {tr : List Heard} {h : Heard} (hin : InPhase tr h) :
    Kept p tr (none, [h]) :=
  ⟨sync_none _ _, always_singleton.mpr (by simpa using hin)⟩

section
variable {s : Lockstep} {tr : List Heard} {f : BrokerToCompositor}

theorem inPhase_accepted (h : ¬ Passed tr ∨ conversational f = false) : InPhase tr ⟨f, true⟩ := by
  constructor
  · intro ha
    cases ha
  · intro hp hf
    rcases h with h | h
    · exact absurd hp h
    · rw [h] at hf
      cases hf

theorem inPhase_refused (hp : Passed tr)
    (h : conversational f = true ∨ ∃ reason, f = .failure reason) : InPhase tr ⟨f, false⟩ :=
  ⟨fun _ => ⟨hp, h⟩, fun _ _ => rfl⟩

/-- A conversation before the `Success` is heard. -/
theorem auth_conv (hf : conversational f = true) (h : Sync .auth (some s) tr) :
    Kept .auth tr (s.up (.conv f)) := by
  obtain ⟨hphase, hno⟩ := h
  rcases up_cases s (.conv f) with heq | ⟨frame, phase, step, hrel, hcase⟩
  · rw [heq]
    exact kept_silent (sync_none _ _)
  have hframe := conv_relayed hf hrel
  subst hframe
  have hsucc : ∀ username uid gid, frame ≠ .success username uid gid := by
    rintro username uid gid rfl
    cases hf
  have hacc : ∃ ev comp, s.comp.onBrokerFrame frame = .ok (ev, comp) ∧ comp.phase = .authing := by
    unfold BrokerRelay.onBrokerFrame
    rw [hphase]
    cases frame with
    | convPrompt style message => exact ⟨_, _, rfl, rfl⟩
    | convDisplay style message => exact ⟨_, _, rfl, rfl⟩
    | _ => cases hf
  obtain ⟨ev, comp, hok, hcomp⟩ := hacc
  rcases hcase with ⟨ev', comp', hok', heq⟩ | ⟨e, herr, -⟩
  · obtain ⟨rfl, rfl⟩ : ev = ev' ∧ comp = comp' := by simpa using hok.symm.trans hok'
    have hin : InPhase tr ⟨frame, true⟩ := inPhase_accepted (.inl hno)
    rw [heq]
    split
    · refine ⟨⟨acknowledged_phase hcomp, not_passed_snoc hno hsucc⟩, ?_⟩
      exact always_singleton.mpr (by simpa using hin)
    · exact kept_over _ hin
  · rw [hok] at herr
    cases herr

/-- A conversation after the `Success` is refused. -/
theorem passed_conv (p : Point) (hf : conversational f = true) (hphase : s.comp.phase ≠ .authing)
    (hp : Passed tr) : Kept p tr (s.up (.conv f)) := by
  rcases up_cases s (.conv f) with heq | ⟨frame, phase, step, hrel, hcase⟩
  · rw [heq]
    exact kept_silent (sync_none _ _)
  have hframe := conv_relayed hf hrel
  subst hframe
  rcases hcase with ⟨ev, comp, hok, -⟩ | ⟨e, -, heq⟩
  · rcases onBrokerFrame_cases hok with ⟨h, -⟩ | ⟨h, -⟩ | ⟨h, -⟩ | ⟨h, -⟩ | ⟨-, rfl, -⟩ |
      ⟨-, outcome, rfl, -⟩
    · exact absurd h hphase
    · exact absurd h hphase
    · exact absurd h hphase
    · exact absurd h hphase
    · cases hf
    · cases hf
  · rw [heq]
    exact kept_over _ (inPhase_refused hp (.inl hf))

/-- A `Failure` ends the connection; it is refused only after the `Success`. -/
theorem failure_up (p : Point) (reason : String) (h : s.comp.phase = .authing ∨ Passed tr) :
    Kept p tr (s.up (.outcome (.failure reason))) := by
  rcases up_cases s (.outcome (.failure reason)) with heq | ⟨frame, phase, step, hrel, hcase⟩
  · rw [heq]
    exact kept_silent (sync_none _ _)
  cases hrel
  rcases hcase with ⟨ev, comp, -, heq⟩ | ⟨e, herr, heq⟩
  · rw [heq]
    exact kept_over _ (inPhase_accepted (.inr rfl))
  · rw [heq]
    refine kept_over _ (inPhase_refused ?_ (.inr ⟨reason, rfl⟩))
    rcases h with h | h
    · simp only [BrokerRelay.onBrokerFrame, h] at herr
      cases herr
    · exact h

/-- The other outcomes of the worker, in the phase that awaits them. -/
theorem outcome_up {o : WorkerOutcome} {q : Point} {ev : RelayEvent} {comp : BrokerRelay}
    (hok : s.comp.onBrokerFrame f = .ok (ev, comp)) (hf : conversational f = false)
    (hrel : ∀ phase r, (ParentMessage.outcome o).relayed phase = some r → r.1 = f)
    (hq : ∀ relay, Sync q (some ⟨relay, comp⟩) (tr ++ [⟨f, true⟩])) :
    Kept q tr (s.up (.outcome o)) := by
  rcases up_cases s (.outcome o) with heq | ⟨frame, phase, step, hr, hcase⟩
  · rw [heq]
    exact kept_silent (sync_none _ _)
  obtain rfl : frame = f := hrel _ _ hr
  have hin : InPhase tr ⟨frame, true⟩ := inPhase_accepted (.inr hf)
  rcases hcase with ⟨ev', comp', hok', heq⟩ | ⟨e, herr, -⟩
  · obtain ⟨rfl, rfl⟩ : ev = ev' ∧ comp = comp' := by simpa using hok.symm.trans hok'
    rw [heq]
    split
    · rw [acknowledged_of_ne hf]
      exact ⟨hq _, always_singleton.mpr (by simpa using hin)⟩
    · exact kept_over _ hin
  · rw [hok] at herr
    cases herr

/-! The acts of the worker, place by place. -/

variable {p : Point}

theorem sync_auth {pm : ParentMessage} (h : Sync .auth (some s) tr)
    (hnext : Point.auth.next (.sent pm) = some p) : Kept p tr (s.up pm) := by
  have hphase : s.comp.phase = .authing := h.1
  rcases pm with f | o
  · cases f <;> cases hnext
    · exact auth_conv rfl h
    · exact auth_conv rfl h
  · cases o <;> cases hnext
    · exact failure_up _ _ (.inl hphase)
    · rename_i username uid gid
      have hok : s.comp.onBrokerFrame (.success username uid gid)
          = .ok (.pam (.success username uid gid), { s.comp with phase := .authed }) := by
        simp only [BrokerRelay.onBrokerFrame, hphase]
      refine outcome_up hok rfl ?_ fun _ => ⟨rfl, username, uid, gid, true, by simp⟩
      intro phase r hr
      cases hr
      rfl

theorem sync_asked {pm : ParentMessage} (h : Sync .asked (some s) tr)
    (hnext : Point.asked.next (.sent pm) = some p) : Kept p tr (s.up pm) := by
  rcases pm with f | o
  · cases f <;> cases hnext
  · cases o <;> cases hnext
    exact failure_up _ _ (.inr h.2)

theorem sync_opening {pm : ParentMessage} (h : Sync .opening (some s) tr)
    (hnext : Point.opening.next (.sent pm) = some p) : Kept p tr (s.up pm) := by
  have hphase : s.comp.phase = .starting := h.1
  have hne : s.comp.phase ≠ .authing := by
    rw [hphase]
    decide
  rcases pm with f | o
  · cases f <;> cases hnext
    · exact passed_conv _ rfl hne h.2
    · exact passed_conv _ rfl hne h.2
  · cases o <;> cases hnext
    · exact failure_up _ _ (.inr h.2)
    · have hok : s.comp.onBrokerFrame .sessionOpened
          = .ok (.sessionOpened, { s.comp with phase := .running }) := by
        simp only [BrokerRelay.onBrokerFrame, hphase]
      refine outcome_up hok rfl ?_ fun _ => ⟨rfl, h.2.append _⟩
      intro phase r hr
      cases hr
      rfl

theorem sync_running {pm : ParentMessage} (h : Sync .running (some s) tr)
    (hnext : Point.running.next (.sent pm) = some p) : Kept p tr (s.up pm) := by
  have hphase : s.comp.phase = .running := h.1
  have hne : s.comp.phase ≠ .authing := by
    rw [hphase]
    decide
  rcases pm with f | o
  · cases f <;> cases hnext
    · exact passed_conv _ rfl hne h.2
    · exact passed_conv _ rfl hne h.2
  · cases o <;> cases hnext
    · exact failure_up _ _ (.inr h.2)
    · rename_i outcome
      have hok : s.comp.onBrokerFrame (.sessionEnded outcome)
          = .ok (.sessionEnded outcome, { s.comp with phase := .done }) := by
        simp only [BrokerRelay.onBrokerFrame, hphase]
      -- the broker's relay is finished, so the connection is over
      rcases up_cases s (.outcome (.sessionEnded outcome)) with
        heq | ⟨frame, phase, step, hr, hcase⟩
      · rw [heq]
        exact kept_silent (sync_none _ _)
      cases hr
      rcases hcase with ⟨ev, comp, -, heq⟩ | ⟨e, herr, -⟩
      · rw [heq]
        exact kept_over _ (inPhase_accepted (.inr rfl))
      · rw [hok] at herr
        cases herr

/-- The frames the compositor sends down. -/
theorem sync_received {frame : CompositorToBroker} {q : Point} (h : Sync q (some s) tr)
    (hnext : q.next (.received frame) = some p) :
    Kept p tr (Lockstep.act (some s) (.received frame)) := by
  have hdown : ∀ sending, (∀ s', s.down sending = some s' → Sync p (some s') tr) →
      Kept p tr (s.down sending, []) := by
    intro sending hs
    cases hd : s.down sending with
    | none => exact kept_silent (sync_none _ _)
    | some s' => exact kept_silent (hs s' hd)
  cases frame with
  | convResponse text =>
    refine hdown _ fun s' hs => ?_
    obtain ⟨f, hf⟩ := down_phase hs
    rcases onPamStep_cases hf with ⟨hp, -⟩ | ⟨-, hnone, -⟩ | ⟨hp, -, rest, -, heq⟩
    · cases q with
      | left | ended => exact h.elim
      | _ => cases hp.symm.trans h.1
    · cases hnone
    · cases q with
      | left | ended => exact h.elim
      | auth =>
        cases hnext
        refine ⟨?_, h.2⟩
        rw [heq]
        exact hp
      | _ => cases hp.symm.trans h.1
  | startSession cmd env =>
    refine hdown _ fun s' hs => ?_
    obtain ⟨f, hf⟩ := down_phase hs
    obtain ⟨r, hr, hmap⟩ : ∃ r, s.comp.startSession cmd (env.map fun kv => kv.1 ++ "=" ++ kv.2)
        = .ok r ∧ (some r.1, r.2) = (some f, s'.comp) := by
      cases hst : s.comp.startSession cmd (env.map fun kv => kv.1 ++ "=" ++ kv.2) with
      | error e =>
        rw [hst] at hf
        cases hf
      | ok r =>
        rw [hst] at hf
        exact ⟨r, rfl, Except.ok.inj hf⟩
    obtain ⟨hp, -, heq⟩ := startSession_cases hr
    cases q with
    | left | ended => exact h.elim
    | asked =>
      cases hnext
      refine ⟨?_, h.2⟩
      rw [← (Prod.mk.inj hmap).2, heq]
    | _ => cases hp.symm.trans h.1
  | _ => exact kept_silent (sync_none _ _)

/-- **One act of the worker** keeps the relays where it is. -/
theorem sync_act {q : Point} {st : Option Lockstep} {a : Act} (h : Sync q st tr)
    (hnext : q.next a = some p) : Kept p tr (Lockstep.act st a) := by
  rcases st with _ | s
  · exact kept_silent (sync_none _ _)
  cases a with
  | sent pm =>
    cases q with
    | auth => exact sync_auth h hnext
    | asked => exact sync_asked h hnext
    | opening => exact sync_opening h hnext
    | running => exact sync_running h hnext
    | left | ended => exact h.elim
  | received frame => exact sync_received h hnext
  | _ =>
    have hp : p = q := by
      cases q <;> exact (Option.some.inj hnext).symm
    rw [hp]
    exact kept_silent h

end

/-- The acts of a worker that are read are heard in phase. -/
theorem reads_in_phase (acts : List Act) : ∀ (p : Point) (st : Option Lockstep) (tr : List Heard),
    (Emit.readAll Point.next p acts).isSome = true → Sync p st tr → Always InPhase tr →
      Always InPhase (tr ++ (run Lockstep.act st acts).2) := by
  induction acts with
  | nil =>
    intro p st tr _ _ htr
    simpa [run] using htr
  | cons a acts ih =>
    intro p st tr hread hs htr
    simp only [Emit.readAll] at hread
    cases hnext : p.next a with
    | none =>
      rw [hnext] at hread
      cases hread
    | some p' =>
      rw [hnext, Option.bind_some] at hread
      obtain ⟨hsync, hin⟩ := sync_act hs hnext
      have hrest := ih p' _ _ hread hsync (htr.append hin)
      simpa [run] using hrest

/-- **What the compositor refuses of a worker**: a conversation or a `Failure` after the `Success`,
and every conversation after it. -/
theorem heard_in_phase (w : Session.World) (service username : String)
    (display : SessionError → String)
    (kernel : Except TransportError Unit) :
    Always InPhase (heard service username
      (spawnSessionWorker w service username display kernel)) := by
  have hno : ¬ Passed [] := by
    rintro ⟨username, uid, gid, b, hm⟩
    cases hm
  have hsync : Sync .auth (some (.new service username)) [] := ⟨rfl, hno⟩
  have h := reads_in_phase _ .auth (some (.new service username)) []
    (worker_reads w service username display kernel) hsync (always_nil _)
  simpa [heard] using h

/-- A login of `alice` whose `open_session` shows a greeting. -/
def greetingWorld : Session.World :=
  { loginWorld "alice" 1000 with
    openSession := ⟨[.display .info "Last login: today" true], pamSuccess⟩ }

/-- The greeting is refused. -/
theorem greeting_at_open_is_refused :
    heard "halmasuit" "alice"
        (spawnSessionWorker greetingWorld "halmasuit" "alice" (fun _ => "") (.ok ()))
      = [⟨.success "alice" 1000 1000, true⟩, ⟨.convDisplay .info "Last login: today", false⟩] := by
  decide +kernel

end Halmasuit.Protocol
