import Mathlib.Algebra.Order.Group.Multiset
import Halmasuit.Lib.Run
import Halmasuit.Protocol.Link

/-!
# The compositor's frames and the broker's phase

Any greeter bytes, any order of callbacks, and a worker that sends what it likes but blocks at each
`ConvPrompt` and after `AuthOk`. A worker message that blocks is a request for one frame from the
greeter. `Link.requests` collects the requests not yet answered at the worker: in a channel as the
message, in the relay as a `Forward` tag or the phase `Authed`, in the other channel as the answer.
No machine makes one up, so there is at most one, and the broker is in the phase that awaits it from
the moment it relayed the message.

- **`arrivals_in_phase`**: on every run, each frame the broker reads from the compositor after
  `BeginAuth` is one its phase takes.
-/

namespace Halmasuit.Protocol

open Halmasuit.Greetd (Request Demand readRequest)
open Halmasuit.SessionIpc
open Halmasuit.Compositor
open Halmasuit.Broker
open Halmasuit.Lib

/-! ## Requests -/

/-- What a blocked worker waits for. -/
inductive Need where
  | convResponse
  | startSession
  deriving DecidableEq, Repr

/-- The phase that awaits it. -/
def Need.phase : Need → RelayPhase
  | .convResponse => .awaitGreeterConvResponse
  | .startSession => .awaitGreeterStartSession

/-- The request of a worker message. -/
def messageNeed : ParentMessage → Option Need
  | .conv (.convPrompt _ _) => some .convResponse
  | .outcome (.authOk _ _ _) => some .startSession
  | _ => none

/-- The request of a broker frame. -/
def frameNeed : BrokerToCompositor → Option Need
  | .convPrompt _ _ => some .convResponse
  | .success _ _ _ => some .startSession
  | _ => none

/-- The request a compositor frame answers. -/
def answerNeed : CompositorToBroker → Option Need
  | .convResponse _ => some .convResponse
  | .startSession _ _ => some .startSession
  | _ => none

/-- The request of a tag. -/
def tagNeed : PendingResponse → Option Need
  | .forward => some .convResponse
  | .swallow => none

/-- The requests a relay has taken and not answered. -/
def relayNeeds (r : BrokerRelay) : Multiset Need :=
  match r.phase with
  | .authing => (r.pendingResponses.filterMap tagNeed : List Need)
  | .authed => {.startSession}
  | _ => 0

/-- The requests an episode has taken and not answered. -/
def episodeNeeds (relay : Option BrokerRelay) : Multiset Need := (relay.map relayNeeds).getD 0

/-- The answers among compositor frames. -/
def answers (fs : List CompositorToBroker) : Multiset Need := (fs.filterMap answerNeed : List Need)

/-- The requests the broker has relayed and not taken the answer of. -/
def Link.relayed (l : Link) : Multiset Need :=
  (l.toCompositor.filterMap (frameNeed ·.1) : List Need) + episodeNeeds l.ep.relay +
    answers l.toBroker

/-- The requests not answered at the worker. -/
def Link.requests (l : Link) : Multiset Need :=
  (l.fromWorker.filterMap (messageNeed ·.1) : List Need) + l.relayed + answers l.toWorker

@[simp] theorem answers_append (fs gs : List CompositorToBroker) :
    answers (fs ++ gs) = answers fs + answers gs := by
  simp [answers, List.filterMap_append]

@[simp] theorem answers_nil : answers [] = 0 := rfl

/-- A queue, by its first element. -/
theorem needs_cons {α : Type} (f : α → Option Need) (x : α) (xs : List α) :
    (((x :: xs).filterMap f : List Need) : Multiset Need)
      = ((f x).toList : List Need) + (xs.filterMap f : List Need) := by
  cases h : f x with
  | none => simp [h]
  | some n => simp [h]

/-- A queue, by its last element. -/
theorem needs_concat {α : Type} (f : α → Option Need) (xs : List α) (x : α) :
    (((xs ++ [x]).filterMap f : List Need) : Multiset Need)
      = (xs.filterMap f : List Need) + ((f x).toList : List Need) := by
  cases h : f x with
  | none => simp [h]
  | some n => simp [h, ← Multiset.coe_add]

/-- No relay waits for its first round between calls. -/
def Begun (relay : Option BrokerRelay) : Prop := ∀ r, relay = some r → r.phase ≠ .preAuth

/-! ## What an episode call does to requests -/

/-- A call on an episode with `relay` leaves `relay'` and sends `fs`, after taking the requests
`taken` from the broker. -/
structure Moved (relay : Option BrokerRelay) (taken : Multiset Need) (relay' : Option BrokerRelay)
    (fs : List CompositorToBroker) : Prop where
  begun : Begun relay'
  needs : episodeNeeds relay' + answers fs ≤ episodeNeeds relay + taken
  /-- A relay is for good, and sends nothing but answers. -/
  kept : relay ≠ none → relay' ≠ none ∧ ∀ f ∈ fs, answerNeed f ≠ none
  /-- The first frame is `BeginAuth`. -/
  first : relay = none → fs = [] ∨ (∃ service u, fs = [.beginAuth service u]) ∧ relay' ≠ none

theorem Moved.refl {relay : Option BrokerRelay} (h : Begun relay) : Moved relay 0 relay [] :=
  ⟨h, by simp, fun h => ⟨h, by simp⟩, fun _ => .inl rfl⟩

/-- `fail_closed` drops every request. -/
theorem moved_failClosed {relay : Option BrokerRelay} (ep : BrokerEpisode) (out : EpisodeOutcome)
    (h : ep.relay = none → relay = none) :
    Moved relay 0 (ep.failClosed out).ep.relay (sentFrames (ep.failClosed out).events) := by
  have hs : sentFrames (ep.failClosed out).events = [] := by
    simp only [BrokerEpisode.failClosed]
    exact sentFrames_greetdEvents _
  have hr : (ep.failClosed out).ep.relay = ep.relay.map BrokerRelay.poison := rfl
  rw [hs, hr]
  refine ⟨?_, ?_, fun hne => ⟨?_, by simp⟩, fun _ => .inl rfl⟩
  · intro r' hr'
    obtain ⟨r, -, rfl⟩ := Option.map_eq_some_iff.mp hr'
    simp [BrokerRelay.poison]
  · have h0 : episodeNeeds (ep.relay.map BrokerRelay.poison) = 0 := by
      cases ep.relay with
      | none => rfl
      | some r => rfl
    rw [h0]
    exact Multiset.zero_le _
  · intro h'
    exact hne (h (by simpa using h'))

/-- A call that begins with a move of the relay. -/
theorem Moved.after {relay relay₁ relay₂ : Option BrokerRelay} {taken : Multiset Need}
    {fs : List CompositorToBroker} (h : Moved relay taken relay₁ []) (h' : Moved relay₁ 0 relay₂ fs)
    (hne : relay ≠ none) : Moved relay taken relay₂ fs := by
  have hneeds := h.needs
  simp only [answers_nil, add_zero] at hneeds
  refine ⟨h'.begun, ?_, fun _ => h'.kept (h.kept hne).1, fun h0 => absurd h0 hne⟩
  calc episodeNeeds relay₂ + answers fs
      ≤ episodeNeeds relay₁ + 0 := h'.needs
    _ = episodeNeeds relay₁ := add_zero _
    _ ≤ episodeNeeds relay + taken := hneeds

/-- A swallowed response changes no request. -/
theorem moved_swallow {ep : BrokerEpisode} {response : Option String} {r : BrokerRelay}
    (hs : ep.relayOrNew.onPamStep response = .ok (none, r)) :
    ep.relay ≠ none ∧ Moved ep.relay 0 (some r) [] := by
  rcases onPamStep_cases hs with ⟨-, hf, -⟩ | ⟨hp, -, rest, htag, rfl⟩ | ⟨-, hf, -⟩
  · simp at hf
  · have hrel : ep.relay = some ep.relayOrNew := relay_of_authing hp
    refine ⟨by simp [hrel], ?_⟩
    rw [hrel]
    refine ⟨?_, ?_, fun _ => ⟨by simp, by simp⟩, by simp⟩
    · rintro r' ⟨⟩
      simp [hp]
    · simp [episodeNeeds, relayNeeds, hp, htag, tagNeed, List.filterMap_cons]
  · simp at hf

theorem acts_moved {fromSlice : List UInt8 → Option Request} {env : Env} {ep : BrokerEpisode}
    {reply : List UInt8} {demand : Demand} {out : EpisodeOutcome} {a : Acted}
    (hacts : Acts fromSlice env ep reply demand out a) (hb : Begun ep.relay) :
    Moved ep.relay 0 a.ep.relay (sentFrames a.events) := by
  induction hacts with
  | «continue» => exact .refl hb
  | close => exact .refl hb
  | failed relay ready hd hrel => exact moved_failClosed _ _ hrel
  | @sent ep reply response out f r hs hsend =>
    rcases onPamStep_cases hs with ⟨hp, hf, rfl⟩ | ⟨-, hf, -⟩ | ⟨hp, hf, rest, htag, rfl⟩
    · -- the first round
      have hrel : ep.relay = none := by
        rcases relayOrNew_phase ep with hrel | ⟨hrel, -⟩
        · exact absurd hp (hb _ hrel)
        · exact hrel
      obtain rfl : f = .beginAuth ep.relayOrNew.service ep.relayOrNew.username := by simpa using hf
      rw [hrel]
      refine ⟨?_, ?_, by simp, fun _ => .inr ⟨⟨_, _, rfl⟩, by simp⟩⟩
      · rintro r ⟨⟩
        simp
      · simp [episodeNeeds, relayNeeds, BrokerEpisode.relayOrNew, hrel, BrokerRelay.new, answers,
          sentFrames, answerNeed, List.filterMap_cons]
    · simp at hf
    · -- a prompt is answered
      have hrel : ep.relay = some ep.relayOrNew := relay_of_authing hp
      obtain rfl : f = .convResponse (response.getD "") := by simpa using hf
      rw [hrel]
      refine ⟨?_, ?_, fun _ => ⟨by simp, by simp [sentFrames, answerNeed]⟩, by simp⟩
      · rintro r ⟨⟩
        simp [hp]
      · have hneeds : episodeNeeds (some ep.relayOrNew)
            = .convResponse ::ₘ (rest.filterMap tagNeed : List Need) := by
          simp [episodeNeeds, relayNeeds, hp, htag, tagNeed]
        rw [hneeds, ← Multiset.singleton_add, add_comm {_}, add_zero]
        simp [episodeNeeds, relayNeeds, hp, answers, sentFrames, answerNeed]
  | swallowed hs hq => exact (moved_swallow hs).2
  | @flushed ep reply response out r step rest o acted hs hq hr next ih =>
    obtain ⟨hne, hm⟩ := moved_swallow hs
    have h := hm.after (ih hm.begun) hne
    simpa [Acted.after] using h
  | @flushFailed ep reply response out r step rest e hs hq hr =>
    obtain ⟨hne, hm⟩ := moved_swallow hs
    have h := hm.after (moved_failClosed
      { ep with relay := some r, pendingChallenges := rest, greetdReadyForChallenge := false,
                conn := (ep.conn.resumePam fromSlice step).conn }
      { out with greeterReply := out.greeterReply ++ reply } (by simp)) hne
    simpa [Acted.after] using h
  | @spawned ep reply spawn out r r' cmd f hrel hcmd hs hsend =>
    obtain ⟨hp, rfl, rfl⟩ := startSession_cases hs
    rw [hrel]
    refine ⟨?_, ?_, fun _ => ⟨by simp, by simp [sentFrames, answerNeed]⟩, by simp⟩
    · rintro r' ⟨⟩
      simp
    · simp [episodeNeeds, relayNeeds, hp, answers, sentFrames, answerNeed]

/-- Greeter bytes. -/
theorem onGreeterBytes_moved (fromSlice : List UInt8 → Option Request) (env : Env)
    {ep : BrokerEpisode} (hb : Begun ep.relay) (bytes : List UInt8) :
    Moved ep.relay 0 (ep.onGreeterBytes fromSlice env bytes).ep.relay
      (sentFrames (ep.onGreeterBytes fromSlice env bytes).events) := by
  rcases onGreeterBytes_cases fromSlice env ep bytes with ⟨e, -, heq⟩ | ⟨o, acted, -, hacts, heq⟩
  · rw [heq]
    simpa using Moved.refl hb
  · rw [heq]
    simpa [Acted.after] using acts_moved hacts hb

/-- A relay that changes and sends nothing. -/
theorem moved_relay {r r' : BrokerRelay} {taken : Multiset Need} (hp : r'.phase ≠ .preAuth)
    (h : relayNeeds r' ≤ relayNeeds r + taken) : Moved (some r) taken (some r') [] := by
  refine ⟨?_, by simpa [episodeNeeds] using h, fun _ => ⟨by simp, by simp⟩, by simp⟩
  rintro r ⟨⟩
  exact hp

/-- A frame the relay accepts. -/
theorem onBrokerFrame_moved {r r' : BrokerRelay} {frame : BrokerToCompositor} {ev : RelayEvent}
    (hf : r.onBrokerFrame frame = .ok (ev, r')) :
    Moved (some r) ((frameNeed frame).toList : List Need) (some r') [] := by
  rcases onBrokerFrame_cases hf with ⟨hp, style, message, rfl, -, rfl⟩ |
    ⟨hp, style, message, rfl, -, rfl⟩ | ⟨hp, n, uid, gid, rfl, -, rfl⟩ |
    ⟨hp, reason, rfl, -, rfl⟩ | ⟨hp, rfl, -, rfl⟩ | ⟨hp, outcome, rfl, -, rfl⟩
  · refine moved_relay (by simp [hp]) (le_of_eq ?_)
    simp [relayNeeds, hp, frameNeed, tagNeed, ← Multiset.coe_add]
  · refine moved_relay (by simp [hp]) (le_of_eq ?_)
    simp [relayNeeds, hp, frameNeed, tagNeed, List.filterMap_cons]
  · refine moved_relay (by simp) ?_
    show {Need.startSession} ≤ relayNeeds r + {Need.startSession}
    exact Multiset.le_add_left _ _
  · exact moved_relay (by simp) (Multiset.zero_le _)
  · exact moved_relay (by simp) (Multiset.zero_le _)
  · exact moved_relay (by simp) (Multiset.zero_le _)

/-- What `fail_closed` does, whatever was taken. -/
theorem Moved.weaken {relay relay' : Option BrokerRelay} {taken : Multiset Need}
    {fs : List CompositorToBroker} (h : Moved relay 0 relay' fs) : Moved relay taken relay' fs := by
  refine ⟨h.begun, h.needs.trans ?_, h.kept, h.first⟩
  rw [add_zero]
  exact Multiset.le_add_right _ _

/-- The requests of what the broker channel gives. -/
def recvNeeds : Recv → Multiset Need
  | .ok (some (frame, _)) => ((frameNeed frame).toList : List Need)
  | _ => 0

/-- A readable broker channel. -/
theorem onBrokerReadable_moved (fromSlice : List UInt8 → Option Request) (env : Env)
    {ep : BrokerEpisode} (hb : Begun ep.relay) (recv : Recv) :
    Moved ep.relay (recvNeeds recv) (ep.onBrokerReadable fromSlice env recv).ep.relay
      (sentFrames (ep.onBrokerReadable fromSlice env recv).events) := by
  rcases onBrokerReadable_cases fromSlice env ep recv with
    ⟨heq, rfl⟩ | heq | ⟨frame, fd, r, ev, r', rfl, hrel, hf, hcase⟩
  · rw [heq]
    exact .refl hb
  · rw [heq]
    exact (moved_failClosed _ _ id).weaken
  have hm := onBrokerFrame_moved hf
  have hsent : ∀ es, sentFrames (.received frame :: es) = sentFrames es := fun es => rfl
  rw [hrel]
  rcases hcase with ⟨step, -, -, heq⟩ | ⟨step, e, -, -, -, heq⟩ |
    ⟨step, o, acted, -, -, -, hacts, heq⟩ | ⟨-, heq⟩ | ⟨outcome, -, heq⟩
  · rw [heq]
    exact hm
  · rw [heq]
    have h := hm.after (moved_failClosed
      { ep with relay := some r', greetdReadyForChallenge := false,
                conn := (ep.conn.resumePam fromSlice step).conn }
      EpisodeOutcome.default (by simp)) (by simp)
    simpa [Acted.after, hsent, recvNeeds] using h
  · rw [heq]
    have h := hm.after (acts_moved hacts hm.begun) (by simp)
    simpa [Acted.after, hsent, recvNeeds] using h
  · rw [heq]
    exact hm
  · rw [heq]
    exact hm

/-! ## The system -/

/-- The worker: it may send, it waits for a frame, it is gone. -/
inductive WorkerState where
  | running
  | blocked
  | exited
  deriving DecidableEq, Repr

/-- A link and its worker. -/
structure Sys where
  link : Link
  worker : WorkerState

/-- A fresh system. -/
def Sys.new (service : String) : Sys := ⟨Link.new service, .running⟩

/-- What can happen next, in any order: a callback of the compositor, of the broker, or a step of
the worker. -/
inductive SysInput where
  | greeterBytes (env : Env) (bytes : List UInt8)
  | brokerReadable (env : Env)
  | brokerFailed (env : Env) (e : WireError)
  | accept (spawned : Bool)
  | workerReadable (kernel : Except TransportError Unit)
  | workerFailed (e : TransportError)
  | greeterReadable (kernel : Except TransportError Unit)
  | greeterFailed (e : TransportError)
  | workerSends (message : ParentMessage) (fd : Option Fd)
  | workerReceives
  | workerExits

/-- A frame read from the compositor by a relaying broker, with the phase and the result. -/
structure Arrival where
  phase : RelayPhase
  frame : CompositorToBroker
  res : Except BrokerError RelayStep

/-- The phase awaits the frame, and the relay does not refuse it. -/
def Arrival.InPhase (a : Arrival) : Prop :=
  a.phase.Takes a.frame ∧ a.res ≠ .error .unexpectedFrame

/-- The arrival of the next `greeterReadable`. -/
def Link.arrival (l : Link) (kernel : Except TransportError Unit) : List Arrival :=
  match l.greeterStep kernel with
  | some (relay, f, st) => [⟨relay.phase, f, st.res⟩]
  | none => []

/-- One step. The worker exists once the broker took `BeginAuth`. -/
def Sys.step (fromSlice : List UInt8 → Option Request) (s : Sys) : SysInput → Sys × List Arrival
  | .greeterBytes env bytes => ({ s with link := s.link.feed fromSlice env bytes }, [])
  | .brokerReadable env => ({ s with link := s.link.deliver fromSlice env }, [])
  | .brokerFailed env e => ({ s with link := s.link.deliverFailed fromSlice env e }, [])
  | .accept spawned => ({ s with link := s.link.accept spawned }, [])
  | .workerReadable kernel => ({ s with link := s.link.workerReadable kernel }, [])
  | .workerFailed e => ({ s with link := s.link.workerFailed e }, [])
  | .greeterReadable kernel =>
    ({ s with link := s.link.greeterReadable kernel }, s.link.arrival kernel)
  | .greeterFailed e => ({ s with link := s.link.greeterFailed e }, [])
  | .workerSends message fd =>
    if s.worker = .running ∧ s.link.broker ≠ .waiting then
      (⟨{ s.link with fromWorker := s.link.fromWorker ++ [(message, fd)] },
        if (messageNeed message).isSome then .blocked else .running⟩, [])
    else (s, [])
  | .workerReceives =>
    match s.worker, s.link.toWorker with
    | .blocked, _ :: rest => (⟨{ s.link with toWorker := rest }, .running⟩, [])
    | _, _ => (s, [])
  | .workerExits => ({ s with worker := .exited }, [])

/-! ## The invariant -/

/-- **The requests in flight.** -/
structure Agree (s : Sys) : Prop where
  begun : Begun s.link.ep.relay
  /-- The worker blocks at a request. -/
  few : s.link.requests.card ≤ 1
  free : s.worker = .running → s.link.requests = 0
  /-- The broker awaits what it relayed. -/
  phase : ∀ relay, s.link.broker = .relaying relay → ∀ n ∈ s.link.relayed, relay.phase = n.phase
  waiting : s.link.broker = .waiting → s.link.requests = 0 ∧ s.link.toCompositor = [] ∧
    (s.link.toBroker = [] ∨
      (∃ service u, s.link.toBroker = [.beginAuth service u]) ∧ s.link.ep.relay ≠ none)
  kept : s.link.broker ≠ .waiting →
    s.link.ep.relay ≠ none ∧ ∀ f ∈ s.link.toBroker, answerNeed f ≠ none
  down : ∀ f ∈ s.link.toWorker, answerNeed f ≠ none

theorem agree_new (service : String) : Agree (Sys.new service) := by
  refine ⟨?_, ?_, fun _ => rfl, ?_, fun _ => ⟨rfl, rfl, .inl rfl⟩,
    fun h => absurd rfl h, ?_⟩
  · intro r hr
    cases hr
  · exact Nat.zero_le _
  · intro relay h
    cases h
  · intro f hf
    cases hf

theorem relayed_le_requests (l : Link) : l.relayed ≤ l.requests :=
  (Multiset.le_add_left _ _).trans (Multiset.le_add_right _ _)

theorem answers_le_requests (l : Link) : answers l.toBroker ≤ l.requests :=
  (Multiset.le_add_left _ _).trans (relayed_le_requests l)

/-- Answers to no request are none. -/
theorem eq_nil_of_answers {fs : List CompositorToBroker} (h : answers fs = 0)
    (hfs : ∀ f ∈ fs, answerNeed f ≠ none) : fs = [] := by
  cases fs with
  | nil => rfl
  | cons f fs =>
    obtain ⟨n, hn⟩ := Option.ne_none_iff_exists'.mp (hfs f (by simp))
    simp [answers, hn] at h

/-- A call of the episode that takes `taken` from its queue keeps the invariant. -/
theorem Agree.called {s : Sys} (h : Agree s) (queue : List (BrokerToCompositor × Option Fd))
    (taken : Multiset Need) {a : Acted}
    (hq : ((s.link.toCompositor.filterMap (frameNeed ·.1) : List Need) : Multiset Need)
      = taken + (queue.filterMap (frameNeed ·.1) : List Need))
    (hsub : s.link.toCompositor = [] → queue = [])
    (hm : Moved s.link.ep.relay taken a.ep.relay (sentFrames a.events)) :
    Agree { s with link := { s.link with toCompositor := queue }.called a } := by
  have hrel : (Link.called { s.link with toCompositor := queue } a).relayed ≤ s.link.relayed := by
    simp only [Link.called, Link.relayed, answers_append, hq]
    calc _ = episodeNeeds a.ep.relay + answers (sentFrames a.events) +
          ((queue.filterMap (frameNeed ·.1) : List Need) + answers s.link.toBroker) := by ac_rfl
      _ ≤ episodeNeeds s.link.ep.relay + taken +
          ((queue.filterMap (frameNeed ·.1) : List Need) + answers s.link.toBroker) :=
        add_le_add_left hm.needs _
      _ = _ := by ac_rfl
  have hreq : (Link.called { s.link with toCompositor := queue } a).requests ≤ s.link.requests :=
    add_le_add_left (add_le_add_right hrel _) _
  refine ⟨hm.begun, (Multiset.card_le_card hreq).trans h.few, fun hw => ?_, fun relay hb n hn => ?_,
    fun hb => ?_, fun hb => ?_, h.down⟩
  · exact Multiset.le_zero.mp (h.free hw ▸ hreq)
  · exact h.phase relay hb n (Multiset.mem_of_le hrel hn)
  · obtain ⟨h0, hc, hcase⟩ := h.waiting hb
    have h0' := Multiset.le_zero.mp (h0 ▸ hreq)
    refine ⟨h0', hsub hc, ?_⟩
    -- with a relay there is nothing to answer
    have hnil : s.link.ep.relay ≠ none → sentFrames a.events = [] := by
      intro hne
      refine eq_nil_of_answers ?_ (hm.kept hne).2
      have hle := answers_le_requests (Link.called { s.link with toCompositor := queue } a)
      simp only [Link.called, answers_append] at hle
      exact Multiset.le_zero.mp (h0' ▸ (Multiset.le_add_left _ _).trans hle)
    rcases hcase with hnone | ⟨⟨service, u, hb'⟩, hne⟩
    · by_cases hne : s.link.ep.relay = none
      · rcases hm.first hne with hfs | ⟨⟨service, u, hfs⟩, hne'⟩
        · exact .inl (by simp [Link.called, hnone, hfs])
        · exact .inr ⟨⟨service, u, by simp [Link.called, hnone, hfs]⟩, hne'⟩
      · exact .inl (by simp [Link.called, hnone, hnil hne])
    · exact .inr ⟨⟨service, u, by simp [Link.called, hb', hnil hne]⟩, (hm.kept hne).1⟩
  · obtain ⟨hne, hfs⟩ := h.kept hb
    refine ⟨(hm.kept hne).1, fun f hf => ?_⟩
    rcases List.mem_append.mp hf with hf | hf
    · exact hfs f hf
    · exact (hm.kept hne).2 f hf

/-- A drop of the broker's end keeps the invariant. -/
theorem Agree.closed {s : Sys} (h : Agree s) (hb : s.link.broker ≠ .waiting) {l : Link}
    (hep : l.ep = s.link.ep) (hbr : l.broker = .closed) (hreq : l.requests ≤ s.link.requests)
    (hfs : ∀ f ∈ l.toBroker, f ∈ s.link.toBroker) (hdown : l.toWorker = s.link.toWorker) :
    Agree { s with link := l } := by
  refine ⟨hep ▸ h.begun, (Multiset.card_le_card hreq).trans h.few, fun hw => ?_, ?_, ?_,
    fun _ => ?_, hdown ▸ h.down⟩
  · exact Multiset.le_zero.mp (h.free hw ▸ hreq)
  · simp [hbr]
  · simp [hbr]
  · obtain ⟨hne, hans⟩ := h.kept hb
    exact ⟨hep ▸ hne, fun f hf => hans f (hfs f hf)⟩

/-- The broker reads `BeginAuth`. -/
theorem Agree.accept {s : Sys} (h : Agree s) (spawned : Bool) :
    Agree { s with link := s.link.accept spawned } := by
  unfold Link.accept
  split
  · rename_i service u rest hw hto
    obtain ⟨h0, hc, hnil | ⟨⟨service', u', hto'⟩, hne⟩⟩ := h.waiting hw
    · simp [hto] at hnil
    obtain rfl : rest = [] := by
      rw [hto] at hto'
      exact (List.cons.inj hto').2
    have hreq : ∀ b, Link.requests { s.link with toBroker := [], broker := b } = 0 := by
      intro b
      rw [← h0, Link.requests, Link.requests, Link.relayed, Link.relayed, hto]
      rfl
    refine ⟨h.begun, ?_, fun _ => hreq _, fun relay _ n hn => ?_, fun hb => ?_,
      fun _ => ⟨hne, by simp⟩, h.down⟩
    · rw [hreq]
      exact Nat.zero_le _
    · have := Multiset.mem_of_le (relayed_le_requests _) hn
      rw [hreq] at this
      exact absurd this (Multiset.notMem_zero n)
    · cases spawned <;> simp at hb
  · rename_i f rest hne hw hto
    -- the first frame is `BeginAuth`
    obtain ⟨-, -, hnil | ⟨⟨service', u', hto'⟩, -⟩⟩ := h.waiting hw
    · simp [hto] at hnil
    · rw [hto] at hto'
      exact absurd (List.cons.inj hto').1 (hne service' u')
  · exact h

/-- What the broker makes of a worker message requests the same. -/
theorem relayed_need {pm : ParentMessage} {phase phase' : RelayPhase} {frame : BrokerToCompositor}
    {step : RelayStep} (h : pm.relayed phase = some (frame, phase', step)) :
    messageNeed pm = frameNeed frame ∧ ∀ n, frameNeed frame = some n → phase' = n.phase := by
  unfold ParentMessage.relayed at h
  split at h
  all_goals cases h
  all_goals simp [messageNeed, frameNeed, Need.phase]

/-- The broker forwards a worker message. -/
theorem Agree.workerReadable {s : Sys} (h : Agree s) (kernel : Except TransportError Unit) :
    Agree { s with link := s.link.workerReadable kernel } := by
  unfold Link.workerReadable Link.workerStep
  split
  · rename_i st hst
    split at hst
    case h_2 => cases hst
    rename_i relay m rest hb hq
    cases hst
    simp only [hq, List.drop_one, List.tail_cons]
    have hnw : s.link.broker ≠ .waiting := by simp [hb]
    rcases onWorkerReadable_cases relay (some (.ok m)) kernel with
      ⟨pm, fd, frame, fd', phase, step, hm, hp, hr, heq⟩ | ⟨e, heq⟩
    · simp only [Option.some.injEq, Except.ok.injEq] at hm
      obtain ⟨hneed, hphase⟩ := relayed_need hr
      have hreq : ∀ b, Link.requests
          { s.link with fromWorker := rest, broker := b,
                        toCompositor := s.link.toCompositor ++ [(frame, fd')] }
            = s.link.requests := by
        intro b
        simp only [Link.requests, Link.relayed, hq, needs_cons, needs_concat, hm, hneed]
        ac_rfl
      rw [heq]
      cases step with
      | finished d =>
        exact h.closed hnw rfl rfl (le_of_eq (hreq _)) (fun f hf => hf) rfl
      | «continue» =>
        refine ⟨h.begun, ?_, fun hw => (hreq _).trans (h.free hw), fun relay' hb' n hn => ?_,
          fun hw => ?_, fun _ => h.kept hnw, h.down⟩
        · exact (congrArg Multiset.card (hreq _)).le.trans h.few
        · -- nothing relayed awaits an answer in a phase that awaits the worker
          have hnone : ∀ n', n' ∉ s.link.relayed := by
            intro n' hn'
            have := h.phase relay hb n' hn'
            rw [this] at hp
            cases n' <;> simp [Need.phase] at hp
          cases hb'
          simp only [Link.relayed, Option.toList_some, needs_concat, Multiset.mem_add] at hn hnone
          rcases hn with ((hn | hn) | hn) | hn
          · exact absurd (.inl (.inl hn)) (hnone n)
          · exact hphase n (by simpa using hn)
          · exact absurd (.inl (.inr hn)) (hnone n)
          · exact absurd (.inr hn) (hnone n)
        · cases hw
    · -- the message is dropped with the connection
      rw [heq]
      refine h.closed hnw rfl rfl ?_ (fun f hf => hf) rfl
      simp only [Link.requests, Link.relayed, hq, needs_cons, add_assoc, Option.toList_none,
        List.append_nil]
      exact Multiset.le_add_left _ _
  · exact h

/-- The frame the broker reads next answers what its phase awaits. -/
theorem Agree.takes {s : Sys} (h : Agree s) {relay : Relay} {f : CompositorToBroker}
    {rest : List CompositorToBroker} (hb : s.link.broker = .relaying relay)
    (hq : s.link.toBroker = f :: rest) :
    relay.phase.Takes f ∧ ∃ n, answerNeed f = some n := by
  obtain ⟨n, hn⟩ := Option.ne_none_iff_exists'.mp
    ((h.kept (by simp [hb])).2 f (by simp [hq]))
  have hmem : n ∈ s.link.relayed := by
    simp [Link.relayed, answers, hq, hn]
  have hp := h.phase relay hb n hmem
  refine ⟨?_, n, hn⟩
  rw [hp]
  cases f <;> simp [answerNeed] at hn <;> subst hn <;> exact trivial

/-- The broker sends an answer down to the worker. -/
theorem Agree.greeterReadable {s : Sys} (h : Agree s) (kernel : Except TransportError Unit) :
    Agree { s with link := s.link.greeterReadable kernel } ∧
      ∀ a ∈ s.link.arrival kernel, a.InPhase := by
  rcases Option.eq_none_or_eq_some (s.link.greeterStep kernel) with hg | ⟨⟨relay, f, st⟩, hg⟩
  · simp only [Link.greeterReadable, Link.arrival, hg]
    exact ⟨h, by simp⟩
  obtain ⟨rest, hb, hq, rfl⟩ : ∃ rest, s.link.broker = .relaying relay ∧
      s.link.toBroker = f :: rest ∧ st = relay.onGreeterReadable (.ok f) true kernel := by
    unfold Link.greeterStep at hg
    split at hg
    · rename_i relay' f' rest hb hq
      simp only [Option.some.injEq, Prod.mk.injEq] at hg
      obtain ⟨rfl, rfl, rfl⟩ := hg
      exact ⟨rest, hb, hq, rfl⟩
    · cases hg
  obtain ⟨htakes, n, hn⟩ := h.takes hb hq
  have hnw : s.link.broker ≠ .waiting := by simp [hb]
  simp only [Link.greeterReadable, Link.arrival, hg]
  rcases onGreeterReadable_takes htakes true kernel with ⟨-, -, -, heq⟩ | ⟨e, he, heq⟩
  · rw [heq]
    refine ⟨?_, by simp [Arrival.InPhase, htakes]⟩
    simp only [hq, List.drop_one, List.tail_cons, Option.toList_some]
    have hrel : s.link.relayed = {n} + Link.relayed { s.link with toBroker := rest } := by
      simp only [Link.relayed, answers, hq, needs_cons, hn, Option.toList_some,
        Multiset.coe_singleton]
      ac_rfl
    -- it was the only request
    have h0 : Link.relayed { s.link with toBroker := rest } = 0 := by
      have hcard := (Multiset.card_le_card (relayed_le_requests s.link)).trans h.few
      rw [hrel, Multiset.card_add, Multiset.card_singleton] at hcard
      exact Multiset.card_eq_zero.mp (by omega)
    have hreq : ∀ b, Link.requests
        { s.link with toBroker := rest, broker := b, toWorker := s.link.toWorker ++ [f] }
          = s.link.requests := by
      intro b
      simp only [Link.requests, Link.relayed, answers, hq, needs_cons, needs_concat]
      ac_rfl
    refine ⟨h.begun, ?_, fun hw => (hreq _).trans (h.free hw), fun relay' _ n' hn' => ?_,
      fun hw => ?_, fun _ => ?_, ?_⟩
    · exact (congrArg Multiset.card (hreq _)).le.trans h.few
    · exact absurd (h0 ▸ hn') (Multiset.notMem_zero n')
    · cases hw
    · refine ⟨(h.kept hnw).1, fun f' hf' => (h.kept hnw).2 f' ?_⟩
      rw [hq]
      exact List.mem_cons_of_mem f hf'
    · intro f' hf'
      rcases List.mem_append.mp hf' with hf' | hf'
      · exact h.down f' hf'
      · rw [List.mem_singleton.mp hf', hn]
        simp
  · rw [heq]
    simp only [hq, List.drop_one, List.tail_cons, Option.toList_none, List.append_nil]
    refine ⟨h.closed hnw rfl rfl ?_ ?_ rfl, by simp [Arrival.InPhase, htakes, he]⟩
    · simp only [Link.requests, Link.relayed, answers, hq, needs_cons]
      refine add_le_add_left (add_le_add_right (add_le_add_right ?_ _) _) _
      exact Multiset.le_add_left _ _
    · intro f' hf'
      rw [hq]
      exact List.mem_cons_of_mem f hf'

/-- A running worker sends. -/
theorem Agree.workerSends {s : Sys} (h : Agree s) (hw : s.worker = .running)
    (hb : s.link.broker ≠ .waiting) (message : ParentMessage) (fd : Option Fd) :
    Agree ⟨{ s.link with fromWorker := s.link.fromWorker ++ [(message, fd)] },
      if (messageNeed message).isSome then .blocked else .running⟩ := by
  have h0 := h.free hw
  have hreq : Link.requests { s.link with fromWorker := s.link.fromWorker ++ [(message, fd)] }
      = ((messageNeed message).toList : List Need) := by
    rw [← zero_add ((messageNeed message).toList : Multiset Need), ← h0]
    simp only [Link.requests, Link.relayed, needs_concat]
    ac_rfl
  refine ⟨h.begun, ?_, ?_, h.phase, fun hw => absurd hw hb, h.kept, h.down⟩
  · rw [hreq]
    cases messageNeed message <;> simp
  · intro hrun
    rw [hreq]
    cases hm : messageNeed message with
    | none => rfl
    | some n => simp [hm] at hrun

/-- A blocked worker gets its answer. -/
theorem Agree.workerReceives {s : Sys} (h : Agree s) {f : CompositorToBroker}
    {rest : List CompositorToBroker} (hq : s.link.toWorker = f :: rest) :
    Agree ⟨{ s.link with toWorker := rest }, .running⟩ := by
  obtain ⟨n, hn⟩ := Option.ne_none_iff_exists'.mp (h.down f (by simp [hq]))
  have hreq : s.link.requests = {n} + Link.requests { s.link with toWorker := rest } := by
    simp only [Link.requests, Link.relayed, answers, hq, needs_cons, hn, Option.toList_some,
      Multiset.coe_singleton]
    ac_rfl
  have h0 : Link.requests { s.link with toWorker := rest } = 0 := by
    have := h.few
    rw [hreq, Multiset.card_add, Multiset.card_singleton] at this
    exact Multiset.card_eq_zero.mp (by omega)
  refine ⟨h.begun, by rw [h0]; simp, fun _ => h0, h.phase, fun hw => ?_, h.kept, ?_⟩
  · exact ⟨h0, (h.waiting hw).2⟩
  · intro f' hf'
    refine h.down f' ?_
    rw [hq]
    exact List.mem_cons_of_mem f hf'

/-- A broker read that fails drops the connection. -/
theorem Agree.readFailed {s : Sys} (h : Agree s) {α : Type} {relay : Relay} {st : Stepped α}
    (hb : s.link.broker = .relaying relay) {e : BrokerError} (hst : st.res = .error e) :
    Agree { s with link := { s.link with broker := .after st } } :=
  h.closed (by simp [hb]) rfl (by simp [BrokerEnd.after, hst]) (le_refl _) (fun f hf => hf) rfl

/-- **One step keeps the invariant**, and what arrives is in phase. -/
theorem agree_step (fromSlice : List UInt8 → Option Request) {s : Sys} (h : Agree s)
    (i : SysInput) :
    Agree (s.step fromSlice i).1 ∧
      ∀ a ∈ (s.step fromSlice i).2, a.InPhase := by
  cases i with
  | greeterBytes env bytes =>
    refine ⟨?_, by simp [Sys.step]⟩
    exact h.called s.link.toCompositor 0 (by simp) id
      (onGreeterBytes_moved fromSlice env h.begun bytes)
  | brokerReadable env =>
    refine ⟨?_, by simp [Sys.step]⟩
    refine h.called (s.link.toCompositor.drop 1) _ ?_ (by simp_all)
      (onBrokerReadable_moved fromSlice env h.begun _)
    cases hq : s.link.toCompositor with
    | nil => simp [recvNeeds]
    | cons m rest => simp [recvNeeds, needs_cons]
  | brokerFailed env e =>
    refine ⟨?_, by simp [Sys.step]⟩
    exact h.called s.link.toCompositor 0 (by simp) id
      (onBrokerReadable_moved fromSlice env h.begun (.error e))
  | accept spawned => exact ⟨h.accept spawned, by simp [Sys.step]⟩
  | workerReadable kernel => exact ⟨h.workerReadable kernel, by simp [Sys.step]⟩
  | workerFailed e =>
    refine ⟨?_, by simp [Sys.step]⟩
    simp only [Sys.step, Link.workerFailed]
    split
    · rename_i relay hb
      rcases onWorkerReadable_cases relay (some (.error e)) (.ok ()) with
        ⟨pm, fd, frame, fd', phase, step, hm, -⟩ | ⟨e', heq⟩
      · cases hm
      · exact h.readFailed hb (by rw [heq])
    · exact h
  | greeterReadable kernel => exact h.greeterReadable kernel
  | greeterFailed e =>
    refine ⟨?_, by simp [Sys.step]⟩
    simp only [Sys.step, Link.greeterFailed]
    split
    · rename_i relay hb
      obtain ⟨e', he⟩ : ∃ e', (relay.onGreeterReadable (.error e) true (.ok ())).res
          = .error e' := by
        unfold Relay.onGreeterReadable
        split <;> simp_all
      exact h.readFailed hb he
    · exact h
  | workerSends message fd =>
    simp only [Sys.step]
    split
    · rename_i hc
      exact ⟨h.workerSends hc.1 hc.2 message fd, by simp⟩
    · exact ⟨h, by simp⟩
  | workerReceives =>
    simp only [Sys.step]
    split
    · rename_i f rest hw hq
      exact ⟨h.workerReceives hq, by simp⟩
    · exact ⟨h, by simp⟩
  | workerExits =>
    exact ⟨⟨h.begun, h.few, by simp [Sys.step], h.phase, h.waiting, h.kept, h.down⟩,
      by simp [Sys.step]⟩

/-! ## Whole runs -/

/-- **Every frame is expected.** Whatever the greeter writes, whatever a worker that blocks at its
prompts and after `AuthOk` sends, and in whatever order the callbacks run, each frame the broker
reads from the episode after `BeginAuth` is a `ConvResponse` in `AwaitGreeterConvResponse` or a
`StartSession` in `AwaitGreeterStartSession`, and the relay does not answer `UnexpectedFrame`. -/
theorem arrivals_in_phase (fromSlice : List UInt8 → Option Request) (service : String)
    (inputs : List SysInput) :
    ∀ a ∈ (run (Sys.step fromSlice) (Sys.new service) inputs).2,
      ((∃ text, a.frame = .convResponse text) ∧ a.phase = .awaitGreeterConvResponse ∨
        (∃ cmd env, a.frame = .startSession cmd env) ∧ a.phase = .awaitGreeterStartSession) ∧
      a.res ≠ .error .unexpectedFrame := by
  have h := run_invariant_init
    (fun s (tr : List Arrival) => Agree s ∧ ∀ a ∈ tr, a.InPhase)
    ⟨agree_new service, by simp⟩
    (fun s tr i h => by
      obtain ⟨h', harr⟩ := agree_step fromSlice h.1 i
      refine ⟨h', fun a ha => ?_⟩
      rcases List.mem_append.mp ha with ha | ha
      · exact h.2 a ha
      · exact harr a ha) inputs
  intro a ha
  obtain ⟨htakes, hres⟩ := h.2 a ha
  refine ⟨?_, hres⟩
  unfold RelayPhase.Takes at htakes
  split at htakes
  · rename_i text hp hf
    exact .inl ⟨⟨_, hf⟩, hp⟩
  · rename_i cmd env hp hf
    exact .inr ⟨⟨_, _, hf⟩, hp⟩
  · exact htakes.elim

/-- `alice` is asked for her password, and answers. -/
def askedOnce : List SysInput :=
  let env : Env := ⟨fun _ => true, true⟩
  let frame (m : Request) : List UInt8 := m.encode.toOption.getD []
  [.greeterBytes env (frame (.createSession "alice")), .accept true,
    .workerSends (.conv (.convPrompt .secret "Password: ")) none, .workerReadable (.ok ()),
    .brokerReadable env, .greeterBytes env (frame (.postAuthMessageResponse (some "hunter2"))),
    .greeterReadable (.ok ())]

theorem askedOnce_in_phase :
    let arrivals := (run (Sys.step readRequest) (Sys.new "halmasuit") askedOnce).2
    arrivals.map (fun a => (a.phase, a.frame)) =
        [(.awaitGreeterConvResponse, .convResponse "hunter2")] ∧
      ∀ a ∈ arrivals, a.res ≠ .error .unexpectedFrame := by
  intro arrivals
  exact ⟨by decide +kernel, fun a ha =>
    (arrivals_in_phase readRequest "halmasuit" askedOnce a ha).2⟩

end Halmasuit.Protocol
