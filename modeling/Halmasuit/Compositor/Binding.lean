import Halmasuit.Compositor.Launch

/-!
# Binding a greetd round to a broker conversation

An episode builds one relay, at its first `CreateSession`, while the greetd machine inside it can be
cancelled and started again. Two things are asked of every run: a `ConvResponse` carries the
greeter's answer to the very prompt the broker is waiting on (`Answered`), and a round or an
authenticated state for `u` is driven by a conversation begun for `u` (`Bound`).

The code does not keep them on every run. `cancel_then_create_answers_prompt` is a run on which a
cancelled prompt of one user is answered by the next user's `CreateSession`. What breaks them is the
reuse of the relay: a `CreateSession` accepted while the conversation is still undecided pops the
head of `pending_responses` as if it were the answer to the cancelled challenge; and a frame that
arrives while a prompt is unanswered is queued and not flushed by the answer. `Orderly` excludes
exactly these two.

- **`orderly_run_bound`**: on every run whose events are all `Orderly`, every `ConvResponse` is
  `Answered` and the connection is `Bound` in every state reached.

`Base` is the invariant: the conversation frames received are the challenges shown followed by the
queue, and `pending_responses` are the tags of the challenges not answered yet, of which only the
last can be a prompt.
-/

namespace Halmasuit.Compositor

open Halmasuit.Greetd
open Halmasuit.SessionIpc
open Halmasuit.Lib

/-! ## Reading a trace -/

/-- The challenge a conversation frame becomes. -/
def challengeOf : BrokerToCompositor → Option PamStep
  | .convPrompt style message => some (.challenge (promptToKind style) message)
  | .convDisplay style message => some (.challenge (displayToKind style) message)
  | _ => none

/-- A conversation frame. -/
def isConv (f : BrokerToCompositor) : Bool := (challengeOf f).isSome

/-- A prompt. -/
def isPrompt : BrokerToCompositor → Bool
  | .convPrompt _ _ => true
  | _ => false

/-- A challenge that asks for no text. -/
def isDisplay : PamStep → Bool
  | .challenge .info _ => true
  | .challenge .error _ => true
  | _ => false

/-- `Success` or `Failure`. -/
def isDecision : BrokerToCompositor → Bool
  | .success _ _ _ => true
  | .failure _ => true
  | _ => false

/-- What `pending_responses` records for a conversation frame. -/
def tagOf (f : BrokerToCompositor) : PendingResponse := if isPrompt f then .forward else .swallow

/-- The conversation frames accepted from the broker, in order. -/
def convs (tr : List EpisodeEvent) : List BrokerToCompositor :=
  tr.filterMap fun
    | .received f => if isConv f then some f else none
    | _ => none

/-- The challenges shown to the greeter, in order. -/
def shown (tr : List EpisodeEvent) : List PamStep :=
  tr.filterMap fun
    | .greetd (.resumed (.challenge kind prompt)) => some (.challenge kind prompt)
    | _ => none

/-- The conversations begun, as `BeginAuth` carries them. -/
def begins (tr : List EpisodeEvent) : List (String × String) :=
  tr.filterMap fun
    | .sent (.beginAuth service username) => some (service, username)
    | _ => none

/-- The users of the accepted `CreateSession`s, in order. -/
def creates (tr : List EpisodeEvent) : List String :=
  tr.filterMap fun
    | .greetd (.accepted (.createSession u) _) => some u
    | _ => none

/-- The number of `ConvResponse`s sent. -/
def responses (tr : List EpisodeEvent) : Nat :=
  tr.countP fun
    | .sent (.convResponse _) => true
    | _ => false

/-- The broker has reported the outcome of the authentication. -/
def Decided (tr : List EpisodeEvent) : Prop := ∃ f, .received f ∈ tr ∧ isDecision f = true

theorem decided_iff_any (tr : List EpisodeEvent) :
    Decided tr ↔ (tr.any fun | .received f => isDecision f | _ => false) = true := by
  rw [List.any_eq_true]
  constructor
  · rintro ⟨f, hf, hd⟩
    exact ⟨.received f, hf, hd⟩
  · rintro ⟨e, he, hd⟩
    cases e with
    | received f => exact ⟨f, he, hd⟩
    | _ => simp at hd

instance (tr : List EpisodeEvent) : Decidable (Decided tr) :=
  decidable_of_iff _ (decided_iff_any tr).symm

/-! ## What is asked of a run -/

/-- A `ConvResponse` is the greeter's answer to the prompt the broker waits on: that prompt is the
oldest one without a `ConvResponse`, it is the challenge shown last, and the event before the send
is the greeter's accepted response, with this text. -/
def Answered (pre : List EpisodeEvent) : EpisodeEvent → Prop
  | .sent (.convResponse text) =>
    (∃ before style message after, convs pre = before ++ .convPrompt style message :: after ∧
      before.countP isPrompt = responses pre ∧
      (before ++ [.convPrompt style message]).map challengeOf = (shown pre).map some) ∧
    ∃ a reply response, pre = a ++
        [.greetd (.accepted (.postAuthMessageResponse response) (.pam response)),
          .greetd (.returned ⟨reply, .pam response⟩)] ∧ text = response.getD ""
  | _ => True

/-- A PAM round or `AuthSuccess`. -/
def Active : SessionState → Prop
  | .authPending _ => True
  | .authenticating _ => True
  | .authSuccess _ _ _ => True
  | _ => False

/-- The one conversation begun names the user of the last accepted `CreateSession`. -/
def Bound (tr : List EpisodeEvent) : Prop :=
  ∃ service u, begins tr = [(service, u)] ∧ (creates tr).getLast? = some u

/-- The condition on the greeter's requests and the broker's frames, event by event.

- A `CreateSession` accepted after a conversation was begun and before the broker decided it names
  the conversation's user and follows the cancellation of a display.
- A conversation frame arrives when every prompt before it has been answered. -/
def Orderly (pre : List EpisodeEvent) : EpisodeEvent → Prop
  | .greetd (.accepted (.createSession u) _) =>
    begins pre = [] ∨ Decided pre ∨
      ((begins pre).map Prod.snd = [u] ∧ (shown pre).getLast?.any isDisplay = true)
  | .received f => isConv f = true → (convs pre).countP isPrompt = responses pre
  | _ => True

instance (pre : List EpisodeEvent) : (e : EpisodeEvent) → Decidable (Orderly pre e)
  | .greetd (.accepted (.createSession _) _) => inferInstanceAs (Decidable (_ ∨ _ ∨ _))
  | .received _ => inferInstanceAs (Decidable (_ → _))
  | .greetd (.accepted (.postAuthMessageResponse _) _)
  | .greetd (.accepted (.startSession _ _) _) | .greetd (.accepted .cancelSession _)
  | .greetd (.refused _ _) | .greetd (.resumed _) | .greetd .brokerClosed | .greetd (.failed _)
  | .greetd (.returned _) | .sent _ | .failedClosed | .outcome _ => inferInstanceAs (Decidable True)

/-! ## Projections of a growing trace -/

section
variable (tr es : List EpisodeEvent)

@[simp] theorem convs_append : convs (tr ++ es) = convs tr ++ convs es := by simp [convs]
@[simp] theorem shown_append : shown (tr ++ es) = shown tr ++ shown es := by simp [shown]
@[simp] theorem begins_append : begins (tr ++ es) = begins tr ++ begins es := by simp [begins]
@[simp] theorem creates_append : creates (tr ++ es) = creates tr ++ creates es := by simp [creates]
@[simp] theorem responses_append : responses (tr ++ es) = responses tr + responses es := by
  simp [responses]

theorem decided_append : Decided (tr ++ es) ↔ Decided tr ∨ Decided es := by
  simp [Decided, or_and_right, exists_or]

end

/-- Events at the greetd connection are no frames. -/
theorem greetd_projections (es : List ConnEvent) :
    convs (es.map .greetd) = [] ∧ begins (es.map .greetd) = [] ∧ responses (es.map .greetd) = 0 ∧
      ¬ Decided (es.map .greetd) := by
  refine ⟨?_, ?_, ?_, ?_⟩
  · simp [convs, List.filterMap_map]
  · simp [begins, List.filterMap_map]
  · simp [responses, List.countP_eq_zero]
  · rintro ⟨f, hf, -⟩
    simp at hf

/-- Asides neither show a challenge nor begin a round. -/
theorem asides_projections {es : List ConnEvent} (hes : ∀ e ∈ es, IsAside e) :
    shown (es.map .greetd) = [] ∧ creates (es.map .greetd) = [] := by
  refine ⟨?_, ?_⟩ <;>
  · simp only [shown, creates, List.filterMap_eq_nil_iff, List.mem_map]
    rintro e ⟨e', he', rfl⟩
    rcases hes e' he' with ⟨r, rfl⟩ | ⟨req, err, rfl⟩ <;> rfl

/-! ## The invariant -/

/-- The challenge shown last is unanswered. The frames not answered yet are that challenge's and
the queue's; `pending_responses` are their tags, and only the last of them can be a prompt. -/
def Unanswered (r : BrokerRelay) (queue : List PamStep) (tr : List EpisodeEvent) : Prop :=
  ∃ before f after, convs tr = before ++ f :: after ∧
    (before ++ [f]).map challengeOf = (shown tr).map some ∧
    after.map challengeOf = queue.map some ∧
    r.pendingResponses = (f :: after).map tagOf ∧
    before.countP isPrompt = responses tr ∧
    ∀ g ∈ (f :: after).dropLast, isPrompt g = false

/-- Everything shown is answered, and nothing is queued. -/
def Settled (r : BrokerRelay) (queue : List PamStep) (tr : List EpisodeEvent) : Prop :=
  r.pendingResponses = [] ∧ queue = [] ∧ (convs tr).map challengeOf = (shown tr).map some ∧
    (convs tr).countP isPrompt = responses tr

/-- The relay drives the round of the last `CreateSession`. -/
structure Talk (r : BrokerRelay) (tr : List EpisodeEvent) : Prop where
  begun : begins tr = [(r.service, r.username)]
  created : (creates tr).getLast? = some r.username
  phase : r.phase ≠ .preAuth

theorem Talk.bound {r : BrokerRelay} {tr : List EpisodeEvent} (h : Talk r tr) : Bound tr :=
  ⟨r.service, r.username, h.begun, h.created⟩

/-- The relay and the queue while the greetd machine is not suspended. -/
def Base (relay : Option BrokerRelay) (queue : List PamStep) (tr : List EpisodeEvent) : Prop :=
  match relay with
  | none => begins tr = [] ∧ convs tr = [] ∧ shown tr = [] ∧ responses tr = 0 ∧
      ¬ Decided tr ∧ queue = []
  | some r => Talk r tr ∧ (r.phase = .authing → ¬ Decided tr ∧ Unanswered r queue tr)

/-- **The episode against its trace**, between calls. -/
structure BindInv (ep : BrokerEpisode) (tr : List EpisodeEvent) : Prop where
  answers : Always Answered tr
  bound : Active ep.conn.state → Bound tr
  idle : ep.conn.closed = false → ep.relay = none → ep.conn.state = .idle
  base : ep.conn.closed = false → ep.conn.awaitingPam = false →
    Base ep.relay ep.pendingChallenges tr
  settled : ep.conn.closed = false → ep.conn.awaitingPam = true → ∃ r, ep.relay = some r ∧
    Talk r tr ∧ (r.phase = .authing → ¬ Decided tr ∧ Settled r ep.pendingChallenges tr)

/-- What the demand being acted on says. -/
def Asked (ep : BrokerEpisode) (tr : List EpisodeEvent) : Demand → Prop
  | .continue => ep.conn.closed = false ∧ ep.conn.awaitingPam = false ∧
      (ep.relay = none → ep.conn.state = .idle) ∧ Base ep.relay ep.pendingChallenges tr
  | .pam response => ep.conn.closed = false ∧ ep.conn.awaitingPam = true ∧
      ∃ pre reply req, tr = pre ++ [.greetd (.accepted req (.pam response)),
          .greetd (.returned ⟨reply, .pam response⟩)] ∧
        Base ep.relay ep.pendingChallenges pre ∧
        ((req = .postAuthMessageResponse response ∧ ep.relay ≠ none) ∨
          ∃ u, req = .createSession u ∧ response = none ∧ ep.conn.state = .authPending u)
  | .spawn _ => ep.conn.closed = true ∧ ¬ Active ep.conn.state
  | .close => ep.conn.closed = true ∧ (Active ep.conn.state → Bound tr)

/-! ## Events that change nothing -/

/-- Events that are neither frames nor challenges shown nor rounds begun. -/
structure Mute (es : List EpisodeEvent) : Prop where
  convs : convs es = []
  shown : shown es = []
  begins : begins es = []
  creates : creates es = []
  responses : responses es = 0
  decided : ¬ Decided es

theorem Mute.append {es es' : List EpisodeEvent} (h : Mute es) (h' : Mute es') :
    Mute (es ++ es') :=
  ⟨by simp [h.convs, h'.convs], by simp [h.shown, h'.shown], by simp [h.begins, h'.begins],
    by simp [h.creates, h'.creates], by simp [h.responses, h'.responses],
    by simp [decided_append, h.decided, h'.decided]⟩

theorem mute_asides {es : List ConnEvent} (hes : ∀ e ∈ es, IsAside e) : Mute (es.map .greetd) :=
  have h := greetd_projections es
  have h' := asides_projections hes
  ⟨h.1, h'.1, h.2.1, h'.2, h.2.2.1, h.2.2.2⟩

theorem mute_outcome (o : EpisodeOutcome) : Mute [.outcome o] :=
  ⟨rfl, rfl, rfl, rfl, rfl, by simp [Decided]⟩

theorem mute_returned (out : Outcome) : Mute [.greetd (.returned out)] :=
  ⟨rfl, rfl, rfl, rfl, rfl, by simp [Decided]⟩

theorem mute_result (ran : Ran) : Mute [.greetd ran.result] := by
  unfold Ran.result
  split <;> exact ⟨rfl, rfl, rfl, rfl, rfl, by simp [Decided]⟩

section
variable {tr es : List EpisodeEvent} {r : BrokerRelay} {relay : Option BrokerRelay}
  {queue : List PamStep}

theorem Mute.bound (h : Mute es) (hb : Bound tr) : Bound (tr ++ es) := by
  obtain ⟨service, u, h1, h2⟩ := hb
  exact ⟨service, u, by simp [h1, h.begins], by simp [h2, h.creates]⟩

theorem Mute.talk (h : Mute es) (ht : Talk r tr) : Talk r (tr ++ es) :=
  ⟨by simp [ht.begun, h.begins], by simp [ht.created, h.creates], ht.phase⟩

theorem Mute.decided_iff (h : Mute es) : Decided (tr ++ es) ↔ Decided tr := by
  simp [decided_append, h.decided]

theorem Mute.unanswered (h : Mute es) (hu : Unanswered r queue tr) :
    Unanswered r queue (tr ++ es) := by
  simpa [Unanswered, h.convs, h.shown, h.responses] using hu

theorem Mute.settled (h : Mute es) (hu : Settled r queue tr) : Settled r queue (tr ++ es) := by
  simpa [Settled, h.convs, h.shown, h.responses] using hu

theorem Mute.base (h : Mute es) (hb : Base relay queue tr) : Base relay queue (tr ++ es) := by
  cases relay with
  | none => simpa [Base, h.begins, h.convs, h.shown, h.responses, h.decided_iff] using hb
  | some r =>
    refine ⟨h.talk hb.1, fun hp => ?_⟩
    obtain ⟨hd, hu⟩ := hb.2 hp
    exact ⟨by rwa [h.decided_iff], h.unanswered hu⟩

end

/-- Frames and answers aside, the trace may grow. -/
theorem Always.answered_greetd {tr : List EpisodeEvent} (h : Always Answered tr)
    {es : List EpisodeEvent} (hes : ∀ e ∈ es, ∀ text, e ≠ .sent (.convResponse text)) :
    Always Answered (tr ++ es) := by
  refine Always.append_of_forall h fun e he pre => ?_
  cases e with
  | sent f =>
    cases f with
    | convResponse text => exact absurd rfl (hes _ he text)
    | _ => trivial
  | _ => trivial

theorem answered_greetdEvents {tr : List EpisodeEvent} (h : Always Answered tr) (ran : Ran) :
    Always Answered (tr ++ greetdEvents ran) :=
  Always.answered_greetd h fun e he text => by
    obtain ⟨e', rfl⟩ := mem_greetdEvents he
    simp

/-! ## Greetd calls -/

/-- The demand of a greetd call on an episode with a relay. -/
theorem asked_of_ran {ep : BrokerEpisode} {r : BrokerRelay} {ran : Ran} {o : Outcome}
    {hd : List ConnEvent} {tr : List EpisodeEvent} (hsh : ran.Shaped hd) (hsound : ran.Sound)
    (hres : ran.res = .ok o) (hconn : ep.conn = ran.conn) (hrel : ep.relay = some r)
    (hbase : Base (some r) ep.pendingChallenges (tr ++ hd.map .greetd)) :
    Asked ep (tr ++ greetdEvents ran) o.demand := by
  obtain ⟨es, hes, hcase⟩ := hsh
  have hmute := mute_asides hes
  rcases hcase with ⟨hev, hno⟩ | ⟨reply, req, response, hev, hres', hreq⟩ |
    ⟨reply, cmd, env, s, hev, hres', hst⟩
  · have heq : tr ++ greetdEvents ran
        = tr ++ hd.map .greetd ++ (es.map .greetd ++ [EpisodeEvent.greetd ran.result]) := by
      simp [greetdEvents, hev]
    have hb := (hmute.append (mute_result ran)).base hbase
    rw [← heq] at hb
    obtain ⟨reply, d⟩ := o
    rw [Ran.Sound, hres] at hsound
    cases d with
    | «continue» =>
      exact ⟨by rw [hconn]; exact hsound.1, by rw [hconn]; exact hsound.2, by simp [hrel],
        by rw [hrel]; exact hb⟩
    | pam response => exact absurd hres ((hno reply).1 response)
    | spawn s => exact absurd hres ((hno reply).2 s)
    | close => exact ⟨by rw [hconn]; exact hsound, fun _ => hb.1.bound⟩
  · obtain rfl : o = ⟨reply, .pam response⟩ := by rw [hres] at hres'; exact Except.ok.inj hres'
    rw [Ran.Sound, hres] at hsound
    refine ⟨by rw [hconn]; exact hsound.1, by rw [hconn]; exact hsound.2,
      tr ++ hd.map .greetd ++ es.map .greetd, reply, req, ?_, by rw [hrel]; exact hmute.base hbase,
      ?_⟩
    · simp [greetdEvents, hev, Ran.result, hres]
    · rcases hreq with rfl | ⟨u, rfl, rfl, hst⟩
      · exact .inl ⟨rfl, by simp [hrel]⟩
      · exact .inr ⟨u, rfl, rfl, by rw [hconn]; exact hst⟩
  · obtain rfl : o = ⟨reply, .spawn s⟩ := by rw [hres] at hres'; exact Except.ok.inj hres'
    rw [Ran.Sound, hres] at hsound
    exact ⟨by rw [hconn]; exact hsound, by rw [hconn, hst]; exact id⟩

/-! ## Acting on a demand -/

theorem mute_failClosed (ep : BrokerEpisode) (out : EpisodeOutcome) :
    Mute (ep.failClosed out).events := by
  obtain ⟨-, reply, hres, hev⟩ := brokerClosed_isClosed ep.conn
  simp only [BrokerEpisode.failClosed, greetdEvents, hev, Ran.result, hres]
  exact ⟨rfl, rfl, rfl, rfl, rfl, by simp [Decided]⟩

/-- `fail_closed` leaves no round behind. -/
theorem failClosed_bind {ep : BrokerEpisode} {tr : List EpisodeEvent} (out : EpisodeOutcome)
    (ha : Always Answered tr) (hb : ep.conn.closed = true → Active ep.conn.state → Bound tr) :
    BindInv (ep.failClosed out).ep (tr ++ (ep.failClosed out).events) := by
  have hclosed : (ep.failClosed out).ep.conn.closed = true := (brokerClosed_isClosed ep.conn).1
  refine ⟨Always.answered_greetd ha ?_, fun hact => ?_, by simp [hclosed], by simp [hclosed],
    by simp [hclosed]⟩
  · intro e he text
    rcases List.mem_cons.mp he with rfl | he
    · simp
    · obtain ⟨e', rfl⟩ := mem_greetdEvents he
      simp
  · refine (mute_failClosed ep out).bound ?_
    by_cases hc : ep.conn.closed = true
    · refine hb hc ?_
      simpa [BrokerEpisode.failClosed, brokerClosed_closed hc] using hact
    · obtain ⟨st, reply, hst, heq⟩ := brokerClosed_open (by simpa using hc)
      simp only [BrokerEpisode.failClosed, heq] at hact
      rcases hst with rfl | ⟨n, u, g, cmd, env, rfl⟩ <;> exact absurd hact id

/-- What the event that suspended the connection leaves to the trace. -/
theorem suspended_projections {pre tr : List EpisodeEvent} {req : Request}
    {response : Option String}
    {out : Outcome}
    (htr : tr = pre ++
      [EpisodeEvent.greetd (.accepted req (.pam response)), .greetd (.returned out)]) :
    convs tr = convs pre ∧ shown tr = shown pre ∧ begins tr = begins pre ∧
      responses tr = responses pre ∧ (Decided tr ↔ Decided pre) := by
  subst htr
  refine ⟨by simp [convs], by simp [shown], by simp [begins], by simp [responses], ?_⟩
  simp [Decided]

/-- Popping the head of `pending_responses` answers the challenge shown last, if the trace is
orderly: the relay stays with its user, and a popped `Forward` is the greeter's own response. -/
theorem popped {ep : BrokerEpisode} {r : BrokerRelay} {pre tr : List EpisodeEvent} {req : Request}
    {response : Option String} {out : Outcome} {tag : PendingResponse} {tags : List PendingResponse}
    (htr : tr = pre ++
      [EpisodeEvent.greetd (.accepted req (.pam response)), .greetd (.returned out)])
    (hord : Always Orderly tr) (hbase : Base (some r) ep.pendingChallenges pre)
    (hreq : req = .postAuthMessageResponse response ∨ ∃ u, req = .createSession u ∧ response = none)
    (hp : r.phase = .authing) (htag : r.pendingResponses = tag :: tags) :
    Talk { r with pendingResponses := tags } tr ∧ ¬ Decided tr ∧
      ∃ before f after, convs tr = before ++ f :: after ∧
        (before ++ [f]).map challengeOf = (shown tr).map some ∧
        after.map challengeOf = ep.pendingChallenges.map some ∧
        tags = after.map tagOf ∧ before.countP isPrompt = responses tr ∧
        (∀ g ∈ (f :: after).dropLast, isPrompt g = false) ∧ tag = tagOf f ∧
        (isPrompt f = true → req = .postAuthMessageResponse response) := by
  obtain ⟨hc, hs, hb, hr, hd⟩ := suspended_projections htr
  obtain ⟨htalk, hauth⟩ := hbase
  obtain ⟨hnd, before, f, after, h1, h2, h3, h4, h5, h6⟩ := hauth hp
  obtain ⟨rfl, rfl⟩ : tag = tagOf f ∧ tags = after.map tagOf := by
    rw [htag] at h4
    simpa using h4
  -- what the condition says of a `CreateSession` here
  have hcreate : ∀ u, req = .createSession u →
      u = r.username ∧ isPrompt f = false := by
    rintro u rfl
    have ho : Orderly pre (.greetd (.accepted (.createSession u) (.pam response))) :=
      hord pre _ [EpisodeEvent.greetd (.returned out)] (by rw [htr])
    rcases ho with ho | ho | ⟨ho, hlast⟩
    · simp [htalk.begun] at ho
    · exact absurd ho hnd
    · refine ⟨?_, ?_⟩
      · rw [htalk.begun] at ho
        simpa using ho.symm
      · obtain ⟨step, hlast, hdisp⟩ := Option.any_eq_true _ _ |>.mp hlast
        have hf : challengeOf f = some step := by
          have := congrArg List.getLast? h2
          rw [List.map_append, List.map_singleton, List.getLast?_concat, List.getLast?_map, hlast]
            at this
          simpa using this
        cases f with
        | convPrompt style message =>
          simp only [challengeOf, Option.some.injEq] at hf
          cases style <;> simp [← hf, promptToKind, isDisplay] at hdisp
        | _ => rfl
  refine ⟨⟨by rw [hb]; exact htalk.begun, ?_, htalk.phase⟩, by rwa [hd], before, f, after,
    by rw [hc, h1], by rw [hs, h2], h3, rfl, by rw [hr, h5], h6, rfl, ?_⟩
  · rcases hreq with rfl | ⟨u, rfl, -⟩
    · rw [htr]
      simpa [creates] using htalk.created
    · rw [htr, ← (hcreate u rfl).1]
      simp [creates]
  · intro hprompt
    rcases hreq with h | ⟨u, rfl, -⟩
    · exact h
    · simp [(hcreate u rfl).2] at hprompt

/-- With nothing queued behind it, an answered challenge settles the conversation. -/
theorem settled_of_popped {r : BrokerRelay} {queue : List PamStep} {tr es : List EpisodeEvent}
    {before after : List BrokerToCompositor} {f : BrokerToCompositor}
    (h1 : convs tr = before ++ f :: after)
    (h2 : (before ++ [f]).map challengeOf = (shown tr).map some)
    (h3 : after.map challengeOf = queue.map some) (hafter : after = [])
    (h4 : r.pendingResponses = after.map tagOf) (hc : convs es = []) (hs : shown es = [])
    (h5 : before.countP isPrompt + (if isPrompt f then 1 else 0) = responses tr + responses es) :
    Settled r queue (tr ++ es) := by
  subst hafter
  refine ⟨by simpa using h4, by simpa using h3, ?_, ?_⟩
  · rw [convs_append, shown_append, hc, hs, List.append_nil, List.append_nil, h1, h2]
  · rw [convs_append, responses_append, hc, List.append_nil, h1, List.countP_append,
      List.countP_singleton, h5]

/-- What a popped `Swallow` leaves. -/
def Swallowed (r : BrokerRelay) (queue : List PamStep) (tr : List EpisodeEvent) : Prop :=
  Talk r tr ∧ ¬ Decided tr ∧
    ∃ before f after, convs tr = before ++ f :: after ∧
      (before ++ [f]).map challengeOf = (shown tr).map some ∧
      after.map challengeOf = queue.map some ∧ r.pendingResponses = after.map tagOf ∧
      before.countP isPrompt = responses tr ∧
      (∀ g ∈ (f :: after).dropLast, isPrompt g = false) ∧ isPrompt f = false

theorem swallow_popped {ep : BrokerEpisode} {r : BrokerRelay} {pre tr : List EpisodeEvent}
    {req : Request} {response : Option String} {out : Outcome}
    (htr : tr = pre ++
      [EpisodeEvent.greetd (.accepted req (.pam response)), .greetd (.returned out)])
    (hord : Always Orderly tr) (hbase : Base ep.relay ep.pendingChallenges pre)
    (hreq : (req = .postAuthMessageResponse response ∧ ep.relay ≠ none) ∨
      ∃ u, req = .createSession u ∧ response = none ∧ ep.conn.state = .authPending u)
    (hs : ep.relayOrNew.onPamStep response = .ok (none, r)) :
    Swallowed r ep.pendingChallenges tr := by
  rcases onPamStep_cases hs with ⟨-, hf, -⟩ | ⟨hp, -, tags, htag, rfl⟩ | ⟨-, hf, -⟩
  · simp at hf
  · have hrel : ep.relay = some ep.relayOrNew := relay_of_authing hp
    rw [hrel] at hbase
    obtain ⟨htalk, hnd, before, f, after, h1, h2, h3, h4, h5, h6, h7, -⟩ :=
      popped htr hord hbase (hreq.imp (·.1) fun ⟨u, h, h', _⟩ => ⟨u, h, h'⟩) hp htag
    refine ⟨htalk, hnd, before, f, after, h1, h2, h3, h4, h5, h6, ?_⟩
    unfold tagOf at h7
    split at h7
    · simp at h7
    · rename_i hprompt
      simpa using hprompt
  · simp at hf

/-- The next queued challenge is shown: it is now the one without an answer. -/
theorem base_of_flushed {r : BrokerRelay} {step : PamStep} {rest : List PamStep}
    {tr : List EpisodeEvent} (h : Swallowed r (step :: rest) tr) :
    Base (some r) rest (tr ++ [ConnEvent.resumed step].map .greetd) := by
  obtain ⟨htalk, hnd, before, f, after, h1, h2, h3, h4, h5, h6, hp⟩ := h
  obtain ⟨g, after, rfl⟩ : ∃ g after', after = g :: after' := by
    cases after with
    | nil => simp at h3
    | cons g after => exact ⟨g, after, rfl⟩
  obtain ⟨hg, hrest⟩ : challengeOf g = some step ∧ after.map challengeOf = rest.map some := by
    simpa using h3
  obtain ⟨kind, prompt, rfl⟩ : ∃ kind prompt, step = .challenge kind prompt := by
    cases g <;> simp [challengeOf] at hg <;> exact ⟨_, _, hg.symm⟩
  refine ⟨⟨by simpa [begins] using htalk.begun, by simpa [creates] using htalk.created,
    htalk.phase⟩, fun _ => ⟨?_, before ++ [f], g, after, ?_, ?_, hrest, h4, ?_, ?_⟩⟩
  · rw [decided_append]
    rintro (h | ⟨f, hf, -⟩)
    · exact hnd h
    · simp at hf
  · rw [convs_append, h1]
    simp [convs]
  · rw [shown_append, List.map_append (f := challengeOf), h2, List.map_append]
    simp [shown, hg]
  · rw [responses_append, List.countP_append, h5]
    simp [hp, responses]
  · intro x hx
    exact h6 x (by simp [List.dropLast_cons_of_ne_nil, hx])

/-- The first round: the conversation is begun for the user just named. -/
theorem begin_bind {ep : BrokerEpisode} {response : Option String} {r : BrokerRelay}
    {tr : List EpisodeEvent} (hp : ep.relayOrNew.phase = .preAuth)
    (hr' : r = { ep.relayOrNew with phase := .authing }) (ha : Always Answered tr)
    (hm : Asked ep tr (.pam response)) :
    BindInv { ep with greetdReadyForChallenge := true, relay := some r }
      (tr ++ [EpisodeEvent.sent (.beginAuth ep.relayOrNew.service ep.relayOrNew.username)]) := by
  obtain ⟨hc, hw, pre, reply', req, htr, hbase, hreq⟩ := hm
  have hrel : ep.relay = none := by
    rcases relayOrNew_phase ep with hrel | ⟨hrel, -⟩
    · rw [hrel] at hbase
      exact absurd hp hbase.1.phase
    · exact hrel
  rcases hreq with ⟨-, hsome⟩ | ⟨u, rfl, rfl, hst⟩
  · exact absurd hrel hsome
  have hnew : ep.relayOrNew = BrokerRelay.new ep.service u := by
    simp [BrokerEpisode.relayOrNew, hrel, Connection.pendingUsername, hst]
  rw [hrel] at hbase
  obtain ⟨hb1, hb2, hb3, hb4, hb5, hb6⟩ := hbase
  obtain ⟨hc', hs', hb', hr'', hd'⟩ := suspended_projections htr
  have hcreate : creates tr = creates pre ++ [u] := by
    rw [htr, creates_append]
    rfl
  have htalk : Talk r
      (tr ++ [EpisodeEvent.sent (.beginAuth ep.relayOrNew.service ep.relayOrNew.username)]) := by
    refine ⟨?_, ?_, by simp [hr']⟩
    · rw [begins_append, hb', hb1, hr']
      rfl
    · rw [creates_append, hcreate, hr', hnew]
      simp [creates, BrokerRelay.new]
  refine ⟨ha.snoc trivial, fun _ => htalk.bound, by simp, by simp [hw], fun _ _ =>
    ⟨r, rfl, htalk, fun _ => ⟨?_, ?_⟩⟩⟩
  · rw [decided_append, hd']
    rintro (h | ⟨f, hf', -⟩)
    · exact hb5 h
    · simp at hf'
  · refine ⟨by simp [hr', hnew, BrokerRelay.new], hb6, ?_, ?_⟩
    · rw [convs_append, shown_append, hc', hs', hb2, hb3]
      rfl
    · rw [convs_append, responses_append, hc', hr'', hb2, hb4]
      rfl

/-- A prompt is answered. -/
theorem answer_bind {ep : BrokerEpisode} {response : Option String} {r : BrokerRelay}
    {tags : List PendingResponse} {tr : List EpisodeEvent} (hp : ep.relayOrNew.phase = .authing)
    (htag : ep.relayOrNew.pendingResponses = .forward :: tags)
    (hr' : r = { ep.relayOrNew with pendingResponses := tags }) (hord : Always Orderly tr)
    (ha : Always Answered tr) (hm : Asked ep tr (.pam response)) :
    BindInv { ep with greetdReadyForChallenge := true, relay := some r }
      (tr ++ [EpisodeEvent.sent (.convResponse (response.getD ""))]) := by
  obtain ⟨hc, hw, pre, reply', req, htr, hbase, hreq⟩ := hm
  have hreq' : req = .postAuthMessageResponse response ∨
      ∃ u, req = .createSession u ∧ response = none :=
    hreq.imp (·.1) fun ⟨u, h, h', _⟩ => ⟨u, h, h'⟩
  have hrel : ep.relay = some ep.relayOrNew := relay_of_authing hp
  rw [hrel] at hbase
  obtain ⟨htalk, hnd, before, f, after, h1, h2, h3, h4, h5, h6, h7, h8⟩ :=
    popped htr hord hbase hreq' hp htag
  have hprompt : isPrompt f = true := by
    unfold tagOf at h7
    split at h7
    · assumption
    · simp at h7
  have hafter : after = [] := by
    cases after with
    | nil => rfl
    | cons g after => simp [h6 f (by simp)] at hprompt
  have hmute : begins [EpisodeEvent.sent (.convResponse (response.getD ""))] = [] ∧
      creates [EpisodeEvent.sent (.convResponse (response.getD ""))] = [] := ⟨rfl, rfl⟩
  have htalk' : Talk r (tr ++ [EpisodeEvent.sent (.convResponse (response.getD ""))]) :=
    ⟨by simpa [hmute, hr'] using htalk.begun, by simpa [hmute, hr'] using htalk.created,
      by simp [hr', hp]⟩
  refine ⟨ha.snoc ⟨?_, pre, reply', response, ?_, rfl⟩, fun _ => htalk'.bound, by simp,
    by simp [hw], fun _ _ => ⟨r, rfl, htalk', fun _ => ⟨?_, ?_⟩⟩⟩
  · cases f with
    | convPrompt style message => exact ⟨before, style, message, after, h1, h5, h2⟩
    | _ => simp [isPrompt] at hprompt
  · rw [htr, h8 hprompt]
  · simpa [decided_append, Decided] using hnd
  · refine settled_of_popped h1 h2 h3 hafter (by simp [hr', h4]) rfl rfl ?_
    simp [hprompt, h5, responses]

/-- **Acting on a demand keeps the invariant** on an orderly trace. -/
theorem acts_bind {fromSlice : List UInt8 → Option Request} {env : Env} {ep : BrokerEpisode}
    {reply : List UInt8} {demand : Demand} {out : EpisodeOutcome} {a : Acted}
    (hacts : Acts fromSlice env ep reply demand out a) :
    ∀ tr, Always Orderly (tr ++ a.events) → Always Answered tr → Asked ep tr demand →
      BindInv a.ep (tr ++ a.events) := by
  induction hacts with
  | @«continue» ep reply out =>
    intro tr _ ha hm
    obtain ⟨hc, hw, hidle, hb⟩ := hm
    rw [List.append_nil]
    refine ⟨ha, fun hact => ?_, fun _ => hidle, fun _ _ => hb, by simp [hw]⟩
    cases hrel : ep.relay with
    | none => simp [hidle hrel, Active] at hact
    | some r =>
      rw [hrel] at hb
      exact hb.1.bound
  | @close ep reply out =>
    intro tr _ ha hm
    obtain ⟨hc, hb⟩ := hm
    rw [List.append_nil]
    exact ⟨ha, hb, by simp [hc], by simp [hc], by simp [hc]⟩
  | @failed ep reply demand out relay ready hd hrel =>
    intro tr _ ha hm
    refine failClosed_bind _ ha fun hc hact => ?_
    cases demand with
    | «continue» => simp [hm.1] at hc
    | pam response => simp [hm.1] at hc
    | spawn s => exact absurd hact hm.2
    | close => exact absurd rfl hd
  | @sent ep reply response out f r hs hsend =>
    intro tr hord ha hm
    rcases onPamStep_cases hs with ⟨hp, hf, hr'⟩ | ⟨-, hf, -⟩ | ⟨hp, hf, tags, htag, hr'⟩
    · obtain rfl : f = .beginAuth ep.relayOrNew.service ep.relayOrNew.username := by simpa using hf
      exact begin_bind hp hr' ha hm
    · simp at hf
    · obtain rfl : f = .convResponse (response.getD "") := by simpa using hf
      exact answer_bind hp htag hr' hord.of_append ha hm
  | @swallowed ep reply response out r hs hq =>
    intro tr hord ha hm
    obtain ⟨hc, hw, pre, reply', req, htr, hbase, hreq⟩ := hm
    obtain ⟨htalk, hnd, before, f, after, h1, h2, h3, h4, h5, -, hp⟩ :=
      swallow_popped htr hord.of_append hbase hreq hs
    rw [List.append_nil]
    refine ⟨ha, fun _ => htalk.bound, by simp, by simp [hw], fun _ _ =>
      ⟨r, rfl, htalk, fun _ => ⟨hnd, ?_⟩⟩⟩
    have hafter : after = [] := by simpa [hq] using h3
    have h := settled_of_popped h1 h2 h3 hafter h4 (rfl : convs [] = []) rfl
      (by simp [hp, h5, responses])
    rwa [List.append_nil] at h
  | @flushed ep reply response out r step rest o acted hs hq hr next ih =>
    intro tr hord ha hm
    obtain ⟨-, -, pre, reply', req, htr, hbase, hreq⟩ := hm
    rw [Acted.after, ← List.append_assoc] at hord ⊢
    have hpop := swallow_popped htr hord.of_append.of_append hbase hreq hs
    have hb : Base (some r) rest (tr ++ [ConnEvent.resumed step].map .greetd) := by
      rw [hq] at hpop
      exact base_of_flushed hpop
    refine ih _ hord (answered_greetdEvents ha _) ?_
    exact asked_of_ran (resumePam_shaped _ _ _) (resumePam_sound _ _ _) hr rfl rfl hb
  | @flushFailed ep reply response out r step rest e hs hq hr =>
    intro tr _ ha hm
    have hopen : (ep.conn.resumePam fromSlice step).conn.closed = false := by
      have h := resumePam_sound fromSlice ep.conn step
      rw [Ran.Sound, hr] at h
      exact h.1
    rw [Acted.after, ← List.append_assoc]
    exact failClosed_bind _ (answered_greetdEvents ha _) fun hc => by simp [hopen] at hc
  | @spawned ep reply spawn out r r' cmd f hrel hcmd hs hsend =>
    intro tr _ ha hm
    obtain ⟨hc, hact⟩ := hm
    obtain ⟨-, rfl, -⟩ := startSession_cases hs
    exact ⟨ha.snoc trivial, fun h => absurd h hact, by simp [hc], by simp [hc], by simp [hc]⟩

/-! ## One call -/

theorem BindInv.outcome {ep : BrokerEpisode} {tr : List EpisodeEvent} (h : BindInv ep tr)
    (o : EpisodeOutcome) : BindInv ep (tr ++ [EpisodeEvent.outcome o]) := by
  have hm := mute_outcome o
  refine ⟨h.answers.snoc trivial, fun ha => hm.bound (h.bound ha), h.idle,
    fun hc hw => hm.base (h.base hc hw), fun hc hw => ?_⟩
  obtain ⟨r, hrel, htalk, hauth⟩ := h.settled hc hw
  refine ⟨r, hrel, hm.talk htalk, fun hp => ?_⟩
  obtain ⟨hnd, hs⟩ := hauth hp
  exact ⟨by rwa [hm.decided_iff], hm.settled hs⟩

/-- The demand of feeding an open connection without a relay. -/
theorem asked_of_first_feed {fromSlice : List UInt8 → Option Request} {ep : BrokerEpisode}
    {tr : List EpisodeEvent} {bytes : List UInt8} {o : Outcome} (hc : ep.conn.closed = false)
    (hw : ep.conn.awaitingPam = false) (hrel : ep.relay = none) (hidle : ep.conn.state = .idle)
    (hbase : Base none ep.pendingChallenges tr)
    (hres : (ep.conn.feedGreeter fromSlice bytes).res = .ok o) :
    Asked { ep with conn := (ep.conn.feedGreeter fromSlice bytes).conn }
      (tr ++ greetdEvents (ep.conn.feedGreeter fromSlice bytes)) o.demand := by
  generalize hran : ep.conn.feedGreeter fromSlice bytes = ran at hres
  have hsound : ran.Sound := hran ▸ (feedGreeter_sound fromSlice ep.conn bytes).1
  have hst := feedGreeter_idle fromSlice hc hw hidle bytes
  rw [hran] at hst
  obtain ⟨es, hes, hcase⟩ : ran.Shaped [] := hran ▸ feedGreeter_shaped fromSlice ep.conn bytes
  have hmute := mute_asides hes
  rcases hcase with ⟨hev, hno⟩ | ⟨reply, req, response, hev, hres', hreq⟩ |
    ⟨reply, cmd, env, s, hev, hres', hst'⟩
  · have hidle' : ran.conn.state = .idle := by
      rcases hst with ⟨h, -⟩ | ⟨reply', u, h, -⟩
      · exact h
      · exact absurd h ((hno reply').1 none)
    have heq : tr ++ greetdEvents ran =
        tr ++ (es.map .greetd ++ [EpisodeEvent.greetd ran.result]) := by
      simp [greetdEvents, hev]
    have hb := (hmute.append (mute_result ran)).base hbase
    rw [← heq] at hb
    obtain ⟨reply, d⟩ := o
    rw [Ran.Sound, hres] at hsound
    cases d with
    | «continue» => exact ⟨hsound.1, hsound.2, fun _ => hidle', by rw [hrel]; exact hb⟩
    | pam response => exact absurd hres ((hno reply).1 response)
    | spawn s => exact absurd hres ((hno reply).2 s)
    | close => exact ⟨hsound, fun hact => by simp [hidle', Active] at hact⟩
  · obtain rfl : o = ⟨reply, .pam response⟩ := by rw [hres] at hres'; exact Except.ok.inj hres'
    rw [Ran.Sound, hres] at hsound
    refine ⟨hsound.1, hsound.2, tr ++ es.map .greetd, reply, req, ?_,
      by rw [hrel]; exact hmute.base hbase, ?_⟩
    · simp [greetdEvents, hev, Ran.result, hres]
    · -- from `Idle` the suspending request is a `CreateSession`
      rcases hreq with rfl | ⟨u, rfl, rfl, hst'⟩
      · rcases hst with ⟨-, h⟩ | ⟨reply', u, -, hm⟩
        · exact absurd hres (h reply response)
        · rw [hev] at hm
          simp only [List.nil_append, List.mem_append, List.mem_singleton] at hm
          rcases hm with hm | hm
          · rcases hes _ hm with ⟨r, h⟩ | ⟨req, err, h⟩ <;> simp at h
          · simp at hm
      · exact .inr ⟨u, rfl, rfl, hst'⟩
  · rcases hst with ⟨h, -⟩ | ⟨reply', u, h, -⟩
    · simp [h] at hst'
    · simp [hres'] at h

/-- A call on a closed connection changes no round. -/
theorem closed_bind {ep ep' : BrokerEpisode} {tr es : List EpisodeEvent} (h : BindInv ep tr)
    (hc : ep.conn.closed = true) (hc' : ep'.conn = ep.conn) (hb : begins es = [])
    (hcr : creates es = []) (hes : ∀ e ∈ es, ∀ text, e ≠ .sent (.convResponse text)) :
    BindInv ep' (tr ++ es) := by
  rw [← hc'] at hc
  refine ⟨Always.answered_greetd h.answers hes, fun ha => ?_, by simp [hc], by simp [hc],
    by simp [hc]⟩
  rw [hc'] at ha
  obtain ⟨service, u, h1, h2⟩ := h.bound ha
  exact ⟨service, u, by simp [h1, hb], by simp [h2, hcr]⟩

/-- A call that failed with a codec error gave the machine asides alone. -/
theorem mute_of_error {ran : Ran} {e : Framing.CodecError} (hsh : ran.Shaped [])
    (hres : ran.res = .error e) : Mute (greetdEvents ran) := by
  obtain ⟨es, hes, ⟨hev, -⟩ | ⟨_, _, _, -, h, -⟩ | ⟨_, _, _, _, -, h, -⟩⟩ := hsh
  · have heq : greetdEvents ran = es.map .greetd ++ [EpisodeEvent.greetd ran.result] := by
      simp [greetdEvents, hev]
    rw [heq]
    exact (mute_asides hes).append (mute_result ran)
  · simp [hres] at h
  · simp [hres] at h

/-- Greeter bytes keep the invariant on an orderly trace. -/
theorem onGreeterBytes_bind {fromSlice : List UInt8 → Option Request} {env : Env}
    {ep : BrokerEpisode} {tr : List EpisodeEvent} {bytes : List UInt8} (h : BindInv ep tr)
    (hord : Always Orderly (tr ++ (ep.onGreeterBytes fromSlice env bytes).events)) :
    BindInv (ep.onGreeterBytes fromSlice env bytes).ep
      (tr ++ (ep.onGreeterBytes fromSlice env bytes).events) := by
  have hsh := feedGreeter_shaped fromSlice ep.conn bytes
  have hsound := (feedGreeter_sound fromSlice ep.conn bytes).1
  have hans := answered_greetdEvents h.answers (ep.conn.feedGreeter fromSlice bytes)
  rcases onGreeterBytes_cases fromSlice env ep bytes with
    ⟨e, hres, heq⟩ | ⟨o, acted, hres, hacts, heq⟩
  · -- a codec error: the connection is open and not suspended, before and after
    have hmute := mute_of_error hsh hres
    rw [Ran.Sound, hres] at hsound
    have hopen : ep.conn.closed = false := by
      cases hc : ep.conn.closed with
      | false => rfl
      | true => simp [feedGreeter_closed hc] at hres
    have hw : ep.conn.awaitingPam = false := by
      rcases feedGreeter_cases fromSlice hopen bytes with ⟨-, reply, heq'⟩ | ⟨hw, -⟩ | ⟨hw, -⟩
      · simp [heq'] at hres
      · exact hw
      · exact hw
    have hbase := hmute.base (h.base hopen hw)
    have hidle : ep.relay = none →
        (ep.conn.feedGreeter fromSlice bytes).conn.state = .idle := by
      intro hrel
      rcases feedGreeter_idle fromSlice hopen hw (h.idle hopen hrel) bytes with
        ⟨hst, -⟩ | ⟨reply, u, hst, -⟩
      · exact hst
      · simp [hres] at hst
    rw [heq]
    refine ⟨hans, fun hact => ?_, fun _ => hidle, fun _ _ => hbase, fun _ hw' => ?_⟩
    · cases hrel : ep.relay with
      | none => simp [hidle hrel, Active] at hact
      | some r =>
        rw [hrel] at hbase
        exact hbase.1.bound
    · simp [hsound.2] at hw'
  · rw [heq, Acted.after, ← List.append_assoc] at hord ⊢
    refine acts_bind hacts _ hord hans ?_
    by_cases hc : ep.conn.closed = true
    · rw [feedGreeter_closed hc] at hres ⊢
      cases hres
      exact ⟨hc, fun hact => (mute_returned _).bound (h.bound hact)⟩
    have hopen : ep.conn.closed = false := by simpa using hc
    by_cases hw : ep.conn.awaitingPam = true
    · rcases feedGreeter_cases fromSlice hopen bytes with ⟨-, reply, heq'⟩ | ⟨hw', -⟩ | ⟨hw', -⟩
      · rw [heq'] at hres ⊢
        cases hres
        exact ⟨rfl, fun hact => (mute_returned _).bound (h.bound hact)⟩
      · simp [hw] at hw'
      · simp [hw] at hw'
    have hw : ep.conn.awaitingPam = false := by simpa using hw
    have hbase := h.base hopen hw
    rcases Option.eq_none_or_eq_some ep.relay with hrel | ⟨r, hrel⟩
    · rw [hrel] at hbase
      exact asked_of_first_feed hopen hw hrel (h.idle hopen hrel) hbase hres
    · rw [hrel] at hbase
      exact asked_of_ran hsh hsound hres rfl hrel (by simpa using hbase)

/-- What an accepted frame of the authentication does to the relay. -/
theorem received_relay {r r' : BrokerRelay} {frame : BrokerToCompositor} {step : PamStep}
    {tr : List EpisodeEvent} (htalk : Talk r tr)
    (hf : r.onBrokerFrame frame = .ok (.pam step, r')) :
    Talk r' (tr ++ [EpisodeEvent.received frame]) ∧ r.phase = .authing ∧
      ((challengeOf frame = some step ∧ isDecision frame = false ∧
          r'.pendingResponses = r.pendingResponses ++ [tagOf frame]) ∨ r'.phase ≠ .authing) := by
  have hkeep : ∀ r₂ : BrokerRelay, r₂.service = r.service → r₂.username = r.username →
      r₂.phase ≠ .preAuth → Talk r₂ (tr ++ [EpisodeEvent.received frame]) := by
    intro r₂ h1 h2 h3
    refine ⟨?_, ?_, h3⟩
    · rw [begins_append, htalk.begun, h1, h2]
      rfl
    · rw [creates_append, h2]
      simpa [creates] using htalk.created
  rcases onBrokerFrame_cases hf with ⟨hp, style, message, rfl, hev, rfl⟩ |
    ⟨hp, style, message, rfl, hev, rfl⟩ | ⟨hp, n, uid, gid, rfl, hev, rfl⟩ |
    ⟨hp, reason, rfl, hev, rfl⟩ | ⟨-, -, hev, -⟩ | ⟨-, outcome, -, hev, -⟩
  · cases hev
    exact ⟨hkeep _ rfl rfl (by simp [hp]), hp, .inl ⟨rfl, rfl, rfl⟩⟩
  · cases hev
    exact ⟨hkeep _ rfl rfl (by simp [hp]), hp, .inl ⟨rfl, rfl, rfl⟩⟩
  · exact ⟨hkeep _ rfl rfl (by simp), hp, .inr (by simp)⟩
  · exact ⟨hkeep _ rfl rfl (by simp), hp, .inr (by simp)⟩
  · simp at hev
  · simp at hev

/-- A conversation frame as the trace records it. -/
theorem received_projections {frame : BrokerToCompositor} {step : PamStep}
    (hch : challengeOf frame = some step) (hdec : isDecision frame = false) :
    convs [.received frame] = [frame] ∧ shown [.received frame] = [] ∧
      responses [.received frame] = 0 ∧ ¬ Decided [.received frame] := by
  refine ⟨by simp [convs, isConv, hch], rfl, rfl, ?_⟩
  simp [Decided, hdec]

/-- A frame that arrives while the greetd machine is suspended is shown at once. -/
theorem base_of_shown {r r' : BrokerRelay} {frame : BrokerToCompositor} {step : PamStep}
    {queue : List PamStep} {tr : List EpisodeEvent} (htalk : Talk r tr)
    (hset : r.phase = .authing → ¬ Decided tr ∧ Settled r queue tr)
    (hf : r.onBrokerFrame frame = .ok (.pam step, r')) :
    Base (some r') queue
      (tr ++ [EpisodeEvent.received frame] ++ [ConnEvent.resumed step].map .greetd) := by
  obtain ⟨htalk', hp, hcase⟩ := received_relay htalk hf
  have hg := greetd_projections [ConnEvent.resumed step]
  have htalk'' : Talk r'
      (tr ++ [EpisodeEvent.received frame] ++ [ConnEvent.resumed step].map .greetd) :=
    ⟨by rw [begins_append, hg.2.1, List.append_nil]; exact htalk'.begun,
      by simpa [creates] using htalk'.created, htalk'.phase⟩
  refine ⟨htalk'', fun hp' => ?_⟩
  rcases hcase with ⟨hch, hdec, htags⟩ | hp''
  · obtain ⟨hc1, hs1, hr1, hd1⟩ := received_projections hch hdec
    obtain ⟨hnd, hpr, hq, hsh, hcnt⟩ := hset hp
    obtain ⟨kind, prompt, rfl⟩ : ∃ kind prompt, step = .challenge kind prompt := by
      cases frame <;> simp [challengeOf] at hch <;> exact ⟨_, _, hch.symm⟩
    refine ⟨by simp only [decided_append, not_or]; exact ⟨⟨hnd, hd1⟩, hg.2.2.2⟩,
      convs tr, frame, [], ?_, ?_, by simp [hq], by simp [htags, hpr], ?_, by simp⟩
    · rw [convs_append, convs_append, hc1, hg.1, List.append_nil]
    · rw [List.map_append, hsh, shown_append, shown_append, hs1]
      simp [shown, hch]
    · rw [responses_append, responses_append, hr1, hg.2.2.1, hcnt, Nat.add_zero]
  · exact absurd hp' hp''

/-- A frame that arrives before the greeter answered waits in the queue. -/
theorem base_of_queued {r r' : BrokerRelay} {frame : BrokerToCompositor} {step : PamStep}
    {queue : List PamStep} {tr : List EpisodeEvent} (hbase : Base (some r) queue tr)
    (hord : Orderly tr (.received frame)) (hf : r.onBrokerFrame frame = .ok (.pam step, r')) :
    Base (some r') (queue ++ [step]) (tr ++ [EpisodeEvent.received frame]) := by
  obtain ⟨htalk', hp, hcase⟩ := received_relay hbase.1 hf
  refine ⟨htalk', fun hp' => ?_⟩
  rcases hcase with ⟨hch, hdec, htags⟩ | hp''
  · obtain ⟨hc1, hs1, hr1, hd1⟩ := received_projections hch hdec
    obtain ⟨hnd, before, f, after, h1, h2, h3, h4, h5, h6⟩ := hbase.2 hp
    -- every prompt is answered, so none is among the frames that wait
    have hnone : (f :: after).countP isPrompt = 0 := by
      have := hord (by simp [isConv, hch])
      rw [h1, List.countP_append, h5] at this
      omega
    refine ⟨by rw [decided_append]; simp [hnd, hd1], before, f, after ++ [frame],
      ?_, ?_, ?_, ?_, ?_,
      ?_⟩
    · rw [convs_append, h1, hc1, List.append_assoc, List.cons_append]
    · rw [shown_append, hs1, List.append_nil, h2]
    · rw [List.map_append, List.map_append, h3]
      simp [hch]
    · rw [htags, h4]
      simp
    · rw [responses_append, hr1, h5]
      simp
    · intro g hg
      rw [← List.cons_append, List.dropLast_concat] at hg
      simpa using List.countP_eq_zero.mp hnone g hg
  · exact absurd hp' hp''

/-- A readable broker channel keeps the invariant on an orderly trace. -/
theorem onBrokerReadable_bind {fromSlice : List UInt8 → Option Request} {env : Env}
    {ep : BrokerEpisode} {tr : List EpisodeEvent} {recv : Recv} (h : BindInv ep tr)
    (hl : LaunchInv fromSlice ep tr)
    (hord : Always Orderly (tr ++ (ep.onBrokerReadable fromSlice env recv).events)) :
    BindInv (ep.onBrokerReadable fromSlice env recv).ep
      (tr ++ (ep.onBrokerReadable fromSlice env recv).events) := by
  rcases onBrokerReadable_cases fromSlice env ep recv with
    ⟨heq, -⟩ | heq | ⟨frame, fd, r, ev, r', -, hrel, hf, hcase⟩
  · rw [heq]
    simpa using h
  · rw [heq]
    exact failClosed_bind _ h.answers fun _ => h.bound
  have hans : Always Answered (tr ++ [EpisodeEvent.received frame]) := h.answers.snoc trivial
  have hkeep : ep.conn.closed = true → ∀ ep' : BrokerEpisode, ep'.conn = ep.conn →
      BindInv ep' (tr ++ [EpisodeEvent.received frame]) :=
    fun hc ep' hc' => closed_bind h hc hc' rfl rfl (by simp)
  -- a lifecycle frame comes when the connection is over
  have hlife : r.phase = .starting ∨ r.phase = .running → ep.conn.closed = true :=
    hl.core.running r hrel
  rcases hcase with ⟨step, rfl, hready, heq⟩ | ⟨step, e, rfl, hready, hres, heq⟩ |
    ⟨step, o, acted, rfl, hready, hres, hacts, heq⟩ | ⟨rfl, heq⟩ | ⟨outcome, rfl, heq⟩
  · rw [heq] at hord ⊢
    by_cases hc : ep.conn.closed = true
    · exact hkeep hc _ rfl
    have hopen : ep.conn.closed = false := by simpa using hc
    have hw : ep.conn.awaitingPam = false := by rw [← hl.mirror hopen, hready]
    have hb := h.base hopen hw
    rw [hrel] at hb
    have hb' := base_of_queued hb hord.last hf
    refine ⟨hans, fun _ => hb'.1.bound, by simp, fun _ _ => hb', fun _ hw' => ?_⟩
    simp [hw] at hw'
  · have hsound := resumePam_sound fromSlice ep.conn step
    rw [Ran.Sound, hres] at hsound
    rw [heq, Acted.after, ← List.append_assoc, ← List.singleton_append, ← List.append_assoc]
    exact failClosed_bind _ (answered_greetdEvents hans _) fun hc => by simp [hsound.1] at hc
  · rw [heq, Acted.after, ← List.append_assoc, ← List.singleton_append, ← List.append_assoc]
      at hord ⊢
    refine acts_bind hacts _ hord (answered_greetdEvents hans _) ?_
    by_cases hc : ep.conn.closed = true
    · rw [resumePam_closed hc] at hres ⊢
      cases hres
      refine ⟨hc, fun hact => ?_⟩
      obtain ⟨service, u, h1, h2⟩ := h.bound hact
      refine ⟨service, u, ?_, ?_⟩
      · rw [begins_append, begins_append, h1]
        rfl
      · rw [creates_append, creates_append, ← h2]
        exact congrArg List.getLast? (by simp [creates, greetdEvents, Ran.result])
    have hopen : ep.conn.closed = false := by simpa using hc
    have hw : ep.conn.awaitingPam = true := by rw [← hl.mirror hopen, hready]
    obtain ⟨r₀, hrel', htalk, hset⟩ := h.settled hopen hw
    obtain rfl : r = r₀ := by simpa [hrel] using hrel'
    exact asked_of_ran (resumePam_shaped _ _ _) (resumePam_sound _ _ _) hres rfl rfl
      (base_of_shown htalk hset hf)
  · rw [heq]
    exact hkeep (hlife (.inl (onBrokerFrame_sessionOpened hf).1)) _ rfl
  · rw [heq]
    exact hkeep (hlife (.inr (onBrokerFrame_sessionEnded hf).1)) _ rfl

/-- **One call keeps the invariant** on an orderly trace. -/
theorem bind_step (fromSlice : List UInt8 → Option Request) (ep : BrokerEpisode)
    (tr : List EpisodeEvent) (i : EpisodeInput)
    (h : LaunchInv fromSlice ep tr ∧ (Always Orderly tr → BindInv ep tr)) :
    LaunchInv fromSlice (ep.step fromSlice i).1 (tr ++ (ep.step fromSlice i).2) ∧
      (Always Orderly (tr ++ (ep.step fromSlice i).2) →
        BindInv (ep.step fromSlice i).1 (tr ++ (ep.step fromSlice i).2)) := by
  refine ⟨launch_step ep tr i h.1, fun hord => ?_⟩
  have hb := h.2 hord.of_append
  cases i with
  | greeterBytes env bytes =>
    simp only [BrokerEpisode.step, BrokerEpisode.call, ← List.append_assoc] at hord ⊢
    exact (onGreeterBytes_bind hb hord.of_append).outcome _
  | brokerReadable env recv =>
    simp only [BrokerEpisode.step, BrokerEpisode.call, ← List.append_assoc] at hord ⊢
    exact (onBrokerReadable_bind hb h.1 hord.of_append).outcome _

theorem bind_new (service : String) : BindInv (BrokerEpisode.new service) [] := by
  refine ⟨always_nil _, fun hact => ?_, fun _ _ => rfl, fun _ _ => ?_, ?_⟩
  · exact absurd hact id
  · exact ⟨rfl, rfl, rfl, rfl, by simp [Decided], rfl⟩
  · simp [BrokerEpisode.new, Connection.new]

/-! ## Whole runs -/

/-- **Rounds stay with their conversation.** On every run whose events are all orderly, every
`ConvResponse` sent is the greeter's answer to the prompt the broker waits on, and in every state
reached a round or an authenticated state belongs to the user the conversation was begun for. -/
theorem orderly_run_bound (fromSlice : List UInt8 → Option Request) (service : String)
    (inputs : List EpisodeInput)
    (hord : Always Orderly
      (run (BrokerEpisode.step fromSlice) (BrokerEpisode.new service) inputs).2) :
    let s := run (BrokerEpisode.step fromSlice) (BrokerEpisode.new service) inputs
    Always Answered s.2 ∧ (Active s.1.conn.state → Bound s.2) := by
  have h := run_invariant_init
    (fun ep tr => LaunchInv fromSlice ep tr ∧ (Always Orderly tr → BindInv ep tr))
    ⟨launch_new service, fun _ => bind_new service⟩ (bind_step fromSlice) inputs
  exact ⟨(h.2 hord).answers, (h.2 hord).bound⟩

/-- The frames of a greeter's requests, back to back. -/
def greeterFrames (ms : List Request) : List UInt8 := ms.flatMap fun m => m.encode.toOption.getD []

/-- Every program exists and every send succeeds. -/
def quietEnv : Env := ⟨fun _ => true, true⟩

/-- `alice` answers her prompt and is let in. -/
def plainLogin : List EpisodeInput :=
  [.greeterBytes quietEnv (greeterFrames [.createSession "alice"]),
    .brokerReadable quietEnv (.ok (some (.convPrompt .secret "Password: ", none))),
    .greeterBytes quietEnv (greeterFrames [.postAuthMessageResponse (some "hunter2")]),
    .brokerReadable quietEnv (.ok (some (.success "alice" 1000 100, none)))]

theorem plainLogin_bound :
    let s := run (BrokerEpisode.step readRequest) (BrokerEpisode.new "halmasuit") plainLogin
    .sent (.convResponse "hunter2") ∈ s.2 ∧ Always Answered s.2 ∧ Active s.1.conn.state ∧
      Bound s.2 := by
  have h := orderly_run_bound readRequest "halmasuit" plainLogin (by decide +kernel)
  have hst : (run (BrokerEpisode.step readRequest) (BrokerEpisode.new "halmasuit")
      plainLogin).1.conn.state = .authSuccess "alice" 1000 100 := by decide +kernel
  have hact : Active (run (BrokerEpisode.step readRequest) (BrokerEpisode.new "halmasuit")
      plainLogin).1.conn.state := by rw [hst]; trivial
  exact ⟨by decide +kernel, h.1, hact, h.2 hact⟩

/-- `alice` cancels at her password prompt, and `bob` logs in before the broker decided. -/
def cancelThenCreate : List EpisodeInput :=
  [.greeterBytes quietEnv (greeterFrames [.createSession "alice"]),
    .brokerReadable quietEnv (.ok (some (.convPrompt .secret "Password: ", none))),
    .greeterBytes quietEnv (greeterFrames [.cancelSession]),
    .greeterBytes quietEnv (greeterFrames [.createSession "bob"])]

/-- On that run the prompt of `alice` is answered by the `CreateSession` of `bob`, whose round then
runs on her conversation. -/
theorem cancel_then_create_answers_prompt :
    let s := run (BrokerEpisode.step readRequest) (BrokerEpisode.new "halmasuit") cancelThenCreate
    ¬ Always Answered s.2 ∧ Active s.1.conn.state ∧ ¬ Bound s.2 := by
  intro s
  have hst : s.1.conn.state = .authPending "bob" := by decide +kernel
  have hbegins : begins s.2 = [("halmasuit", "alice")] := by decide +kernel
  have hcreates : (creates s.2).getLast? = some "bob" := by decide +kernel
  refine ⟨fun h => ?_, by rw [hst]; trivial, ?_⟩
  · -- the event two before the send is no response
    have hsent : s.2.take 13 ++ .sent (.convResponse "") :: s.2.drop 14 = s.2 := by decide +kernel
    have hbefore : (s.2.take 13).dropLast.getLast?
        = some (.greetd (.accepted (.createSession "bob") (.pam none))) := by decide +kernel
    obtain ⟨-, a, reply, response, hpre, -⟩ := h _ _ _ hsent.symm
    rw [hpre, List.dropLast_append_of_ne_nil (by simp)] at hbefore
    simp at hbefore
  · rintro ⟨service, u, h, h'⟩
    rw [hbegins] at h
    rw [hcreates] at h'
    simp only [List.cons.injEq, Prod.mk.injEq, and_true] at h
    rw [← h.2] at h'
    exact absurd h' (by decide)

end Halmasuit.Compositor
