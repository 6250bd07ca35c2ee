import Halmasuit.Compositor.Exchange

/-!
# After an episode has terminated

`EpisodeOutcome::terminate` says the whole episode is over. It is raised by a codec error, a closed
greetd connection, an error of the relay or the channel, and `SessionEnded`, and each leaves other
fields behind; the relay is poisoned by `fail_closed` alone.

What must not happen afterwards is a frame to the broker, a spawn or a `session_opened`. The relay
passes `SessionOpened` on in `Starting` and nowhere else, and it is in `Starting` only when the
greetd connection has closed (`EpisodeInv.spawned`). Greeter bytes that come in there close nothing
more and poison nothing: they terminate the episode and leave the relay as it was.

- `inert_call`: an episode that is `Inert` stays so and every call is silent;
- `terminate_inert`: a call that terminates leaves the episode inert, unless it was greeter bytes in
  `Starting`;
- **`terminate_absorbing_iff`**: on every run, termination is absorbing exactly when no greeter bytes
  are fed in `Starting`.
-/

namespace Halmasuit.Compositor

open Halmasuit.Lib
open Halmasuit.Greetd
open Halmasuit.SessionIpc

variable {fromSlice : List UInt8 → Option Request} {env : Env}

/-! ## Silence -/

/-- A call that sends no frame, spawns nothing and reports no open session. -/
def Acted.Silent (a : Acted) : Prop :=
  sentFrames a.events = [] ∧ a.out.spawned = none ∧ a.out.sessionOpened = false

/-- The relay is where `SessionOpened` is passed on. -/
def BrokerEpisode.Starting (ep : BrokerEpisode) : Prop :=
  ∃ r, ep.relay = some r ∧ r.phase = .starting

/-- An episode that nothing can move to a launch or an open session: the relay is not in
`Starting`, and the greetd connection is closed, or stuck at bytes it refuses with no round
outstanding. -/
structure Inert (fromSlice : List UInt8 → Option Request) (ep : BrokerEpisode) : Prop where
  relay : ¬ ep.Starting
  conn : ep.conn.closed = true ∨
    (ep.conn.Stuck fromSlice ∧ ep.greetdReadyForChallenge = false)

theorem not_starting_of_phase {ep : BrokerEpisode} {r : BrokerRelay} (hrel : ep.relay = some r)
    (hp : r.phase ≠ .starting) : ¬ ep.Starting := by
  rintro ⟨r', hr', hs⟩
  obtain rfl : r = r' := Option.some.inj (hrel.symm.trans hr')
  exact hp hs

theorem Acted.Silent.after {a : Acted} (h : a.Silent) {es : List EpisodeEvent}
    (hes : sentFrames es = []) : (a.after es).Silent :=
  ⟨by simp [Acted.after, hes, h.1], h.2⟩

theorem sentFrames_received (f : BrokerToCompositor) (es : List EpisodeEvent) :
    sentFrames (.received f :: es) = sentFrames es := rfl

/-- `fail_closed` poisons the relay and closes the connection. -/
theorem failClosed_inert (ep : BrokerEpisode) (out : EpisodeOutcome) :
    Inert fromSlice (ep.failClosed out).ep := by
  refine ⟨?_, .inl (brokerClosed_isClosed ep.conn).1⟩
  rintro ⟨r, hr, hs⟩
  obtain ⟨r₀, -, rfl⟩ := Option.map_eq_some_iff.mp hr
  simp [BrokerRelay.poison] at hs

theorem failClosed_silent (ep : BrokerEpisode) :
    (ep.failClosed EpisodeOutcome.default).Silent := by
  refine ⟨?_, rfl, rfl⟩
  show sentFrames (greetdEvents ep.conn.brokerClosed) = []
  exact sentFrames_greetdEvents _

/-- A `Close` terminates the episode and does nothing else. -/
theorem acts_close {ep : BrokerEpisode} {reply : List UInt8} {out : EpisodeOutcome} {acted : Acted}
    (h : Acts fromSlice env ep reply .close out acted) :
    acted = ⟨ep, { out with greeterReply := out.greeterReply ++ reply, terminate := true }, []⟩ := by
  cases h with
  | close => rfl
  | failed _ _ hd => exact absurd rfl hd

/-! ## An inert episode -/

theorem inert_greeterBytes {ep : BrokerEpisode} (h : Inert fromSlice ep) (bytes : List UInt8) :
    Inert fromSlice (ep.onGreeterBytes fromSlice env bytes).ep ∧
      (ep.onGreeterBytes fromSlice env bytes).Silent := by
  rcases h.conn with hc | ⟨hstuck, hready⟩
  · -- a closed connection answers `Close`
    have hfeed := @feedGreeter_closed fromSlice _ hc bytes
    rcases onGreeterBytes_cases fromSlice env ep bytes with ⟨e, hr, -⟩ | ⟨o, acted, hr, hacts, heq⟩
    · simp [hfeed] at hr
    · rw [hfeed] at hr hacts
      obtain rfl : (⟨[], .close⟩ : Outcome) = o := Except.ok.inj hr
      obtain rfl := acts_close hacts
      rw [heq]
      refine ⟨⟨h.relay, .inl hc⟩, Acted.Silent.after ⟨rfl, rfl, rfl⟩ ?_⟩
      exact sentFrames_greetdEvents _
  · -- a stuck one refuses whatever more it is fed
    obtain ⟨⟨e, he⟩, hstuck'⟩ := feedGreeter_stuck hstuck bytes
    rcases onGreeterBytes_cases fromSlice env ep bytes with ⟨e', -, heq⟩ | ⟨o, acted, hr, -⟩
    · rw [heq]
      exact ⟨⟨h.relay, .inr ⟨hstuck', hready⟩⟩, sentFrames_greetdEvents _, rfl, rfl⟩
    · simp [he] at hr

theorem inert_brokerReadable {ep : BrokerEpisode} (h : Inert fromSlice ep) (recv : Recv) :
    Inert fromSlice (ep.onBrokerReadable fromSlice env recv).ep ∧
      (ep.onBrokerReadable fromSlice env recv).Silent := by
  rcases onBrokerReadable_cases fromSlice env ep recv with ⟨heq, -⟩ | heq |
    ⟨frame, fd, r, ev, r', -, hrel, hf, hcase⟩
  · rw [heq]
    exact ⟨h, rfl, rfl, rfl⟩
  · rw [heq]
    exact ⟨failClosed_inert _ _, failClosed_silent _⟩
  have hr' : r'.phase ≠ .starting := onBrokerFrame_phase hf
  rcases hcase with ⟨step, -, hready, heq⟩ | ⟨step, e, -, hready, hr, heq⟩ |
    ⟨step, o, acted, -, hready, hr, hacts, heq⟩ | ⟨rfl, heq⟩ | ⟨outcome, -, heq⟩
  · -- the challenge is queued
    rw [heq]
    refine ⟨⟨not_starting_of_phase rfl hr', ?_⟩, rfl, rfl, rfl⟩
    exact h.conn.imp id fun hs => ⟨hs.1, hready⟩
  · rw [heq]
    refine ⟨failClosed_inert _ EpisodeOutcome.default,
      Acted.Silent.after (failClosed_silent _) ?_⟩
    rw [sentFrames_received, sentFrames_greetdEvents]
  · -- the flag is up, so the connection is closed and answers `Close`
    have hc : ep.conn.closed = true := h.conn.resolve_right fun hs => by simp [hready] at hs
    rw [resumePam_closed hc] at hr hacts heq
    obtain rfl : (⟨[], .close⟩ : Outcome) = o := Except.ok.inj hr
    obtain rfl := acts_close hacts
    rw [heq]
    refine ⟨⟨not_starting_of_phase rfl hr', .inl hc⟩, Acted.Silent.after ⟨rfl, rfl, rfl⟩ ?_⟩
    rw [sentFrames_received, sentFrames_greetdEvents]
  · exact absurd ⟨r, hrel, (onBrokerFrame_sessionOpened hf).1⟩ h.relay
  · rw [heq]
    refine ⟨⟨not_starting_of_phase rfl hr', h.conn⟩, rfl, rfl, rfl⟩

/-- **An inert episode stays inert, and every call is silent.** -/
theorem inert_call {ep : BrokerEpisode} (h : Inert fromSlice ep) (i : EpisodeInput) :
    Inert fromSlice (ep.call fromSlice i).ep ∧ (ep.call fromSlice i).Silent := by
  cases i with
  | greeterBytes env bytes => exact inert_greeterBytes h bytes
  | brokerReadable env recv => exact inert_brokerReadable h recv

/-! ## What terminates an episode -/

/-- What every reachable episode satisfies: a launched session's greetd connection has closed, and
the ready flag is up only while a round is outstanding or the connection has closed. -/
structure EpisodeInv (ep : BrokerEpisode) : Prop where
  spawned : ∀ r, ep.relay = some r → r.phase = .starting ∨ r.phase = .running →
    ep.conn.closed = true
  ready : ep.greetdReadyForChallenge = true → ep.conn.closed = true ∨ ep.conn.awaitingPam = true

/-- The flags of the connection a demand comes from (`Ran.Sound`). -/
def DemandOf (c : Connection) : Demand → Prop
  | .continue => c.closed = false ∧ c.awaitingPam = false
  | .pam _ => c.closed = false ∧ c.awaitingPam = true
  | .spawn _ => c.closed = true
  | .close => c.closed = true

theorem demandOf_sound {r : Ran} (h : r.Sound) {o : Outcome} (ho : r.res = .ok o) :
    DemandOf r.conn o.demand := by
  obtain ⟨reply, demand⟩ := o
  rw [Ran.Sound, ho] at h
  cases demand <;> exact h

theorem failClosed_inv (ep : BrokerEpisode) (out : EpisodeOutcome) :
    EpisodeInv (ep.failClosed out).ep :=
  ⟨fun _ _ _ => (brokerClosed_isClosed ep.conn).1, fun _ => .inl (brokerClosed_isClosed ep.conn).1⟩

/-- The relay a PAM demand leaves behind waits for the broker. -/
theorem onPamStep_phase {r r' : BrokerRelay} {response : Option String}
    {f : Option CompositorToBroker} (h : r.onPamStep response = .ok (f, r')) :
    r'.phase = .authing := by
  rcases onPamStep_cases h with ⟨-, -, rfl⟩ | ⟨hp, -, rest, -, rfl⟩ | ⟨hp, -, rest, -, rfl⟩
  · rfl
  · exact hp
  · exact hp

/-- **Acting on a demand**: the invariant is kept, and what terminates leaves the episode inert. -/
theorem acts_inv {ep : BrokerEpisode} {reply : List UInt8} {demand : Demand} {out : EpisodeOutcome}
    {acted : Acted} (h : Acts fromSlice env ep reply demand out acted) (hinv : EpisodeInv ep)
    (hd : DemandOf ep.conn demand) :
    EpisodeInv acted.ep ∧ (¬ ep.Starting → out.terminate = false → acted.out.terminate = true →
      Inert fromSlice acted.ep) := by
  induction h with
  | «continue» => exact ⟨hinv, fun _ ho ht => by simp [ho] at ht⟩
  | close => exact ⟨hinv, fun hs _ _ => ⟨hs, .inl hd⟩⟩
  | failed => exact ⟨failClosed_inv _ _, fun _ _ _ => failClosed_inert _ _⟩
  | @sent ep reply response out f r hs _ =>
    refine ⟨⟨fun r' hr' hp => ?_, fun _ => .inr hd.2⟩, fun _ ho ht => by simp [ho] at ht⟩
    obtain rfl : r = r' := Option.some.inj hr'
    simp [onPamStep_phase hs] at hp
  | @swallowed ep reply response out r hs _ =>
    refine ⟨⟨fun r' hr' hp => ?_, fun _ => .inr hd.2⟩, fun _ ho ht => by simp [ho] at ht⟩
    obtain rfl : r = r' := Option.some.inj hr'
    simp [onPamStep_phase hs] at hp
  | @flushed ep reply response out r step rest o acted hs _ hr _ ih =>
    have hp := onPamStep_phase hs
    have hnext := ih ⟨fun r' hr' hp' => by
        obtain rfl : r = r' := Option.some.inj hr'
        simp [hp] at hp', by simp⟩
      (demandOf_sound (resumePam_sound fromSlice ep.conn step) hr)
    exact ⟨hnext.1, fun _ ho ht => hnext.2 (not_starting_of_phase rfl (by simp [hp])) ho ht⟩
  | flushFailed =>
    exact ⟨failClosed_inv _ EpisodeOutcome.default,
      fun _ _ _ => failClosed_inert _ EpisodeOutcome.default⟩
  | spawned => exact ⟨⟨fun _ _ _ => hd, fun _ => .inl hd⟩, fun _ ho ht => by simp [ho] at ht⟩

/-- Bytes fed to a connection that is closed or waits close it or leave it closed. -/
theorem feedGreeter_closes {c : Connection} (h : c.closed = true ∨ c.awaitingPam = true)
    (bytes : List UInt8) : (c.feedGreeter fromSlice bytes).conn.closed = true := by
  by_cases hc : c.closed = true
  · rw [feedGreeter_closed hc]
    exact hc
  have ha := h.resolve_left hc
  rcases feedGreeter_cases fromSlice (by simpa using hc) bytes with
    ⟨-, reply, heq⟩ | ⟨ha', -⟩ | ⟨ha', -⟩
  · rw [heq]
  · simp [ha] at ha'
  · simp [ha] at ha'

theorem fed_inv {ep : BrokerEpisode} (h : EpisodeInv ep) (bytes : List UInt8) :
    EpisodeInv { ep with conn := (ep.conn.feedGreeter fromSlice bytes).conn } :=
  ⟨fun r hr hp => feedGreeter_closes (.inl (h.spawned r hr hp)) bytes,
    fun hready => .inl (feedGreeter_closes (h.ready hready) bytes)⟩

/-- The relay of a resumed round waits for the broker or is past the conversation. -/
theorem resumed_inv (ep : BrokerEpisode) {r r' : BrokerRelay} {frame : BrokerToCompositor}
    {step : PamStep} (hf : r.onBrokerFrame frame = .ok (.pam step, r')) (conn : Connection) :
    EpisodeInv { ep with relay := some r', greetdReadyForChallenge := false, conn := conn } := by
  refine ⟨fun r'' hr'' hp => ?_, by simp⟩
  obtain rfl : r' = r'' := Option.some.inj hr''
  have h1 := onBrokerFrame_phase hf
  have h2 := (onBrokerFrame_pam hf).2
  exact absurd hp (by simp [h1, h2])

/-- **One call.** The invariant is kept, and what terminates leaves the episode inert, unless it
was greeter bytes in `Starting`. -/
theorem call_inv {ep : BrokerEpisode} (h : EpisodeInv ep) (i : EpisodeInput) :
    EpisodeInv (ep.call fromSlice i).ep ∧
      ((∀ env bytes, i = .greeterBytes env bytes → ¬ ep.Starting) →
        (ep.call fromSlice i).out.terminate = true → Inert fromSlice (ep.call fromSlice i).ep) := by
  cases i with
  | greeterBytes env bytes =>
    have hfed := @fed_inv fromSlice _ h bytes
    have hsound := feedGreeter_sound fromSlice ep.conn bytes
    simp only [BrokerEpisode.call]
    rcases onGreeterBytes_cases fromSlice env ep bytes with ⟨e, hr, heq⟩ | ⟨o, acted, hr, hacts, heq⟩
    · rw [heq]
      have hstuck := hsound.2 ⟨e, hr⟩
      refine ⟨hfed, fun hs _ => ⟨hs env bytes rfl, .inr ⟨hstuck, ?_⟩⟩⟩
      by_contra hready
      have := hfed.ready (by simpa using hready)
      simp [hstuck.1, hstuck.2.1] at this
    · rw [heq]
      have hinv := acts_inv hacts hfed (demandOf_sound hsound.1 hr)
      exact ⟨hinv.1, fun hs ht => hinv.2 (hs env bytes rfl) rfl ht⟩
  | brokerReadable env recv =>
    simp only [BrokerEpisode.call]
    rcases onBrokerReadable_cases fromSlice env ep recv with ⟨heq, -⟩ | heq |
      ⟨frame, fd, r, ev, r', -, hrel, hf, hcase⟩
    · rw [heq]
      exact ⟨h, fun _ ht => by simp [EpisodeOutcome.default] at ht⟩
    · rw [heq]
      exact ⟨failClosed_inv _ _, fun _ _ => failClosed_inert _ _⟩
    have hr' : r'.phase ≠ .starting := onBrokerFrame_phase hf
    rcases hcase with ⟨step, rfl, hready, heq⟩ | ⟨step, e, rfl, -, -, heq⟩ |
      ⟨step, o, acted, rfl, -, hr, hacts, heq⟩ | ⟨rfl, heq⟩ | ⟨outcome, rfl, heq⟩
    · rw [heq]
      refine ⟨⟨(resumed_inv ep hf ep.conn).spawned, h.ready⟩, fun _ ht => ?_⟩
      simp [EpisodeOutcome.default] at ht
    · rw [heq]
      exact ⟨failClosed_inv _ EpisodeOutcome.default,
        fun _ _ => failClosed_inert _ EpisodeOutcome.default⟩
    · rw [heq]
      have hinv := acts_inv hacts (resumed_inv ep hf _)
        (demandOf_sound (resumePam_sound fromSlice ep.conn step) hr)
      exact ⟨hinv.1, fun _ ht => hinv.2 (not_starting_of_phase rfl hr') rfl ht⟩
    · rw [heq]
      have hc : ep.conn.closed = true :=
        h.spawned r hrel (.inl (onBrokerFrame_sessionOpened hf).1)
      exact ⟨⟨fun _ _ _ => hc, h.ready⟩, fun _ ht => by simp [EpisodeOutcome.default] at ht⟩
    · rw [heq]
      have hc : ep.conn.closed = true :=
        h.spawned r hrel (.inr (onBrokerFrame_sessionEnded hf).1)
      exact ⟨⟨fun _ _ _ => hc, h.ready⟩, fun _ _ => ⟨not_starting_of_phase rfl hr', .inl hc⟩⟩

theorem new_episodeInv (service : String) : EpisodeInv (BrokerEpisode.new service) :=
  ⟨fun r hr => by simp [BrokerEpisode.new] at hr, fun h => by simp [BrokerEpisode.new] at h⟩

/-! ## Whole runs -/

theorem run_inv (service : String) (inputs : List EpisodeInput) :
    EpisodeInv (run (BrokerEpisode.step fromSlice) (BrokerEpisode.new service) inputs).1 :=
  run_invariant_init (fun ep _ => EpisodeInv ep) (new_episodeInv service)
    (fun _ _ i h => (call_inv h i).1) inputs

theorem run_inert {ep : BrokerEpisode} (h : Inert fromSlice ep) (inputs : List EpisodeInput) :
    Inert fromSlice (run (BrokerEpisode.step fromSlice) ep inputs).1 :=
  run_invariant (fun ep _ => Inert fromSlice ep) (fun _ _ i h => (inert_call h i).1) inputs ep [] h

/-- From here on every call of every run is silent. -/
def BrokerEpisode.SilentForever (fromSlice : List UInt8 → Option Request) (ep : BrokerEpisode) :
    Prop :=
  ∀ later i, ((run (BrokerEpisode.step fromSlice) ep later).1.call fromSlice i).Silent

/-- Every call of the run that terminates the episode leaves it silent for ever. -/
def TerminationAbsorbs (fromSlice : List UInt8 → Option Request) (service : String)
    (inputs : List EpisodeInput) : Prop :=
  ∀ pre i post, inputs = pre ++ i :: post →
    let a := (run (BrokerEpisode.step fromSlice) (BrokerEpisode.new service) pre).1.call fromSlice i
    a.out.terminate = true → a.ep.SilentForever fromSlice

/-- The call does not feed greeter bytes between `StartSession` and the broker's answer to it. -/
def NotFedWhileStarting (ep : BrokerEpisode) (i : EpisodeInput) : Prop :=
  ∀ env bytes, i = .greeterBytes env bytes → ¬ ep.Starting

/-- Greeter bytes in `Starting` terminate an episode that is not over. -/
theorem fed_while_starting {ep : BrokerEpisode} (h : EpisodeInv ep) (hs : ep.Starting) (env : Env)
    (bytes : List UInt8) :
    (ep.call fromSlice (.greeterBytes env bytes)).out.terminate = true ∧
      ¬ (ep.call fromSlice (.greeterBytes env bytes)).ep.SilentForever fromSlice := by
  obtain ⟨r, hrel, hp⟩ := hs
  have hc : ep.conn.closed = true := h.spawned r hrel (.inl hp)
  have hcall : (ep.call fromSlice (.greeterBytes env bytes)).ep = ep ∧
      (ep.call fromSlice (.greeterBytes env bytes)).out.terminate = true := by
    simp only [BrokerEpisode.call]
    have hfeed := @feedGreeter_closed fromSlice _ hc bytes
    rcases onGreeterBytes_cases fromSlice env ep bytes with ⟨e, hr, -⟩ | ⟨o, acted, hr, hacts, heq⟩
    · simp [hfeed] at hr
    · rw [hfeed] at hr hacts
      obtain rfl : (⟨[], .close⟩ : Outcome) = o := Except.ok.inj hr
      obtain rfl := acts_close hacts
      rw [heq]
      exact ⟨rfl, rfl⟩
  refine ⟨hcall.2, fun hsilent => ?_⟩
  rw [hcall.1] at hsilent
  -- the broker's answer opens the session all the same
  have hopen := (hsilent [] (.brokerReadable env (.ok (some (.sessionOpened, none))))).2.2
  simp [run, BrokerEpisode.call, BrokerEpisode.onBrokerReadable, hrel, BrokerRelay.onBrokerFrame,
    hp] at hopen

/-- **When termination is absorbing.** On every run of a fresh episode, every call that terminates
leaves an episode that never sends, spawns or opens again, exactly when no step of the run feeds
greeter bytes in `Starting`. -/
theorem terminate_absorbing_iff (fromSlice : List UInt8 → Option Request) (service : String)
    (inputs : List EpisodeInput) :
    TerminationAbsorbs fromSlice service inputs ↔
      Along (BrokerEpisode.step fromSlice) NotFedWhileStarting (BrokerEpisode.new service)
        inputs := by
  rw [along_iff_forall]
  refine forall_congr' fun pre => forall_congr' fun i => forall_congr' fun post =>
    imp_congr_right fun _ => ?_
  have hinv := @run_inv fromSlice service pre
  constructor
  · rintro habs env bytes rfl hs
    obtain ⟨hterm, hloud⟩ := @fed_while_starting fromSlice _ hinv hs env bytes
    exact hloud (habs hterm)
  · intro hfed a hterm later j
    exact (inert_call (run_inert ((call_inv hinv i).2 hfed hterm) later) j).2

/-- Alice logs in and asks for a shell, and the greeter writes one byte more. -/
def hastyLogin : List EpisodeInput :=
  let env : Env := ⟨fun _ => true, true⟩
  let bytes (req : Request) : List UInt8 := req.encode.toOption.getD []
  [.greeterBytes env (bytes (.createSession "alice")),
    .brokerReadable env (.ok (some (.success "alice" 1000 1000, none))),
    .greeterBytes env (bytes (.startSession ["/bin/sh"] [])),
    .greeterBytes env [0]]

/-- **The session opens after the end.** The last byte terminates the episode, and the broker's
`SessionOpened` is still passed on. -/
theorem opened_after_terminate :
    let ep := (run (BrokerEpisode.step readRequest) (BrokerEpisode.new "halmasuit")
      (hastyLogin.take 3)).1
    let ended := ep.call readRequest (.greeterBytes ⟨fun _ => true, true⟩ [0])
    let late := ended.ep.call readRequest
      (.brokerReadable ⟨fun _ => true, true⟩ (.ok (some (.sessionOpened, none))))
    ended.out.terminate = true ∧ late.out.sessionOpened = true ∧
      ¬ TerminationAbsorbs readRequest "halmasuit" hastyLogin := by
  intro ep ended late
  have hterm : ended.out.terminate = true := by decide +kernel
  have hopen : late.out.sessionOpened = true := by decide +kernel
  refine ⟨hterm, hopen, fun habs => ?_⟩
  have h := (habs (hastyLogin.take 3) _ [] rfl hterm []
    (.brokerReadable ⟨fun _ => true, true⟩ (.ok (some (.sessionOpened, none))))).2.2
  exact absurd hopen (by rw [show late.out.sessionOpened = false from h]; decide)

end Halmasuit.Compositor
