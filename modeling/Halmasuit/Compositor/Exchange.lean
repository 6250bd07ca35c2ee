import Halmasuit.Compositor.Episode

/-!
# An episode one frame at a time

What the connection and the episode do when the greeter has at most one request on the wire: a part
of it waits in the buffer, its last byte hands it to the machine, and a resumed round finds the
buffer empty. These are equations, where `feedGreeter_cases` and its like only say what can happen.
-/

namespace Halmasuit.Greetd

open Halmasuit.Lib

variable {fromSlice : List UInt8 → Option Request} {c : Connection}

/-- A part of a frame waits in the buffer. -/
theorem feedGreeter_part (hc : c.closed = false) (ha : c.awaitingPam = false) {req : Request}
    {chunk rest : List UInt8} (henc : req.encode = .ok (c.readBuf ++ chunk ++ rest))
    (hne : rest ≠ []) :
    c.feedGreeter fromSlice chunk
      = ⟨{ c with readBuf := c.readBuf ++ chunk }, [], .ok ⟨[], .continue⟩⟩ := by
  have hlen : (c.readBuf ++ chunk).length ≤ maxReadBuf := by
    obtain ⟨hbs, -, hle⟩ := Framing.encode_ok _ henc
    have := congrArg List.length hbs
    simp only [List.length_append, Framing.length_toLeBytes, Framing.lengthPrefixSize] at this ⊢
    unfold maxReadBuf
    omega
  have hdec : tryDecode fromSlice (c.readBuf ++ chunk) = .ok none :=
    Framing.tryDecode_short henc rfl hne
  unfold Connection.feedGreeter
  rw [if_neg (by simp [hc]), if_neg (by simp [ha])]
  simp only
  rw [if_neg (by omega), Connection.drive]
  simp [hc, hdec]

/-- The last byte of a request that starts a PAM round suspends the connection. -/
theorem feedGreeter_whole (hc : c.closed = false) (ha : c.awaitingPam = false) {req : Request}
    {chunk : List UInt8} (henc : req.encode = .ok (c.readBuf ++ chunk))
    (hdec : fromSlice req.toVec = some req) {response : Option String} {st : SessionState}
    (hr : c.state.onRequest req = .ok (.pam response, st)) :
    c.feedGreeter fromSlice chunk
      = ⟨{ c with state := st, readBuf := [], awaitingPam := true },
          [.accepted req (.pam response)], .ok ⟨[], .pam response⟩⟩ := by
  have hlen : (c.readBuf ++ chunk).length ≤ maxReadBuf := by
    obtain ⟨hbs, -, hle⟩ := Framing.encode_ok _ henc
    rw [hbs, List.length_append, Framing.length_toLeBytes]
    unfold maxReadBuf Framing.lengthPrefixSize
    omega
  have hdec' : tryDecode fromSlice (c.readBuf ++ chunk)
      = .ok (some (req, (c.readBuf ++ chunk).length)) := by
    have h := Framing.tryDecode_encode henc hdec []
    rwa [List.append_nil] at h
  unfold Connection.feedGreeter
  rw [if_neg (by simp [hc]), if_neg (by simp [ha])]
  simp only
  rw [if_neg (by omega), Connection.drive]
  simp only [hc, hdec', hr, List.drop_length, Bool.false_eq_true, if_false]

/-- A round resumed with nothing in the buffer. -/
theorem resumePam_drained (hc : c.closed = false) (ha : c.awaitingPam = true)
    (hb : c.readBuf = []) {step : PamStep} {st : SessionState} {resp : Response}
    (hp : c.state.onPamResult step = (st, resp)) {reply : List UInt8}
    (he : resp.encode = .ok reply) :
    c.resumePam fromSlice step
      = ⟨{ c with awaitingPam := false, state := st }, [.resumed step],
          .ok ⟨reply, .continue⟩⟩ := by
  have hdec : tryDecode fromSlice [] = .ok none := rfl
  unfold Connection.resumePam
  rw [if_neg (by simp [hc]), if_neg (by simp [ha])]
  simp only [hp, he, hb]
  rw [Connection.drive]
  simp [hc, hdec, Ran.after]

/-- A round resumed with a response that is over the ceiling. -/
theorem resumePam_unframed (hc : c.closed = false) (ha : c.awaitingPam = true) {step : PamStep}
    {st : SessionState} {resp : Response} (hp : c.state.onPamResult step = (st, resp))
    {e : Framing.CodecError} (he : resp.encode = .error e) :
    c.resumePam fromSlice step
      = ⟨{ c with awaitingPam := false, state := st }, [.resumed step], .error e⟩ := by
  unfold Connection.resumePam
  rw [if_neg (by simp [hc]), if_neg (by simp [ha])]
  simp only [hp, he]

end Halmasuit.Greetd

namespace Halmasuit.Compositor

open Halmasuit.Greetd
open Halmasuit.SessionIpc
open Halmasuit.Lib

variable {fromSlice : List UInt8 → Option Request} {isFile : String → Bool} {ep : BrokerEpisode}

/-- An event of an episode that goes on. -/
def EpisodeEvent.Calm : EpisodeEvent → Prop
  | .failedClosed => False
  | .outcome o => o.terminate = false
  | _ => True

/-- The frames among events. -/
def sentFrames (es : List EpisodeEvent) : List CompositorToBroker :=
  es.filterMap fun
    | .sent f => some f
    | _ => none

@[simp] theorem sentFrames_append (es es' : List EpisodeEvent) :
    sentFrames (es ++ es') = sentFrames es ++ sentFrames es' := by
  simp [sentFrames]

@[simp] theorem sentFrames_greetdEvents (ran : Ran) : sentFrames (greetdEvents ran) = [] := by
  simp [sentFrames, greetdEvents, List.filterMap_map]

/-- A call that fails nothing, writes `reply` to the greeter and `fs` to the broker. -/
structure Acted.Calm (a : Acted) (ep' : BrokerEpisode) (reply : List UInt8)
    (fs : List CompositorToBroker) : Prop where
  ep : a.ep = ep'
  reply : a.out.greeterReply = reply
  goes : a.out.terminate = false
  sent : sentFrames a.events = fs
  calm : ∀ e ∈ a.events, e.Calm

theorem calm_greetdEvents (ran : Ran) : ∀ e ∈ greetdEvents ran, e.Calm := by
  intro e he
  simp only [greetdEvents, List.mem_map] at he
  obtain ⟨e', -, rfl⟩ := he
  trivial

/-- A calm call after greetd events. -/
theorem Acted.Calm.after {a : Acted} {ep' : BrokerEpisode} {reply : List UInt8}
    {fs : List CompositorToBroker} (h : a.Calm ep' reply fs) (ran : Ran) :
    (a.after (greetdEvents ran)).Calm ep' reply fs := by
  refine ⟨h.ep, h.reply, h.goes, ?_, fun e he => ?_⟩
  · simpa [Acted.after] using h.sent
  · rcases List.mem_append.mp he with he | he
    · exact calm_greetdEvents ran e he
    · exact h.calm e he

/-- Part of a request. -/
theorem onGreeterBytes_part (hc : ep.conn.closed = false) (ha : ep.conn.awaitingPam = false)
    {req : Request} {chunk rest : List UInt8}
    (henc : req.encode = .ok (ep.conn.readBuf ++ chunk ++ rest)) (hne : rest ≠ []) :
    (ep.onGreeterBytes fromSlice ⟨isFile, true⟩ chunk).Calm
      { ep with conn := { ep.conn with readBuf := ep.conn.readBuf ++ chunk } } [] [] := by
  simp only [BrokerEpisode.onGreeterBytes, feedGreeter_part hc ha henc hne]
  refine Acted.Calm.after ?_ _
  exact ⟨rfl, rfl, rfl, rfl, by simp [BrokerEpisode.actOnDemand]⟩

/-- The demand of a whole request. -/
theorem onGreeterBytes_whole (hc : ep.conn.closed = false) (ha : ep.conn.awaitingPam = false)
    {req : Request} {chunk : List UInt8} (henc : req.encode = .ok (ep.conn.readBuf ++ chunk))
    (hdec : fromSlice req.toVec = some req) {response : Option String} {st : SessionState}
    (hr : ep.conn.state.onRequest req = .ok (.pam response, st)) {ep' : BrokerEpisode}
    {reply : List UInt8} {fs : List CompositorToBroker}
    (h : (BrokerEpisode.actOnDemand fromSlice ⟨isFile, true⟩ (ep.pendingChallenges.length + 1)
      { ep with conn := { ep.conn with state := st, readBuf := [], awaitingPam := true } } []
      (.pam response) EpisodeOutcome.default).Calm ep' reply fs) :
    (ep.onGreeterBytes fromSlice ⟨isFile, true⟩ chunk).Calm ep' reply fs := by
  simp only [BrokerEpisode.onGreeterBytes, feedGreeter_whole hc ha henc hdec hr]
  exact h.after _

section
variable {fuel : Nat} {reply : List UInt8} {response : Option String} {out : EpisodeOutcome}
  {r : BrokerRelay} {tags : List PendingResponse}

/-- A relay just built is the episode's own. -/
theorem relayOrNew_stored (ep : BrokerEpisode) (ready : Bool) :
    BrokerEpisode.relayOrNew
      { ep with greetdReadyForChallenge := ready, relay := some ep.relayOrNew } = ep.relayOrNew :=
  rfl

/-- A PAM demand the relay turns into a frame. -/
theorem actOnDemand_sent {f : CompositorToBroker}
    (hs : ep.relayOrNew.onPamStep response = .ok (some f, r)) (hfit : Fits f.toVec)
    (hout : out.terminate = false) :
    (ep.actOnDemand fromSlice ⟨isFile, true⟩ (fuel + 1) reply (.pam response) out).Calm
      { ep with relay := some r, greetdReadyForChallenge := true } (out.greeterReply ++ reply)
      [f] := by
  have hsend : Env.sends ⟨isFile, true⟩ f = true := by simp [Env.sends, hfit]
  simp only [BrokerEpisode.actOnDemand, relayOrNew_stored, hs, hsend, if_true]
  refine ⟨rfl, rfl, hout, rfl, ?_⟩
  simp [EpisodeEvent.Calm]

/-- A swallowed response with nothing queued. -/
theorem actOnDemand_swallowed (hs : ep.relayOrNew.onPamStep response = .ok (none, r))
    (hq : ep.pendingChallenges = []) (hout : out.terminate = false) :
    (ep.actOnDemand fromSlice ⟨isFile, true⟩ (fuel + 1) reply (.pam response) out).Calm
      { ep with relay := some r, greetdReadyForChallenge := true } (out.greeterReply ++ reply)
      [] := by
  simp only [BrokerEpisode.actOnDemand, relayOrNew_stored, hs]
  simp only [hq]
  exact ⟨rfl, rfl, hout, rfl, by simp⟩

/-- A swallowed response shows the next queued challenge. -/
theorem actOnDemand_flushed (hs : ep.relayOrNew.onPamStep response = .ok (none, r))
    {step : PamStep} {rest : List PamStep} (hq : ep.pendingChallenges = step :: rest)
    (hc : ep.conn.closed = false) (ha : ep.conn.awaitingPam = true) (hb : ep.conn.readBuf = [])
    {st : SessionState} {resp : Response} (hp : ep.conn.state.onPamResult step = (st, resp))
    {bytes : List UInt8} (he : resp.encode = .ok bytes) (hout : out.terminate = false) :
    (ep.actOnDemand fromSlice ⟨isFile, true⟩ (fuel + 2) reply (.pam response) out).Calm
      { ep with relay := some r, greetdReadyForChallenge := false, pendingChallenges := rest,
                conn := { ep.conn with awaitingPam := false, state := st } }
      (out.greeterReply ++ reply ++ bytes) [] := by
  simp only [BrokerEpisode.actOnDemand, relayOrNew_stored, hs]
  simp only [hq, resumePam_drained hc ha hb hp he]
  exact Acted.Calm.after ⟨rfl, rfl, hout, rfl, by simp⟩ _

end

/-- A PAM demand the relay turns into a frame over the ceiling fails the episode closed. -/
theorem actOnDemand_unsent {fuel : Nat} {reply : List UInt8} {response : Option String}
    {out : EpisodeOutcome} {r : BrokerRelay} {f : CompositorToBroker}
    (hs : ep.relayOrNew.onPamStep response = .ok (some f, r)) (hfit : ¬ Fits f.toVec) :
    ep.actOnDemand fromSlice ⟨isFile, true⟩ (fuel + 1) reply (.pam response) out
      = { ep with relay := some r, greetdReadyForChallenge := true }.failClosed
          { out with greeterReply := out.greeterReply ++ reply } := by
  have hsend : Env.sends ⟨isFile, true⟩ f = false := by simp [Env.sends, hfit]
  simp only [BrokerEpisode.actOnDemand, relayOrNew_stored, hs, hsend]
  rfl

/-- A request whose frame is over the ceiling fails the episode closed. -/
theorem onGreeterBytes_unsent (hc : ep.conn.closed = false) (ha : ep.conn.awaitingPam = false)
    {req : Request} {chunk : List UInt8} (henc : req.encode = .ok (ep.conn.readBuf ++ chunk))
    (hdec : fromSlice req.toVec = some req) {response : Option String} {st : SessionState}
    (hr : ep.conn.state.onRequest req = .ok (.pam response, st)) {r : BrokerRelay}
    {f : CompositorToBroker}
    (hs : (BrokerEpisode.relayOrNew { ep with
        conn := { ep.conn with
          state := st, readBuf := [], awaitingPam := true } }).onPamStep response
      = .ok (some f, r))
    (hfit : ¬ Fits f.toVec) :
    ∃ (ep' : BrokerEpisode) (ran : Ran), ep'.relay = some r ∧
      ep.onGreeterBytes fromSlice ⟨isFile, true⟩ chunk
        = (ep'.failClosed EpisodeOutcome.default).after (greetdEvents ran) := by
  simp only [BrokerEpisode.onGreeterBytes, feedGreeter_whole hc ha henc hdec hr]
  rw [actOnDemand_unsent hs hfit]
  exact ⟨{ ep with relay := some r, greetdReadyForChallenge := true,
                   conn := { ep.conn with state := st, readBuf := [], awaitingPam := true } },
    _, rfl, rfl⟩

/-- A broker frame for a suspended machine is shown at once. -/
theorem onBrokerReadable_shown {r r' : BrokerRelay} (hrel : ep.relay = some r)
    {frame : BrokerToCompositor} {step : PamStep} (fd : Option Fd)
    (hf : r.onBrokerFrame frame = .ok (.pam step, r')) (hready : ep.greetdReadyForChallenge = true)
    (hc : ep.conn.closed = false) (ha : ep.conn.awaitingPam = true) (hb : ep.conn.readBuf = [])
    {st : SessionState} {resp : Response} (hp : ep.conn.state.onPamResult step = (st, resp))
    {bytes : List UInt8} (he : resp.encode = .ok bytes) :
    (ep.onBrokerReadable fromSlice ⟨isFile, true⟩ (.ok (some (frame, fd)))).Calm
      { ep with relay := some r', greetdReadyForChallenge := false,
                conn := { ep.conn with awaitingPam := false, state := st } } bytes [] := by
  simp only [BrokerEpisode.onBrokerReadable, hrel, hf, hready, resumePam_drained hc ha hb hp he,
    if_true]
  refine ⟨rfl, rfl, rfl, ?_, ?_⟩
  · simp [Acted.after, BrokerEpisode.actOnDemand, sentFrames, greetdEvents]
  · intro e he
    simp only [Acted.after, BrokerEpisode.actOnDemand, List.append_nil, List.mem_cons] at he
    rcases he with rfl | he
    · trivial
    · exact calm_greetdEvents _ e he

/-- A broker frame that comes before the greeter answered is queued. -/
theorem onBrokerReadable_queued {r r' : BrokerRelay} (hrel : ep.relay = some r)
    {frame : BrokerToCompositor} {step : PamStep} (fd : Option Fd)
    (hf : r.onBrokerFrame frame = .ok (.pam step, r'))
    (hready : ep.greetdReadyForChallenge = false) :
    (ep.onBrokerReadable fromSlice ⟨isFile, true⟩ (.ok (some (frame, fd)))).Calm
      { ep with relay := some r', pendingChallenges := ep.pendingChallenges ++ [step] } [] [] := by
  simp only [BrokerEpisode.onBrokerReadable, hrel, hf, hready]
  refine ⟨rfl, rfl, rfl, rfl, ?_⟩
  simp [EpisodeEvent.Calm]

/-- A broker frame that cannot be shown fails the episode closed. -/
theorem onBrokerReadable_unframed {r r' : BrokerRelay} (hrel : ep.relay = some r)
    {frame : BrokerToCompositor} {step : PamStep} (fd : Option Fd)
    (hf : r.onBrokerFrame frame = .ok (.pam step, r')) (hready : ep.greetdReadyForChallenge = true)
    (hc : ep.conn.closed = false) (ha : ep.conn.awaitingPam = true)
    {st : SessionState} {resp : Response} (hp : ep.conn.state.onPamResult step = (st, resp))
    {e : Framing.CodecError} (he : resp.encode = .error e) :
    ∃ ep' : BrokerEpisode,
      (ep.onBrokerReadable fromSlice ⟨isFile, true⟩ (.ok (some (frame, fd)))).out
      = (ep'.failClosed EpisodeOutcome.default).out := by
  simp only [BrokerEpisode.onBrokerReadable, hrel, hf, hready, resumePam_unframed hc ha hp he,
    if_true]
  exact ⟨_, rfl⟩

/-- A swallowed response whose next queued challenge cannot be shown fails the episode closed. -/
theorem onGreeterBytes_unframed (hc : ep.conn.closed = false) (ha : ep.conn.awaitingPam = false)
    {req : Request} {chunk : List UInt8} (henc : req.encode = .ok (ep.conn.readBuf ++ chunk))
    (hdec : fromSlice req.toVec = some req) {response : Option String} {st : SessionState}
    (hr : ep.conn.state.onRequest req = .ok (.pam response, st)) {r r' : BrokerRelay}
    (hrel : ep.relay = some r) (hs : r.onPamStep response = .ok (none, r'))
    {step : PamStep} {rest : List PamStep} (hq : ep.pendingChallenges = step :: rest)
    {st' : SessionState} {resp : Response} (hp : st.onPamResult step = (st', resp))
    {e : Framing.CodecError} (he : resp.encode = .error e) :
    ∃ ep' : BrokerEpisode, (ep.onGreeterBytes fromSlice ⟨isFile, true⟩ chunk).out
      = (ep'.failClosed EpisodeOutcome.default).out := by
  have hresume := @resumePam_unframed fromSlice
    { ep.conn with state := st, readBuf := [], awaitingPam := true } hc rfl _ _ _ hp _ he
  simp only [BrokerEpisode.onGreeterBytes, feedGreeter_whole hc ha henc hdec hr,
    BrokerEpisode.actOnDemand, BrokerEpisode.relayOrNew, hrel, Option.getD_some, hs, hq, hresume]
  exact ⟨_, rfl⟩

end Halmasuit.Compositor
