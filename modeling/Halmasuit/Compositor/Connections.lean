import Halmasuit.Compositor.Login

/-!
# The connections

What a callback does to the table of greetd connections (`halmasuit/src/main.rs` 2257–2704), and
what an episode is once it has reported `spawned`: the greetd connection is closed, its machine is
`Spawning`, and the relay has sent `StartSession`.

Headlines:
* `Handed`: the state of an episode after the hand-off, which every call keeps.
* `step_conn`: what a callback does to one connection.
* `wired_step`: ids are not used again, and an episode that is not over has its broker source.
-/

namespace Halmasuit.Greetd

variable {fromSlice : List UInt8 → Option Request}

/-- `Demand::Spawn` comes from a machine that has just gone to `Spawning`. -/
theorem drives_spawn {c : Connection} {reply : List UInt8} {r : Ran} {o : Outcome}
    {s : SpawnRequest}
    (hd : Drives fromSlice c reply r) (h : r.res = .ok o) (hs : o.demand = .spawn s) :
    r.conn.closed = true ∧ r.conn.state = .spawning s.username s.uid s.gid s.cmd s.env := by
  induction hd with
  | spawn hc hd hr he =>
    cases h
    cases hs
    exact ⟨rfl, (onRequest_spawn hr).2.2⟩
  | cancel _ _ _ _ _ ih => exact ih h
  | refuse _ _ _ _ _ ih => exact ih h
  | codec => cases h
  | _ =>
    cases h
    cases hs

theorem feedGreeter_spawn {c : Connection} {bs : List UInt8} {o : Outcome} {s : SpawnRequest}
    (h : (c.feedGreeter fromSlice bs).res = .ok o) (hs : o.demand = .spawn s) :
    (c.feedGreeter fromSlice bs).conn.closed = true ∧ (c.feedGreeter fromSlice bs).conn.state
      = .spawning s.username s.uid s.gid s.cmd s.env := by
  cases hc : c.closed with
  | true =>
    rw [feedGreeter_closed hc] at h
    cases h
    cases hs
  | false =>
    rcases feedGreeter_cases fromSlice hc bs with ⟨-, _, heq⟩ | ⟨-, -, e, heq⟩ | ⟨-, -, hd⟩
    · rw [heq] at h
      cases h
      cases hs
    · rw [heq] at h
      cases h
    · exact drives_spawn hd h hs

theorem resumePam_spawn {c : Connection} {step : PamStep} {o : Outcome} {s : SpawnRequest}
    (h : (c.resumePam fromSlice step).res = .ok o) (hs : o.demand = .spawn s) :
    (c.resumePam fromSlice step).conn.closed = true ∧ (c.resumePam fromSlice step).conn.state
      = .spawning s.username s.uid s.gid s.cmd s.env := by
  cases hc : c.closed with
  | true =>
    rw [resumePam_closed hc] at h
    cases h
    cases hs
  | false =>
    rcases resumePam_cases fromSlice hc step with
      ⟨-, _, heq⟩ | ⟨-, e, -, heq⟩ | ⟨-, reply', ran, -, hd, heq⟩
    · rw [heq] at h
      cases h
      cases hs
    · rw [heq] at h
      cases h
    · rw [heq] at h ⊢
      obtain ⟨hclosed, hstate⟩ := drives_spawn hd (show ran.res = .ok o from h) hs
      exact ⟨hclosed, hstate⟩

end Halmasuit.Greetd

namespace Halmasuit.Compositor

open Halmasuit.Greetd
open Halmasuit.SessionIpc
open Halmasuit.Lib

/-! ## The episode after the hand-off -/

/-- The relay has sent `StartSession`. -/
def Phase.launched : Phase → Bool
  | .starting => true
  | .running => true
  | .done => true
  | _ => false

/-- An episode that has reported `spawned` for a session of uid `u`. -/
structure Handed (u : UInt32) (ep : BrokerEpisode) : Prop where
  closed : ep.conn.closed = true
  spawning : ∃ n g cmd env, ep.conn.state = .spawning n u g cmd env
  launched : ∃ r, ep.relay = some r ∧ r.phase.launched = true

section
variable {fromSlice : List UInt8 → Option Request} {env : Env}

/-- Acting on a demand reports a spawn in one way: the demand, or that of a flushed challenge, was
`Spawn`, and the episode is handed over. -/
theorem acts_spawned {ep : BrokerEpisode} {reply : List UInt8} {demand : Demand}
    {out : EpisodeOutcome} {acted : Acted} (h : Acts fromSlice env ep reply demand out acted)
    (hout : out.spawned = none) {spawn : SpawnRequest} (hsp : acted.out.spawned = some spawn)
    (hd : ∀ s, demand = .spawn s → ep.conn.closed = true ∧
      ep.conn.state = .spawning s.username s.uid s.gid s.cmd s.env) :
    Handed spawn.uid acted.ep ∧ acted.out.terminate = out.terminate ∧
      ∃ r, acted.ep.relay = some r ∧ r.phase = .starting := by
  induction h with
  | flushed hs hp hr next ih =>
    exact ih hout hsp fun s hs' => resumePam_spawn hr hs'
  | spawned hrel hcmd hs hsend =>
    rename_i ep' reply' spawn' out' r r' cmd f
    obtain ⟨hc, hst⟩ := hd spawn' rfl
    obtain ⟨-, -, rfl⟩ := startSession_cases hs
    obtain rfl : { spawn' with cmd := cmd } = spawn := Option.some.inj hsp
    exact ⟨⟨hc, ⟨_, _, _, _, hst⟩, _, rfl, rfl⟩, rfl, _, rfl, rfl⟩
  | _ => exact absurd (hout.symm.trans hsp) (by simp)

/-- The call that reports a spawn hands the episode over. -/
theorem onGreeterBytes_spawned (fromSlice : List UInt8 → Option Request) (env : Env)
    {ep : BrokerEpisode} {bytes : List UInt8} {spawn : SpawnRequest}
    (h : (ep.onGreeterBytes fromSlice env bytes).out.spawned = some spawn) :
    Handed spawn.uid (ep.onGreeterBytes fromSlice env bytes).ep ∧
      (ep.onGreeterBytes fromSlice env bytes).out.terminate = false ∧
      ∃ r, (ep.onGreeterBytes fromSlice env bytes).ep.relay = some r ∧ r.phase = .starting := by
  rcases onGreeterBytes_cases fromSlice env ep bytes with ⟨e, -, heq⟩ | ⟨o, acted, hr, hacts, heq⟩
  · rw [heq] at h
    cases h
  · rw [heq] at h ⊢
    exact acts_spawned hacts rfl h fun s hs => feedGreeter_spawn hr hs

theorem onBrokerReadable_spawned (fromSlice : List UInt8 → Option Request) (env : Env)
    {ep : BrokerEpisode} {recv : Recv} {spawn : SpawnRequest}
    (h : (ep.onBrokerReadable fromSlice env recv).out.spawned = some spawn) :
    Handed spawn.uid (ep.onBrokerReadable fromSlice env recv).ep ∧
      (ep.onBrokerReadable fromSlice env recv).out.terminate = false ∧
      ∃ r, (ep.onBrokerReadable fromSlice env recv).ep.relay = some r ∧ r.phase = .starting := by
  rcases onBrokerReadable_cases fromSlice env ep recv with ⟨heq, -⟩ | heq |
    ⟨frame, fd, r, ev, r', -, -, -, ⟨step, -, -, heq⟩ | ⟨step, e, -, -, -, heq⟩ |
      ⟨step, o, acted, -, -, hr, hacts, heq⟩ | ⟨-, heq⟩ | ⟨outcome, -, heq⟩⟩
  · rw [heq] at h
    cases h
  · rw [heq] at h
    cases h
  · rw [heq] at h
    cases h
  · rw [heq] at h
    cases h
  · rw [heq] at h ⊢
    exact acts_spawned hacts rfl h fun s hs => resumePam_spawn hr hs
  · rw [heq] at h
    cases h
  · rw [heq] at h
    cases h

/-- One more byte of the greeter ends a handed episode. -/
theorem Handed.onGreeterBytes {u : UInt32} {ep : BrokerEpisode} (h : Handed u ep)
    (fromSlice : List UInt8 → Option Request) (env : Env) (bytes : List UInt8) :
    (ep.onGreeterBytes fromSlice env bytes).ep = ep ∧
      (ep.onGreeterBytes fromSlice env bytes).out
        = { EpisodeOutcome.default with terminate := true } := by
  unfold BrokerEpisode.onGreeterBytes
  rw [feedGreeter_closed h.closed]
  exact ⟨rfl, rfl⟩

theorem Handed.not_authing {u : UInt32} {ep : BrokerEpisode} (h : Handed u ep) {r : BrokerRelay}
    (hr : ep.relay = some r) : r.phase ≠ .authing := by
  obtain ⟨r', hr', hp⟩ := h.launched
  obtain rfl : r' = r := Option.some.inj (hr'.symm.trans hr)
  intro ha
  rw [ha] at hp
  cases hp

/-- No frame of the authentication gets to a handed episode. -/
theorem Handed.event_ne_pam {u : UInt32} {ep : BrokerEpisode} (h : Handed u ep) (recv : Recv)
    (step : PamStep) : ep.event recv ≠ some (.pam step) := by
  intro hev
  obtain ⟨r, frame, fd, r', hr, -, hf⟩ := event_eq_some hev
  exact h.not_authing hr (onBrokerFrame_pam hf).1

/-- There is nobody left to tell. -/
theorem Handed.failClosed {u : UInt32} {ep : BrokerEpisode} (h : Handed u ep) :
    Handed u (ep.failClosed EpisodeOutcome.default).ep ∧
      (ep.failClosed EpisodeOutcome.default).out
        = { EpisodeOutcome.default with terminate := true } := by
  obtain ⟨r₀, hrel, -⟩ := h.launched
  unfold BrokerEpisode.failClosed
  rw [brokerClosed_closed h.closed, hrel]
  exact ⟨⟨h.closed, h.spawning, _, rfl, rfl⟩, rfl⟩

/-- **The broker's side of a handed episode.** It stays handed; it goes on where there is no frame,
or `SessionOpened`; `SessionEnded`, an error of the channel and a frame the relay refuses end it. -/
theorem Handed.onBrokerReadable {u : UInt32} {ep : BrokerEpisode} (h : Handed u ep)
    (fromSlice : List UInt8 → Option Request) (env : Env) (recv : Recv) :
    Handed u (ep.onBrokerReadable fromSlice env recv).ep ∧
    ((recv = .ok none ∧ (ep.onBrokerReadable fromSlice env recv).out = EpisodeOutcome.default) ∨
      (ep.event recv = some .sessionOpened ∧ (ep.onBrokerReadable fromSlice env recv).out
        = { EpisodeOutcome.default with sessionOpened := true }) ∨
      (∃ outcome, ep.event recv = some (.sessionEnded outcome) ∧
        (ep.onBrokerReadable fromSlice env recv).out
          = { EpisodeOutcome.default with sessionEnded := some outcome, terminate := true }) ∨
      (recv ≠ .ok none ∧ ep.event recv = none ∧ (ep.onBrokerReadable fromSlice env recv).out
        = { EpisodeOutcome.default with terminate := true })) := by
  rcases onBrokerReadable_cases fromSlice env ep recv with ⟨heq, hn⟩ | heq |
    ⟨frame, fd, r, ev, r', hrecv, hr, hf, hrest⟩
  · rw [heq]
    exact ⟨h, .inl ⟨hn, rfl⟩⟩
  · obtain ⟨hep, hout⟩ := h.failClosed
    rcases onBrokerReadable_out fromSlice env ep recv with ⟨-, ho⟩ | ⟨outcome, -, ho⟩ | ⟨hev, -⟩
    · rw [heq, hout] at ho
      cases ho
    · rw [heq, hout] at ho
      cases ho
    · rw [heq]
      refine ⟨hep, .inr (.inr (.inr ⟨?_, ?_, hout⟩))⟩
      · rintro rfl
        have hterm := congrArg (fun a => a.out.terminate) heq
        cases hterm
      · cases he : ep.event recv with
        | none => rfl
        | some ev =>
          obtain ⟨step, rfl⟩ := hev ev he
          exact absurd he (h.event_ne_pam recv step)
  · have hevent : ep.event recv = some ev := by
      rw [hrecv]
      simp [BrokerEpisode.event, hr, hf]
    have hep : ∀ {ep' : BrokerEpisode}, r'.phase.launched = true → ep'.conn = ep.conn →
        ep'.relay = some r' → Handed u ep' := by
      intro ep' hl hconn hrel'
      exact ⟨by rw [hconn]; exact h.closed, by rw [hconn]; exact h.spawning, r', hrel', hl⟩
    rcases hrest with ⟨step, rfl, -⟩ | ⟨step, _, rfl, -⟩ | ⟨step, _, _, rfl, -⟩ | ⟨rfl, heq⟩ |
      ⟨outcome, rfl, heq⟩
    · exact absurd hevent (h.event_ne_pam recv step)
    · exact absurd hevent (h.event_ne_pam recv step)
    · exact absurd hevent (h.event_ne_pam recv step)
    · obtain ⟨-, -, rfl⟩ := onBrokerFrame_sessionOpened hf
      rw [heq]
      exact ⟨hep rfl rfl rfl, .inr (.inl ⟨hevent, rfl⟩)⟩
    · obtain ⟨-, -, rfl⟩ := onBrokerFrame_sessionEnded hf
      rw [heq]
      exact ⟨hep rfl rfl rfl, .inr (.inr (.inl ⟨outcome, hevent, rfl⟩))⟩

/-- What the broker can end a handed episode with. -/
theorem Handed.over {u : UInt32} {ep : BrokerEpisode} (h : Handed u ep)
    (fromSlice : List UInt8 → Option Request) {env : Env} {recv : Recv}
    (hterm : (ep.onBrokerReadable fromSlice env recv).out.terminate = true) :
    (∃ outcome, ep.event recv = some (.sessionEnded outcome) ∧
      (ep.onBrokerReadable fromSlice env recv).out
        = { EpisodeOutcome.default with sessionEnded := some outcome, terminate := true }) ∨
    (recv ≠ .ok none ∧ ep.event recv = none ∧ (ep.onBrokerReadable fromSlice env recv).out
      = { EpisodeOutcome.default with terminate := true }) := by
  rcases (h.onBrokerReadable fromSlice env recv).2 with ⟨-, hout⟩ | ⟨-, hout⟩ | hended | hfailed
  · rw [hout] at hterm
    cases hterm
  · rw [hout] at hterm
    cases hterm
  · exact .inl hended
  · exact .inr hfailed

/-- The relay waits for `SessionOpened`. -/
def Starting (ep : BrokerEpisode) : Prop := ∃ r, ep.relay = some r ∧ r.phase = .starting

theorem onPamStep_not_starting {r r' : BrokerRelay} {response : Option String}
    {f : Option CompositorToBroker} (h : r.onPamStep response = .ok (f, r')) :
    r'.phase ≠ .starting := by
  rcases onPamStep_cases h with ⟨-, -, rfl⟩ | ⟨hp, -, _, -, rfl⟩ | ⟨hp, -, _, -, rfl⟩
  · simp
  · simp [hp]
  · simp [hp]

theorem poisoned_not_starting {ep : BrokerEpisode} (relay : Option BrokerRelay)
    (h : ep.relay = relay.map BrokerRelay.poison) : ¬ Starting ep := by
  rintro ⟨r, hr, hp⟩
  rw [h] at hr
  obtain ⟨r', -, rfl⟩ := Option.map_eq_some_iff.mp hr
  cases hp

/-- Only a reported spawn sends `StartSession`. -/
theorem acts_starting {ep : BrokerEpisode} {reply : List UInt8} {demand : Demand}
    {out : EpisodeOutcome} {acted : Acted} (h : Acts fromSlice env ep reply demand out acted)
    (hs : Starting acted.ep) : acted.out.spawned ≠ none ∨ Starting ep := by
  induction h with
  | «continue» => exact .inr hs
  | close => exact .inr hs
  | failed relay ready hd hrel => exact absurd hs (poisoned_not_starting relay rfl)
  | sent hstep hsend =>
    obtain ⟨r, hr, hp⟩ := hs
    cases hr
    exact absurd hp (onPamStep_not_starting hstep)
  | swallowed hstep hp' =>
    obtain ⟨r, hr, hp⟩ := hs
    cases hr
    exact absurd hp (onPamStep_not_starting hstep)
  | flushed hstep hp' hres next ih =>
    rcases ih hs with h | ⟨r, hr, hp⟩
    · exact .inl h
    · cases hr
      exact absurd hp (onPamStep_not_starting hstep)
  | flushFailed hstep hp' hres => exact absurd hs (poisoned_not_starting (some _) rfl)
  | spawned hrel hcmd hstart hsend => exact .inl (by simp)

theorem onGreeterBytes_starting (fromSlice : List UInt8 → Option Request) (env : Env)
    {ep : BrokerEpisode} {bytes : List UInt8}
    (h : Starting (ep.onGreeterBytes fromSlice env bytes).ep) :
    (ep.onGreeterBytes fromSlice env bytes).out.spawned ≠ none ∨ Starting ep := by
  rcases onGreeterBytes_cases fromSlice env ep bytes with ⟨e, -, heq⟩ | ⟨o, acted, -, hacts, heq⟩
  · rw [heq] at h
    exact .inr h
  · rw [heq] at h ⊢
    have hacts' : acted.out.spawned ≠ none ∨ Starting _ := acts_starting hacts h
    exact hacts'

/-- The relay is not left waiting by a frame it took. -/
theorem onBrokerReadable_starting (fromSlice : List UInt8 → Option Request) (env : Env)
    {ep : BrokerEpisode} {recv : Recv}
    (h : Starting (ep.onBrokerReadable fromSlice env recv).ep) :
    (ep.onBrokerReadable fromSlice env recv).out.spawned ≠ none ∨
    (Starting ep ∧ recv = .ok none) := by
  rcases onBrokerReadable_cases fromSlice env ep recv with ⟨heq, hn⟩ | heq |
    ⟨frame, fd, r, ev, r', -, -, hf, hrest⟩
  · rw [heq] at h
    exact .inr ⟨h, hn⟩
  · rw [heq] at h
    exact absurd h (poisoned_not_starting ep.relay rfl)
  have hno : r'.phase ≠ .starting := onBrokerFrame_phase hf
  have hr' : ∀ {ep' : BrokerEpisode}, ep'.relay = some r' → ¬ Starting ep' := by
    rintro ep' hrel ⟨r'', hr'', hp⟩
    obtain rfl : r' = r'' := Option.some.inj (hrel.symm.trans hr'')
    exact hno hp
  rcases hrest with ⟨step, -, -, heq⟩ | ⟨step, e, -, -, -, heq⟩ |
    ⟨step, o, acted, -, -, -, hacts, heq⟩ |
    ⟨-, heq⟩ | ⟨outcome, -, heq⟩
  · rw [heq] at h
    exact absurd h (hr' rfl)
  · rw [heq] at h
    exact absurd h (poisoned_not_starting (some r') rfl)
  · rw [heq] at h ⊢
    rcases acts_starting hacts h with h' | h'
    · exact .inl h'
    · exact absurd h' (hr' rfl)
  · rw [heq] at h
    exact absurd h (hr' rfl)
  · rw [heq] at h
    exact absurd h (hr' rfl)

end

/-! ## One connection -/

/-- The connection after the read loop. -/
def ConnState.afterReads (fromSlice : List UInt8 → Option Request) :
    ConnState → List HalmasuitState.ReadResult → ConnState
  | cs, [] => cs
  | cs, .wouldBlock :: _ => cs
  | cs, .error :: _ => { cs.greeterGone with writeBuf := [] }
  | cs, .ok env bytes :: reads =>
    if bytes = [] then cs.greeterGone
    else
      let a := cs.episode.onGreeterBytes fromSlice env bytes
      if a.out.terminate then cs.fed a else ConnState.afterReads fromSlice (cs.fed a) reads

/-- The connection after both loops of `handle_connection_ready`. -/
def ConnState.afterReady (fromSlice : List UInt8 → Option Request) (cs : ConnState)
    (r : HalmasuitState.StreamReady) : ConnState :=
  let cs := if r.readable then cs.afterReads fromSlice r.reads else cs
  if r.writable then HalmasuitState.writeLoop cs r.writes else cs

/-- Two states of a connection at the same point of its login: the buffers and the tokens may
differ. -/
structure ConnState.Agrees (cs cs' : ConnState) : Prop where
  relay : cs'.episode.relay = cs.episode.relay
  conn : cs'.episode.conn = cs.episode.conn
  spawned : cs'.spawned = cs.spawned
  terminate : cs'.terminate = cs.terminate

theorem ConnState.Agrees.refl (cs : ConnState) : cs.Agrees cs := ⟨rfl, rfl, rfl, rfl⟩

theorem Handed.agrees {u : UInt32} {cs cs' : ConnState} (h : Handed u cs.episode)
    (ha : cs.Agrees cs') : Handed u cs'.episode := by
  refine ⟨?_, ?_, ?_⟩
  · rw [ha.conn]
    exact h.closed
  · rw [ha.conn]
    exact h.spawning
  · rw [ha.relay]
    exact h.launched

namespace HalmasuitState

theorem readLoop_conn (fromSlice : List UInt8 → Option Request) (id : Nat)
    (reads : List ReadResult) :
    ∀ (cs : ConnState) (sc : Scene),
      (readLoop fromSlice id cs sc reads).1 = cs.afterReads fromSlice reads := by
  induction reads with
  | nil =>
    intro cs sc
    rfl
  | cons r reads ih =>
    intro cs sc
    cases r with
    | wouldBlock => rfl
    | error => rfl
    | ok env bytes =>
      unfold readLoop ConnState.afterReads
      split
      · rfl
      · dsimp only
        split
        · rfl
        · exact ih _ _

/-- What a callback does to one connection: the state of the connection after it, and what the
events say of it. -/
inductive ConnMoves (fromSlice : List UInt8 → Option Request) (s : HalmasuitState) (id : Nat)
    (es : List Event) : Input → Option ConnState → Prop
  | same {i} (hsp : ∀ spawn left gate, .spawned id spawn left gate ∉ es) :
      ConnMoves fromSlice s id es i (s.connections.lookup id)
  | accepted {a} (hid : id = s.nextConnId) (hes : es = []) :
      ConnMoves fromSlice s id es (.accept a) (some (.new s.pamService))
  | read {r cs cs'} (hlook : s.connections.lookup id = some cs)
      (hsrc : Source.greeter id ∈ s.sources)
      (hcs : (cs.afterReady fromSlice r).Agrees cs')
      (hsp : ∀ spawn left gate, .spawned id spawn left gate ∈ es →
        r.readable = true ∧ spawn ∈ readReports fromSlice cs r.reads) :
      ConnMoves fromSlice s id es (.connectionReady id r) (some cs')
  | tornDown {r cs} (hlook : s.connections.lookup id = some cs)
      (hsrc : Source.greeter id ∈ s.sources)
      (hterm : (cs.afterReady fromSlice r).terminate = true)
      (hsp : ∀ spawn left gate, .spawned id spawn left gate ∈ es →
        r.readable = true ∧ spawn ∈ readReports fromSlice cs r.reads) :
      ConnMoves fromSlice s id es (.connectionReady id r) none
  | broker {env recv w cs cs'} (hlook : s.connections.lookup id = some cs)
      (hsrc : Source.broker id ∈ s.sources)
      (hcs : (cs.fed (cs.episode.onBrokerReadable fromSlice env recv)).Agrees cs')
      (hsp : ∀ spawn left gate, .spawned id spawn left gate ∈ es →
        (cs.episode.onBrokerReadable fromSlice env recv).out.spawned = some spawn)
      (hev : .broker id recv (cs.episode.onBrokerReadable fromSlice env recv).out ∈ es) :
      ConnMoves fromSlice s id es (.brokerReady id true env recv w) (some cs')
  | leader {w cs cs'} (hlook : s.connections.lookup id = some cs) (hcs : cs.Agrees cs')
      (hsp : ∀ spawn left gate, .spawned id spawn left gate ∉ es) :
      ConnMoves fromSlice s id es (.leaderPidfdReady id w) (some cs')
  | idled (hid : id ∈ s.idles.head?) (hsp : ∀ spawn left gate, .spawned id spawn left gate ∉ es) :
      ConnMoves fromSlice s id es .idle none

theorem mem_spawns {es : List Event} {id : Nat} {spawn : SpawnRequest} {left : Option UInt32}
    {gate : SwapGate} (h : .spawned id spawn left gate ∈ es) : spawn ∈ Scene.spawns es := by
  unfold Scene.spawns
  exact List.mem_filterMap.mpr ⟨_, h, rfl⟩

theorem spawned_notMem {es : List Event} (h : Scene.spawns es = []) (id : Nat) :
    ∀ spawn left gate, .spawned id spawn left gate ∉ es := by
  intro spawn left gate hm
  have hmem := mem_spawns hm
  rw [h] at hmem
  cases hmem

section
variable (fromSlice : List UInt8 → Option Request)

theorem setConn_lookup_ne (s : HalmasuitState) {id id' : Nat} (cs : ConnState) (h : id' ≠ id) :
    (s.setConn id cs).connections.lookup id' = s.connections.lookup id' :=
  AList.lookup_insert_ne h

/-- The connection `handle_connection_ready` ran on: torn down, or left at the same point. -/
theorem greeterEnd_lookup (s : HalmasuitState) (id : Nat) (cs : ConnState) :
    ((greeterEnd s id cs).1.connections.lookup id = none ∧ cs.terminate = true) ∨
      ∃ cs', (greeterEnd s id cs).1.connections.lookup id = some cs' ∧ cs.Agrees cs' := by
  unfold greeterEnd
  split
  · rename_i h
    left
    dsimp only
    refine ⟨?_, ?_⟩
    · split <;> split <;> exact AList.lookup_erase _ _
    · exact (Bool.and_eq_true_iff.mp h).1
  · right
    split
    · exact ⟨_, AList.lookup_insert _, ⟨rfl, rfl, rfl, rfl⟩⟩
    · exact ⟨_, AList.lookup_insert _, ⟨rfl, rfl, rfl, rfl⟩⟩

theorem greeterEnd_lookup_ne (s : HalmasuitState) {id id' : Nat} (cs : ConnState) (h : id' ≠ id) :
    (greeterEnd s id cs).1.connections.lookup id' = s.connections.lookup id' := by
  unfold greeterEnd
  split
  · dsimp only
    split <;> split <;> exact AList.lookup_erase_ne h
  · split
    · exact AList.lookup_insert_ne h
    · exact AList.lookup_insert_ne h

theorem armLeaderPidfdBackstop_lookup (s : HalmasuitState) (id : Nat) (ok : Bool) {cs : ConnState}
    (h : s.connections.lookup id = some cs) :
    ∃ cs', (s.armLeaderPidfdBackstop id ok).connections.lookup id = some cs' ∧ cs.Agrees cs' := by
  unfold armLeaderPidfdBackstop
  rw [h]
  dsimp only
  split
  · exact ⟨cs, h, .refl cs⟩
  · split
    · exact ⟨_, AList.lookup_insert _, ⟨rfl, rfl, rfl, rfl⟩⟩
    · exact ⟨_, AList.lookup_insert _, ⟨rfl, rfl, rfl, rfl⟩⟩

theorem armLeaderPidfdBackstop_lookup_ne (s : HalmasuitState) {id id' : Nat} (ok : Bool)
    (h : id' ≠ id) :
    (s.armLeaderPidfdBackstop id ok).connections.lookup id' = s.connections.lookup id' := by
  unfold armLeaderPidfdBackstop
  split
  · rfl
  · split
    · rfl
    · dsimp only
      split
      · exact AList.lookup_insert_ne h
      · exact AList.lookup_insert_ne h

theorem brokerEnd_connections (s : HalmasuitState) (id : Nat) (terminate greeterAttached : Bool) :
    (s.brokerEnd id terminate greeterAttached).connections = s.connections := by
  unfold brokerEnd
  split <;> rfl

/-- The gate's actions do not touch the connection the broker spoke on, but for its pidfd. -/
theorem feedOutcome_lookup (s : HalmasuitState) (id : Nat) (out : EpisodeOutcome) (w : Answers)
    {cs : ConnState} (h : s.connections.lookup id = some cs) :
    ∃ cs', (s.feedOutcome id out w).1.connections.lookup id = some cs' ∧ cs.Agrees cs' := by
  unfold feedOutcome
  dsimp only
  split
  · split
    · exact armLeaderPidfdBackstop_lookup (s.feedGate _ w).1 id w.armPidfd h
    · exact ⟨cs, h, .refl cs⟩
  · split
    · exact armLeaderPidfdBackstop_lookup (s.feedGate _ w).1 id w.armPidfd h
    · exact ⟨cs, h, .refl cs⟩

theorem feedOutcome_lookup_ne (s : HalmasuitState) {id id' : Nat} (out : EpisodeOutcome)
    (w : Answers)
    (h : id' ≠ id) :
    (s.feedOutcome id out w).1.connections.lookup id' = s.connections.lookup id' := by
  unfold feedOutcome
  dsimp only
  split
  · split
    · exact armLeaderPidfdBackstop_lookup_ne (s.feedGate _ w).1 w.armPidfd h
    · rfl
  · split
    · exact armLeaderPidfdBackstop_lookup_ne (s.feedGate _ w).1 w.armPidfd h
    · rfl

/-- The events of a callback name the connection it ran on. -/
theorem handleConnectionReady_spawned (s : HalmasuitState) {id id' : Nat} {r : StreamReady}
    {spawn : SpawnRequest} {left : Option UInt32} {gate : SwapGate}
    (h : .spawned id' spawn left gate ∈ (s.handleConnectionReady fromSlice id r).2) : id' = id := by
  unfold handleConnectionReady at h
  split at h
  · cases h
  · dsimp only at h
    rcases List.mem_append.mp h with h | h
    · split at h
      · obtain ⟨_, _, _, heq⟩ := (readLoop_records id r.reads _ s.toScene).2 _ h
        cases heq
        rfl
      · cases h
    · cases (greeterEnd_scene _ id _).2 _ h

/-- A readiness callback of the greeter's stream ends with what both loops leave of the
connection. -/
theorem handleConnectionReady_eq (s : HalmasuitState) {id : Nat} (r : StreamReady) {cs : ConnState}
    (h : s.connections.lookup id = some cs) : ∃ sc : Scene,
    (s.handleConnectionReady fromSlice id r).1
      = (greeterEnd { s with toScene := sc } id (cs.afterReady fromSlice r)).1 := by
  refine ⟨(if r.readable = true then readLoop fromSlice id cs s.toScene r.reads
    else (cs, s.toScene, [])).2.1, ?_⟩
  have hafter : (if r.writable = true then writeLoop (if r.readable = true then
      readLoop fromSlice id cs s.toScene r.reads else (cs, s.toScene, [])).1 r.writes
      else (if r.readable = true then readLoop fromSlice id cs s.toScene r.reads
        else (cs, s.toScene, [])).1) = cs.afterReady fromSlice r := by
    unfold ConnState.afterReady
    cases r.readable with
    | true => simp only [if_true, readLoop_conn]
    | false => rfl
  unfold handleConnectionReady
  rw [h]
  dsimp only
  rw [hafter]

/-- The connection of a readiness callback of the greeter's stream: torn down, or left where both
loops leave it. -/
theorem handleConnectionReady_lookup (s : HalmasuitState) {id : Nat} (r : StreamReady)
    {cs : ConnState}
    (hlook : s.connections.lookup id = some cs) :
    ((s.handleConnectionReady fromSlice id r).1.connections.lookup id = none ∧
      (cs.afterReady fromSlice r).terminate = true) ∨
    ∃ cs', (s.handleConnectionReady fromSlice id r).1.connections.lookup id = some cs' ∧
      (cs.afterReady fromSlice r).Agrees cs' := by
  obtain ⟨sc, heq⟩ := s.handleConnectionReady_eq fromSlice r hlook
  rw [heq]
  exact greeterEnd_lookup _ id _

theorem handleConnectionReady_conn (s : HalmasuitState) (id id' : Nat) (r : StreamReady)
    (hsrc : Source.greeter id ∈ s.sources) :
    ConnMoves fromSlice s id' (s.handleConnectionReady fromSlice id r).2 (.connectionReady id r)
      ((s.handleConnectionReady fromSlice id r).1.connections.lookup id') := by
  by_cases hid : id' = id
  · subst hid
    cases hlook : s.connections.lookup id' with
    | none =>
      have hnone : s.handleConnectionReady fromSlice id' r = (s.unregister (.greeter id'), []) := by
        simp [handleConnectionReady, hlook]
      rw [hnone]
      exact .same (by simp)
    | some cs =>
      have hsp : ∀ spawn left gate,
          .spawned id' spawn left gate ∈ (s.handleConnectionReady fromSlice id' r).2 →
          r.readable = true ∧ spawn ∈ readReports fromSlice cs r.reads := by
        intro spawn left gate hm
        have hrep : spawn ∈ s.reports fromSlice (.connectionReady id' r) := by
          rw [← step_spawns]
          simp only [step, hsrc, if_true]
          exact mem_spawns hm
        simp only [reports, hlook, hsrc, true_and] at hrep
        split at hrep
        · rename_i hread
          exact ⟨hread, hrep⟩
        · cases hrep
      rcases s.handleConnectionReady_lookup fromSlice r hlook with
        ⟨hnone, hterm⟩ | ⟨cs', hsome, hag⟩
      · rw [hnone]
        exact .tornDown hlook hsrc hterm hsp
      · rw [hsome]
        exact .read hlook hsrc hag hsp
  · have hlook : (s.handleConnectionReady fromSlice id r).1.connections.lookup id'
        = s.connections.lookup id' := by
      unfold handleConnectionReady
      split
      · rfl
      · exact greeterEnd_lookup_ne _ _ hid
    rw [hlook]
    exact .same fun spawn left gate hm => hid (s.handleConnectionReady_spawned fromSlice hm)

/-- The connection the broker spoke on. -/
theorem handleBrokerReady_lookup (s : HalmasuitState) {id : Nat} (env : Env) (recv : Recv)
    (w : Answers) {cs : ConnState} (hlook : s.connections.lookup id = some cs) :
    ∃ cs', (s.handleBrokerReady fromSlice id true env recv w).1.connections.lookup id = some cs' ∧
      (cs.fed (cs.episode.onBrokerReadable fromSlice env recv)).Agrees cs' := by
  unfold handleBrokerReady
  simp only [hlook, if_true]
  rw [brokerEnd_connections]
  exact feedOutcome_lookup _ id _ w (AList.lookup_insert _)

theorem handleBrokerReady_conn (s : HalmasuitState) (id id' : Nat) (readable : Bool) (env : Env)
    (recv : Recv) (w : Answers) (hsrc : Source.broker id ∈ s.sources) :
    ConnMoves fromSlice s id' (s.handleBrokerReady fromSlice id readable env recv w).2
      (.brokerReady id readable env recv w)
      ((s.handleBrokerReady fromSlice id readable env recv w).1.connections.lookup id') := by
  cases hlook : s.connections.lookup id with
  | none =>
    have hnone : s.handleBrokerReady fromSlice id readable env recv w
        = (s.unregister (.broker id), []) := by
      simp [handleBrokerReady, hlook]
    rw [hnone]
    exact .same (by simp)
  | some cs =>
    cases readable with
    | false =>
      have hidle : s.handleBrokerReady fromSlice id false env recv w
          = (s.brokerEnd id cs.terminate cs.greeterToken, []) := by
        simp [handleBrokerReady, hlook]
      rw [hidle, brokerEnd_connections]
      exact .same (by simp)
    | true =>
      have hev : ∀ spawn left gate,
          .spawned id' spawn left gate ∈ (s.handleBrokerReady fromSlice id true env recv w).2 →
          id' = id ∧ (cs.episode.onBrokerReadable fromSlice env recv).out.spawned = some spawn := by
        intro spawn left gate hm
        simp only [handleBrokerReady, hlook, if_true, List.mem_cons, reduceCtorEq, false_or] at hm
        rcases List.mem_append.mp hm with hm | hm
        · cases hsp : (cs.episode.onBrokerReadable fromSlice env recv).out.spawned with
          | none =>
            rw [hsp] at hm
            cases hm
          | some spawn' =>
            rw [hsp] at hm
            cases List.mem_singleton.mp hm
            exact ⟨rfl, rfl⟩
        · have hfed := mem_spawns hm
          rw [spawns_feedOutcome] at hfed
          cases hfed
      by_cases hid : id' = id
      · subst hid
        obtain ⟨cs', hsome, hag⟩ := s.handleBrokerReady_lookup fromSlice env recv w hlook
        rw [hsome]
        refine .broker hlook hsrc hag (fun spawn left gate hm => (hev spawn left gate hm).2) ?_
        simp [handleBrokerReady, hlook]
      · have hsame : (s.handleBrokerReady fromSlice id true env recv w).1.connections.lookup id'
            = s.connections.lookup id' := by
          unfold handleBrokerReady
          simp only [hlook, if_true]
          rw [brokerEnd_connections, feedOutcome_lookup_ne _ _ _ hid, setConn_lookup_ne _ _ hid]
        rw [hsame]
        exact .same fun spawn left gate hm => hid (hev spawn left gate hm).1

theorem accept_conn (s : HalmasuitState) (a : Accept) (id : Nat) :
    ConnMoves fromSlice s id [] (.accept a) ((s.accept a).connections.lookup id) := by
  unfold accept
  split_ifs
  · exact .same (by simp)
  · exact .same (by simp)
  · exact .same (by simp)
  · by_cases hid : id = s.nextConnId
    · subst hid
      rw [AList.lookup_insert]
      exact .accepted rfl rfl
    · rw [AList.lookup_insert_ne hid]
      exact .same (by simp)
  · exact .same (by simp)

theorem handleLeaderPidfdReady_conn (s : HalmasuitState) (id id' : Nat) (w : Answers)
    (hno : ∀ spawn left gate,
      .spawned id' spawn left gate ∉ (s.handleLeaderPidfdReady id w).2) :
    ConnMoves fromSlice s id' (s.handleLeaderPidfdReady id w).2 (.leaderPidfdReady id w)
      ((s.handleLeaderPidfdReady id w).1.connections.lookup id') := by
  cases hlook : s.connections.lookup id with
  | none =>
    have hconn : (s.handleLeaderPidfdReady id w).1.connections = s.connections := by
      simp only [handleLeaderPidfdReady, hlook]
      rfl
    rw [hconn]
    exact .same hno
  | some cs =>
    have hconn : (s.handleLeaderPidfdReady id w).1.connections
        = (s.setConn id { cs with leaderPidfdToken := false }).connections := by
      simp only [handleLeaderPidfdReady, hlook]
      rfl
    rw [hconn]
    by_cases hid : id' = id
    · subst hid
      rw [show (s.setConn id' { cs with leaderPidfdToken := false }).connections.lookup id'
        = some _ from AList.lookup_insert _]
      exact .leader hlook ⟨rfl, rfl, rfl, rfl⟩ hno
    · rw [setConn_lookup_ne _ _ hid]
      exact .same hno

theorem idle_conn (s : HalmasuitState) (id : Nat)
    (hno : ∀ spawn left gate, .spawned id spawn left gate ∉ s.idle.2) :
    ConnMoves fromSlice s id s.idle.2 .idle (s.idle.1.connections.lookup id) := by
  revert hno
  unfold idle
  cases hidles : s.idles with
  | nil => exact fun hno => .same hno
  | cons id' rest =>
    dsimp only
    intro hno
    by_cases hid : id = id'
    · subst hid
      rw [AList.lookup_erase]
      exact .idled (by simp [hidles]) hno
    · rw [AList.lookup_erase_ne hid]
      exact .same hno

/-- **What a callback does to one connection.** -/
theorem step_conn (s : HalmasuitState) (i : Input) (id : Nat) :
    ConnMoves fromSlice s id (s.step fromSlice i).2 i
      ((s.step fromSlice i).1.connections.lookup id) := by
  have hsp := s.step_spawns fromSlice i
  cases i with
  | accept a => exact s.accept_conn fromSlice a id
  | connectionReady id' r =>
    unfold step
    dsimp only
    split_ifs with hsrc
    · exact s.handleConnectionReady_conn fromSlice id' id r hsrc
    · exact .same (by simp)
  | brokerReady id' readable env recv w =>
    unfold step
    dsimp only
    split_ifs with hsrc
    · exact s.handleBrokerReady_conn fromSlice id' id readable env recv w hsrc
    · exact .same (by simp)
  | leaderPidfdReady id' w =>
    have hno := spawned_notMem hsp id
    revert hno
    unfold step
    dsimp only
    split_ifs
    · exact s.handleLeaderPidfdReady_conn fromSlice id' id w
    · exact .same
  | idle => exact s.idle_conn fromSlice id (spawned_notMem hsp id)
  | waylandConnect uid =>
    have hno := spawned_notMem hsp id
    revert hno
    unfold step waylandConnect
    dsimp only
    split_ifs <;> exact .same
  | postPivotSetup listener spawned dropped =>
    have hno := spawned_notMem hsp id
    revert hno
    unfold step postPivotSetup
    dsimp only
    split_ifs
    · cases listener <;> exact .same
    · exact .same
  | prepareForShutdown arming w => exact .same (spawned_notMem hsp id)
  | stopSignal w => exact .same (spawned_notMem hsp id)
  | childReaped pid => exact .same (spawned_notMem hsp id)
  | _ =>
    have hno := spawned_notMem hsp id
    revert hno
    unfold step
    dsimp only
    split_ifs <;> exact .same

/-! ## The table and its sources -/

theorem mem_unregister {s : HalmasuitState} {src src' : Source} (h : src' ≠ src)
    (hm : src' ∈ s.sources) : src' ∈ (s.unregister src).sources := by
  unfold unregister
  exact List.mem_filter.mpr ⟨hm, by simpa using h⟩

theorem greeterEnd_sources (s : HalmasuitState) (id : Nat) (cs : ConnState) {id' : Nat}
    (hm : Source.broker id' ∈ s.sources)
    (h : id' = id → (greeterEnd s id cs).1.connections.lookup id ≠ none) :
    Source.broker id' ∈ (greeterEnd s id cs).1.sources := by
  unfold greeterEnd at h ⊢
  split
  · rename_i hterm
    have hid : id' ≠ id := by
      intro hid
      refine h hid ?_
      rw [if_pos hterm]
      dsimp only
      split <;> split <;> exact AList.lookup_erase _ _
    have hb : Source.broker id' ≠ .broker id := by simpa using hid
    dsimp only
    refine mem_unregister (by simp) ?_
    split <;> split
    · exact mem_unregister (by simp) (mem_unregister hb hm)
    · exact mem_unregister (by simp) hm
    · exact mem_unregister hb hm
    · exact hm
  · split
    · exact mem_unregister (by simp) hm
    · exact hm

theorem greeterEnd_rest (s : HalmasuitState) (id : Nat) (cs : ConnState) :
    (greeterEnd s id cs).1.idles = s.idles ∧ (greeterEnd s id cs).1.nextConnId = s.nextConnId := by
  unfold greeterEnd
  split
  · dsimp only
    split <;> split <;> exact ⟨rfl, rfl⟩
  · split <;> exact ⟨rfl, rfl⟩

theorem armLeaderPidfdBackstop_rest (s : HalmasuitState) (id : Nat) (ok : Bool) :
    (∀ src ∈ s.sources, src ∈ (s.armLeaderPidfdBackstop id ok).sources) ∧
      (s.armLeaderPidfdBackstop id ok).idles = s.idles ∧
      (s.armLeaderPidfdBackstop id ok).nextConnId = s.nextConnId := by
  unfold armLeaderPidfdBackstop
  split
  · exact ⟨fun _ h => h, rfl, rfl⟩
  · split
    · exact ⟨fun _ h => h, rfl, rfl⟩
    · dsimp only
      split
      · exact ⟨fun _ h => List.mem_cons_of_mem _ h, rfl, rfl⟩
      · exact ⟨fun _ h => h, rfl, rfl⟩

theorem feedOutcome_rest (s : HalmasuitState) (id : Nat) (out : EpisodeOutcome) (w : Answers) :
    (∀ src ∈ s.sources, src ∈ (s.feedOutcome id out w).1.sources) ∧
      (s.feedOutcome id out w).1.idles = s.idles ∧
      (s.feedOutcome id out w).1.nextConnId = s.nextConnId := by
  unfold feedOutcome
  dsimp only
  split
  · split
    · exact armLeaderPidfdBackstop_rest (s.feedGate _ w).1 id w.armPidfd
    · exact ⟨fun _ h => h, rfl, rfl⟩
  · split
    · exact armLeaderPidfdBackstop_rest (s.feedGate _ w).1 id w.armPidfd
    · exact ⟨fun _ h => h, rfl, rfl⟩

/-- The table of connections: ids are not used again, an idle callback is pending only for episodes
that are over, and an episode that is not over has its broker source. -/
structure Wired (s : HalmasuitState) : Prop where
  bounded : ∀ id cs, s.connections.lookup id = some cs → id < s.nextConnId
  idles : ∀ id ∈ s.idles, id < s.nextConnId ∧
    ∀ cs, s.connections.lookup id = some cs → cs.terminate = true
  wired : ∀ id cs, s.connections.lookup id = some cs → cs.terminate = false →
    Source.broker id ∈ s.sources

/-- What a callback leaves of the table's bookkeeping. -/
structure Keeps (s s' : HalmasuitState) : Prop where
  next : s.nextConnId ≤ s'.nextConnId
  idles : ∀ id ∈ s'.idles, id ∈ s.idles ∨
    (s.connections.lookup id ≠ none ∧ ∃ cs, s'.connections.lookup id = some cs ∧
    cs.terminate = true)
  wired : ∀ id cs, Source.broker id ∈ s.sources → s'.connections.lookup id = some cs →
    cs.terminate = false → Source.broker id ∈ s'.sources

/-- A callback that takes no broker source out and defers no drop. -/
theorem Keeps.table {s s' : HalmasuitState} (hnext : s'.nextConnId = s.nextConnId)
    (hidles : s'.idles = s.idles)
    (hsrc : ∀ id, Source.broker id ∈ s.sources → Source.broker id ∈ s'.sources) : Keeps s s' where
  next := Nat.le_of_eq hnext.symm
  idles := fun _ h => .inl (hidles ▸ h)
  wired := fun id _ h _ _ => hsrc id h

theorem Keeps.refl (s : HalmasuitState) : Keeps s s := .table rfl rfl fun _ h => h

/-- The end of `handle_broker_ready`, on a table in which the connection has the flag it reads. -/
theorem brokerEnd_keeps {s s' : HalmasuitState} {id : Nat} {cs : ConnState} (h : Keeps s s')
    (hlook : s.connections.lookup id ≠ none) (hcs : s'.connections.lookup id = some cs)
    (greeterAttached : Bool) : Keeps s (s'.brokerEnd id cs.terminate greeterAttached) := by
  unfold brokerEnd
  split
  · rename_i hend
    have hterm : cs.terminate = true := (Bool.and_eq_true_iff.mp hend).1
    refine ⟨h.next, ?_, ?_⟩
    · intro id' hm
      rcases List.mem_append.mp hm with hm | hm
      · exact h.idles id' hm
      · obtain rfl := List.mem_singleton.mp hm
        exact .inr ⟨hlook, cs, hcs, hterm⟩
    · intro id' cs' hsrc hcs' hlive
      have hlook' : s'.connections.lookup id' = some cs' := hcs'
      have hid : id' ≠ id := by
        rintro rfl
        obtain rfl : cs = cs' := Option.some.inj (hcs.symm.trans hlook')
        rw [hterm] at hlive
        cases hlive
      exact mem_unregister (by simpa using hid) (h.wired id' cs' hsrc hlook' hlive)
  · exact h

theorem handleBrokerReady_keeps (s : HalmasuitState) (id : Nat) (readable : Bool) (env : Env)
    (recv : Recv) (w : Answers) :
    Keeps s (s.handleBrokerReady fromSlice id readable env recv w).1 := by
  unfold handleBrokerReady
  cases hlook : s.connections.lookup id with
  | none =>
    refine ⟨le_rfl, fun _ h => .inl h, fun id' cs' hsrc hcs' _ => ?_⟩
    have hid : id' ≠ id := by
      rintro rfl
      have hlook' : s.connections.lookup id' = some cs' := hcs'
      rw [hlook] at hlook'
      cases hlook'
    exact mem_unregister (by simpa using hid) hsrc
  | some cs =>
    dsimp only
    split
    · obtain ⟨cs', hsome, hag⟩ := feedOutcome_lookup ({ s with toScene := (recorded s.toScene id
        (cs.episode.onBrokerReadable fromSlice env recv).out.spawned).1 }.setConn id
        (cs.fed (cs.episode.onBrokerReadable fromSlice env recv))) id
        (cs.episode.onBrokerReadable fromSlice env recv).out w (AList.lookup_insert _)
      obtain ⟨hsrc, hidles, hnext⟩ := feedOutcome_rest ({ s with toScene := (recorded s.toScene id
        (cs.episode.onBrokerReadable fromSlice env recv).out.spawned).1 }.setConn id
        (cs.fed (cs.episode.onBrokerReadable fromSlice env recv))) id
        (cs.episode.onBrokerReadable fromSlice env recv).out w
      rw [← hag.terminate]
      have hfed : Keeps s _ := .table hnext hidles fun id' h => hsrc _ h
      exact brokerEnd_keeps hfed (by simp [hlook]) hsome _
    · exact brokerEnd_keeps (.refl s) (by simp [hlook]) hlook _

theorem accept_keeps (s : HalmasuitState) (a : Accept) : Keeps s (s.accept a) := by
  unfold accept
  split_ifs
  · exact .refl s
  · exact .refl s
  · exact .refl s
  · exact ⟨Nat.le_succ _, fun _ h => .inl h,
      fun _ _ h _ _ => List.mem_cons_of_mem _ (List.mem_cons_of_mem _ h)⟩
  · exact ⟨Nat.le_succ _, fun _ h => .inl h, fun _ _ h _ _ => h⟩

theorem handleConnectionReady_keeps (s : HalmasuitState) (id : Nat) (r : StreamReady) :
    Keeps s (s.handleConnectionReady fromSlice id r).1 := by
  unfold handleConnectionReady
  split
  · exact .table rfl rfl fun _ h => mem_unregister (by simp) h
  · dsimp only
    refine ⟨?_, ?_, ?_⟩
    · rw [(greeterEnd_rest _ id _).2]
    · intro id' hm
      rw [(greeterEnd_rest _ id _).1] at hm
      exact .inl hm
    · intro id' cs' hm hlook _
      refine greeterEnd_sources _ id _ hm ?_
      rintro rfl
      simp [hlook]

theorem handleLeaderPidfdReady_keeps (s : HalmasuitState) (id : Nat) (w : Answers) :
    Keeps s (s.handleLeaderPidfdReady id w).1 := by
  unfold handleLeaderPidfdReady
  split <;> exact .table rfl rfl fun _ h => mem_unregister (by simp) h

theorem idle_keeps (s : HalmasuitState) : Keeps s s.idle.1 := by
  unfold idle
  cases hidles : s.idles with
  | nil => exact .refl s
  | cons id rest =>
    dsimp only
    refine ⟨?_, ?_, ?_⟩
    · split
      · split <;> exact le_rfl
      · exact le_rfl
    · intro id' hm
      exact .inl (by rw [hidles]; exact List.mem_cons_of_mem _ hm)
    · intro id' cs' hm _ _
      dsimp only
      split
      · split
        · exact mem_unregister (by simp) hm
        · exact hm
      · exact hm

theorem step_keeps (s : HalmasuitState) (i : Input) : Keeps s (s.step fromSlice i).1 := by
  cases i with
  | accept a => exact s.accept_keeps a
  | connectionReady id r =>
    unfold step
    dsimp only
    split_ifs
    · exact s.handleConnectionReady_keeps fromSlice id r
    · exact .refl s
  | brokerReady id readable env recv w =>
    unfold step
    dsimp only
    split_ifs
    · exact s.handleBrokerReady_keeps fromSlice id readable env recv w
    · exact .refl s
  | leaderPidfdReady id w =>
    unfold step
    dsimp only
    split_ifs
    · exact s.handleLeaderPidfdReady_keeps id w
    · exact .refl s
  | idle => exact s.idle_keeps
  | waylandConnect uid =>
    unfold step waylandConnect
    dsimp only
    split_ifs <;> exact .table rfl rfl fun _ h => h
  | postPivotSetup listener spawned dropped =>
    unfold step postPivotSetup
    dsimp only
    split_ifs
    · cases listener <;> exact .table rfl rfl fun _ h => mem_unregister (by simp) h
    · exact .refl s
  | prepareForShutdown arming w => exact .table rfl rfl fun _ h => h
  | stopSignal w => exact .table rfl rfl fun _ h => h
  | childReaped pid => exact .table rfl rfl fun _ h => h
  | _ =>
    unfold step
    dsimp only
    split_ifs
    · exact .table rfl rfl fun _ h => h
    · exact .refl s

/-- Nothing takes the end of an episode back. -/
theorem afterReads_terminate (reads : List ReadResult) : ∀ {cs : ConnState}, cs.terminate = true →
    (cs.afterReads fromSlice reads).terminate = true := by
  induction reads with
  | nil => exact fun h => h
  | cons r reads ih =>
    intro cs h
    cases r with
    | wouldBlock => exact h
    | error => simp [ConnState.afterReads, ConnState.greeterGone, h]
    | ok env bytes =>
      unfold ConnState.afterReads
      split
      · simp [ConnState.greeterGone, h]
      · have hfed : (cs.fed (cs.episode.onGreeterBytes fromSlice env bytes)).terminate = true := by
          simp [ConnState.fed, h]
        dsimp only
        split
        · exact hfed
        · exact ih hfed

theorem writeLoop_terminate (ws : List WriteResult) : ∀ {cs : ConnState}, cs.terminate = true →
    (writeLoop cs ws).terminate = true := by
  induction ws with
  | nil => exact fun h => h
  | cons w ws ih =>
    intro cs h
    unfold writeLoop
    split
    · exact h
    · split
      · simp [ConnState.greeterGone, h]
      · exact ih h
      · exact h
      · simp [ConnState.greeterGone, h]

theorem afterReady_terminate {cs : ConnState} (r : StreamReady) (h : cs.terminate = true) :
    (cs.afterReady fromSlice r).terminate = true := by
  unfold ConnState.afterReady
  dsimp only
  split
  · refine writeLoop_terminate _ ?_
    split
    · exact afterReads_terminate fromSlice _ h
    · exact h
  · split
    · exact afterReads_terminate fromSlice _ h
    · exact h

theorem accept_lookup (s : HalmasuitState) (a : Accept) {id : Nat} {cs : ConnState}
    (h : (s.accept a).connections.lookup id = some cs) : s.connections.lookup id = some cs ∨
      (id = s.nextConnId ∧ id < (s.accept a).nextConnId ∧
        Source.broker id ∈ (s.accept a).sources) := by
  revert h
  unfold accept
  dsimp only
  split_ifs
  · exact .inl
  · exact .inl
  · exact .inl
  · intro h
    by_cases hid : id = s.nextConnId
    · subst hid
      exact .inr ⟨rfl, Nat.lt_succ_self _, by simp⟩
    · rw [AList.lookup_insert_ne hid] at h
      exact .inl h
  · exact .inl

/-- An episode that is over stays over. -/
theorem ConnMoves.terminate {s : HalmasuitState} {id : Nat} {es : List Event} {i : Input}
    {cs cs' : ConnState} {o : Option ConnState} (h : ConnMoves fromSlice s id es i o)
    (ho : o = some cs') (hlook : s.connections.lookup id = some cs) (hid : id < s.nextConnId)
    (ht : cs.terminate = true) : cs'.terminate = true := by
  cases h with
  | same hsp =>
    obtain rfl : cs = cs' := Option.some.inj (hlook.symm.trans ho)
    exact ht
  | accepted hid' hes => exact absurd hid (by omega)
  | read hlook' hsrc hcs hsp =>
    obtain rfl := Option.some.inj (hlook.symm.trans hlook')
    obtain rfl := Option.some.inj ho
    rw [hcs.terminate]
    exact afterReady_terminate fromSlice _ ht
  | tornDown => cases ho
  | broker hlook' hsrc hcs hsp hev =>
    obtain rfl := Option.some.inj (hlook.symm.trans hlook')
    obtain rfl := Option.some.inj ho
    rw [hcs.terminate]
    simp [ConnState.fed, ht]
  | leader hlook' hcs hsp =>
    obtain rfl := Option.some.inj (hlook.symm.trans hlook')
    obtain rfl := Option.some.inj ho
    rw [hcs.terminate, ht]
  | idled => cases ho

theorem wired_step (s : HalmasuitState) (i : Input) (h : Wired s) :
    Wired (s.step fromSlice i).1 := by
  have hkeep := s.step_keeps fromSlice i
  have hold : ∀ {id cs'}, (s.step fromSlice i).1.connections.lookup id = some cs' →
      (∃ cs, s.connections.lookup id = some cs) ∨ (id = s.nextConnId ∧
        id < (s.step fromSlice i).1.nextConnId ∧
        Source.broker id ∈ (s.step fromSlice i).1.sources) := by
    intro id cs' hlook
    have hm := s.step_conn fromSlice i id
    rw [hlook] at hm
    generalize ho : some cs' = o at hm
    cases hm with
    | same hsp => exact .inl ⟨cs', ho.symm⟩
    | accepted hid hes =>
      rcases s.accept_lookup _ hlook with h' | h'
      · exact .inl ⟨cs', h'⟩
      · exact .inr h'
    | read hlook' _ _ _ => exact .inl ⟨_, hlook'⟩
    | tornDown => cases ho
    | broker hlook' _ _ _ _ => exact .inl ⟨_, hlook'⟩
    | leader hlook' _ _ => exact .inl ⟨_, hlook'⟩
    | idled => cases ho
  refine ⟨?_, ?_, ?_⟩
  · intro id cs' hlook
    rcases hold hlook with ⟨cs, hcs⟩ | ⟨-, hlt, -⟩
    · exact Nat.lt_of_lt_of_le (h.bounded id cs hcs) hkeep.next
    · exact hlt
  · intro id hm
    rcases hkeep.idles id hm with hm | ⟨hne, cs', hcs', ht⟩
    · obtain ⟨hlt, hterm⟩ := h.idles id hm
      refine ⟨Nat.lt_of_lt_of_le hlt hkeep.next, fun cs' hlook => ?_⟩
      rcases hold hlook with ⟨cs, hcs⟩ | ⟨hid, -⟩
      · exact (s.step_conn fromSlice i id).terminate fromSlice hlook hcs hlt (hterm cs hcs)
      · omega
    · obtain ⟨cs, hcs⟩ := Option.ne_none_iff_exists'.mp hne
      refine ⟨Nat.lt_of_lt_of_le (h.bounded id cs hcs) hkeep.next, fun cs'' hlook => ?_⟩
      obtain rfl : cs' = cs'' := Option.some.inj (hcs'.symm.trans hlook)
      exact ht
  · intro id cs' hlook hlive
    rcases hold hlook with ⟨cs, hcs⟩ | ⟨-, -, hsrc⟩
    · refine hkeep.wired id cs' (h.wired id cs hcs ?_) hlook hlive
      by_contra hterm
      have hm := s.step_conn fromSlice i id
      rw [hm.terminate fromSlice hlook hcs (h.bounded id cs hcs) (by simpa using hterm)] at hlive
      cases hlive
    · exact hsrc

theorem wired_start (inInitramfs : Bool) (greeterUid : UInt32) (pamService : String)
    (greeter : Option UInt32) : Wired (start inInitramfs greeterUid pamService greeter) :=
  ⟨by simp [start], by simp [start], by simp [start]⟩

/-! ## What the events report -/

/-- A handed episode reports no spawn. -/
theorem readReports_handed {u : UInt32} {cs : ConnState} (h : Handed u cs.episode)
    (reads : List ReadResult) : readReports fromSlice cs reads = [] := by
  unfold readReports
  split
  · split
    · rfl
    · simp [(h.onGreeterBytes fromSlice _ _).2, EpisodeOutcome.default]
  · rfl

/-- A read loop reports one spawn at most. -/
theorem readReports_single (reads : List ReadResult) : ∀ cs : ConnState,
    readReports fromSlice cs reads = [] ∨ ∃ spawn, readReports fromSlice cs reads = [spawn] := by
  induction reads with
  | nil => exact fun cs => .inl rfl
  | cons r reads ih =>
    intro cs
    cases r with
    | wouldBlock => exact .inl rfl
    | error => exact .inl rfl
    | ok env bytes =>
      unfold readReports
      split
      · exact .inl rfl
      · dsimp only
        cases hsp : (cs.episode.onGreeterBytes fromSlice env bytes).out.spawned with
        | some spawn =>
          obtain ⟨hh, hterm, -⟩ := onGreeterBytes_spawned fromSlice env hsp
          have hrest : readReports fromSlice
              (cs.fed (cs.episode.onGreeterBytes fromSlice env bytes))
              reads = [] := readReports_handed fromSlice hh reads
          exact .inr ⟨spawn, by simp [hterm, hrest]⟩
        | none =>
          split
          · exact .inl rfl
          · exact ih _

/-- A callback reports one spawn at most. -/
theorem reports_single (s : HalmasuitState) (i : Input) :
    s.reports fromSlice i = [] ∨ ∃ spawn, s.reports fromSlice i = [spawn] := by
  cases i with
  | connectionReady id r =>
    unfold reports
    dsimp only
    split
    · split_ifs
      · exact readReports_single fromSlice _ _
      · exact .inl rfl
    · exact .inl rfl
  | brokerReady id readable env recv w =>
    unfold reports
    dsimp only
    split
    · rename_i cs _
      split_ifs
      · cases (cs.episode.onBrokerReadable fromSlice env recv).out.spawned with
        | none => exact .inl rfl
        | some spawn => exact .inr ⟨spawn, rfl⟩
      · exact .inl rfl
    · exact .inl rfl
  | _ => exact .inl rfl

/-- The connection a callback runs on. -/
def Input.conn : Input → Option Nat
  | .connectionReady id _ => some id
  | .brokerReady id _ _ _ _ => some id
  | _ => none

theorem readLoop_spawned {id id' : Nat} {spawn : SpawnRequest} {left : Option UInt32}
    {gate : SwapGate} (reads : List ReadResult) : ∀ (cs : ConnState) (sc : Scene),
    .spawned id' spawn left gate ∈ (readLoop fromSlice id cs sc reads).2.2 →
    id' = id ∧ gate = sc.swap ∧
      left = sc.sessionUid.or ((readReports fromSlice cs reads).head?.map SpawnRequest.uid) := by
  induction reads with
  | nil =>
    intro cs sc hm
    cases hm
  | cons r reads ih =>
    intro cs sc hm
    cases r with
    | wouldBlock => cases hm
    | error => cases hm
    | ok env bytes =>
      unfold readLoop at hm
      unfold readReports
      split at hm
      · cases hm
      · rename_i hne
        rw [if_neg hne]
        dsimp only at hm ⊢
        have hhere : ∀ rest, .spawned id' spawn left gate ∈ (recorded sc id
            (cs.episode.onGreeterBytes fromSlice env bytes).out.spawned).2 →
            id' = id ∧ gate = sc.swap ∧
              left = sc.sessionUid.or (((cs.episode.onGreeterBytes fromSlice
              env bytes).out.spawned.toList ++ rest).head?.map SpawnRequest.uid) := by
          intro rest hm
          cases hsp : (cs.episode.onGreeterBytes fromSlice env bytes).out.spawned with
          | none =>
            rw [hsp] at hm
            cases hm
          | some spawn' =>
            rw [hsp] at hm
            cases List.mem_singleton.mp hm
            refine ⟨rfl, rfl, ?_⟩
            unfold Scene.recordSessionStarted
            cases hu : sc.sessionUid with
            | none => rfl
            | some u => simp [hu]
        split at hm
        · exact hhere _ hm
        · rename_i hterm
          rcases List.mem_append.mp hm with hm | hm
          · exact hhere _ hm
          · obtain ⟨hid, hgate, hleft⟩ := ih _ _ hm
            rw [if_neg hterm]
            cases hsp : (cs.episode.onGreeterBytes fromSlice env bytes).out.spawned with
            | none =>
              rw [hsp] at hgate hleft
              exact ⟨hid, hgate, hleft⟩
            | some spawn' =>
              have hrest : readReports fromSlice
                  (cs.fed (cs.episode.onGreeterBytes fromSlice env bytes)) reads = [] :=
                readReports_handed fromSlice (onGreeterBytes_spawned fromSlice env hsp).1 reads
              have hnil := mem_spawns hm
              rw [spawns_readLoop, hrest] at hnil
              cases hnil

/-- What a reported spawn says: the connection of the callback, the gate before it, and the
session's uid after the record. -/
theorem step_spawned (s : HalmasuitState) {i : Input} {id : Nat} {spawn : SpawnRequest}
    {left : Option UInt32} {gate : SwapGate}
    (h : .spawned id spawn left gate ∈ (s.step fromSlice i).2) :
    s.reports fromSlice i = [spawn] ∧ i.conn = some id ∧ gate = s.swap ∧
      left = s.sessionUid.or (some spawn.uid) := by
  have hmem : spawn ∈ s.reports fromSlice i := by
    rw [← step_spawns]
    exact mem_spawns h
  have hrep : s.reports fromSlice i = [spawn] := by
    rcases s.reports_single fromSlice i with hnil | ⟨spawn', heq⟩
    · rw [hnil] at hmem
      cases hmem
    · rw [heq] at hmem
      rw [heq, List.mem_singleton.mp hmem]
  refine ⟨hrep, ?_⟩
  cases i with
  | connectionReady id' r =>
    unfold reports at hrep
    dsimp only at hrep
    split at hrep
    · rename_i cs hlook
      split_ifs at hrep with hsrc
      simp only [step, hsrc.1, if_true, handleConnectionReady, hlook, hsrc.2] at h
      rcases List.mem_append.mp h with h | h
      · obtain ⟨hid, hgate, hleft⟩ := readLoop_spawned fromSlice r.reads cs s.toScene h
        rw [hrep] at hleft
        exact ⟨by rw [hid]; rfl, hgate, hleft⟩
      · cases (greeterEnd_scene _ id' _).2 _ h
    · cases hrep
  | brokerReady id' readable env recv w =>
    unfold reports at hrep
    dsimp only at hrep
    split at hrep
    · rename_i cs hlook
      split_ifs at hrep with hsrc
      have hsp : (cs.episode.onBrokerReadable fromSlice env recv).out.spawned = some spawn := by
        cases hsp : (cs.episode.onBrokerReadable fromSlice env recv).out.spawned with
        | none =>
          rw [hsp] at hrep
          cases hrep
        | some spawn' =>
          rw [hsp] at hrep
          cases hrep
          rfl
      simp only [step, hsrc.1, if_true, handleBrokerReady, hlook, hsrc.2, List.mem_cons,
        reduceCtorEq,
        false_or] at h
      rcases List.mem_append.mp h with h | h
      · rw [hsp] at h
        cases List.mem_singleton.mp h
        refine ⟨rfl, rfl, ?_⟩
        unfold Scene.recordSessionStarted
        cases hu : s.sessionUid with
        | none => rfl
        | some u => simp [hu]
      · have hfed := mem_spawns h
        rw [spawns_feedOutcome] at hfed
        cases hfed
    · cases hrep
  | _ => cases hrep

/-- A spawn that a callback reports is one of its events. -/
theorem spawned_of_reports (s : HalmasuitState) {i : Input} {spawn : SpawnRequest}
    (h : s.reports fromSlice i = [spawn]) : ∃ id, i.conn = some id ∧
      .spawned id spawn (s.sessionUid.or (some spawn.uid)) s.swap ∈ (s.step fromSlice i).2 := by
  have hmem : spawn ∈ Scene.spawns (s.step fromSlice i).2 := by
    rw [step_spawns, h]
    simp
  obtain ⟨e, he, heq⟩ := List.mem_filterMap.mp hmem
  cases e with
  | spawned id spawn' left gate =>
    cases heq
    obtain ⟨-, hid, rfl, rfl⟩ := s.step_spawned fromSlice he
    exact ⟨id, hid, he⟩
  | _ => cases heq

/-- A callback of one connection leaves the others. -/
theorem step_conn_ne (s : HalmasuitState) {i : Input} {id id' : Nat} (hi : i.conn = some id)
    (h : id' ≠ id) :
    (s.step fromSlice i).1.connections.lookup id' = s.connections.lookup id' := by
  have hm := s.step_conn fromSlice i id'
  generalize (s.step fromSlice i).1.connections.lookup id' = o at hm
  cases hm with
  | same => rfl
  | read => exact absurd (Option.some.inj hi) h
  | tornDown => exact absurd (Option.some.inj hi) h
  | broker => exact absurd (Option.some.inj hi) h
  | _ => cases hi

/-! ## The episode of each connection -/

/-- The flag of a connection tells whether its episode was handed over. -/
structure Fits (cs : ConnState) : Prop where
  handed : cs.spawned = true → ∃ u, Handed u cs.episode
  waiting : Starting cs.episode → cs.spawned = true

theorem Fits.agrees {cs cs' : ConnState} (h : Fits cs) (ha : cs.Agrees cs') : Fits cs' := by
  constructor
  · intro hs
    obtain ⟨u, hh⟩ := h.handed (ha.spawned ▸ hs)
    exact ⟨u, hh.agrees ha⟩
  · rintro ⟨r, hr, hp⟩
    rw [ha.spawned]
    exact h.waiting ⟨r, ha.relay ▸ hr, hp⟩

/-- Greeter bytes at a connection that fits. -/
theorem Fits.greeter {cs : ConnState} (h : Fits cs) (env : Env) (bytes : List UInt8) :
    Fits (cs.fed (cs.episode.onGreeterBytes fromSlice env bytes)) := by
  cases hsp : (cs.episode.onGreeterBytes fromSlice env bytes).out.spawned with
  | some spawn =>
    have hs : (cs.fed (cs.episode.onGreeterBytes fromSlice env bytes)).spawned = true := by
      simp [ConnState.fed, hsp]
    exact ⟨fun _ => ⟨_, (onGreeterBytes_spawned fromSlice env hsp).1⟩, fun _ => hs⟩
  | none =>
    have hs : (cs.fed (cs.episode.onGreeterBytes fromSlice env bytes)).spawned = cs.spawned := by
      simp [ConnState.fed, hsp]
    constructor
    · intro hs'
      obtain ⟨u, hh⟩ := h.handed (hs ▸ hs')
      refine ⟨u, ?_⟩
      show Handed u (cs.episode.onGreeterBytes fromSlice env bytes).ep
      rw [(hh.onGreeterBytes fromSlice env bytes).1]
      exact hh
    · intro hst
      rw [hs]
      rcases onGreeterBytes_starting fromSlice env hst with hne | hst'
      · exact absurd hsp hne
      · exact h.waiting hst'

/-- A broker frame at a connection that fits. -/
theorem Fits.broker {cs : ConnState} (h : Fits cs) (env : Env) (recv : Recv) :
    Fits (cs.fed (cs.episode.onBrokerReadable fromSlice env recv)) := by
  cases hsp : (cs.episode.onBrokerReadable fromSlice env recv).out.spawned with
  | some spawn =>
    have hs : (cs.fed (cs.episode.onBrokerReadable fromSlice env recv)).spawned = true := by
      simp [ConnState.fed, hsp]
    exact ⟨fun _ => ⟨_, (onBrokerReadable_spawned fromSlice env hsp).1⟩, fun _ => hs⟩
  | none =>
    have hs : (cs.fed (cs.episode.onBrokerReadable fromSlice env recv)).spawned = cs.spawned := by
      simp [ConnState.fed, hsp]
    constructor
    · intro hs'
      obtain ⟨u, hh⟩ := h.handed (hs ▸ hs')
      exact ⟨u, (hh.onBrokerReadable fromSlice env recv).1⟩
    · intro hst
      rw [hs]
      rcases onBrokerReadable_starting fromSlice env hst with hne | ⟨hst', -⟩
      · exact absurd hsp hne
      · exact h.waiting hst'

theorem Fits.afterReads (reads : List ReadResult) : ∀ {cs : ConnState}, Fits cs →
    Fits (cs.afterReads fromSlice reads) := by
  induction reads with
  | nil => exact fun h => h
  | cons r reads ih =>
    intro cs h
    cases r with
    | wouldBlock => exact h
    | error => exact ⟨h.handed, h.waiting⟩
    | ok env bytes =>
      unfold ConnState.afterReads
      split
      · exact ⟨h.handed, h.waiting⟩
      · dsimp only
        split
        · exact h.greeter fromSlice env bytes
        · exact ih (h.greeter fromSlice env bytes)

theorem writeLoop_login (ws : List WriteResult) : ∀ cs : ConnState,
    (writeLoop cs ws).episode = cs.episode ∧ (writeLoop cs ws).spawned = cs.spawned := by
  induction ws with
  | nil => exact fun cs => ⟨rfl, rfl⟩
  | cons w ws ih =>
    intro cs
    unfold writeLoop
    split
    · exact ⟨rfl, rfl⟩
    · split
      · exact ⟨rfl, rfl⟩
      · exact ih _
      · exact ⟨rfl, rfl⟩
      · exact ⟨rfl, rfl⟩

theorem afterReady_login (cs : ConnState) (r : StreamReady) :
    (cs.afterReady fromSlice r).episode
      = (if r.readable then cs.afterReads fromSlice r.reads else cs).episode ∧
    (cs.afterReady fromSlice r).spawned
      = (if r.readable then cs.afterReads fromSlice r.reads else cs).spawned := by
  unfold ConnState.afterReady
  dsimp only
  split
  · exact writeLoop_login _ _
  · exact ⟨rfl, rfl⟩

theorem Fits.afterReady {cs : ConnState} (h : Fits cs) (r : StreamReady) :
    Fits (cs.afterReady fromSlice r) := by
  have hread : Fits (if r.readable then cs.afterReads fromSlice r.reads else cs) := by
    split
    · exact h.afterReads fromSlice r.reads
    · exact h
  obtain ⟨hep, hs⟩ := afterReady_login fromSlice cs r
  constructor
  · rw [hep, hs]
    exact hread.handed
  · rw [hep, hs]
    exact hread.waiting

/-- Every connection of the table fits. -/
def AllFit (s : HalmasuitState) : Prop := ∀ id cs, s.connections.lookup id = some cs → Fits cs

theorem allFit_step (s : HalmasuitState) (i : Input) (h : AllFit s) :
    AllFit (s.step fromSlice i).1 := by
  intro id cs' hlook
  have hm := s.step_conn fromSlice i id
  rw [hlook] at hm
  generalize ho : some cs' = o at hm
  cases hm with
  | same hsp => exact h id cs' ho.symm
  | accepted hid hes =>
    cases ho
    exact ⟨by simp [ConnState.new], by rintro ⟨r, hr, -⟩; cases hr⟩
  | read hlook' hsrc hcs hsp =>
    cases ho
    exact ((h id _ hlook').afterReady fromSlice _).agrees hcs
  | tornDown => cases ho
  | broker hlook' hsrc hcs hsp hev =>
    cases ho
    exact ((h id _ hlook').broker fromSlice _ _).agrees hcs
  | leader hlook' hcs hsp =>
    cases ho
    exact (h id _ hlook').agrees hcs
  | idled => cases ho

theorem allFit_start (inInitramfs : Bool) (greeterUid : UInt32) (pamService : String)
    (greeter : Option UInt32) : AllFit (start inInitramfs greeterUid pamService greeter) := by
  intro id cs h
  simp [start] at h

end

end HalmasuitState

end Halmasuit.Compositor
