import Halmasuit.Compositor.Episode

/-!
# Session launch of a broker episode

Any sequence of `on_greeter_bytes` (arbitrary bytes) and `on_broker_readable` (arbitrary frames,
spurious wakeups and transport errors, arbitrary send results) on a fresh `BrokerEpisode`.

`Core` is the invariant of the relay, the greetd connection and the challenge queue against the
trace, kept also in the middle of a call: a `Success` that is queued, was resumed or stands behind
an authenticated machine was accepted from the broker, and the phase bounds how many `Success`
frames were accepted and `StartSession` frames sent. `Mid` adds what the demand being acted on
says, `LaunchInv` what holds between calls.

- **`launch_authorized`**: at most one `StartSession` is sent, only after an accepted `Success` and
  never after a terminating outcome; a reported `spawned` carries the identity of the one accepted
  `Success` and an absolute command without NUL.
-/

namespace Halmasuit.Compositor

open Halmasuit.Greetd
open Halmasuit.SessionIpc
open Halmasuit.Lib

/-! ## Reading a trace -/

/-- What the greetd connection saw. -/
def connTrace (tr : List EpisodeEvent) : List ConnEvent :=
  tr.filterMap fun
    | .greetd e => some e
    | _ => none

/-- A `StartSession` sent. -/
def isStart : EpisodeEvent → Bool
  | .sent (.startSession _ _) => true
  | _ => false

/-- A `Success` accepted. -/
def isGrant : EpisodeEvent → Bool
  | .received (.success _ _ _) => true
  | _ => false

/-- Some call returned `terminate`. -/
def Terminated (tr : List EpisodeEvent) : Prop := ∃ o, .outcome o ∈ tr ∧ o.terminate = true

/-- What each event of a launch must find in the trace before it. -/
def Justified (pre : List EpisodeEvent) : EpisodeEvent → Prop
  | .sent (.startSession _ _) =>
    (∃ n uid gid, .received (.success n uid gid) ∈ pre) ∧ ¬ Terminated pre
  | .outcome o => ∀ s, o.spawned = some s →
    .received (.success s.username s.uid s.gid) ∈ pre ∧
    .sent (.startSession s.cmd (s.env.map splitEnvPair)) ∈ pre ∧ AbsoluteCommand s.cmd
  | _ => True

@[simp] theorem connTrace_append (tr es : List EpisodeEvent) :
    connTrace (tr ++ es) = connTrace tr ++ connTrace es := by
  simp [connTrace]

@[simp] theorem connTrace_greetd (es : List ConnEvent) :
    connTrace (es.map EpisodeEvent.greetd) = es := by
  simp [connTrace, List.filterMap_map]

@[simp] theorem connTrace_greetdEvents (r : Ran) :
    connTrace (greetdEvents r) = r.events ++ [r.result] := connTrace_greetd _

@[simp] theorem countP_greetdEvents_isStart (r : Ran) : (greetdEvents r).countP isStart = 0 := by
  simp [greetdEvents, List.countP_eq_zero, isStart]

@[simp] theorem countP_greetdEvents_isGrant (r : Ran) : (greetdEvents r).countP isGrant = 0 := by
  simp [greetdEvents, List.countP_eq_zero, isGrant]

theorem mem_greetdEvents {r : Ran} {e : EpisodeEvent} (h : e ∈ greetdEvents r) :
    ∃ e', e = .greetd e' := by
  simp only [greetdEvents, List.mem_map] at h
  obtain ⟨e', -, rfl⟩ := h
  exact ⟨e', rfl⟩

theorem terminated_append_greetd {tr : List EpisodeEvent} {r : Ran}
    (h : Terminated (tr ++ greetdEvents r)) : Terminated tr := by
  obtain ⟨o, ho, ht⟩ := h
  rcases List.mem_append.mp ho with h' | h'
  · exact ⟨o, h', ht⟩
  · obtain ⟨e', he'⟩ := mem_greetdEvents h'
    simp at he'

theorem terminated_snoc {tr : List EpisodeEvent} {e : EpisodeEvent}
    (he : ∀ o, e ≠ .outcome o) (h : Terminated (tr ++ [e])) : Terminated tr := by
  obtain ⟨o, ho, ht⟩ := h
  rcases List.mem_append.mp ho with h' | h'
  · exact ⟨o, h', ht⟩
  · exact absurd (by simpa using h' : EpisodeEvent.outcome o = e).symm (he o)

/-! ## The invariant -/

/-- The relay has left the authentication: `Success`, `Failure` or a poison was seen. -/
def decided : Option BrokerRelay → Bool
  | none => false
  | some r => r.phase ≠ .preAuth && r.phase ≠ .authing

/-- The relay has left the phase in which `StartSession` may be sent. -/
def launched : Option BrokerRelay → Bool
  | none => false
  | some r => r.phase ≠ .preAuth && r.phase ≠ .authing && r.phase ≠ .authed

/-- **The episode's parts against its trace**, in the middle of a call as well as between calls. -/
structure Core (relay : Option BrokerRelay) (conn : Connection) (queue : List PamStep)
    (tr : List EpisodeEvent) : Prop where
  connInv : ConnInv conn (connTrace tr)
  justified : Always Justified tr
  starts : tr.countP isStart ≤ 1
  noStart : launched relay = false → tr.countP isStart = 0
  grants : tr.countP isGrant ≤ 1
  noGrant : decided relay = false → tr.countP isGrant = 0
  /-- An authenticated relay accepted a `Success`. -/
  granted : ∀ r, relay = some r → r.phase = .authed → ∃ n uid gid,
    .received (.success n uid gid) ∈ tr
  /-- Once the session is starting the greetd connection is over. -/
  running : ∀ r, relay = some r → r.phase = .starting ∨ r.phase = .running → conn.closed = true
  queued : ∀ n uid gid, .success n uid gid ∈ queue → .received (.success n uid gid) ∈ tr
  resumed : ∀ n uid gid, .greetd (.resumed (.success n uid gid)) ∈ tr →
    .received (.success n uid gid) ∈ tr

/-- What the demand being acted on says. -/
def Mid (ep : BrokerEpisode) (tr : List EpisodeEvent) : Demand → Prop
  | .continue => ep.conn.closed = false ∧ ep.conn.awaitingPam = false ∧
      ep.greetdReadyForChallenge = false ∧ ¬ Terminated tr
  | .pam _ => ep.conn.closed = false ∧ ep.conn.awaitingPam = true ∧ ¬ Terminated tr
  | .spawn s => ep.conn.closed = true ∧ ¬ Terminated tr ∧
      .received (.success s.username s.uid s.gid) ∈ tr
  | .close => ep.conn.closed = true

/-- Between calls: the ready flag mirrors the connection's suspend flag, and after a terminating
outcome the connection is closed or cannot move. -/
structure LaunchInv (fromSlice : List UInt8 → Option Request) (ep : BrokerEpisode)
    (tr : List EpisodeEvent) : Prop where
  core : Core ep.relay ep.conn ep.pendingChallenges tr
  mirror : ep.conn.closed = false → ep.greetdReadyForChallenge = ep.conn.awaitingPam
  stop : Terminated tr → ep.conn.closed = true ∨ ep.conn.Stuck fromSlice

/-- What a call guarantees before its outcome joins the trace. -/
structure Final (fromSlice : List UInt8 → Option Request) (a : Acted) (tr : List EpisodeEvent) :
    Prop where
  core : Core a.ep.relay a.ep.conn a.ep.pendingChallenges (tr ++ a.events)
  mirror : a.ep.conn.closed = false → a.ep.greetdReadyForChallenge = a.ep.conn.awaitingPam
  stop : Terminated (tr ++ a.events) ∨ a.out.terminate = true →
    a.ep.conn.closed = true ∨ a.ep.conn.Stuck fromSlice
  spawned : Justified (tr ++ a.events) (.outcome a.out)

/-! ## One event at a time -/

variable {fromSlice : List UInt8 → Option Request} {relay : Option BrokerRelay}
  {conn : Connection} {queue : List PamStep} {tr : List EpisodeEvent}

/-- A greetd call: the connection changes as `step_inv` says. -/
theorem Core.greetd (h : Core relay conn queue tr) (fromSlice : List UInt8 → Option Request)
    (i : Call)
    (hres : ∀ n uid gid, .resumed (.success n uid gid) ∈ (conn.call fromSlice i).events →
      .received (.success n uid gid) ∈ tr) :
    Core relay (conn.call fromSlice i).conn queue
      (tr ++ greetdEvents (conn.call fromSlice i)) := by
  generalize hran : conn.call fromSlice i = ran at hres
  have hinv : ConnInv ran.conn (connTrace (tr ++ greetdEvents ran)) := by
    have := step_inv fromSlice conn (connTrace tr) i h.connInv
    simpa [← hran, Connection.step] using this
  have hclosed : conn.closed = true → ran.conn.closed = true := by
    intro hc
    rw [← hran]
    cases i with
    | feedGreeter bs => simp [Connection.call, feedGreeter_closed hc, hc]
    | resumePam step => simp [Connection.call, resumePam_closed hc, hc]
    | brokerClosed => simp [Connection.call, brokerClosed_closed hc, hc]
  have hmem : ∀ {f : BrokerToCompositor}, .received f ∈ tr → .received f ∈ tr ++ greetdEvents ran :=
    fun hf => List.mem_append_left _ hf
  refine ⟨hinv, h.justified.append_of_forall ?_, ?_, ?_, ?_, ?_, ?_, ?_, ?_, ?_⟩
  · intro e he pre
    obtain ⟨e', rfl⟩ := mem_greetdEvents he
    trivial
  · simpa using h.starts
  · simpa using h.noStart
  · simpa using h.grants
  · simpa using h.noGrant
  · intro r hr hp
    obtain ⟨n, uid, gid, hm⟩ := h.granted r hr hp
    exact ⟨n, uid, gid, hmem hm⟩
  · intro r hr hp
    exact hclosed (h.running r hr hp)
  · intro n uid gid hq
    exact hmem (h.queued n uid gid hq)
  · intro n uid gid hm
    rcases List.mem_append.mp hm with h' | h'
    · exact hmem (h.resumed n uid gid h')
    · refine hmem (hres n uid gid ?_)
      simp only [greetdEvents, List.map_append, List.mem_append, List.mem_map] at h'
      rcases h' with ⟨e, he, heq⟩ | ⟨e, he, heq⟩
      · cases heq
        exact he
      · cases heq
        simp only [List.mem_singleton, Ran.result] at he
        split at he <;> simp at he

/-- A frame other than `StartSession` is sent; the relay stays on its side of `Success`. -/
theorem Core.sent (h : Core relay conn queue tr) {r : BrokerRelay} {f : CompositorToBroker}
    (hd : relay = none ∨ ∃ r₀, relay = some r₀ ∧ (r₀.phase = .preAuth ∨ r₀.phase = .authing))
    (hr : r.phase = .authing) (hf : isStart (.sent f) = false) :
    Core (some r) conn queue (tr ++ [EpisodeEvent.sent f]) := by
  have hdec : decided relay = false ∧ launched relay = false := by
    rcases hd with rfl | ⟨r₀, rfl, hp | hp⟩ <;> simp [decided, launched, *]
  have hstart : (tr ++ [EpisodeEvent.sent f]).countP isStart = 0 := by
    simp [h.noStart hdec.2, hf]
  have hgrant : (tr ++ [EpisodeEvent.sent f]).countP isGrant = 0 := by
    simp [h.noGrant hdec.1, isGrant]
  have hmem : ∀ {f' : BrokerToCompositor}, .received f' ∈ tr →
      .received f' ∈ tr ++ [EpisodeEvent.sent f] :=
    fun hf => List.mem_append_left _ hf
  refine ⟨by simpa [connTrace] using h.connInv, h.justified.snoc ?_, by omega, fun _ => hstart,
    by omega, fun _ => hgrant, ?_, ?_, ?_, ?_⟩
  · cases f <;> trivial
  · rintro r' hr' hp
    obtain rfl : r = r' := by simpa using hr'
    simp [hr] at hp
  · rintro r' hr' hp
    obtain rfl : r = r' := by simpa using hr'
    simp [hr] at hp
  · intro n uid gid hq
    exact hmem (h.queued n uid gid hq)
  · intro n uid gid hm
    exact hmem (h.resumed n uid gid (by simpa using hm))

/-- The relay and the queue may change where the trace does not, as long as the relay's phase
still bounds the trace. -/
theorem Core.weaken {relay' : Option BrokerRelay} {queue' : List PamStep}
    (h : Core relay conn queue tr) (hl : launched relay' = false → launched relay = false)
    (hd : decided relay' = false → decided relay = false)
    (ha : ∀ r, relay' = some r → r.phase = .authed → ∃ n uid gid,
    .received (.success n uid gid) ∈ tr)
    (hrun : ∀ r, relay' = some r → r.phase = .starting ∨ r.phase = .running → conn.closed = true)
    (hq : ∀ n uid gid, .success n uid gid ∈ queue' → .received (.success n uid gid) ∈ tr) :
    Core relay' conn queue' tr :=
  ⟨h.connInv, h.justified, h.starts, fun h' => h.noStart (hl h'), h.grants,
    fun h' => h.noGrant (hd h'), ha, hrun, hq, h.resumed⟩

/-- `fail_closed` keeps the invariant, whatever relay it poisons. -/
theorem Core.failClosed {ep : BrokerEpisode} {out : EpisodeOutcome}
    (h : Core relay ep.conn queue tr)
    (hn : ep.relay = none → relay = none)
    (hq : ∀ s ∈ ep.pendingChallenges, s ∈ queue) (hout : out.spawned = none) :
    Final fromSlice (ep.failClosed out) tr := by
  obtain ⟨hclosed, reply, hres, hev⟩ := brokerClosed_isClosed ep.conn
  have hpoison : ∀ r, ep.relay.map BrokerRelay.poison = some r → r.phase = .done := by
    intro r hr
    obtain ⟨r₀, -, rfl⟩ := Option.map_eq_some_iff.mp hr
    rfl
  have h1 : Core (ep.relay.map BrokerRelay.poison) ep.conn ep.pendingChallenges tr := by
    refine h.weaken ?_ ?_ ?_ ?_ fun n uid gid hm => h.queued n uid gid (hq _ hm)
    · intro hl
      cases hrel : ep.relay with
      | none => rw [hn hrel]; rfl
      | some r => simp [hrel, launched, BrokerRelay.poison] at hl
    · intro hd
      cases hrel : ep.relay with
      | none => rw [hn hrel]; rfl
      | some r => simp [hrel, decided, BrokerRelay.poison] at hd
    · intro r hr hp
      simp [hpoison r hr] at hp
    · intro r hr hp
      simp [hpoison r hr] at hp
  have h2 : Core (ep.relay.map BrokerRelay.poison) ep.conn ep.pendingChallenges
      (tr ++ [EpisodeEvent.failedClosed]) := by
    refine ⟨by simpa [connTrace] using h1.connInv, h1.justified.snoc trivial, ?_, ?_, ?_, ?_, ?_,
      h1.running, ?_, ?_⟩
    · simpa [isStart] using h1.starts
    · simpa [isStart] using h1.noStart
    · simpa [isGrant] using h1.grants
    · simpa [isGrant] using h1.noGrant
    · simpa using h1.granted
    · simpa using h1.queued
    · simpa using h1.resumed
  have h3 := h2.greetd fromSlice .brokerClosed
    (by simp [Connection.call, hev])
  refine ⟨?_, ?_, fun _ => .inl hclosed, ?_⟩
  · simpa [BrokerEpisode.failClosed, Connection.call] using h3
  · intro hc
    simp [BrokerEpisode.failClosed, hclosed] at hc
  · intro s hs
    simp [BrokerEpisode.failClosed, hout] at hs

/-- A returned `Spawn` carries an identity the broker granted. -/
theorem Core.spawn_granted {ran : Ran} {reply : List UInt8} {s : SpawnRequest}
    (h : Core relay ran.conn queue (tr ++ greetdEvents ran))
    (hres : ran.res = .ok ⟨reply, .spawn s⟩) :
    .received (.success s.username s.uid s.gid) ∈ tr ++ greetdEvents ran := by
  have hsplit : connTrace (tr ++ greetdEvents ran)
      = (connTrace tr ++ ran.events) ++ ConnEvent.returned ⟨reply, .spawn s⟩ :: [] := by
    simp [Ran.result, hres]
  obtain ⟨a, b, heq, -, -⟩ := h.connInv.trace.spawn _ _ _ _ hsplit
  refine h.resumed _ _ _ ?_
  have hmem : ConnEvent.resumed (.success s.username s.uid s.gid)
      ∈ connTrace (tr ++ greetdEvents ran) := by
    rw [hsplit, heq]
    simp
  simp only [connTrace, List.mem_filterMap] at hmem
  obtain ⟨e, he, heq'⟩ := hmem
  cases e <;> simp at heq'
  subst heq'
  exact he

/-- The demand a greetd call returned, with what the call left behind. -/
theorem Core.mid {ran : Ran} {o : Outcome}
    (h : Core relay ran.conn queue (tr ++ greetdEvents ran)) (ep : BrokerEpisode)
    (hep : ep.conn = ran.conn)
    (hready : ep.greetdReadyForChallenge = false) (hsound : ran.Sound) (hres : ran.res = .ok o)
    (hstop : o.demand ≠ .close → ¬ Terminated tr) :
    Mid ep (tr ++ greetdEvents ran) o.demand := by
  obtain ⟨reply, d⟩ := o
  have hterm : d ≠ .close → ¬ Terminated (tr ++ greetdEvents ran) :=
    fun hd ht => hstop hd (terminated_append_greetd ht)
  rw [Ran.Sound, hres] at hsound
  cases d with
  | «continue» =>
    exact ⟨by rw [hep]; exact hsound.1, by rw [hep]; exact hsound.2, hready, hterm (by simp)⟩
  | pam r => exact ⟨by rw [hep]; exact hsound.1, by rw [hep]; exact hsound.2, hterm (by simp)⟩
  | spawn s => exact ⟨by rw [hep]; exact hsound, hterm (by simp), h.spawn_granted hres⟩
  | close => exact (by rw [hep]; exact hsound : ep.conn.closed = true)

/-! ## Acting on a demand -/

theorem Final.after {a : Acted} {es : List EpisodeEvent}
    (h : Final fromSlice a (tr ++ es)) : Final fromSlice (a.after es) tr := by
  have heq : tr ++ (a.after es).events = tr ++ es ++ a.events := by simp [Acted.after]
  refine ⟨?_, h.mirror, ?_, ?_⟩
  · rw [heq]; exact h.core
  · rw [heq]; exact h.stop
  · rw [heq]; exact h.spawned

/-- A swallowed response leaves the relay in `Authing`. -/
theorem Core.swallowed {ep : BrokerEpisode} {response : Option String} {r : BrokerRelay}
    (h : Core ep.relay conn queue tr) (hs : ep.relayOrNew.onPamStep response = .ok (none, r))
    (queue' : List PamStep) (hq : ∀ s ∈ queue', s ∈ queue) : Core (some r) conn queue' tr := by
  rcases onPamStep_cases hs with ⟨-, hf, -⟩ | ⟨hp, -, rest, -, rfl⟩ | ⟨-, hf, -⟩
  · simp at hf
  · have hrel : ep.relay = some ep.relayOrNew := relay_of_authing hp
    refine h.weaken ?_ ?_ ?_ ?_ fun n uid gid hm => h.queued n uid gid (hq _ hm)
    · rw [hrel]; simp [launched, hp]
    · rw [hrel]; simp [decided, hp]
    · intro r' hr' hp'
      obtain rfl := Option.some.inj hr'
      simp [hp] at hp'
    · intro r' hr' hp'
      obtain rfl := Option.some.inj hr'
      simp [hp] at hp'
  · simp at hf

/-- A forwarded response or a `CreateSession` puts the relay in `Authing`. -/
theorem Core.forwarded {ep : BrokerEpisode} {response : Option String} {f : CompositorToBroker}
    {r : BrokerRelay} (h : Core ep.relay conn queue tr)
    (hs : ep.relayOrNew.onPamStep response = .ok (some f, r)) :
    Core (some r) conn queue (tr ++ [EpisodeEvent.sent f]) := by
  have hpre : ep.relay = none ∨ ∃ r₀, ep.relay = some r₀ ∧
      (r₀.phase = .preAuth ∨ r₀.phase = .authing) := by
    rcases relayOrNew_phase ep with hrel | ⟨hrel, -⟩
    · rcases onPamStep_cases hs with ⟨hp, -⟩ | ⟨hp, -⟩ | ⟨hp, -⟩
      · exact .inr ⟨_, hrel, .inl hp⟩
      · exact .inr ⟨_, hrel, .inr hp⟩
      · exact .inr ⟨_, hrel, .inr hp⟩
    · exact .inl hrel
  rcases onPamStep_cases hs with ⟨-, hf, rfl⟩ | ⟨-, hf, -⟩ | ⟨hp, hf, rest, -, rfl⟩
  · cases hf
    exact h.sent hpre rfl rfl
  · simp at hf
  · cases hf
    exact h.sent hpre hp rfl

/-- `StartSession` is sent once, for a `Success` that came before it. -/
theorem Core.started {r : BrokerRelay} {cmd : List String} {env : List (String × String)}
    (h : Core relay conn queue tr) (hrel : relay = some r) (hp : r.phase = .authed)
    (hc : conn.closed = true) (hnt : ¬ Terminated tr) :
    Core (some { r with phase := .starting }) conn queue
      (tr ++ [EpisodeEvent.sent (.startSession cmd env)]) := by
  have hzero : tr.countP isStart = 0 := h.noStart (by simp [hrel, launched, hp])
  have hmem : ∀ {e : EpisodeEvent}, e ∈ tr → e ∈ tr ++ [EpisodeEvent.sent (.startSession cmd env)] :=
    fun he => List.mem_append_left _ he
  refine ⟨by simpa [connTrace] using h.connInv, h.justified.snoc ⟨h.granted r hrel hp, hnt⟩,
    by simp [hzero, isStart], by simp [launched], by simpa [isGrant] using h.grants,
    by simp [decided], ?_, fun _ _ _ => hc, fun n uid gid hq => hmem (h.queued n uid gid hq),
    fun n uid gid hm => hmem (h.resumed n uid gid (by simpa using hm))⟩
  intro r' hr' hp'
  obtain rfl := Option.some.inj hr'
  simp at hp'

/-- **Acting on a demand keeps the invariant.** -/
theorem acts_final {env : Env} {ep : BrokerEpisode} {reply : List UInt8} {demand : Demand}
    {out : EpisodeOutcome} {a : Acted} (hacts : Acts fromSlice env ep reply demand out a) :
    ∀ tr, Core ep.relay ep.conn ep.pendingChallenges tr → Mid ep tr demand →
      out.spawned = none → out.terminate = false → Final fromSlice a tr := by
  induction hacts with
  | «continue» =>
    intro tr h hm hsp ht
    obtain ⟨hc, ha, hready, hnt⟩ := hm
    exact ⟨by simpa using h, fun _ => by rw [hready, ha],
      fun h' => absurd h' (by simp [hnt, ht]), fun s hs => by simp [hsp] at hs⟩
  | close =>
    intro tr h hm hsp _
    exact ⟨by simpa using h, fun hc => absurd hc (by simp [show _ = true from hm]),
      fun _ => .inl hm, fun s hs => by simp [hsp] at hs⟩
  | @failed ep reply demand out relay' ready hd hrel =>
    intro tr h hm hsp _
    refine Core.failClosed h hrel (fun s hs => hs) hsp
  | @sent ep reply response out f r hs hsend =>
    intro tr h hm hsp ht
    obtain ⟨hc, ha, hnt⟩ := hm
    refine ⟨h.forwarded hs, fun _ => ha.symm, ?_, fun s hs => by simp [hsp] at hs⟩
    rintro (h' | h')
    · exact absurd (terminated_snoc (by simp) h') hnt
    · simp [ht] at h'
  | @swallowed ep reply response out r hs hp =>
    intro tr h hm hsp ht
    obtain ⟨hc, ha, hnt⟩ := hm
    refine ⟨by simpa using h.swallowed hs ep.pendingChallenges (by simp),
      fun _ => ha.symm, ?_, fun s hs => by simp [hsp] at hs⟩
    rintro (h' | h')
    · exact absurd (by simpa using h') hnt
    · simp [ht] at h'
  | @flushed ep reply response out r step rest o acted hs hp hr next ih =>
    intro tr h hm hsp ht
    obtain ⟨-, -, hnt⟩ := hm
    have h1 := (h.swallowed hs rest (by simp +contextual [hp])).greetd fromSlice
      (.resumePam step) ?_
    · exact (ih _ h1 (h1.mid _ rfl rfl (resumePam_sound _ _ _) hr fun _ => hnt) hsp ht).after
    · exact fun n uid gid hm => h.queued n uid gid (resumePam_resumed hm ▸ by simp [hp])
  | @flushFailed ep reply response out r step rest e hs hp hr =>
    intro tr h hm hsp ht
    have h1 := (h.swallowed hs rest (by simp +contextual [hp])).greetd fromSlice
      (.resumePam step) ?_
    · refine Final.after (Core.failClosed h1 ?_ ?_ hsp)
      · simp
      · exact fun s hs => hs
    · exact fun n uid gid hm => h.queued n uid gid (resumePam_resumed hm ▸ by simp [hp])
  | @spawned ep reply spawn out r r' cmd f hrel hcmd hs hsend =>
    intro tr h hm hsp ht
    obtain ⟨hc, hnt, hgr⟩ := hm
    obtain ⟨hp, rfl, rfl⟩ := startSession_cases hs
    refine ⟨h.started hrel hp hc hnt, fun hc' => absurd hc' (by simp [hc]), fun _ => .inl hc, ?_⟩
    intro s hs
    obtain rfl := Option.some.inj hs
    exact ⟨List.mem_append_left _ hgr, by simp, resolveCommandPath_absolute hcmd⟩

/-! ## One call -/

/-- The outcome joins the trace. -/
theorem Final.inv {a : Acted} (h : Final fromSlice a tr) :
    LaunchInv fromSlice a.ep (tr ++ (a.events ++ [EpisodeEvent.outcome a.out])) := by
  rw [← List.append_assoc]
  refine ⟨⟨by simpa [connTrace] using h.core.connInv, h.core.justified.snoc h.spawned, ?_, ?_, ?_,
    ?_, ?_, h.core.running, ?_, ?_⟩, h.mirror, ?_⟩
  · simpa [isStart] using h.core.starts
  · simpa [isStart] using h.core.noStart
  · simpa [isGrant] using h.core.grants
  · simpa [isGrant] using h.core.noGrant
  · simpa using h.core.granted
  · simpa using h.core.queued
  · simpa using h.core.resumed
  · rintro ⟨o, ho, ht⟩
    rcases List.mem_append.mp ho with h' | h'
    · exact h.stop (.inl ⟨o, h', ht⟩)
    · obtain rfl : o = a.out := by simpa using h'
      exact h.stop (.inr ht)

/-- A frame the relay accepted joins the trace. -/
theorem Core.received {r r' : BrokerRelay} {frame : BrokerToCompositor} {ev : RelayEvent}
    (h : Core (some r) conn queue tr) (hf : r.onBrokerFrame frame = .ok (ev, r'))
    (hrun : r.phase = .starting ∨ r.phase = .running → conn.closed = true) :
    Core (some r') conn queue (tr ++ [EpisodeEvent.received frame]) := by
  have hmem : ∀ {e : EpisodeEvent}, e ∈ tr → e ∈ tr ++ [EpisodeEvent.received frame] :=
    fun he => List.mem_append_left _ he
  have hq : ∀ n uid gid, .success n uid gid ∈ queue →
      .received (.success n uid gid) ∈ tr ++ [EpisodeEvent.received frame] :=
    fun n uid gid hm => hmem (h.queued n uid gid hm)
  have hr : ∀ n uid gid,
      .greetd (.resumed (.success n uid gid)) ∈ tr ++ [EpisodeEvent.received frame] →
      .received (.success n uid gid) ∈ tr ++ [EpisodeEvent.received frame] :=
    fun n uid gid hm => hmem (h.resumed n uid gid (by simpa using hm))
  have hj : Always Justified (tr ++ [EpisodeEvent.received frame]) := h.justified.snoc trivial
  have hs : (tr ++ [EpisodeEvent.received frame]).countP isStart = tr.countP isStart := by
    simp [isStart]
  have hc : ConnInv conn (connTrace (tr ++ [EpisodeEvent.received frame])) := by
    simpa [connTrace] using h.connInv
  rcases onBrokerFrame_cases hf with ⟨hp, style, message, rfl, rfl, rfl⟩ |
    ⟨hp, style, message, rfl, rfl, rfl⟩ | ⟨hp, n, uid, gid, rfl, rfl, rfl⟩ |
    ⟨hp, reason, rfl, rfl, rfl⟩ | ⟨hp, rfl, rfl, rfl⟩ | ⟨hp, outcome, rfl, rfl, rfl⟩
  · exact ⟨hc, hj, by rw [hs]; exact h.starts,
      fun _ => by rw [hs]; exact h.noStart (by simp [launched, hp]),
      by simpa [isGrant] using h.grants,
      fun _ => by simpa [isGrant] using h.noGrant (by simp [decided, hp]),
      by simp [hp], by simp [hp], hq, hr⟩
  · exact ⟨hc, hj, by rw [hs]; exact h.starts,
      fun _ => by rw [hs]; exact h.noStart (by simp [launched, hp]),
      by simpa [isGrant] using h.grants,
      fun _ => by simpa [isGrant] using h.noGrant (by simp [decided, hp]),
      by simp [hp], by simp [hp], hq, hr⟩
  · exact ⟨hc, hj, by rw [hs]; exact h.starts,
      fun _ => by rw [hs]; exact h.noStart (by simp [launched, hp]),
      by simp [isGrant, h.noGrant (by simp [decided, hp])], by simp [decided],
      fun _ _ _ => ⟨n, uid, gid, by simp⟩, by simp, hq, hr⟩
  · exact ⟨hc, hj, by rw [hs]; exact h.starts, by simp [launched],
      by simpa [isGrant] using h.grants,
      by simp [decided], by simp, by simp, hq, hr⟩
  · exact ⟨hc, hj, by rw [hs]; exact h.starts, by simp [launched],
      by simpa [isGrant] using h.grants,
      by simp [decided], by simp, fun _ _ _ => hrun (.inl hp), hq, hr⟩
  · exact ⟨hc, hj, by rw [hs]; exact h.starts, by simp [launched],
      by simpa [isGrant] using h.grants,
      by simp [decided], by simp, by simp, hq, hr⟩

/-- Greeter bytes keep the invariant. -/
theorem onGreeterBytes_final (env : Env) {ep : BrokerEpisode} (h : LaunchInv fromSlice ep tr)
    (bytes : List UInt8) : Final fromSlice (ep.onGreeterBytes fromSlice env bytes) tr := by
  have hsound := feedGreeter_sound fromSlice ep.conn bytes
  have hcore := h.core.greetd fromSlice (.feedGreeter bytes)
    (fun n uid gid hm => absurd hm (feedGreeter_resumed _ _ _))
  rcases onGreeterBytes_cases fromSlice env ep bytes with
    ⟨e, hres, heq⟩ | ⟨o, acted, hres, hacts, heq⟩
  · -- a codec error leaves the connection stuck
    have hstuck := hsound.2 ⟨e, hres⟩
    have hready : ep.greetdReadyForChallenge = false := by
      have hopen : ep.conn.closed = false := by
        cases hc : ep.conn.closed with
        | false => rfl
        | true => simp [feedGreeter_closed hc] at hres
      rw [h.mirror hopen]
      cases ha : ep.conn.awaitingPam with
      | false => rfl
      | true =>
        rcases feedGreeter_cases fromSlice hopen bytes with
          ⟨-, reply, heq'⟩ | ⟨ha', -⟩ | ⟨ha', -⟩
        · simp [heq'] at hres
        · simp [ha] at ha'
        · simp [ha] at ha'
    rw [heq]
    exact ⟨hcore, fun _ => by rw [hready]; exact hstuck.2.1.symm, fun _ => .inr hstuck,
      fun s hs => by simp [EpisodeOutcome.default] at hs⟩
  · rw [heq]
    refine (acts_final hacts _ hcore ?_ rfl rfl).after
    -- a closed or suspended connection answers `Close`; an open one was not suspended
    cases hd : o.demand with
    | close =>
      have hs := hsound.1
      obtain ⟨reply, d⟩ := o
      obtain rfl : d = .close := hd
      rw [Ran.Sound, hres] at hs
      exact hs
    | _ =>
      have hopen : ep.conn.closed = false := by
        cases hc : ep.conn.closed with
        | false => rfl
        | true =>
          rw [feedGreeter_closed hc] at hres
          cases hres
          simp at hd
      have hawait : ep.conn.awaitingPam = false := by
        rcases feedGreeter_cases fromSlice hopen bytes with
          ⟨-, reply, heq'⟩ | ⟨ha', -⟩ | ⟨ha', -⟩
        · rw [heq'] at hres
          cases hres
          simp at hd
        · exact ha'
        · exact ha'
      have hnt : ¬ Terminated tr := by
        intro ht
        rcases h.stop ht with hc | hstuck
        · simp [hopen] at hc
        · obtain ⟨e, he⟩ := (feedGreeter_stuck hstuck bytes).1
          simp [hres] at he
      rw [← hd]
      exact hcore.mid _ rfl (by simp [h.mirror hopen, hawait]) hsound.1 hres fun _ => hnt

/-- A readable broker channel keeps the invariant. -/
theorem onBrokerReadable_final (env : Env) {ep : BrokerEpisode} (h : LaunchInv fromSlice ep tr)
    (recv : Recv) : Final fromSlice (ep.onBrokerReadable fromSlice env recv) tr := by
  rcases onBrokerReadable_cases fromSlice env ep recv with
    ⟨heq, -⟩ | heq | ⟨frame, fd, r, ev, r', -, hrel, hf, hcase⟩
  · rw [heq]
    exact ⟨by simpa using h.core, h.mirror,
      fun h' => h.stop (by simpa [EpisodeOutcome.default] using h'),
      fun s hs => by simp [EpisodeOutcome.default] at hs⟩
  · rw [heq]
    exact h.core.failClosed id (fun s hs => hs) rfl
  have hrec : Core (some r') ep.conn ep.pendingChallenges (tr ++ [EpisodeEvent.received frame]) :=
    Core.received (hrel ▸ h.core) hf fun hp => h.core.running r hrel hp
  have hresumed : ∀ step, ev = .pam step → ∀ n uid gid,
      .resumed (.success n uid gid) ∈ (ep.conn.resumePam fromSlice step).events →
        .received (.success n uid gid) ∈ tr ++ [EpisodeEvent.received frame] := by
    rintro step rfl n uid gid hm
    obtain rfl := resumePam_resumed hm
    rw [onBrokerFrame_success hf]
    simp
  have hstop : Terminated (tr ++ [EpisodeEvent.received frame]) → Terminated tr :=
    terminated_snoc (by simp)
  rcases hcase with ⟨step, rfl, hready, heq⟩ | ⟨step, e, rfl, hready, hres, heq⟩ |
    ⟨step, o, acted, rfl, hready, hres, hacts, heq⟩ | ⟨rfl, heq⟩ | ⟨outcome, rfl, heq⟩
  · -- the greeter has not answered yet: the challenge waits its turn
    rw [heq]
    refine ⟨hrec.weaken id id hrec.granted hrec.running ?_, h.mirror, ?_,
      fun s hs => by simp [EpisodeOutcome.default] at hs⟩
    · intro n uid gid hm
      rcases List.mem_append.mp hm with h' | h'
      · exact hrec.queued n uid gid h'
      · obtain rfl : .success n uid gid = step := by simpa using h'
        rw [onBrokerFrame_success hf]
        simp
    · rintro (h' | h')
      · exact h.stop (hstop h')
      · simp [EpisodeOutcome.default] at h'
  · rw [heq, ← List.singleton_append]
    have h1 := hrec.greetd fromSlice (.resumePam step) (hresumed step rfl)
    rw [List.append_assoc] at h1
    refine Final.after (Core.failClosed h1 ?_ ?_ rfl)
    · simp
    · exact fun s hs => hs
  · rw [heq, ← List.singleton_append]
    have h1 := hrec.greetd fromSlice (.resumePam step) (hresumed step rfl)
    have hmid := h1.mid
      { ep with relay := some r', greetdReadyForChallenge := false,
                conn := (ep.conn.resumePam fromSlice step).conn }
      rfl rfl (resumePam_sound _ _ _) hres ?_
    · rw [List.append_assoc] at h1 hmid
      exact (acts_final hacts _ h1 hmid rfl rfl).after
    · -- a terminated episode has a closed or stuck connection, and a stuck one is not ready
      intro hd ht
      rcases h.stop (hstop ht) with hc | hstuck
      · rw [resumePam_closed hc] at hres
        cases hres
        simp at hd
      · have := h.mirror hstuck.1
        simp [hready, hstuck.2.1] at this
  · rw [heq]
    refine ⟨hrec, h.mirror, ?_, fun s hs => by simp [EpisodeOutcome.default] at hs⟩
    rintro (h' | h')
    · exact h.stop (hstop h')
    · simp [EpisodeOutcome.default] at h'
  · -- the session ended: the greetd connection has been over since it started
    rw [heq]
    exact ⟨hrec, h.mirror,
      fun _ => .inl (h.core.running r hrel (.inr (onBrokerFrame_sessionEnded hf).1)),
      fun s hs => by simp [EpisodeOutcome.default] at hs⟩

/-- **One call keeps the invariant.** -/
theorem launch_step (ep : BrokerEpisode) (tr : List EpisodeEvent) (i : EpisodeInput)
    (h : LaunchInv fromSlice ep tr) :
    LaunchInv fromSlice (ep.step fromSlice i).1 (tr ++ (ep.step fromSlice i).2) := by
  cases i with
  | greeterBytes env bytes => exact (onGreeterBytes_final env h bytes).inv
  | brokerReadable env recv => exact (onBrokerReadable_final env h recv).inv

theorem launch_new (service : String) : LaunchInv fromSlice (BrokerEpisode.new service) [] := by
  refine ⟨⟨new_inv, always_nil _, by simp, by simp, by simp, by simp, ?_, ?_, ?_, by simp⟩, ?_, ?_⟩
  · simp [BrokerEpisode.new]
  · simp [BrokerEpisode.new]
  · simp [BrokerEpisode.new]
  · simp [BrokerEpisode.new, Connection.new]
  · simp [Terminated]

/-! ## Whole runs -/

/-- **Session launch.** On every run of a fresh episode, whatever bytes the greeter sends, whatever
frames and errors the broker channel delivers and whatever becomes of the sends:

- at most one `StartSession` is sent and at most one `Success` is accepted;
- every `StartSession` comes after an accepted `Success` and before any terminating outcome, and
  every outcome that reports `spawned` reports the username, uid and gid of the accepted
  `Success`, for a command whose program is an absolute path without NUL. -/
theorem launch_authorized (fromSlice : List UInt8 → Option Request) (service : String)
    (inputs : List EpisodeInput) :
    let tr := (run (BrokerEpisode.step fromSlice) (BrokerEpisode.new service) inputs).2
    tr.countP isStart ≤ 1 ∧ tr.countP isGrant ≤ 1 ∧ Always Justified tr := by
  have h := run_invariant_init (LaunchInv fromSlice) (launch_new service)
    (fun ep tr i => launch_step ep tr i) inputs
  exact ⟨h.core.starts, h.core.grants, h.core.justified⟩

end Halmasuit.Compositor
