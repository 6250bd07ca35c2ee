import Halmasuit.Compositor.BrokerRelay
import Halmasuit.Greetd.Authorization

/-!
# The broker episode

`halmasuit/src/broker_session.rs` 77–135 and 361–671: `BrokerEpisode`, which binds the sans-IO
greetd `Connection` and the `BrokerRelay` to the broker channel for one greeter connection, and
`resolve_command_path`.

The methods of the source mutate the episode, write frames to the channel and fill an
`EpisodeOutcome`. Here a method returns an `Acted`: the episode after the call, the outcome, and
the events of the call in order: what the greetd machine was given and returned, the broker frames
the relay accepted, the frames sent, a `fail_closed`. What the call reads of the world is its
`Env`: which paths are files, and whether the kernel takes the datagram.

`act_on_demand` recurses once per queued challenge; `actOnDemand` counts these calls and `Acts` is
its graph without the count (`actOnDemand_acts`).
-/

namespace Halmasuit.Compositor

open Halmasuit.Greetd
open Halmasuit.SessionIpc
open Halmasuit.Lib.Framing (CodecError)

/-! ## Command resolution -/

/-- `SYSTEM_PATH`. -/
def systemPath : List String :=
  ["/run/wrappers/bin", "/run/current-system/sw/bin", "/usr/local/bin", "/usr/bin", "/bin"]

/-- `PathBuf::join` of a directory and a name without a separator. -/
def joinPath (dir name : String) : String := dir ++ "/" ++ name

/-- `resolve_command_path`, over `Path::is_file`. -/
def resolveCommandPath (isFile : String → Bool) (cmd : List String) : Option (List String) :=
  match cmd with
  | [] => none
  | first :: rest =>
    if '\x00' ∈ first.toList then none
    else if first.toList.head? = some '/' then some cmd
    else if '/' ∈ first.toList then none
    else
      match systemPath.find? fun dir => isFile (joinPath dir first) with
      | some dir => some (joinPath dir first :: rest)
      | none => none

/-- An absolute path without NUL. -/
def AbsoluteCommand (cmd : List String) : Prop :=
  ∃ first rest, cmd = first :: rest ∧ first.toList.head? = some '/' ∧ '\x00' ∉ first.toList

/-- Whatever the greeter asked for, what is handed to the broker is an absolute path without
NUL. -/
theorem resolveCommandPath_absolute {isFile : String → Bool} {cmd cmd' : List String}
    (h : resolveCommandPath isFile cmd = some cmd') : AbsoluteCommand cmd' := by
  unfold resolveCommandPath at h
  split at h
  · cases h
  · rename_i first rest
    split_ifs at h with h1 h2 h3
    · cases h
      exact ⟨first, rest, rfl, h2, h1⟩
    · split at h
      · rename_i dir hfind
        cases h
        have hdir : dir ∈ systemPath := List.mem_of_find?_eq_some hfind
        refine ⟨_, rest, rfl, ?_, ?_⟩
        · simp only [systemPath, List.mem_cons, List.not_mem_nil, or_false] at hdir
          rcases hdir with rfl | rfl | rfl | rfl | rfl <;> simp [joinPath]
        · have hnul : '\x00' ∉ dir.toList := by
            simp only [systemPath, List.mem_cons, List.not_mem_nil, or_false] at hdir
            rcases hdir with rfl | rfl | rfl | rfl | rfl <;> decide
          simp [joinPath, hnul, h1]
      · cases h

/-! ## The episode -/

/-- `WireError`. -/
inductive WireError where
  | io
  | codec
  | closed
  | malformed
  deriving DecidableEq, Repr

/-- `EpisodeOutcome`. -/
structure EpisodeOutcome where
  greeterReply : List UInt8
  spawned : Option SpawnRequest
  sessionOpened : Bool
  sessionEnded : Option SessionOutcome
  terminate : Bool
  deriving DecidableEq, Repr

/-- `EpisodeOutcome::default`. -/
def EpisodeOutcome.default : EpisodeOutcome := ⟨[], none, false, none, false⟩

/-- `BrokerEpisode`, without the channel it owns. -/
structure BrokerEpisode where
  service : String
  relay : Option BrokerRelay
  conn : Connection
  leaderPidfd : Option Fd
  pendingChallenges : List PamStep
  greetdReadyForChallenge : Bool
  deriving DecidableEq, Repr

/-- `BrokerEpisode::new`. -/
def BrokerEpisode.new (service : String) : BrokerEpisode :=
  ⟨service, none, Connection.new, none, [], false⟩

/-- What happens at an episode, in order. -/
inductive EpisodeEvent where
  /-- Something at the greetd connection. -/
  | greetd (e : ConnEvent)
  /-- A broker frame the relay accepted. -/
  | received (f : BrokerToCompositor)
  /-- A frame written to the broker channel. -/
  | sent (f : CompositorToBroker)
  /-- `fail_closed` ran. -/
  | failedClosed
  /-- What the call returned. -/
  | outcome (o : EpisodeOutcome)
  deriving DecidableEq, Repr

/-- What one call reads of the world: the file system, and whether the kernel accepts the
datagram of the frame the call sends (a call sends at most one). -/
structure Env where
  isFile : String → Bool
  sendOk : Bool

/-- `SeqpacketChannel::send` succeeds: the frame encodes and the kernel takes it whole. -/
def Env.sends (env : Env) (f : CompositorToBroker) : Bool := decide (Fits f.toVec) && env.sendOk

/-- One call: the episode after it, its outcome, its events. -/
structure Acted where
  ep : BrokerEpisode
  out : EpisodeOutcome
  events : List EpisodeEvent

/-- The same call with events before its own. -/
def Acted.after (es : List EpisodeEvent) (a : Acted) : Acted := { a with events := es ++ a.events }

/-- The events of a greetd call, its result last. -/
def greetdEvents (r : Ran) : List EpisodeEvent := (r.events ++ [r.result]).map .greetd

/-- `BrokerEpisode::fail_closed`. -/
def BrokerEpisode.failClosed (ep : BrokerEpisode) (out : EpisodeOutcome) : Acted :=
  let ran := ep.conn.brokerClosed
  let reply := match ran.res with
    | .ok o => o.reply
    | .error _ => []
  ⟨{ ep with relay := ep.relay.map BrokerRelay.poison, conn := ran.conn },
    { out with greeterReply := out.greeterReply ++ reply, terminate := true },
    .failedClosed :: greetdEvents ran⟩

/-- The relay, built from the connection's pending username where there is none yet. -/
def BrokerEpisode.relayOrNew (ep : BrokerEpisode) : BrokerRelay :=
  ep.relay.getD (BrokerRelay.new ep.service (ep.conn.pendingUsername.getD ""))

/-- The relay a PAM demand steps, against the one the episode holds. -/
theorem relayOrNew_phase (ep : BrokerEpisode) :
    ep.relay = some ep.relayOrNew ∨ (ep.relay = none ∧ ep.relayOrNew.phase = .preAuth) := by
  cases hrel : ep.relay with
  | none => exact .inr ⟨rfl, by simp [BrokerEpisode.relayOrNew, hrel, BrokerRelay.new]⟩
  | some r => exact .inl (by simp [BrokerEpisode.relayOrNew, hrel])

/-- A relay past its first phase is the episode's own. -/
theorem relay_of_authing {ep : BrokerEpisode} (h : ep.relayOrNew.phase = .authing) :
    ep.relay = some ep.relayOrNew := by
  rcases relayOrNew_phase ep with hrel | ⟨-, hpre⟩
  · exact hrel
  · simp [h] at hpre

section
variable (fromSlice : List UInt8 → Option Request) (env : Env)

/-- `act_on_demand`, the `Demand::Spawn` arm. -/
def BrokerEpisode.actOnSpawn (ep : BrokerEpisode) (spawn : SpawnRequest) (out : EpisodeOutcome) :
    Acted :=
  match ep.relay with
  | none => ep.failClosed out
  | some r =>
    match resolveCommandPath env.isFile spawn.cmd with
    | none => ep.failClosed out
    | some cmd =>
      match r.startSession cmd spawn.env with
      | .error .outOfPhase => ep.failClosed out
      | .ok (f, r') =>
        if env.sends f then
          ⟨{ ep with relay := some r' }, { out with spawned := some { spawn with cmd := cmd } },
            [.sent f]⟩
        else { ep with relay := some r' }.failClosed out

/-- `BrokerEpisode::act_on_demand`. `fuel` counts its recursive calls. -/
def BrokerEpisode.actOnDemand : Nat → BrokerEpisode → List UInt8 → Demand → EpisodeOutcome → Acted
  | 0, ep, _, _, out => ⟨ep, out, []⟩
  | fuel + 1, ep, reply, demand, out =>
    let out := { out with greeterReply := out.greeterReply ++ reply }
    match demand with
    | .continue => ⟨ep, out, []⟩
    | .close => ⟨ep, { out with terminate := true }, []⟩
    | .spawn spawn => ep.actOnSpawn env spawn out
    | .pam response =>
      let ep := { ep with greetdReadyForChallenge := true, relay := some ep.relayOrNew }
      match ep.relayOrNew.onPamStep response with
      | .error .outOfPhase => ep.failClosed out
      | .ok (some f, r) =>
        let ep := { ep with relay := some r }
        if env.sends f then ⟨ep, out, [.sent f]⟩ else ep.failClosed out
      | .ok (none, r) =>
        let ep := { ep with relay := some r }
        match ep.pendingChallenges with
        | [] => ⟨ep, out, []⟩
        | step :: rest =>
          let ran := ep.conn.resumePam fromSlice step
          let ep := { ep with pendingChallenges := rest, greetdReadyForChallenge := false,
                              conn := ran.conn }
          match ran.res with
          | .ok o => (actOnDemand fuel ep o.reply o.demand out).after (greetdEvents ran)
          | .error _ => (ep.failClosed out).after (greetdEvents ran)

/-- `BrokerEpisode::on_greeter_bytes`. -/
def BrokerEpisode.onGreeterBytes (ep : BrokerEpisode) (bytes : List UInt8) : Acted :=
  let ran := ep.conn.feedGreeter fromSlice bytes
  let ep := { ep with conn := ran.conn }
  match ran.res with
  | .ok o =>
    (ep.actOnDemand fromSlice env (ep.pendingChallenges.length + 1) o.reply o.demand
      EpisodeOutcome.default).after (greetdEvents ran)
  | .error _ => ⟨ep, { EpisodeOutcome.default with terminate := true }, greetdEvents ran⟩

/-- What `recv_with_fd` gives: nothing ready, one frame and its descriptor, or an error. -/
abbrev Recv : Type := Except WireError (Option (BrokerToCompositor × Option Fd))

/-- `BrokerEpisode::on_broker_readable`, with what `recv_with_fd` gave. -/
def BrokerEpisode.onBrokerReadable (ep : BrokerEpisode) (recv : Recv) : Acted :=
  let out := EpisodeOutcome.default
  match recv with
  | .ok none => ⟨ep, out, []⟩
  | .error _ => ep.failClosed out
  | .ok (some (frame, leaderPidfd)) =>
    match ep.relay with
    | none => ep.failClosed out
    | some r =>
      match r.onBrokerFrame frame with
      | .error .outOfPhase => ep.failClosed out
      | .ok (ev, r') =>
        let ep := { ep with relay := some r' }
        match ev with
        | .pam step =>
          if ep.greetdReadyForChallenge then
            let ran := ep.conn.resumePam fromSlice step
            let ep := { ep with greetdReadyForChallenge := false, conn := ran.conn }
            match ran.res with
            | .ok o =>
              (ep.actOnDemand fromSlice env (ep.pendingChallenges.length + 1) o.reply o.demand
                out).after (.received frame :: greetdEvents ran)
            | .error _ => (ep.failClosed out).after (.received frame :: greetdEvents ran)
          else
            ⟨{ ep with pendingChallenges := ep.pendingChallenges ++ [step] }, out,
              [.received frame]⟩
        | .sessionOpened =>
          ⟨{ ep with leaderPidfd := leaderPidfd }, { out with sessionOpened := true },
            [.received frame]⟩
        | .sessionEnded outcome =>
          ⟨ep, { out with sessionEnded := some outcome, terminate := true }, [.received frame]⟩

end

/-! ## The recursion without its count -/

section
variable (fromSlice : List UInt8 → Option Request) (env : Env)

/-- The graph of `act_on_demand`. The failing branches (a frame out of phase, a frame the channel
does not take, a command that does not resolve) differ in nothing but the relay they poison, so
they are one case. -/
inductive Acts : BrokerEpisode → List UInt8 → Demand → EpisodeOutcome → Acted → Prop
  | continue {ep reply out} : Acts ep reply .continue out
      ⟨ep, { out with greeterReply := out.greeterReply ++ reply }, []⟩
  | close {ep reply out} : Acts ep reply .close out
      ⟨ep, { out with greeterReply := out.greeterReply ++ reply, terminate := true }, []⟩
  | failed {ep reply demand out} (relay ready) (hd : demand ≠ .close)
      (hrel : relay = none → ep.relay = none) : Acts ep reply demand out
      ({ ep with relay := relay, greetdReadyForChallenge := ready }.failClosed
        { out with greeterReply := out.greeterReply ++ reply })
  | sent {ep reply response out f r} (hs : ep.relayOrNew.onPamStep response = .ok (some f, r))
      (hsend : env.sends f = true) : Acts ep reply (.pam response) out
      ⟨{ ep with greetdReadyForChallenge := true, relay := some r },
        { out with greeterReply := out.greeterReply ++ reply }, [.sent f]⟩
  | swallowed {ep reply response out r} (hs : ep.relayOrNew.onPamStep response = .ok (none, r))
      (hp : ep.pendingChallenges = []) : Acts ep reply (.pam response) out
      ⟨{ ep with greetdReadyForChallenge := true, relay := some r },
        { out with greeterReply := out.greeterReply ++ reply }, []⟩
  | flushed {ep reply response out r step rest o acted}
      (hs : ep.relayOrNew.onPamStep response = .ok (none, r))
      (hp : ep.pendingChallenges = step :: rest)
      (hr : (ep.conn.resumePam fromSlice step).res = .ok o)
      (next : Acts
        { ep with relay := some r, pendingChallenges := rest, greetdReadyForChallenge := false,
                  conn := (ep.conn.resumePam fromSlice step).conn }
        o.reply o.demand { out with greeterReply := out.greeterReply ++ reply } acted) :
      Acts ep reply (.pam response) out
        (acted.after (greetdEvents (ep.conn.resumePam fromSlice step)))
  | flushFailed {ep reply response out r step rest e}
      (hs : ep.relayOrNew.onPamStep response = .ok (none, r))
      (hp : ep.pendingChallenges = step :: rest)
      (hr : (ep.conn.resumePam fromSlice step).res = .error e) :
      Acts ep reply (.pam response) out
        (({ ep with relay := some r, pendingChallenges := rest, greetdReadyForChallenge := false,
                    conn := (ep.conn.resumePam fromSlice step).conn }.failClosed
          { out with greeterReply := out.greeterReply ++ reply }).after
            (greetdEvents (ep.conn.resumePam fromSlice step)))
  | spawned {ep reply spawn out r r' cmd f} (hrel : ep.relay = some r)
      (hcmd : resolveCommandPath env.isFile spawn.cmd = some cmd)
      (hs : r.startSession cmd spawn.env = .ok (f, r')) (hsend : env.sends f = true) :
      Acts ep reply (.spawn spawn) out
        ⟨{ ep with relay := some r' },
          { out with greeterReply := out.greeterReply ++ reply,
                     spawned := some { spawn with cmd := cmd } }, [.sent f]⟩

end

section
variable {fromSlice : List UInt8 → Option Request} {env : Env}

/-- Each recursive call takes a queued challenge. -/
theorem actOnDemand_acts (fuel : Nat) (ep : BrokerEpisode) (reply : List UInt8) (demand : Demand)
    (out : EpisodeOutcome) (hf : ep.pendingChallenges.length < fuel) :
    Acts fromSlice env ep reply demand out
      (ep.actOnDemand fromSlice env fuel reply demand out) := by
  induction fuel generalizing ep reply demand out with
  | zero => exact absurd hf (by omega)
  | succ fuel ih =>
    cases demand with
    | «continue» => exact .continue
    | close => exact .close
    | spawn spawn =>
      have hne : Demand.spawn spawn ≠ .close := by simp
      simp only [BrokerEpisode.actOnDemand, BrokerEpisode.actOnSpawn]
      split
      · exact .failed ep.relay _ hne id
      · rename_i r hrel
        split
        · exact .failed ep.relay _ hne id
        · rename_i cmd hcmd
          split
          · exact .failed ep.relay _ hne id
          · rename_i f r' hs
            split
            · rename_i hsend
              exact .spawned hrel hcmd hs hsend
            · exact .failed (some r') _ hne (by simp)
    | pam response =>
      have hne : Demand.pam response ≠ .close := by simp
      simp only [BrokerEpisode.actOnDemand]
      split
      · exact .failed (some ep.relayOrNew) _ hne (by simp)
      · rename_i f r hs
        split
        · rename_i hsend
          exact .sent hs hsend
        · exact .failed (some r) _ hne (by simp)
      · rename_i r hs
        split
        · rename_i hp
          exact .swallowed hs hp
        · rename_i step rest hp
          split
          · rename_i o hr
            refine .flushed hs hp hr (ih _ _ _ _ ?_)
            simp only [hp, List.length_cons] at hf ⊢
            omega
          · rename_i e hr
            exact .flushFailed hs hp hr

/-- What greeter bytes do. -/
theorem onGreeterBytes_cases (fromSlice : List UInt8 → Option Request) (env : Env)
    (ep : BrokerEpisode) (bytes : List UInt8) :
    (∃ e, (ep.conn.feedGreeter fromSlice bytes).res = .error e ∧
      ep.onGreeterBytes fromSlice env bytes =
        ⟨{ ep with conn := (ep.conn.feedGreeter fromSlice bytes).conn },
          { EpisodeOutcome.default with terminate := true },
          greetdEvents (ep.conn.feedGreeter fromSlice bytes)⟩) ∨
    (∃ o acted, (ep.conn.feedGreeter fromSlice bytes).res = .ok o ∧
      Acts fromSlice env { ep with conn := (ep.conn.feedGreeter fromSlice bytes).conn } o.reply
        o.demand EpisodeOutcome.default acted ∧
      ep.onGreeterBytes fromSlice env bytes =
        acted.after (greetdEvents (ep.conn.feedGreeter fromSlice bytes))) := by
  simp only [BrokerEpisode.onGreeterBytes]
  split
  · rename_i o hr
    exact .inr ⟨o, _, hr, actOnDemand_acts _ _ _ _ _ (Nat.lt_succ_self _), rfl⟩
  · rename_i e hr
    exact .inl ⟨e, hr, rfl⟩

/-- What a readable broker channel does. -/
theorem onBrokerReadable_cases (fromSlice : List UInt8 → Option Request) (env : Env)
    (ep : BrokerEpisode) (recv : Recv) :
    (ep.onBrokerReadable fromSlice env recv = ⟨ep, EpisodeOutcome.default, []⟩ ∧ recv = .ok none) ∨
    (ep.onBrokerReadable fromSlice env recv = ep.failClosed EpisodeOutcome.default) ∨
    (∃ frame fd r ev r', recv = .ok (some (frame, fd)) ∧ ep.relay = some r ∧
      r.onBrokerFrame frame = .ok (ev, r') ∧
      ((∃ step, ev = .pam step ∧ ep.greetdReadyForChallenge = false ∧
          ep.onBrokerReadable fromSlice env recv =
            ⟨{ ep with relay := some r', pendingChallenges := ep.pendingChallenges ++ [step] },
              EpisodeOutcome.default, [.received frame]⟩) ∨
        (∃ step e, ev = .pam step ∧ ep.greetdReadyForChallenge = true ∧
          (ep.conn.resumePam fromSlice step).res = .error e ∧
          ep.onBrokerReadable fromSlice env recv =
            ({ ep with relay := some r', greetdReadyForChallenge := false,
                       conn := (ep.conn.resumePam fromSlice step).conn }.failClosed
              EpisodeOutcome.default).after
                (.received frame :: greetdEvents (ep.conn.resumePam fromSlice step))) ∨
        (∃ step o acted, ev = .pam step ∧ ep.greetdReadyForChallenge = true ∧
          (ep.conn.resumePam fromSlice step).res = .ok o ∧
          Acts fromSlice env
            { ep with relay := some r', greetdReadyForChallenge := false,
                      conn := (ep.conn.resumePam fromSlice step).conn }
            o.reply o.demand EpisodeOutcome.default acted ∧
          ep.onBrokerReadable fromSlice env recv =
            acted.after (.received frame :: greetdEvents (ep.conn.resumePam fromSlice step))) ∨
        (ev = .sessionOpened ∧ ep.onBrokerReadable fromSlice env recv =
          ⟨{ ep with relay := some r', leaderPidfd := fd },
            { EpisodeOutcome.default with sessionOpened := true }, [.received frame]⟩) ∨
        (∃ outcome, ev = .sessionEnded outcome ∧ ep.onBrokerReadable fromSlice env recv =
          ⟨{ ep with relay := some r' },
            { EpisodeOutcome.default with sessionEnded := some outcome, terminate := true },
            [.received frame]⟩))) := by
  simp only [BrokerEpisode.onBrokerReadable]
  split
  · exact .inl ⟨rfl, rfl⟩
  · exact .inr (.inl rfl)
  rename_i frame fd
  split
  · exact .inr (.inl rfl)
  rename_i r hrel
  split
  · exact .inr (.inl rfl)
  rename_i ev r' hf
  refine .inr (.inr ⟨frame, fd, r, ev, r', rfl, hrel, hf, ?_⟩)
  split
  · rename_i step
    split
    · rename_i hready
      split
      · rename_i o hr
        exact .inr (.inr (.inl ⟨step, o, _, rfl, hready, hr,
          actOnDemand_acts _ _ _ _ _ (Nat.lt_succ_self _), rfl⟩))
      · rename_i e hr
        exact .inr (.inl ⟨step, e, rfl, hready, hr, rfl⟩)
    · rename_i hready
      exact .inl ⟨step, rfl, by simpa using hready, rfl⟩
  · exact .inr (.inr (.inr (.inl ⟨rfl, rfl⟩)))
  · rename_i outcome
    exact .inr (.inr (.inr (.inr ⟨outcome, rfl, rfl⟩)))

/-- Acting on a demand says nothing of the session. -/
theorem acts_out {ep : BrokerEpisode} {reply : List UInt8} {demand : Demand} {out : EpisodeOutcome}
    {acted : Acted} (h : Acts fromSlice env ep reply demand out acted) :
    acted.out.sessionOpened = out.sessionOpened ∧ acted.out.sessionEnded = out.sessionEnded := by
  induction h with
  | flushed _ _ _ _ ih => exact ih
  | _ => exact ⟨rfl, rfl⟩

/-- What the relay makes of a frame on the broker's channel. -/
def BrokerEpisode.event (ep : BrokerEpisode) (recv : Recv) : Option RelayEvent :=
  match ep.relay, recv with
  | some r, .ok (some (frame, _)) =>
    match r.onBrokerFrame frame with
    | .ok (ev, _) => some ev
    | .error _ => none
  | _, _ => none

theorem event_eq_some {ep : BrokerEpisode} {recv : Recv} {ev : RelayEvent}
    (h : ep.event recv = some ev) : ∃ r frame fd r', ep.relay = some r ∧
      recv = .ok (some (frame, fd)) ∧ r.onBrokerFrame frame = .ok (ev, r') := by
  unfold BrokerEpisode.event at h
  split at h
  · rename_i r frame fd hrel
    split at h
    · rename_i ev' r' hf
      cases h
      exact ⟨r, frame, fd, r', hrel, rfl, hf⟩
    · cases h
  · cases h

/-- An episode that reports what the broker says of the session reports nothing else. -/
theorem onBrokerReadable_out (fromSlice : List UInt8 → Option Request) (env : Env)
    (ep : BrokerEpisode) (recv : Recv) :
    (ep.event recv = some .sessionOpened ∧
      (ep.onBrokerReadable fromSlice env recv).out
        = { EpisodeOutcome.default with sessionOpened := true }) ∨
    (∃ outcome, ep.event recv = some (.sessionEnded outcome) ∧
      (ep.onBrokerReadable fromSlice env recv).out
        = { EpisodeOutcome.default with sessionEnded := some outcome, terminate := true }) ∨
    ((∀ ev, ep.event recv = some ev → ∃ step, ev = .pam step) ∧
      (ep.onBrokerReadable fromSlice env recv).out.sessionOpened = false ∧
      (ep.onBrokerReadable fromSlice env recv).out.sessionEnded = none) := by
  simp only [BrokerEpisode.event, BrokerEpisode.onBrokerReadable]
  rcases recv with e | _ | ⟨frame, fd⟩
  · exact .inr (.inr ⟨by cases ep.relay <;> simp, rfl, rfl⟩)
  · exact .inr (.inr ⟨by cases ep.relay <;> simp, rfl, rfl⟩)
  cases ep.relay with
  | none => exact .inr (.inr ⟨by simp, rfl, rfl⟩)
  | some r =>
    dsimp only
    cases hf : r.onBrokerFrame frame with
    | error e => exact .inr (.inr ⟨by simp, rfl, rfl⟩)
    | ok p =>
      obtain ⟨ev, r'⟩ := p
      cases ev with
      | sessionOpened => exact .inl ⟨rfl, rfl⟩
      | sessionEnded outcome => exact .inr (.inl ⟨outcome, rfl, rfl⟩)
      | pam step =>
        refine .inr (.inr ⟨?_, ?_⟩)
        · intro ev hev
          exact ⟨step, (Option.some.inj hev).symm⟩
        · dsimp only
          split
          · split
            · exact acts_out (actOnDemand_acts _ _ _ _ _ (Nat.lt_succ_self _))
            · exact ⟨rfl, rfl⟩
          · exact ⟨rfl, rfl⟩

end

/-! ## Runs of an episode -/

/-- What the calloop layer feeds the episode. -/
inductive EpisodeInput where
  | greeterBytes (env : Env) (bytes : List UInt8)
  | brokerReadable (env : Env) (recv : Recv)

/-- The call an input makes. -/
def BrokerEpisode.call (fromSlice : List UInt8 → Option Request) (ep : BrokerEpisode) :
    EpisodeInput → Acted
  | .greeterBytes env bytes => ep.onGreeterBytes fromSlice env bytes
  | .brokerReadable env recv => ep.onBrokerReadable fromSlice env recv

/-- One call as a step: the trace gets its events and its outcome. -/
def BrokerEpisode.step (fromSlice : List UInt8 → Option Request) (ep : BrokerEpisode)
    (i : EpisodeInput) : BrokerEpisode × List EpisodeEvent :=
  ((ep.call fromSlice i).ep, (ep.call fromSlice i).events ++ [.outcome (ep.call fromSlice i).out])

end Halmasuit.Compositor
