import Halmasuit.Protocol.Dialogue

/-!
# Every interleaving of a scripted login

`Stage` is the login as the parties see it: which messages the greeter has done with, the one in
front of it, and the ones on their way, by how far they got. `Stage.dialogue` is the state of the
whole system a stage stands for, and every step of the system is a step of its stage: that is the
simulation, one theorem for each move.

What makes it go through is that only the last message on its way can be a prompt, since the worker
blocks there. A display does not block, so the verdict can overtake the acknowledgement of a display
that ends the script, and the relay then refuses the acknowledgement (`trailing_display_fails`).
`Script.Answerable` excludes that, and messages that do not fit a frame.

- **`answerable_script_relayed`**: for an answerable script, on every interleaving, nothing fails,
  the greeter reads the script's messages in order and then the verdict, each prompt gets the text
  the greeter answered to it, and the system comes to rest with everything delivered.
-/

namespace Halmasuit.Protocol

open Halmasuit.Greetd
open Halmasuit.SessionIpc
open Halmasuit.Compositor
open Halmasuit.Broker
open Halmasuit.Lib

/-! ## Scripts that can be relayed -/

/-- A script that ends in a prompt, or has no messages, and whose messages all fit a frame. -/
structure Script.Answerable (d : Script) : Prop where
  last : d.messages.getLast?.all Msg.isPrompt = true
  begin : Fits (CompositorToBroker.toVec (.beginAuth d.service d.user))
  messages : ∀ m ∈ d.messages, m.authMessage.toVec.length ≤ Greetd.maxMessageSize
  verdict : Fits d.verdict.outcome.toVec

instance (d : Script) : Decidable d.Answerable :=
  decidable_of_iff (d.messages.getLast?.all Msg.isPrompt = true ∧
    Fits (CompositorToBroker.toVec (.beginAuth d.service d.user)) ∧
    (∀ m ∈ d.messages, m.authMessage.toVec.length ≤ Greetd.maxMessageSize) ∧
    Fits d.verdict.outcome.toVec)
    ⟨fun ⟨h1, h2, h3, h4⟩ => ⟨h1, h2, h3, h4⟩, fun h => ⟨h.1, h.2, h.3, h.4⟩⟩

/-! ## Stages -/

/-- The relay's tag for a message. -/
def Msg.tag : Msg → PendingResponse
  | .prompt _ _ => .forward
  | .display _ _ => .swallow

/-- A message with the greeter's answer to it. -/
abbrev Exchange : Type := Msg × Option String

/-- The message in front of the greeter. -/
inductive Face where
  /-- There is none: the connection waits for PAM. -/
  | none
  /-- Its `AuthMessage` is on its way to the greeter. -/
  | showing (m : Msg)
  /-- The greeter's answer `r` is on its way, `fed` of it in the compositor's buffer. -/
  | answering (m : Msg) (r : Option String) (fed rest : List UInt8)
  /-- The answer to a prompt is on its way down, at the broker or past it. -/
  | down (m : Msg) (r : Option String) (past : Bool)

/-- How far the verdict got. -/
inductive Tail where
  | sent
  | relayed
  | shown
  | read
  deriving DecidableEq

/-- The messages while the conversation lasts: done with, in front of the greeter, queued at the
compositor, on their way to it, on their way to the broker, not sent. -/
structure Talk where
  done : List Exchange
  face : Face
  queue : List Msg
  up : List Msg
  low : List Msg
  unsent : List Msg

/-- Where a login is. -/
inductive Stage where
  | fresh
  | creating (fed rest : List UInt8)
  | begun
  | talking (t : Talk)
  | closing (done : List Exchange) (tail : Tail)

/-- The message the relay holds a tag for. -/
def Face.tagged : Face → List Msg
  | .showing m => [m]
  | .answering m _ _ _ => [m]
  | _ => []

/-- The message the broker waits for the answer of. -/
def Face.awaited : Face → List Msg
  | .none => []
  | .showing m => [m]
  | .answering m _ _ _ => [m]
  | .down m _ past => if past then [] else [m]

/-- The message the worker has no answer of. -/
def Face.pending : Face → List Msg
  | .none => []
  | .showing m => [m]
  | .answering m _ _ _ => [m]
  | .down m _ _ => [m]

/-- The message the greeter answered last. -/
def Face.answered : Face → List Exchange
  | .answering m r _ _ => [(m, r)]
  | .down m r _ => [(m, r)]
  | _ => []

/-- The connection. -/
def Face.conn (user : String) : Face → Connection
  | .showing _ => ⟨.authenticating user, [], false, false⟩
  | .answering _ _ fed _ => ⟨.authenticating user, fed, false, false⟩
  | _ => ⟨.authPending user, [], true, false⟩

/-- `greetd_ready_for_challenge`. -/
def Face.ready : Face → Bool
  | .none => true
  | .down _ _ _ => true
  | _ => false

/-- The prompts among exchanges, with their texts. -/
def textsOf (done : List Exchange) : List (Msg × String) :=
  done.filterMap fun (m, r) => if m.isPrompt then some (m, r.getD "") else none

/-- The bytes of a response. -/
def wireBytes (r : Response) : List UInt8 := Framing.toLeBytes r.toVec.length ++ r.toVec

/-- The messages on their way. -/
def Talk.open (t : Talk) : List Msg := t.face.pending ++ t.queue ++ t.up ++ t.low

/-- The relay's phase at the broker. -/
def Talk.phase (t : Talk) : RelayPhase :=
  if (t.face.awaited ++ t.queue ++ t.up).any Msg.isPrompt then .awaitGreeterConvResponse
  else .awaitWorker

def Talk.link (d : Script) (t : Talk) : Link where
  ep := ⟨d.service, some ⟨d.service, d.user, .authing, (t.face.tagged ++ t.queue).map Msg.tag⟩,
    t.face.conn d.user, .none, t.queue.map Msg.challenge, t.face.ready⟩
  toBroker := match t.face with
    | .down _ r false => [.convResponse (r.getD "")]
    | _ => []
  broker := .relaying ⟨t.phase⟩
  toCompositor := t.up.map fun m => (m.frame, .none)
  fromWorker := t.low.map fun m => (.conv m.frame, .none)
  toWorker := match t.face with
    | .down _ r true => [.convResponse (r.getD "")]
    | _ => []

def Talk.dialogue (d : Script) (t : Talk) : Dialogue where
  link := t.link d
  unsent := t.unsent
  verdict := some d.verdict
  blocked := t.open.find? Msg.isPrompt
  texts := textsOf t.done
  created := true
  wire := match t.face with
    | .answering _ _ _ rest => rest
    | _ => []
  inbox := match t.face with
    | .showing m => wireBytes m.authMessage
    | _ => []
  received := (t.done ++ t.face.answered).map (·.1.authMessage)
  answers := (t.done ++ t.face.answered).map (·.2)

/-- The broker frame of a verdict. -/
def Verdict.frame : Verdict → BrokerToCompositor
  | .authOk username uid gid => .success username uid gid
  | .failure reason => .failure reason

/-- The broker's end after it relayed the verdict. -/
def Verdict.brokerEnd : Verdict → BrokerEnd
  | .authOk _ _ _ => .relaying ⟨.awaitGreeterStartSession⟩
  | .failure _ => .closed

/-- The relay's phase after the verdict. -/
def Verdict.phase : Verdict → Phase
  | .authOk _ _ _ => .authed
  | .failure _ => .done

/-- The verdict as a PAM result. -/
def Verdict.step : Verdict → PamStep
  | .authOk username uid gid => .success username uid gid
  | .failure reason => .failure reason

def closingLink (d : Script) (tail : Tail) : Link where
  ep := match tail with
    | .sent | .relayed =>
      ⟨d.service, some ⟨d.service, d.user, .authing, []⟩, ⟨.authPending d.user, [], true, false⟩,
        none, [], true⟩
    | .shown | .read =>
      ⟨d.service, some ⟨d.service, d.user, d.verdict.phase, []⟩,
        ⟨((SessionState.authPending d.user).onPamResult d.verdict.step).1, [], false, false⟩,
        none, [], false⟩
  toBroker := []
  broker := match tail with
    | .sent => .relaying ⟨.awaitWorker⟩
    | _ => d.verdict.brokerEnd
  toCompositor := match tail with
    | .relayed => [(d.verdict.frame, none)]
    | _ => []
  fromWorker := match tail with
    | .sent => [(.outcome d.verdict.outcome, none)]
    | _ => []
  toWorker := []

/-- The state of the system at a stage. -/
def Stage.dialogue (d : Script) : Stage → Dialogue
  | .fresh => Dialogue.new d
  | .creating fed rest =>
    { Dialogue.new d with
      link := { Link.new d.service with
        ep := { BrokerEpisode.new d.service with conn := ⟨.idle, fed, false, false⟩ } },
      created := true, wire := rest }
  | .begun =>
    { Dialogue.new d with
      link := { Link.new d.service with
        ep := ⟨d.service, some ⟨d.service, d.user, .authing, []⟩,
          ⟨.authPending d.user, [], true, false⟩, none, [], true⟩,
        toBroker := [.beginAuth d.service d.user] },
      created := true }
  | .talking t => t.dialogue d
  | .closing done tail =>
    { link := closingLink d tail, unsent := [], verdict := none, blocked := none,
      texts := textsOf done, created := true, wire := [],
      inbox := if tail = .shown then wireBytes d.verdict.response else [],
      received := done.map (·.1.authMessage) ++
        (if tail = .read then [d.verdict.response] else []),
      answers := done.map (·.2) }

/-- What holds of the messages while the conversation lasts. -/
structure Talk.Ok (d : Script) (t : Talk) : Prop where
  order : t.done.map (·.1) ++ t.open ++ t.unsent = d.messages
  /-- The worker blocks at a prompt. -/
  last : ∀ m ∈ t.open.dropLast, m.isPrompt = false
  still : t.face.ready = true → t.queue = []
  bytes : ∀ m r fed rest, t.face = .answering m r fed rest →
    (Request.postAuthMessageResponse r).encode = .ok (fed ++ rest) ∧ rest ≠ []
  prompt : ∀ m r past, t.face = .down m r past →
    m.isPrompt = true ∧ Fits (CompositorToBroker.toVec (.convResponse (r.getD "")))

/-- What holds of a stage. -/
def Stage.Ok (d : Script) : Stage → Prop
  | .fresh => True
  | .creating fed rest => (Request.createSession d.user).encode = .ok (fed ++ rest) ∧ rest ≠ []
  | .begun => True
  | .talking t => t.Ok d
  | .closing done _ => done.map (·.1) = d.messages

/-! ## Sizes

A message weighs least as the frame furthest from the greeter, so what fits the last frame of its
way fits the others. -/

theorem length_createSession_le (service u : String) :
    (Request.createSession u).toVec.length
      ≤ (CompositorToBroker.toVec (.beginAuth service u)).length := by
  have h1 : (Json.string "type").length = 6 := by decide
  have h2 : (Json.string "create_session").length = 16 := by decide
  have h3 : (Json.string "begin_auth").length = 12 := by decide
  have h4 : (Json.string "service").length = 9 := by decide
  simp only [Request.toVec, CompositorToBroker.toVec, Json.object, List.map_cons, List.map_nil,
    Json.commaSep, Json.member, List.length_cons, List.length_append, List.length_nil, h1, h2, h3,
    h4]
  omega

theorem fits_frame {m : Msg} (h : m.authMessage.toVec.length ≤ Greetd.maxMessageSize) :
    Fits m.frame.toVec := by
  have hmax : Greetd.maxMessageSize = SessionIpc.maxMessageSize := rfl
  have h1 : (Json.string "type").length = 6 := by decide
  have h2 : (Json.string "style").length = 7 := by decide
  have h3 : (Json.string "message").length = 9 := by decide
  have h4 : (Json.string "conv_prompt").length = 13 := by decide
  have h5 : (Json.string "conv_display").length = 14 := by decide
  unfold Fits
  cases m with
  | prompt style message =>
    rw [Msg.authMessage, Response.length_toVec_authMessage] at h
    have hname :
        (Json.string style.name).length = (Json.string (promptToKind style).name).length := by
      cases style <;> rfl
    simp only [Msg.frame, BrokerToCompositor.toVec, Json.object, List.map_cons, List.map_nil,
      Json.commaSep, Json.member, List.length_cons, List.length_append, List.length_nil, h1, h2, h3,
      h4, hname]
    omega
  | display style message =>
    rw [Msg.authMessage, Response.length_toVec_authMessage] at h
    have hname : (Json.string style.name).length
        = (Json.string (displayToKind style).name).length := by
      cases style <;> rfl
    simp only [Msg.frame, BrokerToCompositor.toVec, Json.object, List.map_cons, List.map_nil,
      Json.commaSep, Json.member, List.length_cons, List.length_append, List.length_nil, h1, h2, h3,
      h5, hname]
    omega

theorem fits_convResponse {r : Option String} {bs : List UInt8}
    (h : (Request.postAuthMessageResponse r).encode = .ok bs) :
    Fits (CompositorToBroker.toVec (.convResponse (r.getD ""))) := by
  have hle := (Framing.encode_ok _ h).2.2
  have hmax : Greetd.maxMessageSize = SessionIpc.maxMessageSize := rfl
  have h1 : (Json.string "type").length = 6 := by decide
  have h2 : (Json.string "response").length = 10 := by decide
  have h3 : (Json.string "post_auth_message_response").length = 28 := by decide
  have h4 : (Json.string "conv_response").length = 15 := by decide
  have h5 : (Json.string "").length = 2 := by decide
  unfold Fits
  cases r with
  | none =>
    simp only [Request.toVec, CompositorToBroker.toVec, Json.object, List.map_cons, List.map_nil,
      Json.commaSep, Json.member, List.length_cons, List.length_append, List.length_nil, h1, h2, h3,
      h4, h5, Option.getD_none] at hle ⊢
    omega
  | some text =>
    simp only [Request.toVec, CompositorToBroker.toVec, Json.object, List.map_cons, List.map_nil,
      Json.commaSep, Json.member, List.length_cons, List.length_append, List.length_nil, h1, h2, h3,
      h4, Option.getD_some, Option.elim_some] at hle ⊢
    omega

theorem fits_verdict {v : Verdict} (h : Fits v.outcome.toVec) : Fits v.frame.toVec := by
  have h1 : (Json.string "type").length = 6 := by decide
  have h2 : (Json.string "worker_auth_ok").length = 16 := by decide
  have h3 : (Json.string "success").length = 9 := by decide
  have h4 : (Json.string "worker_failure").length = 16 := by decide
  have h5 : (Json.string "failure").length = 9 := by decide
  unfold Fits at h ⊢
  cases v with
  | authOk username uid gid =>
    simp only [Verdict.outcome, Verdict.frame, WorkerOutcome.toVec, BrokerToCompositor.toVec,
      identityMembers, Json.object, List.map_cons, List.map_nil, Json.commaSep, Json.member,
      List.length_cons, List.length_append, List.length_nil, h1, h2, h3] at h ⊢
    omega
  | failure reason =>
    simp only [Verdict.outcome, Verdict.frame, WorkerOutcome.toVec, BrokerToCompositor.toVec,
      Json.object, List.map_cons, List.map_nil, Json.commaSep, Json.member, List.length_cons,
      List.length_append, List.length_nil, h1, h4, h5] at h ⊢
    omega

/-! ## The simulation -/

/-- What is left to do, by where it is: each step takes something a place further. `K` is more than
the bytes of a message weigh. -/
def Dialogue.weight (K : Nat) (s : Dialogue) : Nat :=
  (if s.created then 0 else K) + 4 * s.wire.length + 3 * s.link.toBroker.length +
    s.link.toWorker.length + (K + 4) * (s.unsent.length + s.verdict.toList.length) +
    (K + 3) * s.link.fromWorker.length + (K + 2) * s.link.toCompositor.length +
    (K + 1) * s.link.ep.pendingChallenges.length + (if s.inbox = [] then 0 else K)

section
variable (dec : Decoders) (isFile : String → Bool) (d : Script) (K : Nat)

/-- A step of the system that is a step of the login. -/
structure Goes (st : Stage) (i : Move) (st' : Stage) : Prop where
  ok : st'.Ok d
  state : ((st.dialogue d).step dec isFile d i).1 = st'.dialogue d
  harmless : ∀ e ∈ ((st.dialogue d).step dec isFile d i).2, e.Harmless
  less : (st'.dialogue d).weight K < (st.dialogue d).weight K

/-- A step that changes nothing. -/
def Stays (st : Stage) (i : Move) : Prop :=
  ((st.dialogue d).step dec isFile d i).1 = st.dialogue d ∧
    ∀ e ∈ ((st.dialogue d).step dec isFile d i).2, e.Harmless

end

section
variable {dec : Decoders} {isFile : String → Bool} {d : Script} {K : Nat}

theorem stays_of_eq {st : Stage} {i : Move}
    (h : (st.dialogue d).step dec isFile d i = (st.dialogue d, [])) : Stays dec isFile d st i := by
  unfold Stays
  rw [h]
  exact ⟨rfl, by simp⟩

/-- A calm call of the episode. -/
theorem called_calm {s : Dialogue} {l : Link} {a : Acted} {ep' : BrokerEpisode}
    {reply : List UInt8} {fs : List CompositorToBroker} (h : a.Calm ep' reply fs) :
    (s.called (l.called a) a).1
      = { s with link := { l with ep := ep', toBroker := l.toBroker ++ fs },
                 inbox := s.inbox ++ reply } ∧
    ∀ e ∈ (s.called (l.called a) a).2, e.Harmless := by
  refine ⟨?_, fun e he => ?_⟩
  · simp only [Dialogue.called, Link.called, h.ep, h.reply, h.sent]
  · simp only [Dialogue.called, List.map_append, List.map_cons, List.map_nil, List.mem_append,
      List.mem_map, List.mem_singleton] at he
    rcases he with ⟨e', he', rfl⟩ | rfl
    · exact h.calm e' he'
    · exact h.goes

/-! ### Opening -/

/-- The bytes of the greeter's `CreateSession`. -/
theorem createSession_encode (hd : d.Answerable) :
    ∃ bytes, (Request.createSession d.user).encode = .ok bytes ∧ bytes ≠ [] ∧
      4 * bytes.length < 4 * Greetd.maxMessageSize + 20 := by
  have hle : (Request.createSession d.user).toVec.length ≤ Greetd.maxMessageSize :=
    Nat.le_trans (length_createSession_le d.service d.user) hd.begin
  refine ⟨_, Framing.encode_of_le _ (by decide) hle, by simp [Framing.toLeBytes], ?_⟩
  rw [List.length_append, Framing.length_toLeBytes]
  unfold Framing.lengthPrefixSize
  omega

theorem goes_create (hK : 4 * Greetd.maxMessageSize + 20 ≤ K) (hd : d.Answerable) :
    ∃ bytes, Goes dec isFile d K .fresh .create (.creating [] bytes) := by
  obtain ⟨bytes, henc, hne, hlt⟩ := createSession_encode hd
  have hstep : (Dialogue.new d).step dec isFile d .create
      = ((Stage.creating [] bytes).dialogue d, []) := by
    simp only [Dialogue.step, henc]
    rfl
  refine ⟨bytes, ⟨henc, hne⟩, congrArg Prod.fst hstep, ?_, ?_⟩
  · intro e he
    rw [Stage.dialogue, hstep] at he
    cases he
  · simp [Stage.dialogue, Dialogue.weight, Dialogue.new, Link.new, BrokerEpisode.new]
    omega

theorem goes_accept : Goes dec isFile d K .begun .accept
    (.talking ⟨[], .none, [], [], [], d.messages⟩) := by
  refine ⟨⟨?_, ?_, ?_, ?_, ?_⟩, rfl, ?_, ?_⟩
  · simp [Talk.open, Face.pending]
  · simp [Talk.open, Face.pending]
  · simp
  · simp
  · simp
  · intro e he
    cases he
  · simp [Stage.dialogue, Dialogue.weight, Dialogue.new, Link.new, Talk.dialogue, Talk.link]

/-- A chunk of the greeter's bytes. -/
theorem step_readGreeter {s : Dialogue} {n : Nat} (hne : s.wire ≠ []) {ep' : BrokerEpisode}
    {reply : List UInt8} {fs : List CompositorToBroker}
    (h : (s.link.ep.onGreeterBytes dec.request ⟨isFile, true⟩ (s.wire.take (n + 1))).Calm
      ep' reply fs) :
    (s.step dec isFile d (.readGreeter n)).1
      = { s with wire := s.wire.drop (n + 1),
                 link := { s.link with ep := ep', toBroker := s.link.toBroker ++ fs },
                 inbox := s.inbox ++ reply } ∧
    ∀ e ∈ (s.step dec isFile d (.readGreeter n)).2, e.Harmless := by
  simp only [Dialogue.step, if_neg hne]
  exact called_calm h

/-- A chunk and what is left of the bytes. -/
theorem length_drop_lt {rest : List UInt8} (hne : rest ≠ []) (n : Nat) :
    (rest.drop (n + 1)).length < rest.length := by
  have := List.length_pos_iff.mpr hne
  rw [List.length_drop]
  omega

/-- The compositor reads on in the greeter's `CreateSession`. -/
theorem goes_creating (hd : d.Answerable) {fed rest : List UInt8}
    (hok : (Stage.creating fed rest).Ok d) (n : Nat) :
    ∃ st', Goes dec isFile d K (.creating fed rest) (.readGreeter n) st' := by
  obtain ⟨henc, hne⟩ := hok
  have hlt := length_drop_lt hne n
  have hsplit : fed ++ rest.take (n + 1) ++ rest.drop (n + 1) = fed ++ rest := by
    rw [List.append_assoc, List.take_append_drop]
  by_cases hend : rest.drop (n + 1) = []
  · -- the request is whole
    have hchunk : rest.take (n + 1) = rest := by
      simpa [hend] using List.take_append_drop (n + 1) rest
    have h : (((Stage.creating fed rest).dialogue d).link.ep.onGreeterBytes dec.request
        ⟨isFile, true⟩ (rest.take (n + 1))).Calm
          ⟨d.service, some ⟨d.service, d.user, .authing, []⟩,
            ⟨.authPending d.user, [], true, false⟩, none, [], true⟩ []
          [.beginAuth d.service d.user] := by
      rw [hchunk]
      exact onGreeterBytes_whole rfl rfl henc (dec.request_toVec _) rfl
        (actOnDemand_sent rfl hd.begin rfl)
    obtain ⟨hst, hharm⟩ := step_readGreeter (d := d)
      (s := (Stage.creating fed rest).dialogue d) hne h
    refine ⟨.begun, trivial, ?_, hharm, ?_⟩
    · rw [hst]
      simp only [Stage.dialogue, hend]
      rfl
    · have := List.length_pos_iff.mpr hne
      simp [Stage.dialogue, Dialogue.weight, Dialogue.new, Link.new, BrokerEpisode.new]
      omega
  · have h : (((Stage.creating fed rest).dialogue d).link.ep.onGreeterBytes dec.request
        ⟨isFile, true⟩ (rest.take (n + 1))).Calm
          { BrokerEpisode.new d.service with
            conn := ⟨.idle, fed ++ rest.take (n + 1), false, false⟩ } [] [] :=
      onGreeterBytes_part rfl rfl (by rw [← hsplit] at henc; exact henc) hend
    obtain ⟨hst, hharm⟩ := step_readGreeter (d := d)
      (s := (Stage.creating fed rest).dialogue d) hne h
    refine ⟨.creating (fed ++ rest.take (n + 1)) (rest.drop (n + 1)), ⟨by rw [hsplit, henc], hend⟩,
      hst, hharm, ?_⟩
    simp [Stage.dialogue, Dialogue.weight, Dialogue.new, Link.new, BrokerEpisode.new] at hlt ⊢
    omega

/-! ### Talking -/

/-- A challenge is shown as its `AuthMessage`. -/
theorem onPamResult_challenge (u : String) (m : Msg) :
    (SessionState.authPending u).onPamResult m.challenge = (.authenticating u, m.authMessage) := by
  cases m <;> rfl

theorem encode_authMessage (hd : d.Answerable) {m : Msg} (hm : m ∈ d.messages) :
    m.authMessage.encode = .ok (wireBytes m.authMessage) :=
  Response.encode_of_le (hd.messages m hm)

section
variable {done : List Exchange} {m : Msg} {r : Option String} {fed rest : List UInt8}
  {queue up low unsent : List Msg}

/-- A message on its way is one of the script. -/
theorem Talk.Ok.mem {t : Talk} (h : t.Ok d) {m : Msg} (hm : m ∈ t.open) : m ∈ d.messages := by
  rw [← h.order]
  simp [hm]

/-- A prompt in front of the greeter is the last message on its way. -/
theorem Talk.Ok.alone {t : Talk} (h : t.Ok d) (hface : t.face.pending = [m])
    (hp : m.isPrompt = true) : t.queue = [] ∧ t.up = [] ∧ t.low = [] := by
  have hlast := h.last m
  rw [Talk.open, hface, List.append_assoc, List.append_assoc, List.singleton_append] at hlast
  cases hrest : t.queue ++ (t.up ++ t.low) with
  | nil => simpa using hrest
  | cons x xs =>
    rw [hrest] at hlast
    simp [hp] at hlast

/-- The step of the greeter's answer to a prompt. -/
theorem goes_answering_prompt (hp : m.isPrompt = true)
    (hok : (Stage.talking ⟨done, .answering m r fed rest, queue, up, low, unsent⟩).Ok d) {n : Nat}
    (hend : rest.drop (n + 1) = []) :
    Goes dec isFile d K (.talking ⟨done, .answering m r fed rest, queue, up, low, unsent⟩)
      (.readGreeter n) (.talking ⟨done, .down m r false, [], [], [], unsent⟩) := by
  obtain ⟨hq, hup, hlow⟩ := Talk.Ok.alone hok rfl hp
  obtain ⟨henc, hne⟩ := hok.bytes _ _ _ _ rfl
  simp only at hq hup hlow
  subst hq hup hlow
  have hchunk : rest.take (n + 1) = rest := by
    simpa [hend] using List.take_append_drop (n + 1) rest
  obtain ⟨style, message, rfl⟩ : ∃ style message, m = .prompt style message := by
    cases m with
    | prompt style message => exact ⟨style, message, rfl⟩
    | display style message => cases hp
  have h : ((Talk.link d ⟨done, .answering (.prompt style message) r fed rest, [], [], [],
      unsent⟩).ep.onGreeterBytes dec.request ⟨isFile, true⟩ (rest.take (n + 1))).Calm
        ⟨d.service, some ⟨d.service, d.user, .authing, []⟩,
          ⟨.authPending d.user, [], true, false⟩, none, [], true⟩ []
        [.convResponse (r.getD "")] := by
    rw [hchunk]
    exact onGreeterBytes_whole rfl rfl henc (dec.request_toVec _) rfl
      (actOnDemand_sent rfl (fits_convResponse henc) rfl)
  obtain ⟨hst, hharm⟩ := step_readGreeter (d := d) (s := Stage.dialogue d (.talking
    ⟨done, .answering (.prompt style message) r fed rest, [], [], [], unsent⟩)) hne h
  refine ⟨⟨hok.order, by simp [Talk.open, Face.pending], by simp, by simp, ?_⟩, ?_, hharm, ?_⟩
  · rintro _ _ _ ⟨⟩
    exact ⟨rfl, fits_convResponse henc⟩
  · rw [hst]
    simp [Stage.dialogue, Talk.dialogue, Talk.link, hend, Face.tagged, Face.conn, Face.ready,
      Talk.phase, Face.awaited, Talk.open, Face.pending, Face.answered]
  · have := List.length_pos_iff.mpr hne
    simp [Stage.dialogue, Dialogue.weight, Talk.dialogue, Talk.link]
    omega

/-- What an acknowledged display leaves on its way. -/
theorem Talk.Ok.acknowledged
    (hok : Talk.Ok d ⟨done, .answering m r fed rest, queue, up, low, unsent⟩) (face : Face)
    (queue' : List Msg) (hopen : face.pending ++ queue' = queue)
    (hready : face.ready = true → queue' = [])
    (hface : (∃ q, face = .showing q) ∨ face = .none) :
    Talk.Ok d ⟨done ++ [(m, r)], face, queue', up, low, unsent⟩ := by
  have hord := hok.order
  have hlast := hok.last
  simp only [Talk.open, Face.pending, List.append_assoc, List.singleton_append] at hord hlast
  refine ⟨?_, fun m' hm' => ?_, hready, ?_, ?_⟩
  · simpa [Talk.open, ← hopen] using hord
  · simp only [Talk.open, hopen, List.append_assoc] at hm'
    refine hlast m' ?_
    have hne : queue ++ (up ++ low) ≠ [] := by
      intro h
      rw [h] at hm'
      cases hm'
    rw [List.cons_append, List.dropLast_cons_of_ne_nil hne]
    exact List.mem_cons_of_mem m hm'
  · rcases hface with ⟨q, rfl⟩ | rfl <;> simp
  · rcases hface with ⟨q, rfl⟩ | rfl <;> simp

/-- The step of the greeter's acknowledgement of a display. -/
theorem goes_answering_display (hd : d.Answerable) (hp : m.isPrompt = false)
    (hok : (Stage.talking ⟨done, .answering m r fed rest, queue, up, low, unsent⟩).Ok d) {n : Nat}
    (hend : rest.drop (n + 1) = []) :
    ∃ st', Goes dec isFile d K (.talking ⟨done, .answering m r fed rest, queue, up, low, unsent⟩)
      (.readGreeter n) st' := by
  obtain ⟨henc, hne⟩ := hok.bytes _ _ _ _ rfl
  have hchunk : rest.take (n + 1) = rest := by
    simpa [hend] using List.take_append_drop (n + 1) rest
  obtain ⟨style, message, rfl⟩ : ∃ style message, m = .display style message := by
    cases m with
    | prompt style message => cases hp
    | display style message => exact ⟨style, message, rfl⟩
  have hlen := List.length_pos_iff.mpr hne
  cases queue with
  | nil =>
    have h : ((Talk.link d ⟨done, .answering (.display style message) r fed rest, [], up, low,
        unsent⟩).ep.onGreeterBytes dec.request ⟨isFile, true⟩ (rest.take (n + 1))).Calm
          ⟨d.service, some ⟨d.service, d.user, .authing, []⟩,
            ⟨.authPending d.user, [], true, false⟩, none, [], true⟩ [] [] := by
      rw [hchunk]
      exact onGreeterBytes_whole rfl rfl henc (dec.request_toVec _) rfl
        (actOnDemand_swallowed rfl rfl rfl)
    obtain ⟨hst, hharm⟩ := step_readGreeter (d := d) (s := Stage.dialogue d (.talking
      ⟨done, .answering (.display style message) r fed rest, [], up, low, unsent⟩)) hne h
    have hok' := Talk.Ok.acknowledged hok .none [] rfl (fun _ => rfl) (.inr rfl)
    refine ⟨.talking ⟨done ++ [(Msg.display style message, r)], .none, [], up, low, unsent⟩,
      hok', ?_,
      hharm, ?_⟩
    · rw [hst]
      simp [Stage.dialogue, Talk.dialogue, Talk.link, hend, Face.tagged, Face.conn, Face.ready,
        Talk.phase, Face.awaited, Talk.open, Face.pending, Face.answered, Msg.isPrompt, textsOf]
    · simp [Stage.dialogue, Dialogue.weight, Talk.dialogue, Talk.link]
      omega
  | cons q qs =>
    have hq : q ∈ d.messages := hok.mem (by simp [Talk.open])
    have h : ((Talk.link d ⟨done, .answering (.display style message) r fed rest, q :: qs, up, low,
        unsent⟩).ep.onGreeterBytes dec.request ⟨isFile, true⟩ (rest.take (n + 1))).Calm
          ⟨d.service, some ⟨d.service, d.user, .authing, (q :: qs).map Msg.tag⟩,
            ⟨.authenticating d.user, [], false, false⟩, none, qs.map Msg.challenge, false⟩
          (wireBytes q.authMessage) [] := by
      rw [hchunk]
      refine onGreeterBytes_whole rfl rfl henc (dec.request_toVec _) rfl ?_
      exact actOnDemand_flushed rfl rfl rfl rfl rfl (onPamResult_challenge d.user q)
        (encode_authMessage hd hq) rfl
    obtain ⟨hst, hharm⟩ := step_readGreeter (d := d) (s := Stage.dialogue d (.talking
      ⟨done, .answering (.display style message) r fed rest, q :: qs, up, low, unsent⟩)) hne h
    have hok' := Talk.Ok.acknowledged hok (.showing q) qs rfl (by simp [Face.ready])
      (.inl ⟨q, rfl⟩)
    refine ⟨.talking ⟨done ++ [(Msg.display style message, r)], .showing q, qs, up, low, unsent⟩,
      hok',
      ?_, hharm, ?_⟩
    · rw [hst]
      simp [Stage.dialogue, Talk.dialogue, Talk.link, hend, Face.tagged, Face.conn, Face.ready,
        Talk.phase, Face.awaited, Talk.open, Face.pending, Face.answered, Msg.isPrompt, textsOf]
    · simp [Stage.dialogue, Dialogue.weight, Talk.dialogue, Talk.link, Nat.mul_add]
      split <;> omega

/-- The compositor reads on in the greeter's answer. -/
theorem goes_answering (hd : d.Answerable)
    (hok : (Stage.talking ⟨done, .answering m r fed rest, queue, up, low, unsent⟩).Ok d) (n : Nat) :
    ∃ st', Goes dec isFile d K (.talking ⟨done, .answering m r fed rest, queue, up, low, unsent⟩)
      (.readGreeter n) st' := by
  by_cases hend : rest.drop (n + 1) = []
  · cases hp : m.isPrompt with
    | true => exact ⟨_, goes_answering_prompt hp hok hend⟩
    | false => exact goes_answering_display hd hp hok hend
  obtain ⟨henc, hne⟩ := hok.bytes _ _ _ _ rfl
  have hlt := length_drop_lt hne n
  have hsplit : fed ++ rest.take (n + 1) ++ rest.drop (n + 1) = fed ++ rest := by
    rw [List.append_assoc, List.take_append_drop]
  have h : ((Talk.link d ⟨done, .answering m r fed rest, queue, up, low,
      unsent⟩).ep.onGreeterBytes dec.request ⟨isFile, true⟩ (rest.take (n + 1))).Calm
        (Talk.link d ⟨done, .answering m r (fed ++ rest.take (n + 1)) (rest.drop (n + 1)), queue,
          up, low, unsent⟩).ep [] [] :=
    onGreeterBytes_part rfl rfl (by rw [← hsplit] at henc; exact henc) hend
  obtain ⟨hst, hharm⟩ := step_readGreeter (d := d) (s := Stage.dialogue d (.talking
    ⟨done, .answering m r fed rest, queue, up, low, unsent⟩)) hne h
  refine ⟨.talking ⟨done, .answering m r (fed ++ rest.take (n + 1)) (rest.drop (n + 1)), queue, up,
    low, unsent⟩, ⟨hok.order, hok.last, hok.still, ?_, by simp⟩, hst, hharm, ?_⟩
  · rintro _ _ _ _ ⟨⟩
    exact ⟨by rw [hsplit, henc], hend⟩
  · simp [Stage.dialogue, Dialogue.weight, Talk.dialogue, Talk.link] at hlt ⊢
    omega

/-- The greeter reads a message and answers it. -/
theorem goes_showing (hK : 4 * Greetd.maxMessageSize + 20 ≤ K) {bytes : List UInt8}
    (henc : (Request.postAuthMessageResponse r).encode = .ok bytes)
    (hd : d.Answerable) (hok : (Stage.talking ⟨done, .showing m, queue, up, low, unsent⟩).Ok d) :
    Goes dec isFile d K (.talking ⟨done, .showing m, queue, up, low, unsent⟩) (.greeterReads r)
      (.talking ⟨done, .answering m r [] bytes, queue, up, low, unsent⟩) := by
  have hm : m ∈ d.messages := hok.mem (by simp [Talk.open, Face.pending])
  have hdec : Greetd.tryDecode dec.response (wireBytes m.authMessage)
      = .ok (some (m.authMessage, (wireBytes m.authMessage).length)) := by
    have h := Framing.tryDecode_encode (encode_authMessage hd hm) (dec.response_toVec _) []
    rwa [List.append_nil] at h
  obtain ⟨kind, prompt, hkind⟩ : ∃ kind prompt, m.authMessage = .authMessage kind prompt := by
    cases m <;> exact ⟨_, _, rfl⟩
  have hstep : (Stage.dialogue d (.talking ⟨done, .showing m, queue, up, low, unsent⟩)).step dec
      isFile d (.greeterReads r)
        = (Stage.dialogue d (.talking ⟨done, .answering m r [] bytes, queue, up, low, unsent⟩),
          []) := by
    simp only [Stage.dialogue, Dialogue.step, Talk.dialogue, hdec]
    simp only [hkind, henc]
    simp [Face.answered, hkind, Talk.link, Face.tagged, Face.conn, Face.ready, Talk.phase,
      Face.awaited, Talk.open, Face.pending]
  obtain ⟨hbytes, -, hle⟩ := Framing.encode_ok _ henc
  refine ⟨⟨hok.order, hok.last, ?_, ?_, by simp⟩, congrArg Prod.fst hstep, ?_, ?_⟩
  · simp [Face.ready]
  · rintro _ _ _ _ ⟨⟩
    exact ⟨henc, by rw [hbytes]; simp [Framing.toLeBytes]⟩
  · rw [hstep]
    simp
  · have hlen : bytes.length ≤ 4 + Greetd.maxMessageSize := by
      rw [hbytes, List.length_append, Framing.length_toLeBytes]
      unfold Framing.lengthPrefixSize
      omega
    have hne : wireBytes m.authMessage ≠ [] := by simp [wireBytes, Framing.toLeBytes]
    simp [Stage.dialogue, Dialogue.weight, Talk.dialogue, Talk.link, hne]
    omega

/-- A broker frame delivered to the compositor. -/
theorem step_readBroker {s : Dialogue} {frame : BrokerToCompositor × Option Fd}
    {rest : List (BrokerToCompositor × Option Fd)} (hq : s.link.toCompositor = frame :: rest)
    {ep' : BrokerEpisode} {reply : List UInt8} {fs : List CompositorToBroker}
    (h : (s.link.ep.onBrokerReadable dec.request ⟨isFile, true⟩ (.ok (some frame))).Calm
      ep' reply fs) :
    (s.step dec isFile d .readBroker).1
      = { s with link := { s.link with toCompositor := rest, ep := ep',
                                       toBroker := s.link.toBroker ++ fs },
                 inbox := s.inbox ++ reply } ∧
    ∀ e ∈ (s.step dec isFile d .readBroker).2, e.Harmless := by
  simp only [Dialogue.step, Link.deliver, Link.delivering, hq, List.drop_one, List.tail_cons,
    List.head?_cons]
  exact called_calm h

/-- What the relay makes of a message. -/
theorem onBrokerFrame_msg (service user : String) (tags : List PendingResponse) (m : Msg) :
    BrokerRelay.onBrokerFrame ⟨service, user, .authing, tags⟩ m.frame
      = .ok (.pam m.challenge, ⟨service, user, .authing, tags ++ [m.tag]⟩) := by
  cases m <;> rfl

/-- A message that reaches a suspended connection is shown. -/
theorem goes_delivered (hd : d.Answerable)
    (hok : (Stage.talking ⟨done, .none, queue, m :: up, low, unsent⟩).Ok d) :
    Goes dec isFile d K (.talking ⟨done, .none, queue, m :: up, low, unsent⟩) .readBroker
      (.talking ⟨done, .showing m, [], up, low, unsent⟩) := by
  have hq : queue = [] := hok.still rfl
  subst hq
  have hm : m ∈ d.messages := hok.mem (by simp [Talk.open])
  have h : ((Talk.link d ⟨done, .none, [], m :: up, low, unsent⟩).ep.onBrokerReadable dec.request
      ⟨isFile, true⟩ (.ok (some (m.frame, none)))).Calm
        (Talk.link d ⟨done, .showing m, [], up, low, unsent⟩).ep (wireBytes m.authMessage) [] :=
    onBrokerReadable_shown rfl none (onBrokerFrame_msg d.service d.user [] m) rfl rfl rfl rfl
      (onPamResult_challenge d.user m) (encode_authMessage hd hm)
  obtain ⟨hst, hharm⟩ := step_readBroker (d := d)
    (s := Stage.dialogue d (.talking ⟨done, .none, [], m :: up, low, unsent⟩)) rfl h
  refine ⟨⟨hok.order, hok.last, by simp [Face.ready], by simp, by simp⟩, ?_, hharm, ?_⟩
  · rw [hst]
    simp [Stage.dialogue, Talk.dialogue, Talk.link, Talk.phase, Face.awaited, Talk.open,
      Face.pending, Face.answered]
  · simp [Stage.dialogue, Dialogue.weight, Talk.dialogue, Talk.link, Nat.mul_add]
    split <;> omega

/-- A message that reaches a connection that waits for the greeter is queued. -/
theorem goes_queued {face : Face} (hface : face.ready = false)
    (hok : (Stage.talking ⟨done, face, queue, m :: up, low, unsent⟩).Ok d) :
    Goes dec isFile d K (.talking ⟨done, face, queue, m :: up, low, unsent⟩) .readBroker
      (.talking ⟨done, face, queue ++ [m], up, low, unsent⟩) := by
  have h : ((Talk.link d ⟨done, face, queue, m :: up, low, unsent⟩).ep.onBrokerReadable dec.request
      ⟨isFile, true⟩ (.ok (some (m.frame, none)))).Calm
        (Talk.link d ⟨done, face, queue ++ [m], up, low, unsent⟩).ep [] [] := by
    have h' : ((Talk.link d ⟨done, face, queue, m :: up, low, unsent⟩).ep.onBrokerReadable
        dec.request ⟨isFile, true⟩ (.ok (some (m.frame, none)))).Calm _ [] [] :=
      onBrokerReadable_queued rfl none
        (onBrokerFrame_msg d.service d.user ((face.tagged ++ queue).map Msg.tag) m) hface
    simpa [Talk.link] using h'
  obtain ⟨hst, hharm⟩ := step_readBroker (d := d)
    (s := Stage.dialogue d (.talking ⟨done, face, queue, m :: up, low, unsent⟩)) rfl h
  refine ⟨⟨?_, ?_, by simp [hface], hok.bytes, hok.prompt⟩, ?_, hharm, ?_⟩
  · simpa [Talk.open] using hok.order
  · simpa [Talk.open] using hok.last
  · rw [hst]
    simp [Stage.dialogue, Talk.dialogue, Talk.link, Talk.phase, Talk.open]
  · simp [Stage.dialogue, Dialogue.weight, Talk.dialogue, Talk.link, Nat.mul_add]
    omega

/-- The broker relays a message. -/
theorem goes_relayed (hd : d.Answerable) {face : Face}
    (hok : (Stage.talking ⟨done, face, queue, up, m :: low, unsent⟩).Ok d) :
    Goes dec isFile d K (.talking ⟨done, face, queue, up, m :: low, unsent⟩) .workerReadable
      (.talking ⟨done, face, queue, up ++ [m], low, unsent⟩) := by
  have hm : m ∈ d.messages := hok.mem (by simp [Talk.open])
  -- the messages before it are displays, so the broker awaits the worker
  have hnone : (face.awaited ++ queue ++ up).any Msg.isPrompt = false := by
    rw [List.any_eq_false]
    intro m' hm'
    have hmem : m' ∈ (Talk.open ⟨done, face, queue, up, m :: low, unsent⟩).dropLast := by
      rw [Talk.open, List.dropLast_append_of_ne_nil (by simp)]
      refine List.mem_append_left _ ?_
      simp only [List.mem_append] at hm' ⊢
      refine hm'.imp_left (Or.imp_left fun h => ?_)
      cases face with
      | none => exact h
      | showing m => exact h
      | answering m r fed rest => exact h
      | down m r past =>
        cases past with
        | true => cases h
        | false => exact h
    simp [hok.last m' hmem]
  have hphase : Talk.phase ⟨done, face, queue, up, m :: low, unsent⟩ = .awaitWorker := by
    rw [Talk.phase, hnone]
    rfl
  have hphase' : Talk.phase ⟨done, face, queue, up ++ [m], low, unsent⟩
      = if m.isPrompt then .awaitGreeterConvResponse else .awaitWorker := by
    rw [Talk.phase, ← List.append_assoc, List.any_append, hnone]
    simp
  have hrelay : Relay.onWorkerReadable ⟨.awaitWorker⟩ (some (.ok (.conv m.frame, none))) (.ok ())
      = ⟨⟨if m.isPrompt then .awaitGreeterConvResponse else .awaitWorker⟩,
          some (m.frame, none), .ok .continue⟩ := by
    have hfit := fits_frame (hd.messages m hm)
    cases m with
    | prompt style message =>
      rw [Msg.frame] at hfit
      simp [Relay.onWorkerReadable, Msg.frame, Relay.write, send, hfit, Msg.isPrompt]
    | display style message =>
      rw [Msg.frame] at hfit
      simp [Relay.onWorkerReadable, Msg.frame, Relay.write, send, hfit, Msg.isPrompt]
  have hstep : (Stage.dialogue d (.talking ⟨done, face, queue, up, m :: low, unsent⟩)).step dec
      isFile d .workerReadable
        = (Stage.dialogue d (.talking ⟨done, face, queue, up ++ [m], low, unsent⟩),
          [.relay (.ok .continue)]) := by
    simp only [Dialogue.step, Link.workerReadable, Link.workerStep, Stage.dialogue, Talk.dialogue,
      Talk.link, hphase, List.map_cons, hrelay, hphase']
    simp [BrokerEnd.after, Talk.open]
  refine ⟨⟨?_, ?_, hok.still, hok.bytes, hok.prompt⟩, congrArg Prod.fst hstep, ?_, ?_⟩
  · simpa [Talk.open] using hok.order
  · simpa [Talk.open] using hok.last
  · rw [hstep]
    simp [Incident.Harmless]
  · simp [Stage.dialogue, Dialogue.weight, Talk.dialogue, Talk.link, Nat.mul_add]
    omega

/-- The broker sends the answer down. -/
theorem goes_sentDown
    (hok : (Stage.talking ⟨done, .down m r false, queue, up, low, unsent⟩).Ok d) :
    Goes dec isFile d K (.talking ⟨done, .down m r false, queue, up, low, unsent⟩) .greeterReadable
      (.talking ⟨done, .down m r true, queue, up, low, unsent⟩) := by
  obtain ⟨hp, hfit⟩ := hok.prompt _ _ _ rfl
  obtain ⟨hq, hup, hlow⟩ := Talk.Ok.alone hok rfl hp
  simp only at hq hup hlow
  subst hq hup hlow
  have hphase : Talk.phase ⟨done, .down m r false, [], [], [], unsent⟩
      = .awaitGreeterConvResponse := by
    simp [Talk.phase, Face.awaited, hp]
  have hrelay : Relay.onGreeterReadable ⟨.awaitGreeterConvResponse⟩
      (.ok (.convResponse (r.getD ""))) true (.ok ())
        = ⟨⟨.awaitWorker⟩, some (.convResponse (r.getD "")), .ok .continue⟩ := by
    simp [Relay.onGreeterReadable, Relay.down, Relay.write, send, hfit]
  have hstep : (Stage.dialogue d (.talking ⟨done, .down m r false, [], [], [], unsent⟩)).step dec
      isFile d .greeterReadable
        = (Stage.dialogue d (.talking ⟨done, .down m r true, [], [], [], unsent⟩),
          [.relay (.ok .continue)]) := by
    simp only [Dialogue.step, Link.greeterReadable, Link.greeterStep, Stage.dialogue, Talk.dialogue,
      Talk.link, hphase, hrelay]
    simp [BrokerEnd.after, Talk.open, Talk.phase, Face.awaited, Face.tagged, Face.conn, Face.ready,
      Face.pending, Face.answered]
  refine ⟨⟨hok.order, hok.last, fun _ => rfl, by simp, ?_⟩, congrArg Prod.fst hstep, ?_, ?_⟩
  · rintro _ _ _ ⟨⟩
    exact ⟨hp, hfit⟩
  · rw [hstep]
    simp [Incident.Harmless]
  · simp [Stage.dialogue, Dialogue.weight, Talk.dialogue, Talk.link]

/-- The worker's prompt gets its text. -/
theorem goes_received (hok : (Stage.talking ⟨done, .down m r true, queue, up, low, unsent⟩).Ok d) :
    Goes dec isFile d K (.talking ⟨done, .down m r true, queue, up, low, unsent⟩) .workerReceives
      (.talking ⟨done ++ [(m, r)], .none, queue, up, low, unsent⟩) := by
  obtain ⟨hp, -⟩ := hok.prompt _ _ _ rfl
  obtain ⟨hq, hup, hlow⟩ := Talk.Ok.alone hok rfl hp
  simp only at hq hup hlow
  subst hq hup hlow
  have hstep : (Stage.dialogue d (.talking ⟨done, .down m r true, [], [], [], unsent⟩)).step dec
      isFile d .workerReceives
        = (Stage.dialogue d (.talking ⟨done ++ [(m, r)], .none, [], [], [], unsent⟩), []) := by
    simp [Dialogue.step, Stage.dialogue, Talk.dialogue, Talk.link, Talk.open, Face.pending, hp,
      Talk.phase, Face.awaited, Face.tagged, Face.conn, Face.ready, Face.answered, textsOf]
  refine ⟨⟨?_, by simp [Talk.open, Face.pending], fun _ => rfl, by simp, by simp⟩,
    congrArg Prod.fst hstep, ?_, ?_⟩
  · simpa [Talk.open, Face.pending] using hok.order
  · rw [hstep]
    simp
  · simp [Stage.dialogue, Dialogue.weight, Talk.dialogue, Talk.link]

/-- A worker that is not blocked has only displays on their way. -/
theorem Talk.Ok.displays {t : Talk} (hb : t.open.find? Msg.isPrompt = none) :
    ∀ m ∈ t.open, m.isPrompt = false := by
  intro m hm
  simpa using List.find?_eq_none.mp hb m hm

/-- The worker sends its next message. -/
theorem goes_sent (hd : d.Answerable) {face : Face}
    (hok : (Stage.talking ⟨done, face, queue, up, low, m :: unsent⟩).Ok d)
    (hb : (Talk.open ⟨done, face, queue, up, low, m :: unsent⟩).find? Msg.isPrompt = none) :
    Goes dec isFile d K (.talking ⟨done, face, queue, up, low, m :: unsent⟩) .workerSends
      (.talking ⟨done, face, queue, up, low ++ [m], unsent⟩) := by
  have hm : m ∈ d.messages := by
    rw [← hok.order]
    simp
  have hfit := fits_frame (hd.messages m hm)
  have hopen : Talk.open ⟨done, face, queue, up, low ++ [m], unsent⟩
      = Talk.open ⟨done, face, queue, up, low, m :: unsent⟩ ++ [m] := by
    simp [Talk.open]
  have hstep : (Stage.dialogue d (.talking ⟨done, face, queue, up, low, m :: unsent⟩)).step dec
      isFile d .workerSends
        = (Stage.dialogue d (.talking ⟨done, face, queue, up, low ++ [m], unsent⟩), []) := by
    simp only [Dialogue.step, Stage.dialogue, Talk.dialogue, hb, hfit, hopen, Talk.link]
    simp [List.find?_append, hb, Talk.phase]
  refine ⟨⟨?_, fun m' hm' => ?_, hok.still, hok.bytes, hok.prompt⟩, congrArg Prod.fst hstep, ?_, ?_⟩
  · simpa [Talk.open] using hok.order
  · rw [hopen, List.dropLast_concat] at hm'
    exact Talk.Ok.displays hb m' hm'
  · rw [hstep]
    simp
  · simp [Stage.dialogue, Dialogue.weight, Talk.dialogue, Talk.link, Nat.mul_add]
    omega

/-- The worker sends its verdict: the script ends in a prompt, so nothing is on its way. -/
theorem goes_verdict (hd : d.Answerable) {face : Face}
    (hok : (Stage.talking ⟨done, face, queue, up, low, []⟩).Ok d)
    (hb : (Talk.open ⟨done, face, queue, up, low, []⟩).find? Msg.isPrompt = none) :
    Goes dec isFile d K (.talking ⟨done, face, queue, up, low, []⟩) .workerSends
      (.closing done .sent) := by
  have hopen : Talk.open ⟨done, face, queue, up, low, []⟩ = [] := by
    by_contra hne
    have hlast := hd.last
    rw [← hok.order, List.append_nil, List.getLast?_append_of_ne_nil _ hne,
      List.getLast?_eq_some_getLast hne] at hlast
    have hdisp := Talk.Ok.displays hb _ (List.getLast_mem hne)
    simp only [Option.all_some] at hlast
    rw [hdisp] at hlast
    cases hlast
  have horder : done.map (·.1) = d.messages := by
    have h := hok.order
    rwa [hopen, List.append_nil, List.append_nil] at h
  simp only [Talk.open, List.append_eq_nil_iff] at hopen
  obtain ⟨⟨⟨hface, rfl⟩, rfl⟩, rfl⟩ := hopen
  have hface' : face = .none := by
    cases face with
    | none => rfl
    | showing m => cases hface
    | answering m r fed rest => cases hface
    | down m r past => cases hface
  subst hface'
  have hstep : (Stage.dialogue d (.talking ⟨done, .none, [], [], [], []⟩)).step dec isFile d
      .workerSends = (Stage.dialogue d (.closing done .sent), []) := by
    simp [Dialogue.step, Stage.dialogue, Talk.dialogue, Talk.link, closingLink, Talk.open,
      Face.pending, hd.verdict, Talk.phase, Face.awaited, Face.tagged, Face.conn, Face.ready,
      Face.answered]
  refine ⟨horder, congrArg Prod.fst hstep, ?_, ?_⟩
  · rw [hstep]
    simp
  · simp [Stage.dialogue, Dialogue.weight, Talk.dialogue, Talk.link, closingLink]

end

/-! ### Closing -/

section
variable {done : List Exchange}

/-- The broker relays the verdict. -/
theorem goes_verdict_relayed (hd : d.Answerable) (hok : (Stage.closing done .sent).Ok d) :
    Goes dec isFile d K (.closing done .sent) .workerReadable (.closing done .relayed) := by
  have hfit := fits_verdict hd.verdict
  have hstep : ∃ rs, (Stage.dialogue d (.closing done .sent)).step dec isFile d .workerReadable
      = (Stage.dialogue d (.closing done .relayed), [.relay (.ok rs)]) := by
    cases hv : d.verdict with
    | authOk username uid gid =>
      rw [hv, Verdict.frame] at hfit
      refine ⟨.continue, ?_⟩
      simp [Dialogue.step, Link.workerReadable, Link.workerStep, Stage.dialogue, closingLink, hv,
        Verdict.outcome, Verdict.frame, Verdict.brokerEnd, Relay.onWorkerReadable, Relay.write,
        send, hfit, BrokerEnd.after]
    | failure reason =>
      rw [hv, Verdict.frame] at hfit
      refine ⟨.finished (.authFailed reason), ?_⟩
      simp [Dialogue.step, Link.workerReadable, Link.workerStep, Stage.dialogue, closingLink, hv,
        Verdict.outcome, Verdict.frame, Verdict.brokerEnd, Relay.onWorkerReadable, Relay.write,
        send, hfit, BrokerEnd.after]
  obtain ⟨rs, hstep⟩ := hstep
  refine ⟨hok, congrArg Prod.fst hstep, ?_, ?_⟩
  · rw [hstep]
    simp [Incident.Harmless]
  · simp [Stage.dialogue, Dialogue.weight, closingLink]

theorem encode_verdict (v : Verdict) : v.response.encode = .ok (wireBytes v.response) := by
  obtain ⟨bs, h⟩ : ∃ bs, v.response.encode = .ok bs := by
    cases v with
    | authOk username uid gid => exact Response.encode_success_isOk
    | failure reason => exact encode_failure_isOk reason
  rw [h, (Framing.encode_ok _ h).1]
  rfl

/-- The compositor shows the verdict. -/
theorem goes_verdict_shown (hok : (Stage.closing done .relayed).Ok d) :
    Goes dec isFile d K (.closing done .relayed) .readBroker (.closing done .shown) := by
  have hframe : BrokerRelay.onBrokerFrame ⟨d.service, d.user, .authing, []⟩ d.verdict.frame
      = .ok (.pam d.verdict.step, ⟨d.service, d.user, d.verdict.phase, []⟩) := by
    cases d.verdict <;> rfl
  have hresp : (SessionState.authPending d.user).onPamResult d.verdict.step
      = (((SessionState.authPending d.user).onPamResult d.verdict.step).1,
        d.verdict.response) := by
    cases d.verdict <;> rfl
  have h : ((closingLink d .relayed).ep.onBrokerReadable dec.request ⟨isFile, true⟩
      (.ok (some (d.verdict.frame, none)))).Calm (closingLink d .shown).ep
        (wireBytes d.verdict.response) [] :=
    onBrokerReadable_shown rfl none hframe rfl rfl rfl rfl hresp (encode_verdict _)
  obtain ⟨hst, hharm⟩ := step_readBroker (d := d)
    (s := Stage.dialogue d (.closing done .relayed)) rfl h
  refine ⟨hok, ?_, hharm, ?_⟩
  · rw [hst]
    simp [Stage.dialogue, closingLink]
  · have hne : wireBytes d.verdict.response ≠ [] := by simp [wireBytes, Framing.toLeBytes]
    simp [Stage.dialogue, Dialogue.weight, closingLink, hne]

/-- The greeter reads the verdict. -/
theorem goes_verdict_read (hK : 4 * Greetd.maxMessageSize + 20 ≤ K) (answer : Option String)
    (hok : (Stage.closing done .shown).Ok d) :
    Goes dec isFile d K (.closing done .shown) (.greeterReads answer) (.closing done .read) := by
  have hdec : Greetd.tryDecode dec.response (wireBytes d.verdict.response)
      = .ok (some (d.verdict.response, (wireBytes d.verdict.response).length)) := by
    have h := Framing.tryDecode_encode (encode_verdict d.verdict) (dec.response_toVec _) []
    rwa [List.append_nil] at h
  have hstep : (Stage.dialogue d (.closing done .shown)).step dec isFile d (.greeterReads answer)
      = (Stage.dialogue d (.closing done .read), []) := by
    simp only [Stage.dialogue, Dialogue.step, if_true, hdec]
    cases hv : d.verdict with
    | authOk username uid gid =>
      simp [Verdict.response, closingLink]
    | failure reason =>
      simp [Verdict.response, closingLink]
  refine ⟨hok, congrArg Prod.fst hstep, ?_, ?_⟩
  · rw [hstep]
    simp
  · have hne : wireBytes d.verdict.response ≠ [] := by simp [wireBytes, Framing.toLeBytes]
    have hpos : 0 < K := by unfold Greetd.maxMessageSize at hK; omega
    simp [Stage.dialogue, Dialogue.weight, closingLink, hne]
    omega

end

/-! ### Steps that are not enabled -/

section
variable {s : Dialogue}

theorem step_create_of_created (h : s.created = true) :
    s.step dec isFile d .create = (s, []) := by
  simp [Dialogue.step, h]

theorem step_readGreeter_nil (h : s.wire = []) (n : Nat) :
    s.step dec isFile d (.readGreeter n) = (s, []) := by
  simp [Dialogue.step, h]

/-- Reading a channel with nothing in it is harmless and changes nothing. -/
theorem stays_readBroker {st : Stage} (h : (st.dialogue d).link.toCompositor = []) :
    Stays dec isFile d st .readBroker := by
  have hcalm : ((st.dialogue d).link.ep.onBrokerReadable dec.request ⟨isFile, true⟩
      (.ok none)).Calm (st.dialogue d).link.ep [] [] :=
    ⟨rfl, rfl, rfl, rfl, by simp [BrokerEpisode.onBrokerReadable]⟩
  unfold Stays
  simp only [Dialogue.step, Link.deliver, Link.delivering, h, List.drop_nil, List.head?_nil]
  obtain ⟨hst, hharm⟩ := called_calm (s := st.dialogue d)
    (l := { (st.dialogue d).link with toCompositor := [] }) hcalm
  refine ⟨?_, hharm⟩
  rw [hst, List.append_nil, List.append_nil, ← h]

theorem step_accept_of_broker (h : s.link.broker ≠ .waiting) :
    s.step dec isFile d .accept = (s, []) := by
  simp only [Dialogue.step, Link.accept]
  split
  · contradiction
  · contradiction
  · rfl

theorem step_accept_nil (h : s.link.toBroker = []) :
    s.step dec isFile d .accept = (s, []) := by
  simp only [Dialogue.step, Link.accept, h]
  split <;> simp_all

theorem step_workerReadable_nil (h : s.link.fromWorker = []) :
    s.step dec isFile d .workerReadable = (s, []) := by
  simp [Dialogue.step, Link.workerReadable, Link.workerStep, h]

theorem step_greeterReadable_nil (h : s.link.toBroker = []) :
    s.step dec isFile d .greeterReadable = (s, []) := by
  simp [Dialogue.step, Link.greeterReadable, Link.greeterStep, h]

theorem step_greeterReadable_waiting (h : s.link.broker = .waiting) :
    s.step dec isFile d .greeterReadable = (s, []) := by
  simp [Dialogue.step, Link.greeterReadable, Link.greeterStep, h]

theorem step_workerSends_waiting (h : s.link.broker = .waiting) :
    s.step dec isFile d .workerSends = (s, []) := by
  simp [Dialogue.step, h]

theorem step_workerSends_blocked (h : s.blocked ≠ none) :
    s.step dec isFile d .workerSends = (s, []) := by
  simp [Dialogue.step, h]

theorem step_workerReceives_nil (h : s.link.toWorker = []) :
    s.step dec isFile d .workerReceives = (s, []) := by
  simp only [Dialogue.step, h]
  cases s.blocked <;> rfl

theorem step_greeterReads_nil (h : s.inbox = []) (answer : Option String) :
    s.step dec isFile d (.greeterReads answer) = (s, []) := by
  have hdec : Greetd.tryDecode dec.response [] = .ok none := rfl
  simp only [Dialogue.step, h, hdec]

end

/-! ### Every move -/

section
variable {st : Stage}

theorem simulates_create (hK : 4 * Greetd.maxMessageSize + 20 ≤ K) (hd : d.Answerable) :
    (∃ st', Goes dec isFile d K st .create st') ∨ Stays dec isFile d st .create := by
  cases st with
  | fresh =>
    obtain ⟨bytes, h⟩ : ∃ bytes, Goes dec isFile d K .fresh .create (.creating [] bytes) :=
      goes_create hK hd
    exact .inl ⟨_, h⟩
  | creating fed rest => exact .inr (stays_of_eq (step_create_of_created rfl))
  | begun => exact .inr (stays_of_eq (step_create_of_created rfl))
  | talking t => exact .inr (stays_of_eq (step_create_of_created rfl))
  | closing done tail => exact .inr (stays_of_eq (step_create_of_created rfl))

theorem simulates_readGreeter (hd : d.Answerable) (hok : st.Ok d) (n : Nat) :
    (∃ st', Goes dec isFile d K st (.readGreeter n) st') ∨
      Stays dec isFile d st (.readGreeter n) := by
  cases st with
  | fresh => exact .inr (stays_of_eq (step_readGreeter_nil rfl n))
  | creating fed rest => exact .inl (goes_creating hd hok n)
  | begun => exact .inr (stays_of_eq (step_readGreeter_nil rfl n))
  | closing done tail => exact .inr (stays_of_eq (step_readGreeter_nil rfl n))
  | talking t =>
    obtain ⟨done, face, queue, up, low, unsent⟩ := t
    cases face with
    | none => exact .inr (stays_of_eq (step_readGreeter_nil rfl n))
    | showing m => exact .inr (stays_of_eq (step_readGreeter_nil rfl n))
    | answering m r fed rest => exact .inl (goes_answering hd hok n)
    | down m r past => exact .inr (stays_of_eq (step_readGreeter_nil rfl n))

theorem simulates_readBroker (hd : d.Answerable) (hok : st.Ok d) :
    (∃ st', Goes dec isFile d K st .readBroker st') ∨ Stays dec isFile d st .readBroker := by
  cases st with
  | fresh => exact .inr (stays_readBroker rfl)
  | creating fed rest => exact .inr (stays_readBroker rfl)
  | begun => exact .inr (stays_readBroker rfl)
  | closing done tail =>
    cases tail with
    | sent => exact .inr (stays_readBroker rfl)
    | relayed => exact .inl ⟨_, goes_verdict_shown hok⟩
    | shown => exact .inr (stays_readBroker rfl)
    | read => exact .inr (stays_readBroker rfl)
  | talking t =>
    obtain ⟨done, face, queue, up, low, unsent⟩ := t
    cases up with
    | nil => exact .inr (stays_readBroker rfl)
    | cons q up =>
      cases face with
      | none => exact .inl ⟨_, goes_delivered hd hok⟩
      | showing m => exact .inl ⟨_, goes_queued rfl hok⟩
      | answering m r fed rest => exact .inl ⟨_, goes_queued rfl hok⟩
      | down m r past =>
        obtain ⟨-, hup, -⟩ := Talk.Ok.alone hok rfl (hok.prompt _ _ _ rfl).1
        cases hup

theorem simulates_accept :
    (∃ st', Goes dec isFile d K st .accept st') ∨ Stays dec isFile d st .accept := by
  cases st with
  | fresh => exact .inr (stays_of_eq (step_accept_nil rfl))
  | creating fed rest => exact .inr (stays_of_eq (step_accept_nil rfl))
  | begun => exact .inl ⟨_, goes_accept⟩
  | talking t =>
    refine .inr (stays_of_eq (step_accept_of_broker ?_))
    simp [Stage.dialogue, Talk.dialogue, Talk.link]
  | closing done tail =>
    refine .inr (stays_of_eq (step_accept_of_broker ?_))
    cases hv : d.verdict <;> cases tail <;>
      simp [Stage.dialogue, closingLink, Verdict.brokerEnd, hv]

theorem simulates_workerReadable (hd : d.Answerable) (hok : st.Ok d) :
    (∃ st', Goes dec isFile d K st .workerReadable st') ∨
      Stays dec isFile d st .workerReadable := by
  cases st with
  | fresh => exact .inr (stays_of_eq (step_workerReadable_nil rfl))
  | creating fed rest => exact .inr (stays_of_eq (step_workerReadable_nil rfl))
  | begun => exact .inr (stays_of_eq (step_workerReadable_nil rfl))
  | talking t =>
    obtain ⟨done, face, queue, up, low, unsent⟩ := t
    cases low with
    | nil => exact .inr (stays_of_eq (step_workerReadable_nil rfl))
    | cons q low => exact .inl ⟨_, goes_relayed hd hok⟩
  | closing done tail =>
    cases tail with
    | sent => exact .inl ⟨_, goes_verdict_relayed hd hok⟩
    | relayed => exact .inr (stays_of_eq (step_workerReadable_nil rfl))
    | shown => exact .inr (stays_of_eq (step_workerReadable_nil rfl))
    | read => exact .inr (stays_of_eq (step_workerReadable_nil rfl))

theorem simulates_greeterReadable (hok : st.Ok d) :
    (∃ st', Goes dec isFile d K st .greeterReadable st') ∨
      Stays dec isFile d st .greeterReadable := by
  cases st with
  | fresh => exact .inr (stays_of_eq (step_greeterReadable_nil rfl))
  | creating fed rest => exact .inr (stays_of_eq (step_greeterReadable_nil rfl))
  | begun => exact .inr (stays_of_eq (step_greeterReadable_waiting rfl))
  | closing done tail => exact .inr (stays_of_eq (step_greeterReadable_nil rfl))
  | talking t =>
    obtain ⟨done, face, queue, up, low, unsent⟩ := t
    cases face with
    | none => exact .inr (stays_of_eq (step_greeterReadable_nil rfl))
    | showing m => exact .inr (stays_of_eq (step_greeterReadable_nil rfl))
    | answering m r fed rest => exact .inr (stays_of_eq (step_greeterReadable_nil rfl))
    | down m r past =>
      cases past with
      | false => exact .inl ⟨_, goes_sentDown hok⟩
      | true => exact .inr (stays_of_eq (step_greeterReadable_nil rfl))

theorem simulates_workerSends (hd : d.Answerable) (hok : st.Ok d) :
    (∃ st', Goes dec isFile d K st .workerSends st') ∨ Stays dec isFile d st .workerSends := by
  cases st with
  | fresh => exact .inr (stays_of_eq (step_workerSends_waiting rfl))
  | creating fed rest => exact .inr (stays_of_eq (step_workerSends_waiting rfl))
  | begun => exact .inr (stays_of_eq (step_workerSends_waiting rfl))
  | closing done tail =>
    refine .inr (stays_of_eq ?_)
    simp [Dialogue.step, Stage.dialogue]
  | talking t =>
    by_cases hb : t.open.find? Msg.isPrompt = none
    · obtain ⟨done, face, queue, up, low, unsent⟩ := t
      cases unsent with
      | nil => exact .inl ⟨_, goes_verdict hd hok hb⟩
      | cons q unsent => exact .inl ⟨_, goes_sent hd hok hb⟩
    · exact .inr (stays_of_eq (step_workerSends_blocked hb))

theorem simulates_workerReceives (hok : st.Ok d) :
    (∃ st', Goes dec isFile d K st .workerReceives st') ∨
      Stays dec isFile d st .workerReceives := by
  cases st with
  | fresh => exact .inr (stays_of_eq (step_workerReceives_nil rfl))
  | creating fed rest => exact .inr (stays_of_eq (step_workerReceives_nil rfl))
  | begun => exact .inr (stays_of_eq (step_workerReceives_nil rfl))
  | closing done tail => exact .inr (stays_of_eq (step_workerReceives_nil rfl))
  | talking t =>
    obtain ⟨done, face, queue, up, low, unsent⟩ := t
    cases face with
    | none => exact .inr (stays_of_eq (step_workerReceives_nil rfl))
    | showing m => exact .inr (stays_of_eq (step_workerReceives_nil rfl))
    | answering m r fed rest => exact .inr (stays_of_eq (step_workerReceives_nil rfl))
    | down m r past =>
      cases past with
      | false => exact .inr (stays_of_eq (step_workerReceives_nil rfl))
      | true => exact .inl ⟨_, goes_received hok⟩

/-- A greeter whose answer does not fit a frame leaves the message where it is. -/
theorem stays_unencoded {t : Talk} {m : Msg} (hd : d.Answerable)
    (hok : (Stage.talking t).Ok d) (hface : t.face = .showing m) {r : Option String}
    {e : Framing.CodecError} (henc : (Request.postAuthMessageResponse r).encode = .error e) :
    Stays dec isFile d (.talking t) (.greeterReads r) := by
  obtain ⟨done, face, queue, up, low, unsent⟩ := t
  simp only at hface
  subst hface
  have hm : m ∈ d.messages := Talk.Ok.mem hok (by simp [Talk.open, Face.pending])
  have hdec : Greetd.tryDecode dec.response (wireBytes m.authMessage)
      = .ok (some (m.authMessage, (wireBytes m.authMessage).length)) := by
    have h := Framing.tryDecode_encode (encode_authMessage hd hm) (dec.response_toVec _) []
    rwa [List.append_nil] at h
  refine stays_of_eq ?_
  simp only [Stage.dialogue, Dialogue.step, Talk.dialogue, hdec]
  cases m <;> simp only [Msg.authMessage, henc]

theorem simulates_greeterReads (hK : 4 * Greetd.maxMessageSize + 20 ≤ K) (hd : d.Answerable)
    (hok : st.Ok d) (r : Option String) :
    (∃ st', Goes dec isFile d K st (.greeterReads r) st') ∨
      Stays dec isFile d st (.greeterReads r) := by
  cases st with
  | fresh => exact .inr (stays_of_eq (step_greeterReads_nil rfl r))
  | creating fed rest => exact .inr (stays_of_eq (step_greeterReads_nil rfl r))
  | begun => exact .inr (stays_of_eq (step_greeterReads_nil rfl r))
  | closing done tail =>
    cases tail with
    | sent => exact .inr (stays_of_eq (step_greeterReads_nil rfl r))
    | relayed => exact .inr (stays_of_eq (step_greeterReads_nil rfl r))
    | shown => exact .inl ⟨_, goes_verdict_read hK r hok⟩
    | read => exact .inr (stays_of_eq (step_greeterReads_nil rfl r))
  | talking t =>
    obtain ⟨done, face, queue, up, low, unsent⟩ := t
    cases face with
    | none => exact .inr (stays_of_eq (step_greeterReads_nil rfl r))
    | answering m r' fed rest => exact .inr (stays_of_eq (step_greeterReads_nil rfl r))
    | down m r' past => exact .inr (stays_of_eq (step_greeterReads_nil rfl r))
    | showing m =>
      cases henc : (Request.postAuthMessageResponse r).encode with
      | ok bytes => exact .inl ⟨_, goes_showing hK henc hd hok⟩
      | error e => exact .inr (stays_unencoded hd hok rfl henc)

/-- **The simulation.** Every step of the system is a step of its stage, or changes nothing. -/
theorem simulates (hK : 4 * Greetd.maxMessageSize + 20 ≤ K) (hd : d.Answerable) (hok : st.Ok d)
    (i : Move) : (∃ st', Goes dec isFile d K st i st') ∨ Stays dec isFile d st i := by
  cases i with
  | create => exact simulates_create hK hd
  | readGreeter n => exact simulates_readGreeter hd hok n
  | readBroker => exact simulates_readBroker hd hok
  | accept => exact simulates_accept
  | workerReadable => exact simulates_workerReadable hd hok
  | greeterReadable => exact simulates_greeterReadable hok
  | workerSends => exact simulates_workerSends hd hok
  | workerReceives => exact simulates_workerReceives hok
  | greeterReads r => exact simulates_greeterReads hK hd hok r

/-- A login that is not over can go on. -/
theorem exists_goes (hK : 4 * Greetd.maxMessageSize + 20 ≤ K) (hd : d.Answerable) (hok : st.Ok d) :
    (∃ done, st = .closing done .read) ∨ ∃ i st', Goes dec isFile d K st i st' := by
  cases st with
  | fresh =>
    obtain ⟨bytes, h⟩ : ∃ bytes, Goes dec isFile d K .fresh .create (.creating [] bytes) :=
      goes_create hK hd
    exact .inr ⟨_, _, h⟩
  | creating fed rest => exact .inr ⟨_, goes_creating hd hok 0⟩
  | begun => exact .inr ⟨_, _, goes_accept⟩
  | closing done tail =>
    cases tail with
    | sent => exact .inr ⟨_, _, goes_verdict_relayed hd hok⟩
    | relayed => exact .inr ⟨_, _, goes_verdict_shown hok⟩
    | shown => exact .inr ⟨_, _, goes_verdict_read hK none hok⟩
    | read => exact .inl ⟨done, rfl⟩
  | talking t =>
    refine .inr ?_
    obtain ⟨done, face, queue, up, low, unsent⟩ := t
    cases face with
    | answering m r fed rest => exact ⟨_, goes_answering hd hok 0⟩
    | showing m =>
      have henc : (Request.postAuthMessageResponse none).encode = .ok _ :=
        Framing.encode_of_le _ (by decide) (by decide)
      exact ⟨_, _, goes_showing hK henc hd hok⟩
    | down m r past =>
      cases past with
      | false => exact ⟨_, _, goes_sentDown hok⟩
      | true => exact ⟨_, _, goes_received hok⟩
    | none =>
      cases up with
      | cons q up => exact ⟨_, _, goes_delivered hd hok⟩
      | nil =>
        cases low with
        | cons q low => exact ⟨_, _, goes_relayed hd hok⟩
        | nil =>
          -- nothing is on its way, so the worker is not blocked
          have hq : queue = [] := hok.still rfl
          subst hq
          cases unsent with
          | nil => exact ⟨_, _, goes_verdict hd hok rfl⟩
          | cons q unsent => exact ⟨_, _, goes_sent hd hok rfl⟩

end

end

/-! ## What the greeter and the worker get -/

section
variable {d : Script} {st : Stage}

/-- The greeter has read a beginning of what it is to receive. -/
theorem received_prefix (hok : st.Ok d) : (st.dialogue d).received <+: d.responses := by
  cases st with
  | fresh => exact List.nil_prefix
  | creating fed rest => exact List.nil_prefix
  | begun => exact List.nil_prefix
  | closing done tail =>
    simp only [Stage.Ok] at hok
    simp only [Stage.dialogue, Script.responses, ← hok, List.map_map]
    cases tail <;> simp [Function.comp_def]
  | talking t =>
    obtain ⟨done, face, queue, up, low, unsent⟩ := t
    have hord := hok.order
    simp only [Stage.dialogue, Talk.dialogue, Script.responses, ← hord, Talk.open]
    cases face <;> simp [Face.answered, Face.pending, Function.comp_def]

/-- The texts the worker got belong to the answers, prompt by prompt. -/
theorem texts_prefix (hok : st.Ok d) :
    (st.dialogue d).texts <+: promptTexts d.messages (st.dialogue d).answers := by
  have hzip : ∀ (done more : List Exchange) (ms : List Msg),
      textsOf done <+: promptTexts (done.map (·.1) ++ ms) ((done ++ more).map (·.2)) := by
    intro done more ms
    rw [promptTexts, List.map_append, List.zip_append (by simp), List.zip_map',
      List.filterMap_append]
    simp [textsOf]
  cases st with
  | fresh => exact List.nil_prefix
  | creating fed rest => exact List.nil_prefix
  | begun => exact List.nil_prefix
  | closing done tail =>
    simp only [Stage.Ok] at hok
    have h := hzip done [] []
    simpa [Stage.dialogue, ← hok] using h
  | talking t =>
    have h := hzip t.done t.face.answered (t.open ++ t.unsent)
    rw [← List.append_assoc, hok.order] at h
    exact h

end

/-- A script is relayed as it is written: on every interleaving nothing fails, the greeter reads the
messages of the script in order and then the verdict, and each prompt gets the text the greeter
answered to it. There is a bound on the steps that do anything, and where none is left everything
has been delivered. -/
def Script.Relayed (dec : Decoders) (isFile : String → Bool) (d : Script) : Prop :=
  ∃ N, ∀ is : List Move,
    let step := Dialogue.step dec isFile d
    let r := run step (Dialogue.new d) is
    (∀ e ∈ r.2, e.Harmless) ∧
    r.1.received <+: d.responses ∧
    r.1.texts <+: promptTexts d.messages r.1.answers ∧
    moves step (Dialogue.new d) is ≤ N ∧
    ((∀ i, (step r.1 i).1 = r.1) →
      r.1.received = d.responses ∧ r.1.texts = promptTexts d.messages r.1.answers)

/-- **Every answerable script is relayed**, whatever the greeter answers and however the steps of
the parties interleave. -/
theorem answerable_script_relayed (dec : Decoders) (isFile : String → Bool) (d : Script)
    (h : d.Answerable) : d.Relayed dec isFile := by
  obtain ⟨K, hK⟩ : ∃ K, 4 * Greetd.maxMessageSize + 20 ≤ K := ⟨_, Nat.le_refl _⟩
  refine ⟨(Dialogue.new d).weight K, fun is => ?_⟩
  obtain ⟨st, hok, hst, hharm, hrank⟩ := run_ranked (Dialogue.step dec isFile d)
    (Stage.dialogue d) (Stage.Ok d) Incident.Harmless (fun st => (st.dialogue d).weight K)
    (fun st i hok => by
      rcases (simulates hK h hok i : _ ∨ Stays dec isFile d st i) with ⟨st', hg⟩ | ⟨hs, hh⟩
      · exact ⟨st', hg.ok, hg.state, hg.harmless, .inr hg.less⟩
      · exact ⟨st, hok, hs, hh, .inl rfl⟩)
    is .fresh trivial
  have hst' : (run (Dialogue.step dec isFile d) (Dialogue.new d) is).1 = st.dialogue d := hst
  simp only [hst']
  refine ⟨hharm, received_prefix hok, texts_prefix hok, ?_, fun hrest => ?_⟩
  · exact Nat.le_trans (Nat.le_add_right _ _) hrank
  rcases (exists_goes hK h hok : _ ∨ ∃ i st', Goes dec isFile d K st i st') with
    ⟨done, rfl⟩ | ⟨i, st', hg⟩
  · simp only [Stage.Ok] at hok
    constructor
    · simp [Stage.dialogue, Script.responses, ← hok]
    · simp [Stage.dialogue, promptTexts, ← hok, List.zip_map', textsOf]
  · have hless := hg.less
    rw [← hg.state, hrest i] at hless
    exact absurd hless (Nat.lt_irrefl _)

/-- A notice, then the password. -/
def passwordScript : Script :=
  ⟨"halmasuit", "alice", [.display .info "Welcome", .prompt .secret "Password: "],
    .authOk "alice" 1000 1000⟩

theorem passwordScript_relayed :
    passwordScript.Answerable ∧ passwordScript.Relayed .compact (fun _ => true) :=
  ⟨by decide +kernel, answerable_script_relayed .compact _ passwordScript (by decide +kernel)⟩

/-- A script that ends in a notice. -/
def noticeScript : Script :=
  ⟨"halmasuit", "alice", [.display .info "Welcome"], .authOk "alice" 1000 1000⟩

/-- An order in which the verdict overtakes the acknowledgement of the notice. -/
def verdictOvertakes : List Move :=
  [.create, .readGreeter 1000, .accept, .workerSends, .workerReadable, .readBroker, .workerSends,
    .workerReadable, .readBroker, .greeterReads none, .readGreeter 1000]

/-- In that order the acknowledgement finds the relay past the conversation, and the episode fails
closed. -/
theorem trailing_display_fails : ¬ noticeScript.Relayed .compact (fun _ => true) := by
  rintro ⟨N, h⟩
  obtain ⟨hharm, -⟩ := h verdictOvertakes
  have hfail : .episode .failedClosed ∈ (run (Dialogue.step .compact (fun _ => true) noticeScript)
      (Dialogue.new noticeScript) verdictOvertakes).2 := by decide +kernel
  exact hharm _ hfail

end Halmasuit.Protocol
