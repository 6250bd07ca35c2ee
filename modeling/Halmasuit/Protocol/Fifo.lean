import Halmasuit.Protocol.Conversation

/-!
# Challenges in order

One episode between a broker that says what it likes and a greeter that answers each `AuthMessage`
it gets once. `Parley` is the episode with what went in and out of it: the broker's challenges, the
bytes written to the greeter, and for each answer the frames the call that read it sent. A turn that
is not enabled leaves it as it is, so a list of turns is any interleaving.

`Parley.Fifo` is the law: the greeter has got the challenges in the broker's order, every one whose
earlier ones are answered, and an answer went on as a `ConvResponse` exactly where the challenge it
answers was a prompt. The code keeps it only while nothing is queued behind a prompt: the answer to
a display flushes `pending_challenges`, the answer to a prompt does not
(`queued_prompt_left_behind`).

- **`fifo_iff`**: the law holds in every state of a run exactly when every turn of it is `InTime`:
  no frame comes before `BeginAuth` was sent, no challenge waits behind a prompt when its answer is
  read, and a challenge whose turn comes fits a greetd frame.
-/

namespace Halmasuit.Protocol

open Halmasuit.Greetd
open Halmasuit.SessionIpc
open Halmasuit.Compositor
open Halmasuit.Lib

/-! ## The parley -/

/-- An `AuthMessage`. -/
def isAuthMessage : Response → Bool
  | .authMessage _ _ => true
  | _ => false

/-- What the two sides of an episode do. -/
inductive Turn where
  /-- The greeter writes its `CreateSession`. -/
  | create (user : String)
  /-- The greeter answers the next `AuthMessage` it got. -/
  | answer (response : Option String)
  /-- The compositor reads the next `n + 1` bytes of the greeter, or what there is of them. -/
  | read (n : Nat)
  /-- A conversation frame of the broker reaches the compositor. -/
  | say (m : Msg)
  deriving DecidableEq, Repr

/-- An episode, and what went in and out of it. -/
structure Parley where
  ep : BrokerEpisode
  created : Bool
  /-- What the greeter wrote and the compositor has not read. -/
  wire : List UInt8
  /-- What the compositor wrote to the greeter. -/
  written : List UInt8
  /-- What it sent to the broker. -/
  sent : List CompositorToBroker
  /-- The broker's challenges. -/
  said : List Msg
  /-- The greeter's answers, and for each one that was read the frames sent for it. -/
  answers : List (Option String)
  handled : List (List CompositorToBroker)
  deriving DecidableEq, Repr

/-- Before the first turn. -/
def Parley.new (service : String) : Parley :=
  ⟨BrokerEpisode.new service, false, [], [], [], [], [], []⟩

/-- The `AuthMessage`s among what the greeter was written. -/
def Parley.delivered (dec : Decoders) (s : Parley) : List Response :=
  (Framing.decodeAll Greetd.maxMessageSize dec.response s.written.length s.written).filter
    isAuthMessage

/-- Reading `n + 1` more bytes ends an answer. -/
def Parley.EndsAnswer (s : Parley) (n : Nat) : Prop :=
  s.wire.drop (n + 1) = [] ∧ s.handled.length < s.answers.length

instance (s : Parley) (n : Nat) : Decidable (s.EndsAnswer n) := inferInstanceAs (Decidable (_ ∧ _))

/-- One turn, in a world where every datagram the codec takes is delivered. -/
def Parley.step (dec : Decoders) (isFile : String → Bool) (s : Parley) :
    Turn → Parley × List EpisodeEvent
  | .create user =>
    match s.created, (Request.createSession user).encode with
    | false, .ok bytes => ({ s with created := true, wire := s.wire ++ bytes }, [])
    | _, _ => (s, [])
  | .answer response =>
    if s.answers.length < (s.delivered dec).length then
      match (Request.postAuthMessageResponse response).encode with
      | .ok bytes => ({ s with wire := s.wire ++ bytes, answers := s.answers ++ [response] }, [])
      | .error _ => (s, [])
    else (s, [])
  | .read n =>
    if s.wire = [] then (s, [])
    else
      let a := s.ep.onGreeterBytes dec.request ⟨isFile, true⟩ (s.wire.take (n + 1))
      ({ s with ep := a.ep, wire := s.wire.drop (n + 1),
                written := s.written ++ a.out.greeterReply,
                sent := s.sent ++ sentFrames a.events,
                handled := if s.EndsAnswer n then s.handled ++ [sentFrames a.events]
                  else s.handled }, a.events)
  | .say m =>
    let a := s.ep.onBrokerReadable dec.request ⟨isFile, true⟩ (.ok (some (m.frame, none)))
    ({ s with ep := a.ep, written := s.written ++ a.out.greeterReply,
              sent := s.sent ++ sentFrames a.events, said := s.said ++ [m] }, a.events)

/-! ## The law and its condition -/

/-- What is sent for an answer. -/
def forwarded : Exchange → List CompositorToBroker
  | (m, r) => if m.isPrompt then [.convResponse (r.getD "")] else []

/-- **The challenges come and go in order.** -/
structure Parley.Fifo (dec : Decoders) (s : Parley) : Prop where
  /-- What the greeter got are challenges of the broker, in its order, with none skipped. -/
  order : s.delivered dec <+: s.said.map Msg.authMessage
  /-- None is left behind once all earlier ones are answered. -/
  kept : (s.said.take (s.handled.length + 1)).map Msg.authMessage <+: s.delivered dec
  /-- An answer is forwarded exactly when the challenge of its number was a prompt. -/
  answered : ∀ (k : Nat) m r fs, s.said[k]? = some m → s.answers[k]? = some r →
    s.handled[k]? = some fs → fs = forwarded (m, r)

/-- A challenge that fits a greetd frame. -/
def Msg.Shows (m : Msg) : Prop := m.authMessage.toVec.length ≤ Greetd.maxMessageSize

instance (m : Msg) : Decidable m.Shows := inferInstanceAs (Decidable (_ ≤ _))

/-- The condition on a turn, from the state before it.

- A frame comes after `BeginAuth` was sent, and fits if it is to be shown at once.
- When the answer to a challenge has been read, a challenge that waits behind it waits behind a
  display, and fits. -/
def Parley.InTime (s : Parley) : Turn → Prop
  | .say m => s.sent ≠ [] ∧ (s.handled.length = s.said.length → m.Shows)
  | .read n => s.EndsAnswer n →
    match s.said.drop s.handled.length with
    | m :: next :: _ => m.isPrompt = false ∧ next.Shows
    | _ => True
  | _ => True

/-! ## Reading what was written -/

section
variable {dec : Decoders} {s : Parley}

/-- The bytes the compositor wrote are these responses, each of which fits a frame. -/
structure Parley.Wrote (s : Parley) (rs : List Response) : Prop where
  bytes : s.written = rs.flatMap wireBytes
  fits : ∀ r ∈ rs, r.toVec.length ≤ Greetd.maxMessageSize

/-- A response takes a byte or more. -/
theorem length_le_flatMap_wireBytes (rs : List Response) :
    rs.length ≤ (rs.flatMap wireBytes).length := by
  induction rs with
  | nil => simp
  | cons r rs ih =>
    simp only [List.flatMap_cons, List.length_cons, List.length_append, wireBytes,
      Framing.length_toLeBytes, Framing.lengthPrefixSize]
    omega

theorem Parley.Wrote.delivered_eq {rs : List Response} (h : s.Wrote rs) :
    s.delivered dec = rs.filter isAuthMessage := by
  have hlen := length_le_flatMap_wireBytes rs
  have hread : Framing.decodeAll Greetd.maxMessageSize dec.response (rs.flatMap wireBytes).length
      (rs.flatMap wireBytes) = rs :=
    Framing.decodeAll_frames _ (by decide) dec.response_toVec rs h.fits _ hlen
  rw [Parley.delivered, h.bytes, hread]

/-- A reply without a challenge. -/
def ShowsNothing (reply : List UInt8) : Prop :=
  ∃ rs : List Response, reply = rs.flatMap wireBytes ∧
    ∀ r ∈ rs, r.toVec.length ≤ Greetd.maxMessageSize ∧ isAuthMessage r = false

theorem showsNothing_nil : ShowsNothing [] := ⟨[], rfl, by simp⟩

/-- What the connection says when the broker is gone. -/
theorem brokerClosed_reply (c : Connection) :
    ∃ reply, c.brokerClosed.res = .ok ⟨reply, .close⟩ ∧ ShowsNothing reply := by
  have hfit : (Response.error .authError "broker connection closed").toVec.length
      ≤ Greetd.maxMessageSize := by decide
  unfold Connection.brokerClosed
  by_cases hc : c.closed = true
  · rw [if_pos hc]
    exact ⟨[], rfl, showsNothing_nil⟩
  rw [if_neg hc]
  simp only
  split
  · exact ⟨[], rfl, showsNothing_nil⟩
  · refine ⟨_, rfl, [.error .authError "broker connection closed"], ?_, ?_⟩
    · rw [Response.encode_of_le hfit]
      simp [wireBytes, Except.toOption]
    · simpa using ⟨hfit, rfl⟩

/-- What `fail_closed` writes is no challenge. -/
theorem failClosed_showsNothing (ep : BrokerEpisode) (out : EpisodeOutcome)
    (hout : out.greeterReply = []) : ShowsNothing (ep.failClosed out).out.greeterReply := by
  obtain ⟨reply, hres, hno⟩ := brokerClosed_reply ep.conn
  simpa [BrokerEpisode.failClosed, hres, hout] using hno

/-- A reply without a challenge leaves what was delivered. -/
theorem Parley.Wrote.append {rs : List Response} (h : s.Wrote rs) {s' : Parley}
    {reply : List UInt8} (hs' : s'.written = s.written ++ reply) (hreply : ShowsNothing reply) :
    s'.delivered dec = s.delivered dec := by
  obtain ⟨rs', hrs', hno⟩ := hreply
  have h' : s'.Wrote (rs ++ rs') := by
    refine ⟨by rw [hs', h.bytes, hrs', List.flatMap_append], fun r hr => ?_⟩
    rcases List.mem_append.mp hr with hr | hr
    · exact h.fits r hr
    · exact (hno r hr).1
  have hnone : rs'.filter isAuthMessage = [] := by
    rw [List.filter_eq_nil_iff]
    intro r hr
    simp [(hno r hr).2]
  rw [h'.delivered_eq, h.delivered_eq, List.filter_append, hnone, List.append_nil]

/-- A challenge that is due and was not delivered breaks the law. -/
theorem not_fifo_of_short (h : (s.delivered dec).length < s.said.length)
    (hh : (s.delivered dec).length ≤ s.handled.length) : ¬ s.Fifo dec := by
  intro hf
  have := hf.kept.length_le
  rw [List.length_map, List.length_take] at this
  omega

end

/-! ## Places of an orderly parley -/

/-- Where a parley is while its turns are in time. -/
inductive Place where
  | fresh
  /-- The `CreateSession` is on its way, `fed` of it in the compositor's buffer. -/
  | creating (user : String) (fed rest : List UInt8)
  /-- The challenges answered, the one in front of the greeter, and the ones queued. -/
  | talking (user : String) (done : List Exchange) (face : Face) (queue : List Msg)

/-- The greeter's bytes on their way. -/
def Face.wire : Face → List UInt8
  | .answering _ _ _ rest => rest
  | _ => []

/-- The parley at a place. -/
def Place.parley (service : String) : Place → Parley
  | .fresh => Parley.new service
  | .creating _ fed rest =>
    { Parley.new service with
      ep := { BrokerEpisode.new service with conn := ⟨.idle, fed, false, false⟩ },
      created := true, wire := rest }
  | .talking user done face queue =>
    { ep := ⟨service, some ⟨service, user, .authing, (face.tagged ++ queue).map Msg.tag⟩,
        face.conn user, none, queue.map Msg.challenge, face.ready⟩,
      created := true,
      wire := face.wire,
      written := (done.map (·.1) ++ face.tagged).flatMap fun m => wireBytes m.authMessage,
      sent := .beginAuth service user :: done.flatMap forwarded,
      said := done.map (·.1) ++ face.tagged ++ queue,
      answers := (done ++ face.answered).map (·.2),
      handled := done.map forwarded }

/-- What holds of a place. -/
def Place.Ok : Place → Prop
  | .fresh => True
  | .creating user fed rest => (Request.createSession user).encode = .ok (fed ++ rest) ∧ rest ≠ []
  | .talking _ done face queue =>
    (∀ m ∈ done.map (·.1) ++ face.tagged, m.Shows) ∧
    match face with
    | .none => queue = []
    | .showing _ => True
    | .answering _ r fed rest =>
      (Request.postAuthMessageResponse r).encode = .ok (fed ++ rest) ∧ rest ≠ []
    | .down _ _ _ => False

/-- The `BeginAuth` did not fit a frame: the episode is over before it began. -/
structure Parley.Refused (dec : Decoders) (s : Parley) : Prop where
  created : s.created = true
  wire : s.wire = []
  sent : s.sent = []
  said : s.said = []
  answers : s.answers = []
  handled : s.handled = []
  wrote : ∃ rs, s.Wrote rs ∧ rs.filter isAuthMessage = []
  relay : ∀ r, s.ep.relay = some r → r.phase = .done

/-- Every turn so far was in time. -/
def Parley.Orderly (dec : Decoders) (service : String) (s : Parley) : Prop :=
  (∃ p : Place, p.Ok ∧ s = p.parley service) ∨ s.Refused dec

section
variable {dec : Decoders} {service : String}

theorem wrote_place (service : String) {p : Place} (h : p.Ok) : ∃ rs, (p.parley service).Wrote rs ∧
    rs.filter isAuthMessage = match p with
      | .talking _ done face _ => (done.map (·.1) ++ face.tagged).map Msg.authMessage
      | _ => [] := by
  cases p with
  | fresh => exact ⟨[], ⟨rfl, by simp⟩, rfl⟩
  | creating user fed rest => exact ⟨[], ⟨rfl, by simp⟩, rfl⟩
  | talking user done face queue =>
    refine ⟨(done.map (·.1) ++ face.tagged).map Msg.authMessage, ⟨?_, ?_⟩, ?_⟩
    · simp [Place.parley, List.flatMap_map]
    · intro r hr
      obtain ⟨m, hm, rfl⟩ := List.mem_map.mp hr
      exact h.1 m hm
    · rw [List.filter_eq_self]
      intro r hr
      obtain ⟨m, -, rfl⟩ := List.mem_map.mp hr
      cases m <;> rfl

/-- What the greeter has got at a place. -/
theorem delivered_talking (dec : Decoders) (service : String) {user : String}
    {done : List Exchange} {face : Face} {queue : List Msg}
    (h : (Place.talking user done face queue).Ok) :
    ((Place.talking user done face queue).parley service).delivered dec
      = (done.map (·.1) ++ face.tagged).map Msg.authMessage := by
  obtain ⟨rs, hw, hrs⟩ := wrote_place service h
  rw [hw.delivered_eq, hrs]

/-- The challenges that are due have been shown. -/
theorem Place.Ok.due {user : String} {done : List Exchange} {face : Face} {queue : List Msg}
    (h : (Place.talking user done face queue).Ok) :
    (done.map (·.1) ++ face.tagged ++ queue).take (done.length + 1)
      = done.map (·.1) ++ face.tagged := by
  obtain ⟨-, h⟩ := h
  cases face with
  | none =>
    simp only at h
    subst h
    simp only [Face.tagged, List.append_nil]
    exact List.take_of_length_le (by simp)
  | showing m => exact List.take_left' (by simp [Face.tagged])
  | answering m r fed rest => exact List.take_left' (by simp [Face.tagged])
  | down m r past => exact h.elim

/-- **At a place, the law holds.** -/
theorem fifo_place {p : Place} (h : p.Ok) : (p.parley service).Fifo dec := by
  cases p with
  | fresh => exact ⟨by simp [Place.parley, Parley.new, Parley.delivered, Framing.decodeAll],
      by simp [Place.parley, Parley.new], by simp [Place.parley, Parley.new]⟩
  | creating user fed rest =>
    exact ⟨by simp [Place.parley, Parley.new, Parley.delivered, Framing.decodeAll],
      by simp [Place.parley, Parley.new], by simp [Place.parley, Parley.new]⟩
  | talking user done face queue =>
    have hdue := h.due
    have hdel := delivered_talking dec service h
    refine ⟨?_, ?_, ?_⟩
    · rw [hdel]
      refine List.IsPrefix.map _ ?_
      exact List.prefix_append _ _
    · rw [hdel]
      simp only [Place.parley, List.length_map, hdue, List.prefix_rfl]
    · intro k m r fs hm hr hfs
      simp only [Place.parley, List.getElem?_map] at hm hr hfs
      obtain ⟨e, he, rfl⟩ := Option.map_eq_some_iff.mp hfs
      obtain ⟨hk, hke⟩ := List.getElem?_eq_some_iff.mp he
      have hm' : (done.map (·.1))[k]? = some e.1 := by simp [he]
      rw [List.append_assoc, List.getElem?_append_left (by simpa using hk), hm'] at hm
      rw [List.getElem?_append_left hk, he] at hr
      cases hm
      cases hr
      rfl

theorem fifo_refused {s : Parley} (h : s.Refused dec) : s.Fifo dec := by
  obtain ⟨rs, hw, hrs⟩ := h.wrote
  refine ⟨by rw [hw.delivered_eq, hrs]; exact List.nil_prefix, by simp [h.said], ?_⟩
  simp [h.said]

theorem Parley.Orderly.fifo {s : Parley} (h : s.Orderly dec service) : s.Fifo dec := by
  rcases h with ⟨p, hp, rfl⟩ | h
  · exact fifo_place hp
  · exact fifo_refused h

end

/-! ## One turn -/

section
variable {dec : Decoders} {isFile : String → Bool} {service : String} {s : Parley}

/-- A turn in time keeps the parley orderly, and one that is not breaks the law. -/
def Parley.Follows (dec : Decoders) (isFile : String → Bool) (service : String) (s : Parley)
    (t : Turn) : Prop :=
  (s.InTime t ∧ (s.step dec isFile t).1.Orderly dec service) ∨
    (¬ s.InTime t ∧ ¬ (s.step dec isFile t).1.Fifo dec)

/-- A turn that does nothing. -/
theorem follows_still (hs : s.Orderly dec service) {t : Turn} (ht : s.InTime t)
    (h : (s.step dec isFile t).1 = s) : s.Follows dec isFile service t :=
  .inl ⟨ht, by rwa [h]⟩

theorem step_create_still (h : s.created = true) (user : String) :
    (s.step dec isFile (.create user)).1 = s := by
  simp [Parley.step, h]

theorem step_read_still (h : s.wire = []) (n : Nat) : (s.step dec isFile (.read n)).1 = s := by
  simp [Parley.step, h]

theorem step_answer_still (h : (s.delivered dec).length ≤ s.answers.length) (r : Option String) :
    (s.step dec isFile (.answer r)).1 = s := by
  simp [Parley.step, Nat.not_lt.mpr h]

/-- A chunk of the greeter's bytes. -/
theorem step_read_calm {n : Nat} (hne : s.wire ≠ []) {ep' : BrokerEpisode} {reply : List UInt8}
    {fs : List CompositorToBroker}
    (h : (s.ep.onGreeterBytes dec.request ⟨isFile, true⟩ (s.wire.take (n + 1))).Calm ep' reply fs) :
    (s.step dec isFile (.read n)).1
      = { s with ep := ep', wire := s.wire.drop (n + 1), written := s.written ++ reply,
                 sent := s.sent ++ fs,
                 handled := if s.EndsAnswer n then s.handled ++ [fs] else s.handled } := by
  simp only [Parley.step, if_neg hne, h.ep, h.reply, h.sent]

/-- A frame of the broker. -/
theorem step_say_calm {m : Msg} {ep' : BrokerEpisode} {reply : List UInt8}
    {fs : List CompositorToBroker}
    (h : (s.ep.onBrokerReadable dec.request ⟨isFile, true⟩ (.ok (some (m.frame, none)))).Calm
      ep' reply fs) :
    (s.step dec isFile (.say m)).1
      = { s with ep := ep', written := s.written ++ reply, sent := s.sent ++ fs,
                 said := s.said ++ [m] } := by
  simp only [Parley.step, h.ep, h.reply, h.sent]

/-- An answer is read, and the challenge that is due then is not shown. -/
theorem not_fifo_of_read {n : Nat} {rs : List Response} (hw : s.Wrote rs) (hne : s.wire ≠ [])
    (hends : s.EndsAnswer n)
    (hreply : ShowsNothing (s.ep.onGreeterBytes dec.request ⟨isFile, true⟩
      (s.wire.take (n + 1))).out.greeterReply)
    (hdue : (s.delivered dec).length < s.said.length)
    (hlast : (s.delivered dec).length ≤ s.handled.length + 1) :
    ¬ (s.step dec isFile (.read n)).1.Fifo dec := by
  simp only [Parley.step]
  rw [if_neg hne, if_pos hends]
  have hsame : Parley.delivered dec
      { s with
        ep := (s.ep.onGreeterBytes dec.request ⟨isFile, true⟩ (s.wire.take (n + 1))).ep,
        wire := s.wire.drop (n + 1),
        written := s.written ++ (s.ep.onGreeterBytes dec.request ⟨isFile, true⟩
          (s.wire.take (n + 1))).out.greeterReply } = s.delivered dec := hw.append rfl hreply
  refine not_fifo_of_short ?_ ?_
  · exact hsame ▸ hdue
  · rw [List.length_append]
    exact hsame ▸ hlast

/-- A frame that reaches an episode without a conversation is lost. -/
theorem follows_say_early (hsent : s.sent = []) (hsaid : s.said = [])
    (hwrote : ∃ rs, s.Wrote rs ∧ rs.filter isAuthMessage = [])
    (hrel : ∀ r, s.ep.relay = some r → r.phase = .done) (m : Msg) :
    s.Follows dec isFile service (.say m) := by
  have hcall : s.ep.onBrokerReadable dec.request ⟨isFile, true⟩ (.ok (some (m.frame, none)))
      = s.ep.failClosed EpisodeOutcome.default := by
    cases hr : s.ep.relay with
    | none => simp [BrokerEpisode.onBrokerReadable, hr]
    | some r =>
      have hframe : r.onBrokerFrame m.frame = .error .outOfPhase := by
        cases m <;> simp [Msg.frame, BrokerRelay.onBrokerFrame, hrel r hr]
      simp [BrokerEpisode.onBrokerReadable, hr, hframe]
  obtain ⟨rs, hw, hrs⟩ := hwrote
  have hsame : (s.step dec isFile (.say m)).1.delivered dec = s.delivered dec :=
    hw.append rfl (by rw [hcall]; exact failClosed_showsNothing _ _ rfl)
  have hnone : (s.step dec isFile (.say m)).1.delivered dec = [] := by
    rw [hsame, hw.delivered_eq, hrs]
  refine .inr ⟨fun h => h.1 hsent, not_fifo_of_short ?_ ?_⟩
  · rw [hnone]
    simp [Parley.step, hsaid]
  · rw [hnone]
    simp

/-! ### Before the conversation -/

theorem follows_fresh (t : Turn) :
    ((Place.fresh).parley service).Follows dec isFile service t := by
  have hord : ((Place.fresh).parley service).Orderly dec service := .inl ⟨.fresh, trivial, rfl⟩
  cases t with
  | create user =>
    refine .inl ⟨trivial, ?_⟩
    cases henc : (Request.createSession user).encode with
    | error e =>
      have hstep : (((Place.fresh).parley service).step dec isFile (.create user)).1
          = (Place.fresh).parley service := by
        simp [Parley.step, henc]
      rwa [hstep]
    | ok bytes =>
      have hne : bytes ≠ [] := by
        rw [(Framing.encode_ok _ henc).1]
        simp [Framing.toLeBytes]
      refine .inl ⟨.creating user [] bytes, ⟨henc, hne⟩, ?_⟩
      simp only [Place.parley, Parley.new, Parley.step, henc]
      rfl
  | answer r => exact follows_still hord trivial (step_answer_still (by
      simp [Place.parley, Parley.new, Parley.delivered, Framing.decodeAll]) r)
  | read n =>
    exact follows_still hord (by intro h; simp [Place.parley, Parley.new]) (step_read_still rfl n)
  | say m =>
    exact follows_say_early rfl rfl ⟨[], ⟨rfl, by simp⟩, rfl⟩
      (by simp [Place.parley, Parley.new, BrokerEpisode.new]) m

/-- A chunk that ends what is on the wire is all of it. -/
theorem take_of_drop_nil {n : Nat} {rest : List UInt8} (h : rest.drop n = []) :
    rest.take n = rest := by
  simpa [h] using List.take_append_drop n rest

/-- A `CreateSession` whose `BeginAuth` does not fit a frame. -/
theorem refused_of_unsent {user : String} {fed rest : List UInt8}
    (hok : (Place.creating user fed rest).Ok) {n : Nat} (hend : rest.drop (n + 1) = [])
    (hfit : ¬ Fits (CompositorToBroker.toVec (.beginAuth service user))) :
    (((Place.creating user fed rest).parley service).step dec isFile (.read n)).1.Refused dec := by
  obtain ⟨henc, hne⟩ := hok
  obtain ⟨ep', ran, hrel, hcall⟩ : ∃ (ep' : BrokerEpisode) (ran : Ran),
      ep'.relay = some ⟨service, user, .authing, []⟩ ∧
      ((Place.creating user fed rest).parley service).ep.onGreeterBytes dec.request ⟨isFile, true⟩
        rest = (ep'.failClosed EpisodeOutcome.default).after (greetdEvents ran) :=
    onGreeterBytes_unsent rfl rfl henc (dec.request_toVec _) rfl rfl hfit
  have hstep : (((Place.creating user fed rest).parley service).step dec isFile (.read n)).1
      = { (Place.creating user fed rest).parley service with
            ep := (ep'.failClosed EpisodeOutcome.default).ep, wire := [],
            written := (ep'.failClosed EpisodeOutcome.default).out.greeterReply } := by
    have hwire : ((Place.creating user fed rest).parley service).wire = rest := rfl
    simp only [Parley.step, hwire, if_neg hne, take_of_drop_nil hend, hcall, hend]
    simp [Place.parley, Parley.new, Acted.after, BrokerEpisode.failClosed, sentFrames, greetdEvents,
      Parley.EndsAnswer]
  obtain ⟨rs, hrs, hno⟩ := failClosed_showsNothing ep' EpisodeOutcome.default rfl
  rw [hstep]
  refine ⟨rfl, rfl, rfl, rfl, rfl, rfl, ⟨rs, ⟨hrs, fun r hr => (hno r hr).1⟩, ?_⟩, ?_⟩
  · rw [List.filter_eq_nil_iff]
    intro r hr
    simp [(hno r hr).2]
  · intro r hr
    simp only [BrokerEpisode.failClosed, hrel, Option.map_some, Option.some.injEq] at hr
    rw [← hr]
    rfl

theorem follows_creating {user : String} {fed rest : List UInt8}
    (hok : (Place.creating user fed rest).Ok) (t : Turn) :
    ((Place.creating user fed rest).parley service).Follows dec isFile service t := by
  have hord : ((Place.creating user fed rest).parley service).Orderly dec service :=
    .inl ⟨_, hok, rfl⟩
  cases t with
  | create user' => exact follows_still hord trivial (step_create_still rfl user')
  | answer r => exact follows_still hord trivial (step_answer_still (by
      simp [Place.parley, Parley.new, Parley.delivered, Framing.decodeAll]) r)
  | say m =>
    exact follows_say_early rfl rfl ⟨[], ⟨rfl, by simp⟩, rfl⟩
      (by simp [Place.parley, Parley.new, BrokerEpisode.new]) m
  | read n =>
    obtain ⟨henc, hne⟩ := hok
    have hnone : ¬ ((Place.creating user fed rest).parley service).EndsAnswer n := by
      simp [Parley.EndsAnswer, Place.parley, Parley.new]
    refine .inl ⟨fun h => absurd h hnone, ?_⟩
    by_cases hend : rest.drop (n + 1) = []
    · by_cases hfit : Fits (CompositorToBroker.toVec (.beginAuth service user))
      · have hcall : (((Place.creating user fed rest).parley service).ep.onGreeterBytes dec.request
            ⟨isFile, true⟩ (rest.take (n + 1))).Calm
              ⟨service, some ⟨service, user, .authing, []⟩,
                ⟨.authPending user, [], true, false⟩, none, [], true⟩ []
              [.beginAuth service user] := by
          rw [take_of_drop_nil hend]
          exact onGreeterBytes_whole rfl rfl henc (dec.request_toVec _) rfl
            (actOnDemand_sent rfl hfit rfl)
        rw [step_read_calm hne hcall, if_neg hnone]
        refine .inl ⟨.talking user [] .none [], ⟨by simp [Face.tagged], rfl⟩, ?_⟩
        simp [Place.parley, Parley.new, hend, Face.tagged, Face.conn, Face.ready, Face.wire,
          Face.answered]
      · exact .inr (refused_of_unsent ⟨henc, hne⟩ hend hfit)
    · have hsplit : fed ++ rest.take (n + 1) ++ rest.drop (n + 1) = fed ++ rest := by
        rw [List.append_assoc, List.take_append_drop]
      have hcall : (((Place.creating user fed rest).parley service).ep.onGreeterBytes dec.request
          ⟨isFile, true⟩ (rest.take (n + 1))).Calm
            { BrokerEpisode.new service with
              conn := ⟨.idle, fed ++ rest.take (n + 1), false, false⟩ } [] [] :=
        onGreeterBytes_part rfl rfl (by rw [← hsplit] at henc; exact henc) hend
      rw [step_read_calm hne hcall, if_neg hnone]
      refine .inl ⟨.creating user (fed ++ rest.take (n + 1)) (rest.drop (n + 1)),
        ⟨by rw [hsplit, henc], hend⟩, ?_⟩
      simp [Place.parley, Parley.new]

theorem follows_refused (h : s.Refused dec) (t : Turn) : s.Follows dec isFile service t := by
  have hord : s.Orderly dec service := .inr h
  cases t with
  | create user => exact follows_still hord trivial (step_create_still h.created user)
  | answer r =>
    obtain ⟨rs, hw, hrs⟩ := h.wrote
    refine follows_still hord trivial (step_answer_still ?_ r)
    rw [hw.delivered_eq, hrs]
    simp
  | read n =>
    refine follows_still hord ?_ (step_read_still h.wire n)
    intro _
    simp [h.said]
  | say m => exact follows_say_early h.sent h.said h.wrote h.relay m

/-! ### Talking -/

section
variable {user : String} {done : List Exchange} {face : Face} {queue : List Msg} {m : Msg}

theorem follows_answer (hok : (Place.talking user done face queue).Ok) (r : Option String) :
    ((Place.talking user done face queue).parley service).Follows dec isFile service
      (.answer r) := by
  have hord : ((Place.talking user done face queue).parley service).Orderly dec service :=
    .inl ⟨_, hok, rfl⟩
  have hdel := delivered_talking dec service hok
  by_cases hface : ∃ m, face = .showing m
  · obtain ⟨m, rfl⟩ := hface
    have hlt : ((Place.talking user done (.showing m) queue).parley service).answers.length
        < (((Place.talking user done (.showing m) queue).parley service).delivered dec).length := by
      rw [hdel]
      simp [Place.parley, Face.answered, Face.tagged]
    cases henc : (Request.postAuthMessageResponse r).encode with
    | error e =>
      refine follows_still hord trivial ?_
      simp only [Parley.step, if_pos hlt, henc]
    | ok bytes =>
      have hne : bytes ≠ [] := by
        rw [(Framing.encode_ok _ henc).1]
        simp [Framing.toLeBytes]
      refine .inl ⟨trivial, .inl ⟨.talking user done (.answering m r [] bytes) queue,
        ⟨hok.1, henc, hne⟩, ?_⟩⟩
      simp only [Parley.step, if_pos hlt, henc]
      simp [Place.parley, Face.answered, Face.tagged, Face.conn, Face.ready, Face.wire]
  · refine follows_still hord trivial (step_answer_still ?_ r)
    rw [hdel]
    cases face with
    | none => simp [Place.parley, Face.answered, Face.tagged]
    | showing m => exact absurd ⟨m, rfl⟩ hface
    | answering m r fed rest => simp [Place.parley, Face.answered, Face.tagged]
    | down m r past => exact hok.2.elim

/-- A frame that reaches a suspended machine. -/
theorem follows_say_ready (hok : (Place.talking user done .none []).Ok) :
    ((Place.talking user done .none []).parley service).Follows dec isFile service (.say m) := by
  have hrel : ((Place.talking user done .none []).parley service).ep.relay
      = some ⟨service, user, .authing, []⟩ := rfl
  have hframe := onBrokerFrame_msg service user [] m
  by_cases hm : m.Shows
  · have hcall :
      (((Place.talking user done .none []).parley service).ep.onBrokerReadable dec.request
        ⟨isFile, true⟩ (.ok (some (m.frame, none)))).Calm
          ⟨service, some ⟨service, user, .authing, [m.tag]⟩,
            ⟨.authenticating user, [], false, false⟩,
            none, [], false⟩ (wireBytes m.authMessage) [] :=
      onBrokerReadable_shown hrel none hframe rfl rfl rfl rfl (onPamResult_challenge user m)
        (Response.encode_of_le hm)
    refine .inl ⟨⟨by simp [Place.parley], fun _ => hm⟩,
      .inl ⟨.talking user done (.showing m) [], ⟨?_, trivial⟩, ?_⟩⟩
    · intro m' hm'
      rcases List.mem_append.mp hm' with hm' | hm'
      · exact hok.1 m' (by simp [hm'])
      · rw [Face.tagged, List.mem_singleton] at hm'
        rwa [hm']
    · rw [step_say_calm hcall]
      simp [Place.parley, Face.answered, Face.tagged, Face.conn, Face.ready, Face.wire]
  · obtain ⟨e, he⟩ := Response.encode_of_gt (Nat.lt_of_not_le hm)
    obtain ⟨ep', hcall⟩ : ∃ ep' : BrokerEpisode,
        (((Place.talking user done .none []).parley service).ep.onBrokerReadable dec.request
          ⟨isFile, true⟩ (.ok (some (m.frame, none)))).out
            = (ep'.failClosed EpisodeOutcome.default).out :=
      onBrokerReadable_unframed hrel none hframe rfl rfl rfl (onPamResult_challenge user m) he
    obtain ⟨rs, hw, -⟩ := wrote_place service hok
    have hdel := delivered_talking dec service hok
    have hsame : (((Place.talking user done .none []).parley service).step dec isFile
        (.say m)).1.delivered dec = _ :=
      hw.append rfl (by rw [hcall]; exact failClosed_showsNothing ep' _ rfl)
    refine .inr ⟨fun h => hm (h.2 (by simp [Place.parley, Face.tagged])), not_fifo_of_short ?_ ?_⟩
    · rw [hsame, hdel]
      simp [Parley.step, Place.parley, Face.tagged]
    · rw [hsame, hdel]
      simp [Parley.step, Place.parley, Face.tagged]

/-- A frame that comes before the greeter answered. -/
theorem follows_say_queued (hok : (Place.talking user done face queue).Ok)
    (hready : face.ready = false) (htag : face.tagged ≠ []) :
    ((Place.talking user done face queue).parley service).Follows dec isFile service (.say m) := by
  have hrel : ((Place.talking user done face queue).parley service).ep.relay
      = some ⟨service, user, .authing, (face.tagged ++ queue).map Msg.tag⟩ := rfl
  have hcall :
      (((Place.talking user done face queue).parley service).ep.onBrokerReadable dec.request
      ⟨isFile, true⟩ (.ok (some (m.frame, none)))).Calm
        ⟨service, some ⟨service, user, .authing, (face.tagged ++ queue).map Msg.tag ++ [m.tag]⟩,
          face.conn user, none, queue.map Msg.challenge ++ [m.challenge], face.ready⟩ [] [] :=
    onBrokerReadable_queued hrel none (onBrokerFrame_msg service user _ m) hready
  have hlen : 0 < face.tagged.length := List.length_pos_iff.mpr htag
  refine .inl ⟨⟨by simp [Place.parley], fun h => ?_⟩,
    .inl ⟨.talking user done face (queue ++ [m]), ⟨hok.1, ?_⟩, ?_⟩⟩
  · simp only [Place.parley, List.length_append, List.length_map] at h
    omega
  · cases face with
    | none => simp [Face.ready] at hready
    | showing m => trivial
    | answering m r fed rest => exact hok.2
    | down m r past => exact hok.2
  · rw [step_say_calm hcall]
    simp [Place.parley]

theorem follows_say (hok : (Place.talking user done face queue).Ok) :
    ((Place.talking user done face queue).parley service).Follows dec isFile service (.say m) := by
  cases face with
  | none =>
    obtain rfl : queue = [] := hok.2
    exact follows_say_ready hok
  | showing m => exact follows_say_queued hok rfl (by simp [Face.tagged])
  | answering m r fed rest => exact follows_say_queued hok rfl (by simp [Face.tagged])
  | down m r past => exact hok.2.elim

/-! ### Reading an answer -/

section
variable {r : Option String} {fed rest : List UInt8} {n : Nat}

/-- The last chunk of an answer. -/
theorem endsAnswer_answering (hend : rest.drop (n + 1) = []) :
    ((Place.talking user done (.answering m r fed rest) queue).parley service).EndsAnswer n :=
  ⟨hend, by simp [Place.parley, Face.answered]⟩

/-- What is due and what waits when an answer is read. -/
theorem drop_handled :
    ((Place.talking user done (.answering m r fed rest) queue).parley service).said.drop
      ((Place.talking user done (.answering m r fed rest) queue).parley service).handled.length
      = m :: queue := by
  simp [Place.parley, Face.tagged, List.append_assoc]

/-- Part of an answer. -/
theorem follows_read_part
    (hok : (Place.talking user done (.answering m r fed rest) queue).Ok)
    (hend : rest.drop (n + 1) ≠ []) :
    ((Place.talking user done (.answering m r fed rest) queue).parley service).Follows dec isFile
      service (.read n) := by
  obtain ⟨hshows, henc, hne⟩ := hok
  have hnone : ¬ ((Place.talking user done (.answering m r fed rest) queue).parley
      service).EndsAnswer n := fun h => hend h.1
  have hsplit : fed ++ rest.take (n + 1) ++ rest.drop (n + 1) = fed ++ rest := by
    rw [List.append_assoc, List.take_append_drop]
  have hcall : (((Place.talking user done (.answering m r fed rest) queue).parley
      service).ep.onGreeterBytes dec.request ⟨isFile, true⟩ (rest.take (n + 1))).Calm
        ⟨service, some ⟨service, user, .authing, (m :: queue).map Msg.tag⟩,
          ⟨.authenticating user, fed ++ rest.take (n + 1), false, false⟩, none,
          queue.map Msg.challenge, false⟩ [] [] :=
    onGreeterBytes_part rfl rfl (by rw [← hsplit] at henc; exact henc) hend
  refine .inl ⟨fun h => absurd h hnone, ?_⟩
  rw [step_read_calm hne hcall, if_neg hnone]
  refine .inl ⟨.talking user done (.answering m r (fed ++ rest.take (n + 1)) (rest.drop (n + 1)))
    queue, ⟨hshows, by rw [hsplit, henc], hend⟩, ?_⟩
  simp [Place.parley, Face.tagged, Face.conn, Face.ready, Face.wire, Face.answered]

/-- The answer to a prompt goes on to the broker, and nothing more happens: a challenge that waits
behind the prompt is left there. -/
theorem follows_read_prompt
    (hok : (Place.talking user done (.answering m r fed rest) queue).Ok)
    (hend : rest.drop (n + 1) = []) (hp : m.isPrompt = true) :
    ((Place.talking user done (.answering m r fed rest) queue).parley service).Follows dec isFile
      service (.read n) := by
  have hdel := delivered_talking dec service hok
  obtain ⟨rs, hw, -⟩ := wrote_place service hok
  obtain ⟨hshows, henc, hne⟩ := hok
  obtain ⟨style, message, rfl⟩ : ∃ style message, m = .prompt style message := by
    cases m with
    | prompt style message => exact ⟨style, message, rfl⟩
    | display style message => cases hp
  have hcall : (((Place.talking user done (.answering (.prompt style message) r fed rest)
      queue).parley service).ep.onGreeterBytes dec.request ⟨isFile, true⟩ (rest.take (n + 1))).Calm
        ⟨service, some ⟨service, user, .authing, queue.map Msg.tag⟩,
          ⟨.authPending user, [], true, false⟩, none, queue.map Msg.challenge, true⟩ []
        [.convResponse (r.getD "")] := by
    rw [take_of_drop_nil hend]
    exact onGreeterBytes_whole rfl rfl henc (dec.request_toVec _) rfl
      (actOnDemand_sent rfl (fits_convResponse henc) rfl)
  have hends : ((Place.talking user done (.answering (.prompt style message) r fed rest)
      queue).parley service).EndsAnswer n := endsAnswer_answering hend
  cases queue with
  | nil =>
    refine .inl ⟨fun _ => ?_, .inl ⟨.talking user (done ++ [(Msg.prompt style message, r)]) .none [],
      ⟨?_, rfl⟩, ?_⟩⟩
    · rw [drop_handled]
      trivial
    · simpa [Face.tagged] using hshows
    · rw [step_read_calm hne hcall, if_pos hends]
      simp [Place.parley, Face.tagged, Face.conn, Face.ready, Face.wire, Face.answered, hend,
        forwarded, Msg.isPrompt]
  | cons next queue =>
    refine .inr ⟨fun h => ?_, not_fifo_of_read hw hne hends ?_ ?_ ?_⟩
    · have := h hends
      rw [drop_handled] at this
      exact absurd this.1 (by simp [Msg.isPrompt])
    · have hreply := hcall.reply
      exact hreply ▸ showsNothing_nil
    · rw [hdel]
      simp [Place.parley, Face.tagged]
    · rw [hdel]
      simp [Place.parley, Face.tagged]

/-- The acknowledgement of a display is swallowed, and the next challenge shown. -/
theorem follows_read_display
    (hok : (Place.talking user done (.answering m r fed rest) queue).Ok)
    (hend : rest.drop (n + 1) = []) (hp : m.isPrompt = false) :
    ((Place.talking user done (.answering m r fed rest) queue).parley service).Follows dec isFile
      service (.read n) := by
  have hdel := delivered_talking dec service hok
  obtain ⟨rs, hw, -⟩ := wrote_place service hok
  obtain ⟨hshows, henc, hne⟩ := hok
  obtain ⟨style, message, rfl⟩ : ∃ style message, m = .display style message := by
    cases m with
    | prompt style message => cases hp
    | display style message => exact ⟨style, message, rfl⟩
  have hends : ((Place.talking user done (.answering (.display style message) r fed rest)
      queue).parley service).EndsAnswer n := endsAnswer_answering hend
  cases queue with
  | nil =>
    have hcall : (((Place.talking user done (.answering (.display style message) r fed rest)
        []).parley service).ep.onGreeterBytes dec.request ⟨isFile, true⟩ (rest.take (n + 1))).Calm
          ⟨service, some ⟨service, user, .authing, []⟩, ⟨.authPending user, [], true, false⟩, none,
            [], true⟩ [] [] := by
      rw [take_of_drop_nil hend]
      exact onGreeterBytes_whole rfl rfl henc (dec.request_toVec _) rfl
        (actOnDemand_swallowed rfl rfl rfl)
    refine .inl ⟨fun _ => ?_, .inl ⟨.talking user (done ++ [(Msg.display style message, r)]) .none [],
      ⟨?_, rfl⟩, ?_⟩⟩
    · rw [drop_handled]
      trivial
    · simpa [Face.tagged] using hshows
    · rw [step_read_calm hne hcall, if_pos hends]
      simp [Place.parley, Face.tagged, Face.conn, Face.ready, Face.wire, Face.answered, hend,
        forwarded, Msg.isPrompt]
  | cons next queue =>
    by_cases hm : next.Shows
    · have hcall : (((Place.talking user done (.answering (.display style message) r fed rest)
          (next :: queue)).parley service).ep.onGreeterBytes dec.request ⟨isFile, true⟩
            (rest.take (n + 1))).Calm
            ⟨service, some ⟨service, user, .authing, (next :: queue).map Msg.tag⟩,
              ⟨.authenticating user, [], false, false⟩, none, queue.map Msg.challenge, false⟩
            (wireBytes next.authMessage) [] := by
        rw [take_of_drop_nil hend]
        exact onGreeterBytes_whole rfl rfl henc (dec.request_toVec _) rfl
          (actOnDemand_flushed rfl rfl rfl rfl rfl (onPamResult_challenge user next)
            (Response.encode_of_le hm) rfl)
      refine .inl ⟨fun _ => ?_, .inl ⟨.talking user (done ++ [(Msg.display style message, r)])
        (.showing next) queue, ⟨?_, trivial⟩, ?_⟩⟩
      · rw [drop_handled]
        exact ⟨rfl, hm⟩
      · intro m' hm'
        rw [Face.tagged, List.mem_append, List.mem_singleton] at hm'
        rcases hm' with hm' | rfl
        · exact hshows m' (by simpa [Face.tagged] using hm')
        · exact hm
      · rw [step_read_calm hne hcall, if_pos hends]
        simp [Place.parley, Face.tagged, Face.conn, Face.ready, Face.wire, Face.answered, hend,
          forwarded, Msg.isPrompt]
    · obtain ⟨e, he⟩ := Response.encode_of_gt (Nat.lt_of_not_le hm)
      obtain ⟨ep', hcall⟩ : ∃ ep' : BrokerEpisode,
          (((Place.talking user done (.answering (.display style message) r fed rest)
            (next :: queue)).parley service).ep.onGreeterBytes dec.request ⟨isFile, true⟩
              rest).out = (ep'.failClosed EpisodeOutcome.default).out :=
        onGreeterBytes_unframed rfl rfl henc (dec.request_toVec _) rfl rfl rfl rfl
          (onPamResult_challenge user next) he
      refine .inr ⟨fun h => ?_, not_fifo_of_read hw hne hends ?_ ?_ ?_⟩
      · have := h hends
        rw [drop_handled] at this
        exact hm this.2
      · have hwire : ((Place.talking user done (.answering (.display style message) r fed rest)
            (next :: queue)).parley service).wire.take (n + 1) = rest := take_of_drop_nil hend
        rw [hwire, hcall]
        exact failClosed_showsNothing ep' _ rfl
      · rw [hdel]
        simp [Place.parley, Face.tagged]
      · rw [hdel]
        simp [Place.parley, Face.tagged]

theorem follows_read (hok : (Place.talking user done face queue).Ok) (n : Nat) :
    ((Place.talking user done face queue).parley service).Follows dec isFile service (.read n) := by
  have hord : ((Place.talking user done face queue).parley service).Orderly dec service :=
    .inl ⟨_, hok, rfl⟩
  -- with nothing on the wire there is no answer to end
  have hidle : face.answered = [] → ((Place.talking user done face queue).parley service).InTime
      (.read n) := by
    intro h h'
    have := h'.2
    simp [Place.parley, h] at this
  cases face with
  | none => exact follows_still hord (hidle rfl) (step_read_still rfl n)
  | showing m => exact follows_still hord (hidle rfl) (step_read_still rfl n)
  | answering m r fed rest =>
    by_cases hend : rest.drop (n + 1) = []
    · cases hp : m.isPrompt with
      | true => exact follows_read_prompt hok hend hp
      | false => exact follows_read_display hok hend hp
    · exact follows_read_part hok hend
  | down m r past => exact hok.2.elim

end

end

/-- **Every turn of an orderly parley**: in time, it keeps the parley orderly; not in time, it
breaks the law. -/
theorem Parley.Orderly.follows (h : s.Orderly dec service) (t : Turn) :
    s.Follows dec isFile service t := by
  rcases h with ⟨p, hp, rfl⟩ | h
  · cases p with
    | fresh => exact follows_fresh t
    | creating user fed rest => exact follows_creating hp t
    | talking user done face queue =>
      cases t with
      | create user' =>
        exact follows_still (.inl ⟨_, hp, rfl⟩) trivial (step_create_still rfl user')
      | answer r => exact follows_answer hp r
      | read n => exact follows_read hp n
      | say m => exact follows_say hp
  · exact follows_refused h t

end

/-! ## Whole runs -/

/-- **The law of the challenges.** Whatever the broker says, whatever the greeter answers and
however the two interleave: the law holds after every turn if and only if every turn is in time. -/
theorem fifo_iff (dec : Decoders) (isFile : String → Bool) (service : String) (turns : List Turn) :
    (∀ pre t post, turns = pre ++ t :: post →
      ((run (Parley.step dec isFile) (Parley.new service) pre).1.step dec isFile t).1.Fifo dec) ↔
    Along (Parley.step dec isFile) Parley.InTime (Parley.new service) turns := by
  have hall : Along (Parley.step dec isFile) (fun s t => (s.step dec isFile t).1.Fifo dec)
      (Parley.new service) turns ↔ _ := along_iff_forall turns _
  rw [← hall]
  refine along_congr (Parley.Orderly dec service) ?_ ?_ turns _ (.inl ⟨.fresh, trivial, rfl⟩)
  · intro s t hs
    rcases (hs.follows t : s.Follows dec isFile service t) with ⟨ht, hs'⟩ | ⟨ht, hs'⟩
    · exact iff_of_true hs'.fifo ht
    · exact iff_of_false hs' ht
  · intro s t hs hfifo
    rcases (hs.follows t : s.Follows dec isFile service t) with ⟨-, hs'⟩ | ⟨-, hs'⟩
    · exact hs'
    · exact absurd hfifo hs'

/-- Two prompts come before the first is answered. -/
def twoPrompts : List Turn :=
  [.create "alice", .read 1000, .say (.prompt .secret "Please touch the device"),
    .say (.prompt .secret "Password: "), .answer (some ""), .read 1000]

/-- The first prompt has been answered and the second is not shown. A notice that comes then is
shown in its place. -/
theorem queued_prompt_left_behind :
    let step := Parley.step .compact fun _ => true
    let s := (run step (Parley.new "halmasuit") twoPrompts).1
    let s' := (s.step .compact (fun _ => true) (.say (.display .info "Welcome"))).1
    s.handled = [[.convResponse ""]] ∧
    s.said = [.prompt .secret "Please touch the device", .prompt .secret "Password: "] ∧
    s.delivered .compact = [.authMessage .secret "Please touch the device"] ∧
    ¬ s.Fifo .compact ∧
    s'.delivered .compact
      = [.authMessage .secret "Please touch the device", .authMessage .info "Welcome"] ∧
    ¬ s'.Fifo .compact := by
  intro step s s'
  have hs : s.handled = [[.convResponse ""]] ∧
      s.said = [.prompt .secret "Please touch the device", .prompt .secret "Password: "] ∧
      s.delivered .compact = [.authMessage .secret "Please touch the device"] := by decide +kernel
  have hs' : s'.said = [.prompt .secret "Please touch the device", .prompt .secret "Password: ",
      .display .info "Welcome"] ∧ s'.delivered .compact
        = [.authMessage .secret "Please touch the device", .authMessage .info "Welcome"] := by
    decide +kernel
  refine ⟨hs.1, hs.2.1, hs.2.2, ?_, hs'.2, fun h => ?_⟩
  · refine not_fifo_of_short ?_ ?_
    · rw [hs.2.2, hs.2.1]
      decide
    · rw [hs.2.2, hs.1]
      decide
  · have horder := h.order
    rw [hs'.1, hs'.2] at horder
    exact absurd horder (by decide)

end Halmasuit.Protocol
