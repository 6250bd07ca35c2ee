import Halmasuit.Lib.Run
import Halmasuit.Protocol.Link

/-!
# A scripted login

The whole system of one authentication: a worker that runs a conversation script and reports its
verdict, the broker's relay, the compositor's episode, and a greeter that sends one `CreateSession`
and answers every `AuthMessage` with one `PostAuthMessageResponse`. Displays do not block the
worker; a prompt does, until its `ConvResponse` comes down.

The greeter's stream is delivered to the compositor in chunks of any size; the greeter reads whole
responses off its own. Every step of every party is an input of `Dialogue.step`, so a run is an
interleaving. A step that is not enabled leaves the state as it is.
-/

namespace Halmasuit.Protocol

open Halmasuit.Greetd
open Halmasuit.SessionIpc
open Halmasuit.Compositor
open Halmasuit.Broker
open Halmasuit.Lib

/-! ## Scripts -/

/-- A message of the PAM conversation. -/
inductive Msg where
  | prompt (style : PromptStyle) (message : String)
  | display (style : DisplayStyle) (message : String)
  deriving DecidableEq, Repr

def Msg.isPrompt : Msg → Bool
  | .prompt _ _ => true
  | .display _ _ => false

/-- The frame the worker sends for it. -/
def Msg.frame : Msg → BrokerToCompositor
  | .prompt style message => .convPrompt style message
  | .display style message => .convDisplay style message

/-- The challenge the relay makes of it. -/
def Msg.challenge : Msg → PamStep
  | .prompt style message => .challenge (promptToKind style) message
  | .display style message => .challenge (displayToKind style) message

/-- The message the greeter gets. -/
def Msg.authMessage : Msg → Response
  | .prompt style message => .authMessage (promptToKind style) message
  | .display style message => .authMessage (displayToKind style) message

/-- How the worker ends the authentication. -/
inductive Verdict where
  | authOk (username : String) (uid gid : UInt32)
  | failure (reason : String)
  deriving DecidableEq, Repr

def Verdict.outcome : Verdict → WorkerOutcome
  | .authOk username uid gid => .authOk username uid gid
  | .failure reason => .failure reason

/-- The response that ends the greeter's round. -/
def Verdict.response : Verdict → Response
  | .authOk _ _ _ => .success
  | .failure reason => .error .authError (truncateDescription reason)

/-- A login to be run. -/
structure Script where
  service : String
  user : String
  messages : List Msg
  verdict : Verdict
  deriving DecidableEq, Repr

/-- What the greeter is to receive. -/
def Script.responses (d : Script) : List Response :=
  d.messages.map Msg.authMessage ++ [d.verdict.response]

/-- The prompts among `ms`, each with the text of the greeter's answer to it. -/
def promptTexts (ms : List Msg) (answers : List (Option String)) : List (Msg × String) :=
  (ms.zip answers).filterMap fun (m, r) => if m.isPrompt then some (m, r.getD "") else none

/-! ## The system -/

/-- Decoders of the greetd messages, known to read back what the encoders write. -/
structure Decoders where
  request : List UInt8 → Option Request
  response : List UInt8 → Option Response
  request_toVec : ∀ m, request m.toVec = some m
  response_toVec : ∀ m, response m.toVec = some m

/-- The readers of compact JSON. -/
def Decoders.compact : Decoders :=
  ⟨readRequest, readResponse, readRequest_toVec, readResponse_toVec⟩

/-- The state of the system. -/
structure Dialogue where
  link : Link
  /-- The worker: messages and verdict it has not sent, the prompt it blocks at, the texts its
  prompts got. -/
  unsent : List Msg
  verdict : Option Verdict
  blocked : Option Msg
  texts : List (Msg × String)
  /-- The greeter: whether it wrote its `CreateSession`, what it wrote and the compositor has not
  read, what the compositor wrote and it has not read, what it read, what it answered. -/
  created : Bool
  wire : List UInt8
  inbox : List UInt8
  received : List Response
  answers : List (Option String)
  deriving DecidableEq, Repr

/-- Before the first step. -/
def Dialogue.new (d : Script) : Dialogue :=
  ⟨Link.new d.service, d.messages, some d.verdict, none, [], false, [], [], [], []⟩

/-- The steps of the parties. -/
inductive Move where
  /-- The greeter writes its `CreateSession`. -/
  | create
  /-- The compositor reads the next `n + 1` bytes of the greeter, or what there is of them. -/
  | readGreeter (n : Nat)
  /-- The compositor's broker channel is readable. -/
  | readBroker
  /-- The broker reads the first frame. -/
  | accept
  | workerReadable
  | greeterReadable
  /-- The worker sends its next message, or its verdict. -/
  | workerSends
  /-- The blocked worker reads an answer. -/
  | workerReceives
  /-- The greeter reads a response, and answers an `AuthMessage` with `answer`. -/
  | greeterReads (answer : Option String)
  deriving DecidableEq, Repr

/-- What a step can be blamed for. -/
inductive Incident where
  | episode (e : EpisodeEvent)
  | relay (res : Except BrokerError RelayStep)
  deriving DecidableEq

/-- Neither the episode nor the relay failed, and the episode goes on. -/
def Incident.Harmless : Incident → Prop
  | .episode e => e.Calm
  | .relay (.error _) => False
  | .relay (.ok _) => True

/-- The state and the incidents after a call of the episode. -/
def Dialogue.called (s : Dialogue) (link : Link) (a : Acted) : Dialogue × List Incident :=
  ({ s with link := link, inbox := s.inbox ++ a.out.greeterReply },
    (a.events ++ [EpisodeEvent.outcome a.out]).map Incident.episode)

/-- One step, in a world where every datagram the codec takes is delivered. -/
def Dialogue.step (dec : Decoders) (isFile : String → Bool) (d : Script) (s : Dialogue) :
    Move → Dialogue × List Incident
  | .create =>
    match s.created, (Request.createSession d.user).encode with
    | false, .ok bytes => ({ s with created := true, wire := s.wire ++ bytes }, [])
    | _, _ => (s, [])
  | .readGreeter n =>
    if s.wire = [] then (s, [])
    else
      let chunk := s.wire.take (n + 1)
      let s' := { s with wire := s.wire.drop (n + 1) }
      s'.called (s.link.feed dec.request ⟨isFile, true⟩ chunk)
        (s.link.feeding dec.request ⟨isFile, true⟩ chunk)
  | .readBroker =>
    s.called (s.link.deliver dec.request ⟨isFile, true⟩)
      (s.link.delivering dec.request ⟨isFile, true⟩)
  | .accept => ({ s with link := s.link.accept true }, [])
  | .workerReadable =>
    ({ s with link := s.link.workerReadable (.ok ()) },
      (s.link.workerStep (.ok ())).toList.map fun st => .relay st.res)
  | .greeterReadable =>
    ({ s with link := s.link.greeterReadable (.ok ()) },
      (s.link.greeterStep (.ok ())).toList.map fun (_, _, st) => .relay st.res)
  | .workerSends =>
    if s.blocked = none ∧ s.link.broker ≠ .waiting then
      match s.unsent, s.verdict with
      | m :: rest, _ =>
        if Fits m.frame.toVec then
          ({ s with link := { s.link with
                      fromWorker := s.link.fromWorker ++ [(.conv m.frame, none)] },
                    unsent := rest,
                    blocked := if m.isPrompt then some m else none }, [])
        else (s, [])
      | [], some v =>
        if Fits v.outcome.toVec then
          ({ s with link := { s.link with
                      fromWorker := s.link.fromWorker ++ [(.outcome v.outcome, none)] },
                    verdict := none }, [])
        else (s, [])
      | [], none => (s, [])
    else (s, [])
  | .workerReceives =>
    match s.blocked, s.link.toWorker with
    | some m, .convResponse text :: rest =>
      ({ s with link := { s.link with toWorker := rest }, blocked := none,
                texts := s.texts ++ [(m, text)] }, [])
    | _, _ => (s, [])
  | .greeterReads answer =>
    match Greetd.tryDecode dec.response s.inbox with
    | .ok (some (.authMessage kind prompt, n)) =>
      match (Request.postAuthMessageResponse answer).encode with
      | .ok bytes =>
        ({ s with inbox := s.inbox.drop n, wire := s.wire ++ bytes,
                  received := s.received ++ [.authMessage kind prompt],
                  answers := s.answers ++ [answer] }, [])
      | .error _ => (s, [])
    | .ok (some (r, n)) =>
      ({ s with inbox := s.inbox.drop n, received := s.received ++ [r] }, [])
    | _ => (s, [])

end Halmasuit.Protocol
