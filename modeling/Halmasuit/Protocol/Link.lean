import Halmasuit.Broker.Relay
import Halmasuit.Compositor.Exchange

/-!
# An episode, a broker connection and a worker

The two machines of one login and the queues between them: the compositor's `BrokerEpisode`, the
broker's `Relay`, and the datagrams in flight on the two `SOCK_SEQPACKET` channels, which deliver in
order. The worker and the greeter are left to the modules that use this one.

Each operation is one callback of one process: `feed` and `deliver` on the compositor's side,
`accept`, `workerReadable` and `greeterReadable` on the broker's. The operations ending in `Failed`
are the same callbacks when the read fails.
-/

namespace Halmasuit.Protocol

open Halmasuit.Greetd (Request)
open Halmasuit.SessionIpc
open Halmasuit.Compositor
open Halmasuit.Broker

/-- The broker's end of a connection: before its first frame, relaying, dropped. -/
inductive BrokerEnd where
  | waiting
  | relaying (relay : Relay)
  | closed
  deriving DecidableEq, Repr

/-- The broker's end after a relay step (`BrokerLoop::step`): a terminal step or an error drops the
connection. -/
def BrokerEnd.after {α : Type} (st : Stepped α) : BrokerEnd :=
  match st.res with
  | .ok .continue => .relaying st.relay
  | .ok (.finished _) => .closed
  | .error _ => .closed

/-- One login between the greeter and the worker. -/
structure Link where
  ep : BrokerEpisode
  toBroker : List CompositorToBroker
  broker : BrokerEnd
  toCompositor : List (BrokerToCompositor × Option Fd)
  fromWorker : List (ParentMessage × Option Fd)
  toWorker : List CompositorToBroker
  deriving DecidableEq, Repr

/-- A fresh episode on a connection the broker accepted. -/
def Link.new (service : String) : Link := ⟨BrokerEpisode.new service, [], .waiting, [], [], []⟩

/-- The link after a call of the episode. -/
def Link.called (l : Link) (a : Acted) : Link :=
  { l with ep := a.ep, toBroker := l.toBroker ++ sentFrames a.events }

/-- The call `feed` makes. -/
def Link.feeding (fromSlice : List UInt8 → Option Request) (l : Link) (env : Env)
    (bytes : List UInt8) : Acted := l.ep.onGreeterBytes fromSlice env bytes

/-- Bytes from the greeter. -/
def Link.feed (fromSlice : List UInt8 → Option Request) (l : Link) (env : Env)
    (bytes : List UInt8) : Link := l.called (l.feeding fromSlice env bytes)

/-- The call `deliver` makes: the oldest datagram, or nothing where there is none. -/
def Link.delivering (fromSlice : List UInt8 → Option Request) (l : Link) (env : Env) : Acted :=
  l.ep.onBrokerReadable fromSlice env (.ok l.toCompositor.head?)

/-- The compositor's broker channel is readable. -/
def Link.deliver (fromSlice : List UInt8 → Option Request) (l : Link) (env : Env) : Link :=
  { l with toCompositor := l.toCompositor.drop 1 }.called (l.delivering fromSlice env)

/-- The compositor's read of the broker channel fails. -/
def Link.deliverFailed (fromSlice : List UInt8 → Option Request) (l : Link) (env : Env)
    (e : WireError) : Link := l.called (l.ep.onBrokerReadable fromSlice env (.error e))

/-- The broker reads the first frame of the connection. `spawned` says whether `AuthSlot::create`
made a worker for it. -/
def Link.accept (l : Link) (spawned : Bool) : Link :=
  match l.broker, l.toBroker with
  | .waiting, .beginAuth _ _ :: rest =>
    { l with toBroker := rest, broker := if spawned then .relaying Relay.new else .closed }
  | .waiting, _ :: rest => { l with toBroker := rest, broker := .closed }
  | _, _ => l

/-- The relay step on the oldest message from the worker. -/
def Link.workerStep (l : Link) (kernel : Except TransportError Unit) :
    Option (Stepped (BrokerToCompositor × Option Fd)) :=
  match l.broker, l.fromWorker with
  | .relaying relay, m :: _ => some (relay.onWorkerReadable (some (.ok m)) kernel)
  | _, _ => none

/-- The worker's channel is readable at the broker. -/
def Link.workerReadable (l : Link) (kernel : Except TransportError Unit) : Link :=
  match l.workerStep kernel with
  | some st =>
    { l with fromWorker := l.fromWorker.drop 1, broker := .after st,
             toCompositor := l.toCompositor ++ st.sent.toList }
  | none => l

/-- The broker's read of the worker's channel fails. -/
def Link.workerFailed (l : Link) (e : TransportError) : Link :=
  match l.broker with
  | .relaying relay =>
    { l with broker := .after (relay.onWorkerReadable (some (.error e)) (.ok ())) }
  | _ => l

/-- The relay step on the oldest frame from the compositor, with the relay and the frame. -/
def Link.greeterStep (l : Link) (kernel : Except TransportError Unit) :
    Option (Relay × CompositorToBroker × Stepped CompositorToBroker) :=
  match l.broker, l.toBroker with
  | .relaying relay, f :: _ => some (relay, f, relay.onGreeterReadable (.ok f) true kernel)
  | _, _ => none

/-- The greeter's channel is readable at the broker. -/
def Link.greeterReadable (l : Link) (kernel : Except TransportError Unit) : Link :=
  match l.greeterStep kernel with
  | some (_, _, st) =>
    { l with toBroker := l.toBroker.drop 1, broker := .after st,
             toWorker := l.toWorker ++ st.sent.toList }
  | none => l

/-- The broker's read of the greeter's channel fails. -/
def Link.greeterFailed (l : Link) (e : TransportError) : Link :=
  match l.broker with
  | .relaying relay =>
    { l with broker := .after (relay.onGreeterReadable (.error e) true (.ok ())) }
  | _ => l

end Halmasuit.Protocol
