import Halmasuit.Lib.Framing
import Halmasuit.Lib.Json

/-!
# The compositor–broker wire contract

`halmasuit-session-ipc/src/lib.rs`: the frames between the compositor and the privileged
`halmasuit-session` broker, their JSON shape, and the codec. `SOCK_SEQPACKET` carries one frame
per datagram, so a channel is a queue of frames; what is left of the codec on the sending side is
whether a frame is within `MAX_MESSAGE_SIZE` (`encode`).

`Secret` wraps a `String` and serialises as one; it is the `String` here.
-/

namespace Halmasuit.SessionIpc

open Halmasuit.Lib
open Halmasuit.Lib.Framing (CodecError)

/-- A file descriptor, passed beside a frame by `SCM_RIGHTS`. -/
abbrev Fd : Type := Nat

/-- `PromptStyle`. -/
inductive PromptStyle where
  | visible
  | secret
  deriving DecidableEq, Repr

/-- `DisplayStyle`. -/
inductive DisplayStyle where
  | info
  | error
  deriving DecidableEq, Repr

/-- `SessionOutcome`. -/
inductive SessionOutcome where
  | exited (code : Int32)
  | signaled (signal : Int32)
  deriving DecidableEq, Repr

/-- `CompositorToBroker`. -/
inductive CompositorToBroker where
  | beginAuth (service username : String)
  | convResponse (response : String)
  | startSession (cmd : List String) (env : List (String × String))
  | cancel
  | requestRootFd
  | spawnGreeter
  deriving DecidableEq, Repr

/-- `BrokerToCompositor`. -/
inductive BrokerToCompositor where
  | convPrompt (style : PromptStyle) (message : String)
  | convDisplay (style : DisplayStyle) (message : String)
  | success (username : String) (uid gid : UInt32)
  | failure (reason : String)
  | sessionOpened
  | sessionEnded (outcome : SessionOutcome)
  | rootFd
  | greeterSpawned (pid : Int32)
  deriving DecidableEq, Repr

/-! ## JSON shape -/

def PromptStyle.name : PromptStyle → String
  | .visible => "visible"
  | .secret => "secret"

def DisplayStyle.name : DisplayStyle → String
  | .info => "info"
  | .error => "error"

/-- `serde_json::to_vec` of a session outcome, an object tagged by `result`. -/
def SessionOutcome.toVec : SessionOutcome → List UInt8
  | .exited code =>
    Json.object [("result", Json.string "exited"), ("code", Json.int code.toInt)]
  | .signaled signal =>
    Json.object [("result", Json.string "signaled"), ("signal", Json.int signal.toInt)]

/-- `serde_json::to_vec` of a compositor frame, an object tagged by `type`. -/
def CompositorToBroker.toVec : CompositorToBroker → List UInt8
  | .beginAuth service username =>
    Json.object [("type", Json.string "begin_auth"), ("service", Json.string service),
      ("username", Json.string username)]
  | .convResponse response =>
    Json.object [("type", Json.string "conv_response"), ("response", Json.string response)]
  | .startSession cmd env =>
    Json.object [("type", Json.string "start_session"), ("cmd", Json.array (cmd.map Json.string)),
      ("env", Json.array (env.map fun kv => Json.array [Json.string kv.1, Json.string kv.2]))]
  | .cancel => Json.object [("type", Json.string "cancel")]
  | .requestRootFd => Json.object [("type", Json.string "request_root_fd")]
  | .spawnGreeter => Json.object [("type", Json.string "spawn_greeter")]

/-- The members `username`, `uid`, `gid` of a frame that carries an identity. -/
def identityMembers (username : String) (uid gid : UInt32) : List (String × List UInt8) :=
  [("username", Json.string username), ("uid", Json.int uid.toNat), ("gid", Json.int gid.toNat)]

/-- `serde_json::to_vec` of a broker frame, an object tagged by `type`. -/
def BrokerToCompositor.toVec : BrokerToCompositor → List UInt8
  | .convPrompt style message =>
    Json.object [("type", Json.string "conv_prompt"), ("style", Json.string style.name),
      ("message", Json.string message)]
  | .convDisplay style message =>
    Json.object [("type", Json.string "conv_display"), ("style", Json.string style.name),
      ("message", Json.string message)]
  | .success username uid gid =>
    Json.object (("type", Json.string "success") :: identityMembers username uid gid)
  | .failure reason =>
    Json.object [("type", Json.string "failure"), ("reason", Json.string reason)]
  | .sessionOpened => Json.object [("type", Json.string "session_opened")]
  | .sessionEnded outcome =>
    Json.object [("type", Json.string "session_ended"), ("outcome", outcome.toVec)]
  | .rootFd => Json.object [("type", Json.string "root_fd")]
  | .greeterSpawned pid =>
    Json.object [("type", Json.string "greeter_spawned"), ("pid", Json.int pid.toInt)]

/-! ## Codec -/

/-- `MAX_MESSAGE_SIZE`, 1 MiB. -/
def maxMessageSize : Nat := 1024 * 1024

/-- `encode` of a serialised frame. -/
def encode (body : List UInt8) : Except CodecError (List UInt8) :=
  Framing.encode maxMessageSize body

/-- `try_decode`, over the deserialiser `from_slice`. -/
def tryDecode {α : Type} (fromSlice : List UInt8 → Option α) (buf : List UInt8) :
    Except CodecError (Option (α × Nat)) :=
  Framing.tryDecode maxMessageSize fromSlice buf

/-- A serialised frame that `encode` takes. -/
def Fits (body : List UInt8) : Prop := body.length ≤ maxMessageSize

instance (body : List UInt8) : Decidable (Fits body) := inferInstanceAs (Decidable (_ ≤ _))

theorem encode_of_fits {body : List UInt8} (h : Fits body) :
    encode body = .ok (Framing.toLeBytes body.length ++ body) :=
  Framing.encode_of_le _ (by decide) h

end Halmasuit.SessionIpc
