import Halmasuit.Lib.Emit
import Halmasuit.Broker.Relay

/-!
# The session worker

`halmasuit-session/src/session.rs` 44–191, with the parts of `auth.rs`, `session_leader.rs`,
`responder.rs` and `pam_ffi.rs` it calls, and `spawn_session_worker` (`worker.rs` 541–554): one PAM
handle from `pam_start` to `pam_end`, and the session leader forked in between. Every step leaves
with `?`, which is the bind of `Emit`.

`World` has the answer of everything outside: libpam, with the conversation each of its calls holds,
the channel, the passwd and group databases, `fork` and `waitpid`. An `Act` is a call made, or a
frame that crossed the channel.
-/

namespace Halmasuit.Session

open Halmasuit.Lib
open Halmasuit.SessionIpc
open Halmasuit.Broker (ParentMessage WorkerOutcome TransportError send)

/-! ## Errors -/

/-- `PamError`, as `run_session` can meet it. -/
inductive PamError where
  | start (status : Int32)
  | authenticate (status : Int32)
  | acctMgmt (status : Int32)
  | getUser (status : Int32)
  | setCred (status : Int32)
  | openSession (status : Int32)
  | closeSession (status : Int32)
  | putEnv (status : Int32)
  | getEnv
  | nul
  deriving DecidableEq, Repr

/-- `AuthError`. -/
inductive AuthError where
  | pam (e : PamError)
  | accountLookup
  deriving DecidableEq, Repr

/-- `SpecError`. The texts of `PwentMismatch` and `Groups` are left out. -/
inductive SpecError where
  | uidFloor (uid : UInt32)
  | gidFloor (gid : UInt32)
  | badId (id : UInt32)
  | pwentMismatch
  | relativeCommand
  | emptyCommand
  | groups
  deriving DecidableEq, Repr

/-- `SessionError`. -/
inductive SessionError where
  | pam (e : PamError)
  | auth (e : AuthError)
  | spec (e : SpecError)
  | transport (e : TransportError)
  | io
  | aborted
  | unexpectedFrame
  deriving DecidableEq, Repr

/-! ## The world -/

/-- One message of a PAM conversation, as `ChannelResponder` relays it. `sent` says whether the
frame went out, `reply` what the channel gave for a prompt. -/
inductive Conversed where
  | prompt (style : PromptStyle) (message : String) (sent : Bool)
      (reply : Option CompositorToBroker)
  | display (style : DisplayStyle) (message : String) (sent : Bool)
  deriving DecidableEq, Repr

/-- A libpam call: the conversation it held and its status. -/
structure PamCall where
  convs : List Conversed
  status : Int32
  deriving DecidableEq, Repr

/-- `PAM_SUCCESS`. -/
def pamSuccess : Int32 := 0

/-- `WaitStatus` of a leader that terminated. -/
inductive WaitStatus where
  | exited (code : Int32)
  | signaled (signal : Int32)
  | other
  deriving DecidableEq, Repr

/-- `SessionSpec`. -/
structure SessionSpec where
  username : String
  uid : UInt32
  gid : UInt32
  cmd : List String
  env : List (String × String)
  deriving DecidableEq, Repr

abbrev Pid : Type := UInt32

/-- What the worker's calls give. `resolves`, `checks` and `lists` are three lookups in the passwd
database, the uid and gid of a name. -/
structure World where
  start : Int32
  authenticate : PamCall
  acctMgmt : PamCall
  getUser : Except Int32 String
  resolves : String → Option (UInt32 × UInt32)
  setCred : PamCall
  sendAuthOk : Except TransportError Unit
  recvSpec : Except TransportError CompositorToBroker
  putEnv : String → Int32
  openSession : PamCall
  getEnvList : Option (List (String × String))
  checks : String → Option (UInt32 × UInt32)
  lists : String → Option (UInt32 × UInt32)
  getGroupList : String → UInt32 → Option (List UInt32)
  spawnLeader : SessionSpec → List UInt32 → Option Pid
  sendOpened : Except TransportError Unit
  wait : Option WaitStatus
  closeSession : PamCall
  setCredDeleted : PamCall
  sendEnded : Except TransportError Unit

/-- What the worker does. -/
inductive Act where
  | pamStart
  | setCredEstablished (ok : Bool)
  | openSession (ok : Bool)
  | closeSession (ok : Bool)
  | setCredDeleted (ok : Bool)
  | pamEnd
  | spawned (leader : Pid)
  | waited (leader : Pid)
  /-- A frame went out on the channel. -/
  | sent (frame : ParentMessage)
  /-- A frame was read from the channel. -/
  | received (frame : CompositorToBroker)
  deriving DecidableEq, Repr

/-- A step of the worker. -/
abbrev Work : Type → Type := Emit Act SessionError

/-! ## The steps -/

/-- A string argument with an interior NUL is no C string. -/
def hasNul (s : String) : Bool := s.toList.contains (Char.ofNat 0)

/-- The frames of one message of a conversation. -/
def Conversed.acts : Conversed → List Act
  | .prompt _ _ false _ => []
  | .prompt style message true reply =>
    .sent (.conv (.convPrompt style message)) :: (reply.map Act.received).toList
  | .display _ _ false => []
  | .display style message true => [.sent (.conv (.convDisplay style message))]

/-- The frames of a libpam call. -/
def PamCall.acts (c : PamCall) : List Act := c.convs.flatMap Conversed.acts

def PamCall.ok (c : PamCall) : Bool := c.status == pamSuccess

/-- A libpam call that is no bracket. -/
def pamStep (c : PamCall) (e : Int32 → SessionError) : Work Unit :=
  ⟨c.acts, if c.ok then .ok () else .error (e c.status)⟩

/-- A libpam call that opens or closes something. -/
def pamBracket (c : PamCall) (act : Bool → Act) (e : Int32 → SessionError) : Work Unit :=
  ⟨c.acts ++ [act c.ok], if c.ok then .ok () else .error (e c.status)⟩

/-- `SeqpacketChannel::send` and `send_frame_with_fd` of an outcome. -/
def sendOutcome (kernel : Except TransportError Unit) (o : WorkerOutcome) : Work Unit :=
  match send kernel o.toVec with
  | .ok () => ⟨[.sent (.outcome o)], .ok ()⟩
  | .error e => .fail (.transport e)

/-- `ResolvedIdentity`. -/
structure ResolvedIdentity where
  username : String
  uid : UInt32
  gid : UInt32
  deriving DecidableEq, Repr

/-- `run_auth_phase`, with `resolve_identity`. -/
def runAuthPhase (w : World) : Work ResolvedIdentity := do
  pamStep w.authenticate fun status => .auth (.pam (.authenticate status))
  pamStep w.acctMgmt fun status => .auth (.pam (.acctMgmt status))
  match w.getUser with
  | .error status => .fail (.auth (.pam (.getUser status)))
  | .ok resolved =>
    match w.resolves resolved with
    | none => .fail (.auth .accountLookup)
    | some (uid, gid) => pure ⟨resolved, uid, gid⟩

/-- `pam.putenv` of every entry. -/
def putEnvs (w : World) : List (String × String) → Work Unit
  | [] => pure ()
  | (k, v) :: env =>
    let entry := k ++ "=" ++ v
    if hasNul entry then .fail (.pam .nul)
    else if w.putEnv entry = pamSuccess then putEnvs w env
    else .fail (.pam (.putEnv (w.putEnv entry)))

/-- `putenv` is silent. -/
theorem putEnvs_events (w : World) (env : List (String × String)) :
    (putEnvs w env).events = [] := by
  induction env with
  | nil => rfl
  | cons kv env ih =>
    unfold putEnvs
    dsimp only
    split
    · rfl
    · split
      · exact ih
      · rfl

/-- Reading the session spec from the channel and pushing its environment into the handle. -/
def readSpec (w : World) : Work (List String) := do
  match w.recvSpec with
  | .error e => .fail (.transport e)
  | .ok frame =>
    .tell (.received frame)
    match frame with
    | .startSession cmd env =>
      putEnvs w env
      pure cmd
    | .cancel => .fail .aborted
    | _ => .fail .unexpectedFrame

/-- `UID_MIN`. -/
def uidMin : UInt32 := 1000

/-- `ENV_ALLOWLIST`. -/
def envAllowlist : List String :=
  ["XDG_RUNTIME_DIR", "PATH", "LANG", "HOME", "USER", "LOGNAME", "SHELL", "XCURSOR_THEME",
    "XCURSOR_SIZE"]

/-- `is_env_allowed`. -/
def isEnvAllowed (key : String) : Bool := envAllowlist.contains key || key.startsWith "LC_"

/-- `sanitize_env`. -/
def sanitizeEnv (env : List (String × String)) : List (String × String) :=
  env.filter fun (k, _) => isEnvAllowed k

/-- `session_leader::validate`; `lookup` is the passwd database. -/
def validate (lookup : String → Option (UInt32 × UInt32)) (id : ResolvedIdentity)
    (cmd : List String) (env : List (String × String)) : Except SpecError SessionSpec :=
  if id.uid = 4294967295 then .error (.badId id.uid)
  else if id.gid = 4294967295 then .error (.badId id.gid)
  else if id.uid < uidMin then .error (.uidFloor id.uid)
  else if id.gid < uidMin then .error (.gidFloor id.gid)
  else
    match cmd.head? with
    | none => .error .emptyCommand
    | some first =>
      if !first.startsWith "/" then .error .relativeCommand
      else
        match lookup id.username with
        | none => .error .pwentMismatch
        | some (uid, gid) =>
          if uid ≠ id.uid then .error .pwentMismatch
          else if gid ≠ id.gid then .error .pwentMismatch
          else .ok ⟨id.username, id.uid, id.gid, cmd, sanitizeEnv env⟩

/-- `dedup_push`. -/
def dedupPush (out : List UInt32) (g : UInt32) : List UInt32 := if g ∈ out then out else out ++ [g]

/-- `session_leader::user_groups`. -/
def userGroups (w : World) (username : String) (primaryGid : UInt32) :
    Except SpecError (List UInt32) :=
  match w.lists username with
  | none => .error .pwentMismatch
  | some _ =>
    if hasNul username then .error .groups
    else
      match w.getGroupList username primaryGid with
      | none => .error .groups
      | some base => .ok (base.foldl dedupPush (dedupPush [] primaryGid))

/-- The frame of a leader that terminated. -/
def WaitStatus.outcome : WaitStatus → SessionOutcome
  | .exited c => .exited c
  | .signaled s => .signaled s
  | .other => .exited (-1)

/-- `run_session` from the fork of the leader to its end. -/
def runLeader (w : World) (id : ResolvedIdentity) (spec : SessionSpec) (groups : List UInt32) :
    Work WaitStatus := do
  match w.spawnLeader spec groups with
  | none => .fail .io
  | some leader =>
    .tell (.spawned leader)
    sendOutcome w.sendOpened (.sessionOpened id.username id.uid id.gid)
    match w.wait with
    | none => .fail .io
    | some status =>
      .tell (.waited leader)
      pure status

/-- `run_session` from the `AuthOk` to the end of `close_session`. -/
def runLogin (w : World) (id : ResolvedIdentity) : Work WaitStatus := do
  sendOutcome w.sendAuthOk (.authOk id.username id.uid id.gid)
  let cmd ← readSpec w
  pamBracket w.openSession .openSession fun status => .pam (.openSession status)
  let pamEnv ← Emit.lift ((w.getEnvList.map Except.ok).getD (.error (.pam .getEnv)))
  let spec ← Emit.lift ((validate w.checks id cmd pamEnv).mapError SessionError.spec)
  let groups ← Emit.lift ((userGroups w id.username id.gid).mapError SessionError.spec)
  let status ← runLeader w id spec groups
  pamBracket w.closeSession .closeSession fun status => .pam (.closeSession status)
  pure status

/-- `run_session` on the handle. -/
def runHandle (w : World) : Work Unit := do
  let id ← runAuthPhase w
  pamBracket w.setCred .setCredEstablished fun status => .pam (.setCred status)
  let status ← runLogin w id
  pamBracket w.setCredDeleted .setCredDeleted fun status => .pam (.setCred status)
  sendOutcome w.sendEnded (.sessionEnded status.outcome)

/-- `run_session`: the handle is dropped on every way out, which is `pam_end`. -/
def runSession (w : World) (service username : String) : Work Unit :=
  if hasNul service || hasNul username then .fail (.pam .nul)
  else if w.start ≠ pamSuccess then .fail (.pam (.start w.start))
  else ⟨.pamStart :: (runHandle w).events ++ [.pamEnd], (runHandle w).result⟩

/-- The worker of `spawn_session_worker`: an error is reported as a `Failure`, if it can be sent.
`display` is the text of an error. -/
def spawnSessionWorker (w : World) (service username : String) (display : SessionError → String)
    (kernel : Except TransportError Unit) : List Act :=
  match (runSession w service username).result with
  | .ok () => (runSession w service username).events
  | .error e =>
    (runSession w service username).events ++ (sendOutcome kernel (.failure (display e))).events

end Halmasuit.Session
