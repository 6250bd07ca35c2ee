import Halmasuit.Greetd.Wire

/-!
# The greetd session state machine

`halmasuit-greetd/src/lib.rs` 122–457: `SessionState` with `on_request` and `on_pam_result`, the
sans-IO brain of the greetd protocol. A request that needs PAM suspends the machine in
`AuthPending` with `Action::Pam`; `on_pam_result` resumes it.

- `onRequest_cases`: every way a request can be accepted, guards included (each later fact about
  the machine reads this and never the match again);
- `onPamResult_spec`: what a resumed round does to a suspended machine;
- `truncateDescription_length`: a PAM reason is capped well below what the codec refuses.
-/

namespace Halmasuit.Greetd

open Halmasuit.Lib

/-- `SessionState`. -/
inductive SessionState where
  | idle
  | authPending (username : String)
  | authenticating (username : String)
  | authSuccess (username : String) (uid gid : UInt32)
  | spawning (username : String) (uid gid : UInt32) (cmd env : List String)
  deriving DecidableEq, Repr

/-- `PamStep`: the outcome of one PAM round, fed back into the suspended machine. -/
inductive PamStep where
  | challenge (kind : AuthMessageType) (prompt : String)
  | success (username : String) (uid gid : UInt32)
  | failure (reason : String)
  deriving DecidableEq, Repr

/-- `server::SpawnRequest`. -/
structure SpawnRequest where
  username : String
  uid : UInt32
  gid : UInt32
  cmd : List String
  env : List String
  deriving DecidableEq, Repr

/-- `Action`: what the I/O layer must do for an accepted request. -/
inductive Action where
  | reply (r : Response)
  | pam (response : Option String)
  | spawn (s : SpawnRequest)
  deriving DecidableEq, Repr

/-- `StateMachineError`. -/
inductive StateMachineError where
  | startBeforeAuth
  | responseWithoutPendingChallenge
  | doubleCreate
  | cancelWithoutSession
  deriving DecidableEq, Repr

/-- The `#[error]` texts of `StateMachineError`. -/
def StateMachineError.text : StateMachineError → String
  | .startBeforeAuth => "start_session received before PAM success"
  | .responseWithoutPendingChallenge =>
    "post_auth_message_response received without pending challenge"
  | .doubleCreate => "create_session received with a session already in flight"
  | .cancelWithoutSession => "cancel_session received with no session in flight"

/-- `StateMachineError::to_response`. -/
def StateMachineError.toResponse (e : StateMachineError) : Response := .error .error e.text

/-- `SessionState::on_request`. The state after an accepted request comes with the action; a
refused request leaves the state as it was, so there is none to return. -/
def SessionState.onRequest : SessionState → Request →
    Except StateMachineError (Action × SessionState)
  | .idle, .createSession username => .ok (.pam none, .authPending username)
  | .idle, .startSession _ _ => .error .startBeforeAuth
  | .idle, .postAuthMessageResponse _ => .error .responseWithoutPendingChallenge
  | .idle, .cancelSession => .error .cancelWithoutSession
  | .authPending _, .cancelSession => .ok (.reply .success, .idle)
  | .authPending _, .createSession _ => .error .doubleCreate
  | .authPending _, .startSession _ _ => .error .startBeforeAuth
  | .authPending _, .postAuthMessageResponse _ => .error .responseWithoutPendingChallenge
  | .authenticating username, .postAuthMessageResponse response =>
    .ok (.pam response, .authPending username)
  | .authenticating _, .cancelSession => .ok (.reply .success, .idle)
  | .authenticating _, .createSession _ => .error .doubleCreate
  | .authenticating _, .startSession _ _ => .error .startBeforeAuth
  | .authSuccess username uid gid, .startSession cmd env =>
    .ok (.spawn ⟨username, uid, gid, cmd, env⟩, .spawning username uid gid cmd env)
  | .authSuccess _ _ _, .cancelSession => .ok (.reply .success, .idle)
  | .authSuccess _ _ _, .createSession _ => .error .doubleCreate
  | .authSuccess _ _ _, .postAuthMessageResponse _ => .error .responseWithoutPendingChallenge
  | .spawning _ _ _ _ _, _ => .error .doubleCreate

/-- `MAX_ERROR_DESCRIPTION`, 4 KiB. -/
def maxErrorDescription : Nat := 4 * 1024

/-- `str::is_char_boundary`: a byte offset that does not fall inside a character. -/
def isCharBoundary : List Char → Nat → Bool
  | _, 0 => true
  | [], _ + 1 => false
  | c :: cs, n + 1 => c.utf8Size ≤ n + 1 && isCharBoundary cs (n + 1 - c.utf8Size)

/-- `String::truncate` at a character boundary. -/
def truncate : List Char → Nat → List Char
  | _, 0 => []
  | [], _ + 1 => []
  | c :: cs, n + 1 => if c.utf8Size ≤ n + 1 then c :: truncate cs (n + 1 - c.utf8Size) else []

/-- The `while !reason.is_char_boundary(cut) { cut -= 1 }` loop; offset 0 is a boundary. -/
def cutAt (cs : List Char) : Nat → Nat
  | 0 => 0
  | cut + 1 => if isCharBoundary cs (cut + 1) then cut + 1 else cutAt cs cut

/-- `truncate_description`. -/
def truncateDescription (reason : String) : String :=
  if (Json.utf8 reason).length ≤ maxErrorDescription then reason
  else String.ofList (truncate reason.toList (cutAt reason.toList maxErrorDescription))
    ++ " [truncated]"

/-- `SessionState::on_pam_result`: the state after the round and the response to the greeter. -/
def SessionState.onPamResult : SessionState → PamStep → SessionState × Response
  | .authPending username, .challenge kind prompt =>
    (.authenticating username, .authMessage kind prompt)
  | .authPending _, .success resolved uid gid => (.authSuccess resolved uid gid, .success)
  | .authPending _, .failure reason => (.idle, .error .authError (truncateDescription reason))
  | .idle, _ | .authenticating _, _ | .authSuccess _ _ _, _ | .spawning _ _ _ _ _, _ =>
    (.idle, .error .error "pam result fed while not awaiting a PAM round")

/-! ## What a request can do -/

/-- Every accepted request, with the states it leads from and to. -/
theorem onRequest_cases {s s' : SessionState} {req : Request} {a : Action}
    (h : s.onRequest req = .ok (a, s')) :
    (∃ u, s = .idle ∧ req = .createSession u ∧ a = .pam none ∧ s' = .authPending u) ∨
    (∃ u r, s = .authenticating u ∧ req = .postAuthMessageResponse r ∧ a = .pam r ∧
      s' = .authPending u) ∨
    (∃ n u g cmd env, s = .authSuccess n u g ∧ req = .startSession cmd env ∧
      a = .spawn ⟨n, u, g, cmd, env⟩ ∧ s' = .spawning n u g cmd env) ∨
    (req = .cancelSession ∧ a = .reply .success ∧ s' = .idle ∧
      ((∃ u, s = .authPending u) ∨ (∃ u, s = .authenticating u) ∨
        ∃ n u g, s = .authSuccess n u g)) := by
  cases s <;> cases req <;> simp only [SessionState.onRequest] at h <;> cases h <;> simp

/-- The requests that suspend the connection are the first one and an answer to a challenge. -/
theorem onRequest_pam {s s' : SessionState} {req : Request} {response : Option String}
    (h : s.onRequest req = .ok (.pam response, s')) :
    ∃ u, s' = .authPending u ∧
      ((s = .idle ∧ req = .createSession u ∧ response = none) ∨
        (s = .authenticating u ∧ req = .postAuthMessageResponse response)) := by
  rcases onRequest_cases h with ⟨u, hs, hreq, ha, hs'⟩ | ⟨u, r, hs, hreq, ha, hs'⟩ |
    ⟨n, u, g, cmd, env, -, -, ha, -⟩ | ⟨-, ha, -, -⟩
  · cases ha
    exact ⟨u, hs', .inl ⟨hs, hreq, rfl⟩⟩
  · cases ha
    exact ⟨u, hs', .inr ⟨hs, hreq⟩⟩
  · cases ha
  · cases ha

/-- The request that demands a session comes after the success, and is for its account. -/
theorem onRequest_spawn {s s' : SessionState} {req : Request} {spawn : SpawnRequest}
    (h : s.onRequest req = .ok (.spawn spawn, s')) :
    s = .authSuccess spawn.username spawn.uid spawn.gid ∧
      req = .startSession spawn.cmd spawn.env ∧
      s' = .spawning spawn.username spawn.uid spawn.gid spawn.cmd spawn.env := by
  rcases onRequest_cases h with ⟨u, -, -, ha, -⟩ | ⟨u, r, -, -, ha, -⟩ |
    ⟨n, u, g, cmd, env, hs, hreq, ha, hs'⟩ | ⟨-, ha, -, -⟩
  · cases ha
  · cases ha
  · cases ha
    exact ⟨hs, hreq, hs'⟩
  · cases ha

/-- The only request with a reply of its own is the cancel. -/
theorem onRequest_reply {s s' : SessionState} {req : Request} {r : Response}
    (h : s.onRequest req = .ok (.reply r, s')) :
    req = .cancelSession ∧ r = .success ∧ s' = .idle := by
  rcases onRequest_cases h with ⟨u, -, -, ha, -⟩ | ⟨u, r', -, -, ha, -⟩ |
    ⟨n, u, g, cmd, env, -, -, ha, -⟩ | ⟨hreq, ha, hs', -⟩
  · cases ha
  · cases ha
  · cases ha
  · cases ha
    exact ⟨hreq, rfl, hs'⟩

/-- What a resumed round does to a suspended machine. -/
theorem onPamResult_spec (u : String) (step : PamStep) :
    (SessionState.authPending u).onPamResult step =
      match step with
      | .challenge kind prompt => (.authenticating u, .authMessage kind prompt)
      | .success n uid gid => (.authSuccess n uid gid, .success)
      | .failure reason => (.idle, .error .authError (truncateDescription reason)) := by
  cases step <;> rfl

/-! ## The cap on a PAM reason -/

theorem cutAt_le (cs : List Char) : ∀ cut, cutAt cs cut ≤ cut
  | 0 => by simp [cutAt]
  | cut + 1 => by
    have ih := cutAt_le cs cut
    unfold cutAt
    split <;> omega

theorem length_truncate (cs : List Char) (n : Nat) :
    ((truncate cs n).flatMap String.utf8EncodeChar).length ≤ n := by
  fun_induction truncate cs n with
  | case1 => simp
  | case2 => simp
  | case3 c cs n h ih =>
    simp only [List.flatMap_cons, List.length_append, String.length_utf8EncodeChar]
    omega
  | case4 => simp

/-- **A PAM reason is capped.** What `on_pam_result` puts in an error description is at most
`MAX_ERROR_DESCRIPTION` bytes and the marker. -/
theorem truncateDescription_length (reason : String) :
    (Json.utf8 (truncateDescription reason)).length ≤ maxErrorDescription + 12 := by
  unfold truncateDescription
  split
  · omega
  · have hcut := cutAt_le reason.toList maxErrorDescription
    have htr := length_truncate reason.toList (cutAt reason.toList maxErrorDescription)
    have hmark : (Json.utf8 " [truncated]").length = 12 := by decide
    rw [Json.utf8_append, List.length_append, Json.utf8_ofList, hmark]
    omega

/-- A state-machine error always encodes. -/
theorem StateMachineError.encode_isOk (e : StateMachineError) :
    ∃ bs, e.toResponse.encode = .ok bs :=
  Response.encode_error_isOk _ _ (by cases e <;> decide)

/-- The response to a PAM failure always encodes. -/
theorem encode_failure_isOk (reason : String) :
    ∃ bs, (Response.error .authError (truncateDescription reason)).encode = .ok bs := by
  refine Response.encode_error_isOk _ _ ?_
  have h := truncateDescription_length reason
  have : maxErrorDescription = 4096 := by decide
  omega

end Halmasuit.Greetd
