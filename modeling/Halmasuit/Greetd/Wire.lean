import Halmasuit.Lib.Framing
import Halmasuit.Lib.Json

/-!
# The greetd wire types and codec

`halmasuit-greetd/src/lib.rs`: the request and response types (59–121), their JSON shape, and
the length-prefixed codec (476–551).

`serde_json::to_vec` is written out (`Request.toVec`, `Response.toVec`), since what a message
weighs on the wire decides whether `encode` takes it. `serde_json::from_slice` is third-party
code with a much larger language than the messages written here: every function that decodes
takes it as a parameter `fromSlice`, and a result that needs more of it than its type names the
law it needs. `readRequest` and `readResponse` are one reader each that meets that law.

- `readRequest_toVec`, `readResponse_toVec`: the readers take back what `to_vec` writes;
- `Response.length_toVec_authMessage`: the weight of an `AuthMessage` in its text.
-/

namespace Halmasuit.Greetd

open Halmasuit.Lib
open Halmasuit.Lib.Framing (CodecError)

/-- `Request`: greeter → daemon. -/
inductive Request where
  | createSession (username : String)
  | postAuthMessageResponse (response : Option String)
  | startSession (cmd env : List String)
  | cancelSession
  deriving DecidableEq, Repr

/-- `ErrorType`. -/
inductive ErrorType where
  | error
  | authError
  deriving DecidableEq, Repr

/-- `AuthMessageType`. -/
inductive AuthMessageType where
  | visible
  | secret
  | info
  | error
  deriving DecidableEq, Repr

/-- `Response`: daemon → greeter. -/
inductive Response where
  | success
  | error (errorType : ErrorType) (description : String)
  | authMessage (authMessageType : AuthMessageType) (authMessage : String)
  deriving DecidableEq, Repr

/-! ## JSON shape -/

/-- The `snake_case` names of `ErrorType`. -/
def ErrorType.name : ErrorType → String
  | .error => "error"
  | .authError => "auth_error"

/-- The `snake_case` names of `AuthMessageType`. -/
def AuthMessageType.name : AuthMessageType → String
  | .visible => "visible"
  | .secret => "secret"
  | .info => "info"
  | .error => "error"

/-- `serde_json::to_vec` of a request: an object tagged by `type`, members in field order. -/
def Request.toVec : Request → List UInt8
  | .createSession username =>
    Json.object [("type", Json.string "create_session"), ("username", Json.string username)]
  | .postAuthMessageResponse response =>
    Json.object [("type", Json.string "post_auth_message_response"),
      ("response", response.elim Json.null Json.string)]
  | .startSession cmd env =>
    Json.object [("type", Json.string "start_session"), ("cmd", Json.array (cmd.map Json.string)),
      ("env", Json.array (env.map Json.string))]
  | .cancelSession => Json.object [("type", Json.string "cancel_session")]

/-- `serde_json::to_vec` of a response. -/
def Response.toVec : Response → List UInt8
  | .success => Json.object [("type", Json.string "success")]
  | .error errorType description =>
    Json.object [("type", Json.string "error"), ("error_type", Json.string errorType.name),
      ("description", Json.string description)]
  | .authMessage kind text =>
    Json.object [("type", Json.string "auth_message"),
      ("auth_message_type", Json.string kind.name), ("auth_message", Json.string text)]

/-! ## Codec -/

/-- `MAX_MESSAGE_SIZE`, 1 MiB. -/
def maxMessageSize : Nat := 1024 * 1024

/-- `encode` of a request, the greeter's side of the wire. -/
def Request.encode (m : Request) : Except CodecError (List UInt8) :=
  Framing.encode maxMessageSize m.toVec

/-- `encode` of a response. -/
def Response.encode (m : Response) : Except CodecError (List UInt8) :=
  Framing.encode maxMessageSize m.toVec

/-- `try_decode`, over the deserialiser `from_slice`. -/
def tryDecode {α : Type} (fromSlice : List UInt8 → Option α) (buf : List UInt8) :
    Except CodecError (Option (α × Nat)) :=
  Framing.tryDecode maxMessageSize fromSlice buf

theorem Response.length_toVec_error (t : ErrorType) (d : String) :
    (Response.error t d).toVec.length ≤ 57 + (Json.string d).length := by
  have h1 : (Json.string "type").length = 6 := by decide
  have h2 : (Json.string "error").length = 7 := by decide
  have h3 : (Json.string "error_type").length = 12 := by decide
  have h4 : (Json.string "description").length = 13 := by decide
  have h5 : (Json.string t.name).length ≤ 12 := by cases t <;> decide
  simp only [toVec, Json.object, List.map_cons, List.map_nil, Json.commaSep, Json.member,
    List.length_cons, List.length_append, List.length_nil, h1, h2, h3, h4]
  omega

/-- What an `AuthMessage` weighs: its text as a JSON string and at most a hundred bytes more. -/
theorem Response.length_toVec_authMessage (k : AuthMessageType) (p : String) :
    (Response.authMessage k p).toVec.length
      = 60 + (Json.string k.name).length + (Json.string p).length := by
  have h1 : (Json.string "type").length = 6 := by decide
  have h2 : (Json.string "auth_message").length = 14 := by decide
  have h3 : (Json.string "auth_message_type").length = 19 := by decide
  simp only [toVec, Json.object, List.map_cons, List.map_nil, Json.commaSep, Json.member,
    List.length_cons, List.length_append, List.length_nil, h1, h2, h3]
  omega

/-- A message within `MAX_MESSAGE_SIZE` is framed. -/
theorem Response.encode_of_le {m : Response} (h : m.toVec.length ≤ maxMessageSize) :
    m.encode = .ok (Framing.toLeBytes m.toVec.length ++ m.toVec) :=
  Framing.encode_of_le _ (by decide) h

/-- A message over `MAX_MESSAGE_SIZE` is not. -/
theorem Response.encode_of_gt {m : Response} (h : maxMessageSize < m.toVec.length) :
    ∃ e, m.encode = .error e := by
  cases henc : m.encode with
  | error e => exact ⟨e, rfl⟩
  | ok bs =>
    have := ((Framing.encode_isOk_iff maxMessageSize).mp ⟨bs, henc⟩).2
    omega

/-- An error whose description is short is always framed: the fixed texts of the driver, the
state machine's own errors and a capped PAM reason all are. -/
theorem Response.encode_error_isOk (t : ErrorType) (d : String)
    (h : (Json.utf8 d).length ≤ 4200) : ∃ bs, (Response.error t d).encode = .ok bs := by
  refine ⟨_, encode_of_le ?_⟩
  have h1 := Response.length_toVec_error t d
  have h2 := Json.length_escape_le (Json.utf8 d)
  rw [Json.length_string] at h1
  have : maxMessageSize = 1048576 := by decide
  omega

theorem Response.encode_success_isOk : ∃ bs, Response.success.encode = .ok bs :=
  ⟨_, encode_of_le (by decide)⟩

/-! ## Readers of the compact form -/

/-- A reader run to the end of a body. -/
def whole {α : Type} (p : Json.Reader α) (bs : List UInt8) : Option α :=
  match p bs with
  | some (a, []) => some a
  | _ => none

/-- The closing brace after the last member. -/
def closed {α : Type} (p : Json.Reader α) : Json.Reader α := fun bs =>
  match p bs with
  | some (a, 0x7d :: rest) => some (a, rest)
  | _ => none

/-- A string or `null`. -/
def readOptString : Json.Reader (Option String) := fun bs =>
  match Json.lit Json.null bs with
  | some ((), rest) => some (none, rest)
  | none => (Json.readString bs).map fun r => (some r.1, r.2)

/-- One request, by its tag. -/
def readRequestBody : Json.Reader Request := fun bs =>
  match Json.field 0x7b "type" Json.readString bs with
  | none => none
  | some (tag, rest) =>
    if tag = "create_session" then
      (closed (Json.field 0x2c "username" Json.readString) rest).map fun r =>
        (.createSession r.1, r.2)
    else if tag = "post_auth_message_response" then
      (closed (Json.field 0x2c "response" readOptString) rest).map fun r =>
        (.postAuthMessageResponse r.1, r.2)
    else if tag = "start_session" then
      match Json.field 0x2c "cmd" (Json.readArray Json.readString) rest with
      | none => none
      | some (cmd, rest) =>
        (closed (Json.field 0x2c "env" (Json.readArray Json.readString)) rest).map fun r =>
          (.startSession cmd r.1, r.2)
    else if tag = "cancel_session" then (Json.lit [0x7d] rest).map fun r => (.cancelSession, r.2)
    else none

/-- A reader of the requests `to_vec` writes. -/
def readRequest (bs : List UInt8) : Option Request := whole readRequestBody bs

/-- The error type of a name. -/
def errorTypeOfName (n : String) : Option ErrorType :=
  if n = "error" then some .error else if n = "auth_error" then some .authError else none

/-- The message type of a name. -/
def authMessageTypeOfName (n : String) : Option AuthMessageType :=
  if n = "visible" then some .visible else if n = "secret" then some .secret
  else if n = "info" then some .info else if n = "error" then some .error else none

/-- One response, by its tag. -/
def readResponseBody : Json.Reader Response := fun bs =>
  match Json.field 0x7b "type" Json.readString bs with
  | none => none
  | some (tag, rest) =>
    if tag = "success" then (Json.lit [0x7d] rest).map fun r => (.success, r.2)
    else if tag = "error" then
      match Json.field 0x2c "error_type" Json.readString rest with
      | none => none
      | some (n, rest) =>
        match errorTypeOfName n, closed (Json.field 0x2c "description" Json.readString) rest with
        | some t, some (d, rest) => some (.error t d, rest)
        | _, _ => none
    else if tag = "auth_message" then
      match Json.field 0x2c "auth_message_type" Json.readString rest with
      | none => none
      | some (n, rest) =>
        match authMessageTypeOfName n,
          closed (Json.field 0x2c "auth_message" Json.readString) rest with
        | some k, some (p, rest) => some (.authMessage k p, rest)
        | _, _ => none
    else none

/-- A reader of the responses `to_vec` writes. -/
def readResponse (bs : List UInt8) : Option Response := whole readResponseBody bs

theorem readOptString_elim (r : Option String) (rest : List UInt8) :
    readOptString (r.elim Json.null Json.string ++ rest) = some (r, rest) := by
  cases r with
  | none => simp [readOptString, Json.lit_append]
  | some s =>
    have hlit : Json.lit Json.null (Json.string s ++ rest) = none := by
      simp [Json.lit, Json.null, Json.string]
    simp [readOptString, hlit, Json.readString_string]

theorem closed_member {α : Type} (sep : UInt8) (k : String) (v : List UInt8) (p : Json.Reader α)
    (a : α) (rest : List UInt8) (h : ∀ tl, p (v ++ tl) = some (a, tl)) :
    closed (Json.field sep k p) (sep :: (Json.member k v ++ 0x7d :: rest)) = some (a, rest) := by
  simp [closed, Json.field_member sep k v p a (0x7d :: rest) (h _)]

/-- A string member, read where it stands. -/
theorem field_string (sep : UInt8) (k s : String) (rest : List UInt8) :
    Json.field sep k Json.readString (sep :: (Json.member k (Json.string s) ++ rest))
      = some (s, rest) :=
  Json.field_member sep k _ _ s rest (Json.readString_string s rest)

theorem readArray_strings (ss : List String) (rest : List UInt8) :
    Json.readArray Json.readString (Json.array (ss.map Json.string) ++ rest) = some (ss, rest) :=
  Json.readArray_array Json.readString_string (fun s => ⟨0x22, _, rfl, by decide⟩) ss rest

/-- **The request reader takes back what `to_vec` writes.** -/
theorem readRequest_toVec (m : Request) : readRequest m.toVec = some m := by
  cases m with
  | createSession u =>
    have h := closed_member 0x2c "username" _ _ u [] (Json.readString_string u)
    simp only [readRequest, whole, readRequestBody, Request.toVec, Json.object, List.map_cons,
      List.map_nil, Json.commaSep, List.append_assoc, List.cons_append, field_string, h, if_true]
    rfl
  | postAuthMessageResponse r =>
    have h := closed_member 0x2c "response" _ _ r [] (readOptString_elim r)
    simp only [readRequest, whole, readRequestBody, Request.toVec, Json.object, List.map_cons,
      List.map_nil, Json.commaSep, List.append_assoc, List.cons_append, field_string, h, if_true]
    rfl
  | startSession cmd env =>
    have henv := closed_member 0x2c "env" _ _ env [] (readArray_strings env)
    have hcmd := fun tl => Json.field_member 0x2c "cmd" _ _ cmd tl (readArray_strings cmd tl)
    simp only [readRequest, whole, readRequestBody, Request.toVec, Json.object, List.map_cons,
      List.map_nil, Json.commaSep, List.append_assoc, List.cons_append, field_string, hcmd, henv,
      if_true]
    rfl
  | cancelSession =>
    simp only [readRequest, whole, readRequestBody, Request.toVec, Json.object, List.map_cons,
      List.map_nil, Json.commaSep, field_string]
    rfl

/-- **The response reader takes back what `to_vec` writes.** -/
theorem readResponse_toVec (m : Response) : readResponse m.toVec = some m := by
  cases m with
  | success =>
    simp only [readResponse, whole, readResponseBody, Response.toVec, Json.object, List.map_cons,
      List.map_nil, Json.commaSep, field_string]
    rfl
  | error t d =>
    have h := closed_member 0x2c "description" _ _ d [] (Json.readString_string d)
    have hn : errorTypeOfName t.name = some t := by cases t <;> decide
    simp only [readResponse, whole, readResponseBody, Response.toVec, Json.object, List.map_cons,
      List.map_nil, Json.commaSep, List.append_assoc, List.cons_append, field_string, h, hn,
      if_true]
    rfl
  | authMessage k p =>
    have h := closed_member 0x2c "auth_message" _ _ p [] (Json.readString_string p)
    have hn : authMessageTypeOfName k.name = some k := by cases k <;> decide
    simp only [readResponse, whole, readResponseBody, Response.toVec, Json.object, List.map_cons,
      List.map_nil, Json.commaSep, List.append_assoc, List.cons_append, field_string, h, hn,
      if_true]
    rfl

end Halmasuit.Greetd
