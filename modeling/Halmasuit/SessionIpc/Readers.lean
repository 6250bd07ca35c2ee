import Halmasuit.Greetd.Wire
import Halmasuit.SessionIpc.Wire

/-!
# Readers of the session frames

A reader of the compact form for each message type of `halmasuit-session-ipc`, by its tag. The
deserialiser of the source takes more layouts; on what `to_vec` writes it gives the same values.

- `readBroker_toVec`, `readCompositor_toVec`: a reader takes back what `to_vec` writes;
- `readBroker_tag`, `readCompositor_tag`: and refuses a tag that is none of its own.
-/

namespace Halmasuit.SessionIpc

open Halmasuit.Lib
open Halmasuit.Greetd (whole closed field_string closed_member readArray_strings)

/-! ## Members -/

/-- An integer of 32 bits, unsigned. -/
def readU32 : Json.Reader UInt32 := fun bs =>
  match Json.readInt bs with
  | some (n, rest) => if 0 ≤ n ∧ n < 4294967296 then some (UInt32.ofNat n.toNat, rest) else none
  | none => none

/-- An integer of 32 bits, signed. -/
def readI32 : Json.Reader Int32 := fun bs =>
  match Json.readInt bs with
  | some (n, rest) =>
    if -2147483648 ≤ n ∧ n < 2147483648 then some (Int32.ofInt n, rest) else none
  | none => none

/-- The members `username`, `uid`, `gid`, and the closing brace. -/
def readIdentity : Json.Reader (String × UInt32 × UInt32) := fun bs =>
  match Json.field 0x2c "username" Json.readString bs with
  | none => none
  | some (username, bs) =>
    match Json.field 0x2c "uid" readU32 bs with
    | none => none
    | some (uid, bs) =>
      (closed (Json.field 0x2c "gid" readU32) bs).map fun r => ((username, uid, r.1), r.2)

/-- A prompt style of a name. -/
def promptStyleOfName (n : String) : Option PromptStyle :=
  if n = "visible" then some .visible else if n = "secret" then some .secret else none

/-- A display style of a name. -/
def displayStyleOfName (n : String) : Option DisplayStyle :=
  if n = "info" then some .info else if n = "error" then some .error else none

/-- The members `style` and `message`, and the closing brace. -/
def readStyled {α : Type} (ofName : String → Option α) : Json.Reader (α × String) := fun bs =>
  match Json.field 0x2c "style" Json.readString bs with
  | none => none
  | some (n, bs) =>
    match ofName n, closed (Json.field 0x2c "message" Json.readString) bs with
    | some style, some (message, bs) => some ((style, message), bs)
    | _, _ => none

/-- A session outcome, by its `result`. -/
def readOutcome : Json.Reader SessionOutcome := fun bs =>
  match Json.field 0x7b "result" Json.readString bs with
  | none => none
  | some (result, bs) =>
    if result = "exited" then
      (closed (Json.field 0x2c "code" readI32) bs).map fun r => (.exited r.1, r.2)
    else if result = "signaled" then
      (closed (Json.field 0x2c "signal" readI32) bs).map fun r => (.signaled r.1, r.2)
    else none

/-- A key and a value of the environment. -/
def readPair : Json.Reader (String × String) := fun bs =>
  match Json.lit [0x5b] bs with
  | none => none
  | some ((), bs) =>
    match Json.readString bs with
    | none => none
    | some (k, bs) =>
      match Json.lit [0x2c] bs with
      | none => none
      | some ((), bs) =>
        match Json.readString bs with
        | none => none
        | some (v, bs) => (Json.lit [0x5d] bs).map fun r => ((k, v), r.2)

/-! ## Messages -/

/-- One broker frame, by its tag. -/
def readBrokerBody : Json.Reader BrokerToCompositor := fun bs =>
  match Json.field 0x7b "type" Json.readString bs with
  | none => none
  | some (tag, bs) =>
    if tag = "conv_prompt" then
      (readStyled promptStyleOfName bs).map fun r => (.convPrompt r.1.1 r.1.2, r.2)
    else if tag = "conv_display" then
      (readStyled displayStyleOfName bs).map fun r => (.convDisplay r.1.1 r.1.2, r.2)
    else if tag = "success" then
      (readIdentity bs).map fun r => (.success r.1.1 r.1.2.1 r.1.2.2, r.2)
    else if tag = "failure" then
      (closed (Json.field 0x2c "reason" Json.readString) bs).map fun r => (.failure r.1, r.2)
    else if tag = "session_opened" then (Json.lit [0x7d] bs).map fun r => (.sessionOpened, r.2)
    else if tag = "session_ended" then
      (closed (Json.field 0x2c "outcome" readOutcome) bs).map fun r => (.sessionEnded r.1, r.2)
    else if tag = "root_fd" then (Json.lit [0x7d] bs).map fun r => (.rootFd, r.2)
    else if tag = "greeter_spawned" then
      (closed (Json.field 0x2c "pid" readI32) bs).map fun r => (.greeterSpawned r.1, r.2)
    else none

/-- A reader of the broker frames `to_vec` writes. -/
def readBroker (bs : List UInt8) : Option BrokerToCompositor := whole readBrokerBody bs

/-- One compositor frame, by its tag. -/
def readCompositorBody : Json.Reader CompositorToBroker := fun bs =>
  match Json.field 0x7b "type" Json.readString bs with
  | none => none
  | some (tag, bs) =>
    if tag = "begin_auth" then
      match Json.field 0x2c "service" Json.readString bs with
      | none => none
      | some (service, bs) =>
        (closed (Json.field 0x2c "username" Json.readString) bs).map fun r =>
          (.beginAuth service r.1, r.2)
    else if tag = "conv_response" then
      (closed (Json.field 0x2c "response" Json.readString) bs).map fun r =>
        (.convResponse r.1, r.2)
    else if tag = "start_session" then
      match Json.field 0x2c "cmd" (Json.readArray Json.readString) bs with
      | none => none
      | some (cmd, bs) =>
        (closed (Json.field 0x2c "env" (Json.readArray readPair)) bs).map fun r =>
          (.startSession cmd r.1, r.2)
    else if tag = "cancel" then (Json.lit [0x7d] bs).map fun r => (.cancel, r.2)
    else if tag = "request_root_fd" then
      (Json.lit [0x7d] bs).map fun r => (.requestRootFd, r.2)
    else if tag = "spawn_greeter" then (Json.lit [0x7d] bs).map fun r => (.spawnGreeter, r.2)
    else none

/-- A reader of the compositor frames `to_vec` writes. -/
def readCompositor (bs : List UInt8) : Option CompositorToBroker := whole readCompositorBody bs

/-! ## Round trips -/

/-- The bytes behind a member: a comma or a closing brace, and never a digit. -/
theorem noDigit_comma (tl : List UInt8) : Json.NoDigit (0x2c :: tl) :=
  Json.noDigit_cons tl (by decide)

theorem noDigit_brace (tl : List UInt8) : Json.NoDigit (0x7d :: tl) :=
  Json.noDigit_cons tl (by decide)

theorem readU32_int (u : UInt32) {rest : List UInt8} (hr : Json.NoDigit rest) :
    readU32 (Json.int u.toNat ++ rest) = some (u, rest) := by
  have hlt := u.toNat_lt
  have hu : 0 ≤ (u.toNat : Int) ∧ (u.toNat : Int) < 4294967296 := by omega
  rw [readU32, Json.readInt_int _ hr]
  simp [hu]

theorem readI32_int (i : Int32) {rest : List UInt8} (hr : Json.NoDigit rest) :
    readI32 (Json.int i.toInt ++ rest) = some (i, rest) := by
  have h1 := i.le_toInt
  have h2 := i.toInt_lt
  have hi : -2147483648 ≤ i.toInt ∧ i.toInt < 2147483648 := by omega
  rw [readI32, Json.readInt_int _ hr]
  simp [hi]

/-- The last member of an object, read with the brace behind it. -/
theorem closed_last {α : Type} (sep : UInt8) (k : String) (v : List UInt8) (p : Json.Reader α)
    (a : α) (rest : List UInt8) (h : p (v ++ 0x7d :: rest) = some (a, 0x7d :: rest)) :
    closed (Json.field sep k p) (sep :: (Json.member k v ++ 0x7d :: rest)) = some (a, rest) := by
  simp [closed, Json.field_member sep k v p a (0x7d :: rest) h]

theorem readIdentity_members (username : String) (uid gid : UInt32) (rest : List UInt8) :
    readIdentity (0x2c :: (Json.member "username" (Json.string username) ++ 0x2c ::
      (Json.member "uid" (Json.int uid.toNat) ++ 0x2c ::
        (Json.member "gid" (Json.int gid.toNat) ++ 0x7d :: rest)))) =
      some ((username, uid, gid), rest) := by
  have hgid := closed_last 0x2c "gid" _ readU32 gid rest (readU32_int gid (noDigit_brace rest))
  have huid := Json.field_member 0x2c "uid" _ readU32 uid
    (0x2c :: (Json.member "gid" (Json.int gid.toNat) ++ 0x7d :: rest))
    (readU32_int uid (noDigit_comma _))
  simp only [readIdentity, field_string, huid, hgid, Option.map_some]

theorem readStyled_members {α : Type} {ofName : String → Option α} {name : String} {style : α}
    (hn : ofName name = some style) (message : String) (rest : List UInt8) :
    readStyled ofName (0x2c :: (Json.member "style" (Json.string name) ++ 0x2c ::
      (Json.member "message" (Json.string message) ++ 0x7d :: rest))) =
      some ((style, message), rest) := by
  have hm := closed_member 0x2c "message" _ _ message rest (Json.readString_string message)
  simp only [readStyled, field_string, hn, hm]

theorem readOutcome_toVec (o : SessionOutcome) (rest : List UInt8) :
    readOutcome (o.toVec ++ rest) = some (o, rest) := by
  cases o with
  | exited code =>
    have h := closed_last 0x2c "code" _ readI32 code rest (readI32_int code (noDigit_brace rest))
    simp only [readOutcome, SessionOutcome.toVec, Json.object, List.map_cons, List.map_nil,
      Json.commaSep, List.append_assoc, List.cons_append, List.nil_append, field_string, h,
      if_true]
    rfl
  | signaled signal =>
    have h := closed_last 0x2c "signal" _ readI32 signal rest
      (readI32_int signal (noDigit_brace rest))
    simp only [readOutcome, SessionOutcome.toVec, Json.object, List.map_cons, List.map_nil,
      Json.commaSep, List.append_assoc, List.cons_append, List.nil_append, field_string, h,
      if_true]
    rfl

theorem readPair_array (kv : String × String) (rest : List UInt8) :
    readPair (Json.array [Json.string kv.1, Json.string kv.2] ++ rest) = some (kv, rest) := by
  simp [readPair, Json.array, Json.commaSep, Json.lit, Json.readString_string]

/-- **The broker reader takes back what `to_vec` writes.** -/
theorem readBroker_toVec (m : BrokerToCompositor) : readBroker m.toVec = some m := by
  cases m with
  | convPrompt style message =>
    have hn : promptStyleOfName style.name = some style := by cases style <;> decide
    have h := readStyled_members hn message []
    simp only [readBroker, whole, readBrokerBody, BrokerToCompositor.toVec, Json.object,
      List.map_cons, List.map_nil, Json.commaSep, List.append_assoc, List.cons_append,
      field_string, h, if_true]
    rfl
  | convDisplay style message =>
    have hn : displayStyleOfName style.name = some style := by cases style <;> decide
    have h := readStyled_members hn message []
    simp only [readBroker, whole, readBrokerBody, BrokerToCompositor.toVec, Json.object,
      List.map_cons, List.map_nil, Json.commaSep, List.append_assoc, List.cons_append,
      field_string, h, if_true]
    rfl
  | success username uid gid =>
    have h := readIdentity_members username uid gid []
    simp only [readBroker, whole, readBrokerBody, BrokerToCompositor.toVec, identityMembers,
      Json.object, List.map_cons, List.map_nil, Json.commaSep, List.append_assoc,
      List.cons_append, field_string, h, if_true]
    rfl
  | failure reason =>
    have h := closed_member 0x2c "reason" _ _ reason [] (Json.readString_string reason)
    simp only [readBroker, whole, readBrokerBody, BrokerToCompositor.toVec, Json.object,
      List.map_cons, List.map_nil, Json.commaSep, List.append_assoc, List.cons_append,
      field_string, h, if_true]
    rfl
  | sessionEnded outcome =>
    have h := closed_member 0x2c "outcome" _ _ outcome [] (readOutcome_toVec outcome)
    simp only [readBroker, whole, readBrokerBody, BrokerToCompositor.toVec, Json.object,
      List.map_cons, List.map_nil, Json.commaSep, List.append_assoc, List.cons_append,
      field_string, h, if_true]
    rfl
  | greeterSpawned pid =>
    have h := closed_last 0x2c "pid" _ readI32 pid [] (readI32_int pid (noDigit_brace []))
    simp only [readBroker, whole, readBrokerBody, BrokerToCompositor.toVec, Json.object,
      List.map_cons, List.map_nil, Json.commaSep, List.append_assoc, List.cons_append,
      field_string, h, if_true]
    rfl
  | sessionOpened | rootFd =>
    simp only [readBroker, whole, readBrokerBody, BrokerToCompositor.toVec, Json.object,
      List.map_cons, List.map_nil, Json.commaSep, field_string]
    rfl

/-- **The compositor reader takes back what `to_vec` writes.** -/
theorem readCompositor_toVec (m : CompositorToBroker) : readCompositor m.toVec = some m := by
  cases m with
  | beginAuth service username =>
    have h := closed_member 0x2c "username" _ _ username [] (Json.readString_string username)
    simp only [readCompositor, whole, readCompositorBody, CompositorToBroker.toVec, Json.object,
      List.map_cons, List.map_nil, Json.commaSep, List.append_assoc, List.cons_append,
      field_string, h, if_true]
    rfl
  | convResponse response =>
    have h := closed_member 0x2c "response" _ _ response [] (Json.readString_string response)
    simp only [readCompositor, whole, readCompositorBody, CompositorToBroker.toVec, Json.object,
      List.map_cons, List.map_nil, Json.commaSep, List.append_assoc, List.cons_append,
      field_string, h, if_true]
    rfl
  | startSession cmd env =>
    have hpairs := Json.readArray_array readPair_array (fun kv => ⟨0x5b, _, rfl, by decide⟩) env
    have henv := closed_member 0x2c "env" _ _ env [] hpairs
    have hcmd := fun tl => Json.field_member 0x2c "cmd" _ _ cmd tl (readArray_strings cmd tl)
    simp only [readCompositor, whole, readCompositorBody, CompositorToBroker.toVec, Json.object,
      List.map_cons, List.map_nil, Json.commaSep, List.append_assoc, List.cons_append,
      field_string, hcmd, henv, if_true]
    rfl
  | cancel | requestRootFd | spawnGreeter =>
    simp only [readCompositor, whole, readCompositorBody, CompositorToBroker.toVec, Json.object,
      List.map_cons, List.map_nil, Json.commaSep, field_string]
    rfl

/-! ## Tags -/

/-- The tags of `BrokerToCompositor`. -/
def brokerTags : List String :=
  ["conv_prompt", "conv_display", "success", "failure", "session_opened", "session_ended",
    "root_fd", "greeter_spawned"]

/-- The tags of `CompositorToBroker`. -/
def compositorTags : List String :=
  ["begin_auth", "conv_response", "start_session", "cancel", "request_root_fd", "spawn_greeter"]

/-- An object starts with its tag. -/
theorem field_tag (tag : String) (ms : List (String × List UInt8)) :
    ∃ rest, Json.field 0x7b "type" Json.readString
      (Json.object (("type", Json.string tag) :: ms)) = some (tag, rest) := by
  cases ms with
  | nil => exact ⟨_, field_string 0x7b "type" tag _⟩
  | cons m ms =>
    simp only [Json.object, List.map_cons, Json.commaSep, List.append_assoc]
    exact ⟨_, field_string 0x7b "type" tag _⟩

theorem readBroker_tag {tag : String} (h : tag ∉ brokerTags) (ms : List (String × List UInt8)) :
    readBroker (Json.object (("type", Json.string tag) :: ms)) = none := by
  obtain ⟨rest, htag⟩ := field_tag tag ms
  simp only [brokerTags, List.mem_cons, List.not_mem_nil, or_false, not_or] at h
  simp [readBroker, whole, readBrokerBody, htag, h]

theorem readCompositor_tag {tag : String} (h : tag ∉ compositorTags)
    (ms : List (String × List UInt8)) :
    readCompositor (Json.object (("type", Json.string tag) :: ms)) = none := by
  obtain ⟨rest, htag⟩ := field_tag tag ms
  simp only [compositorTags, List.mem_cons, List.not_mem_nil, or_false, not_or] at h
  simp [readCompositor, whole, readCompositorBody, htag, h]

end Halmasuit.SessionIpc
