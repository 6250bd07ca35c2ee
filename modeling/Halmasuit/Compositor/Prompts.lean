import Halmasuit.Compositor.BrokerRelay
import Halmasuit.Greetd.Replies
import Halmasuit.SessionIpc.Readers

/-!
# A prompt as a greetd message

The broker's frames and the greeter's messages are framed under one limit, `MAX_MESSAGE_SIZE`, but
the greeter's envelope of a prompt is the larger one. A reason is cut short before it is wrapped
(`truncate_description`); a prompt is not.

- `length_authMessage`: what the envelope of a prompt costs;
- **`shown_iff`**: the response to a broker message encodes exactly when the frame is no
  conversation message or its text leaves room for the envelope;
- `promptFrame_wider`, `displayFrame_wider`: of the frames the broker writes, those within eighteen
  (seventeen) bytes of the limit do not.
-/

namespace Halmasuit.Compositor

open Halmasuit.Lib
open Halmasuit.Greetd (AuthMessageType Call Connection PamStep Request Response SessionState
  encode_failure_isOk onPamResult_spec)
open Halmasuit.SessionIpc

/-! ## What a broker message becomes -/

/-- The bytes a prompt takes as a greetd `AuthMessage`: the envelope, the quoted name of its kind
and its quoted text. -/
def authMessageSize (kind : AuthMessageType) (text : String) : Nat :=
  60 + (Json.string kind.name).length + (Json.string text).length

theorem length_authMessage (kind : AuthMessageType) (text : String) :
    (Response.authMessage kind text).toVec.length = authMessageSize kind text :=
  Response.length_toVec_authMessage kind text

/-- A conversation frame leaves room for the greeter's envelope; the other frames carry no text, or
a text that is cut short. -/
def LeavesRoom : BrokerToCompositor → Prop
  | .convPrompt style message =>
    authMessageSize (promptToKind style) message ≤ Greetd.maxMessageSize
  | .convDisplay style message =>
    authMessageSize (displayToKind style) message ≤ Greetd.maxMessageSize
  | _ => True

theorem authMessage_encodes_iff (kind : AuthMessageType) (text : String) :
    (∃ bytes, (Response.authMessage kind text).encode = .ok bytes) ↔
      authMessageSize kind text ≤ Greetd.maxMessageSize := by
  rw [← length_authMessage]
  constructor
  · rintro ⟨bytes, h⟩
    exact ((Framing.encode_isOk_iff _).mp ⟨bytes, h⟩).2
  · exact fun h => ⟨_, Response.encode_of_le h⟩

/-- **Which broker messages can be shown.** For every run of calls that leaves a connection with a
round outstanding, and every frame the relay turns into a PAM step, at any relay: the response the
machine gives to the step encodes exactly when the frame leaves room for the envelope, and where it
does not `resume_pam` fails. -/
theorem shown_iff (fromSlice : List UInt8 → Option Request) (calls : List Call)
    {r r' : BrokerRelay} {frame : BrokerToCompositor} {step : PamStep}
    (hr : r.onBrokerFrame frame = .ok (.pam step, r')) :
    let c := (run (Connection.step fromSlice) Connection.new calls).1
    c.closed = false → c.awaitingPam = true →
      ((∃ bytes, (c.state.onPamResult step).2.encode = .ok bytes) ↔ LeavesRoom frame) ∧
      (¬ LeavesRoom frame → ∃ e, (c.resumePam fromSlice step).res = .error e) := by
  intro c hc ha
  suffices h : (∃ bytes, (c.state.onPamResult step).2.encode = .ok bytes) ↔ LeavesRoom frame by
    refine ⟨h, fun hno => ?_⟩
    rcases Greetd.resumePam_cases fromSlice hc step with
      ⟨ha', -⟩ | ⟨-, e, -, heq⟩ | ⟨-, reply, ran, he, -⟩
    · simp [ha] at ha'
    · exact ⟨e, by rw [heq]⟩
    · exact absurd (h.mp ⟨reply, he⟩) hno
  have hinv : Greetd.ConnInv c _ :=
    run_invariant_init Greetd.ConnInv Greetd.new_inv (Greetd.step_inv fromSlice) calls
  obtain ⟨u, hu⟩ := (hinv.awaiting hc).mp ha
  rw [hu, onPamResult_spec]
  rcases onBrokerFrame_cases hr with ⟨-, style, message, rfl, h, -⟩ |
    ⟨-, style, message, rfl, h, -⟩ | ⟨-, n, uid, gid, rfl, h, -⟩ | ⟨-, reason, rfl, h, -⟩ |
    ⟨-, -, h, -⟩ | ⟨-, outcome, -, h, -⟩
  · obtain rfl := RelayEvent.pam.inj h
    exact authMessage_encodes_iff _ _
  · obtain rfl := RelayEvent.pam.inj h
    exact authMessage_encodes_iff _ _
  · obtain rfl := RelayEvent.pam.inj h
    exact iff_of_true Response.encode_success_isOk trivial
  · obtain rfl := RelayEvent.pam.inj h
    exact iff_of_true (encode_failure_isOk reason) trivial
  · cases h
  · cases h

/-! ## The frames the broker writes -/

/-- The envelope of a prompt is eighteen bytes wider at the greeter. -/
theorem promptFrame_wider (style : PromptStyle) (message : String) :
    authMessageSize (promptToKind style) message
      = (BrokerToCompositor.convPrompt style message).toVec.length + 18 := by
  have h1 : (Json.string "type").length = 6 := by decide
  have h2 : (Json.string "conv_prompt").length = 13 := by decide
  have h3 : (Json.string "style").length = 7 := by decide
  have h4 : (Json.string "message").length = 9 := by decide
  have hn : (promptToKind style).name = style.name := by cases style <;> rfl
  simp only [authMessageSize, hn, BrokerToCompositor.toVec, Json.object, List.map_cons,
    List.map_nil, Json.commaSep, Json.member, List.length_cons, List.length_append,
    List.length_nil, h1, h2, h3, h4]
  omega

/-- That of a display message is seventeen bytes wider. -/
theorem displayFrame_wider (style : DisplayStyle) (message : String) :
    authMessageSize (displayToKind style) message
      = (BrokerToCompositor.convDisplay style message).toVec.length + 17 := by
  have h1 : (Json.string "type").length = 6 := by decide
  have h2 : (Json.string "conv_display").length = 14 := by decide
  have h3 : (Json.string "style").length = 7 := by decide
  have h4 : (Json.string "message").length = 9 := by decide
  have hn : (displayToKind style).name = style.name := by cases style <;> rfl
  simp only [authMessageSize, hn, BrokerToCompositor.toVec, Json.object, List.map_cons,
    List.map_nil, Json.commaSep, Json.member, List.length_cons, List.length_append,
    List.length_nil, h1, h2, h3, h4]
  omega

/-! ## A prompt of the largest size -/

theorem utf8_replicate (n : Nat) :
    Json.utf8 (String.ofList (List.replicate n 'a')) = List.replicate n 97 := by
  rw [Json.utf8_ofList]
  induction n with
  | zero => rfl
  | succ n ih =>
    rw [List.replicate_succ, List.flatMap_cons, ih]
    rfl

theorem escape_replicate (n : Nat) : Json.escape (List.replicate n 97) = List.replicate n 97 := by
  induction n with
  | zero => rfl
  | succ n ih =>
    have h : Json.escapeByte 97 = [97] := by decide
    rw [List.replicate_succ, Json.escape, List.flatMap_cons, h, ← Json.escape, ih]
    rfl

theorem length_string_replicate (n : Nat) :
    (Json.string (String.ofList (List.replicate n 'a'))).length = n + 2 := by
  rw [Json.length_string, utf8_replicate, escape_replicate, List.length_replicate]

/-- Alice's `CreateSession` came in, and the relay waits for the broker. -/
def asked : Connection :=
  (run (Connection.step Greetd.readRequest) Connection.new
    [.feedGreeter Greetd.createAlice]).1

def askedRelay : BrokerRelay := { BrokerRelay.new "halmasuit" "alice" with phase := .authing }

theorem password_shown :
    (∃ bytes, (asked.state.onPamResult (.challenge .secret "Password: ")).2.encode = .ok bytes) ∧
      LeavesRoom (.convPrompt .secret "Password: ") := by
  have hroom : LeavesRoom (.convPrompt .secret "Password: ") := by
    rw [LeavesRoom]
    decide +kernel
  have h := @shown_iff Greetd.readRequest [.feedGreeter Greetd.createAlice] askedRelay _
    (.convPrompt .secret "Password: ") (.challenge .secret "Password: ") rfl
    (by decide +kernel) (by decide +kernel)
  exact ⟨h.1.mpr hroom, hroom⟩

/-- The broker encodes a prompt of the largest size, the compositor decodes it and the relay makes
a challenge of it; the greeter's message is too large by eighteen bytes. -/
theorem prompt_lost {text : String} (ht : (Json.string text).length = 1048526) :
    (∃ bytes, SessionIpc.encode (BrokerToCompositor.convPrompt .secret text).toVec = .ok bytes ∧
      SessionIpc.tryDecode readBroker bytes
        = .ok (some (.convPrompt .secret text, bytes.length))) ∧
    (∃ r', askedRelay.onBrokerFrame (.convPrompt .secret text)
      = .ok (.pam (.challenge .secret text), r')) ∧
    asked.closed = false ∧ asked.awaitingPam = true ∧
    (asked.resumePam Greetd.readRequest (.challenge .secret text)).res
      = .error (.oversizedMessage 1048594 1048576) := by
  have hstate : asked = ⟨.authPending "alice", [], true, false⟩ := by decide +kernel
  have hk : (Json.string AuthMessageType.secret.name).length = 8 := by decide
  have hlen : (Response.authMessage .secret text).toVec.length = 1048594 := by
    rw [length_authMessage, authMessageSize, hk, ht]
  have hfits : Fits (BrokerToCompositor.convPrompt .secret text).toVec := by
    have hw := promptFrame_wider .secret text
    rw [← length_authMessage, show promptToKind .secret = .secret from rfl, hlen] at hw
    have hm : SessionIpc.maxMessageSize = 1048576 := by decide
    rw [Fits]
    omega
  have hlost : (Response.authMessage .secret text).encode
      = .error (.oversizedMessage 1048594 1048576) := by
    rw [Response.encode, Framing.encode, hlen]
    rfl
  refine ⟨⟨_, encode_of_fits hfits, ?_⟩, ⟨_, rfl⟩, by rw [hstate], by rw [hstate], ?_⟩
  · have h := @Framing.tryDecode_encode _ _ readBroker _ _ _ (encode_of_fits hfits)
      (readBroker_toVec _) []
    rwa [List.append_nil] at h
  · rw [hstate]
    simp [Connection.resumePam, onPamResult_spec, hlost]

/-- A text that fills a `ConvPrompt` of style `Secret` up to the limit. -/
def longText : String := String.ofList (List.replicate 1048524 'a')

theorem length_longText : (Json.string longText).length = 1048526 :=
  length_string_replicate 1048524

/-- **The largest prompt is lost.** -/
theorem longText_lost :
    (∃ bytes, SessionIpc.encode (BrokerToCompositor.convPrompt .secret longText).toVec = .ok bytes ∧
      SessionIpc.tryDecode readBroker bytes
        = .ok (some (.convPrompt .secret longText, bytes.length))) ∧
    (∃ r', askedRelay.onBrokerFrame (.convPrompt .secret longText)
      = .ok (.pam (.challenge .secret longText), r')) ∧
    asked.closed = false ∧ asked.awaitingPam = true ∧
    (asked.resumePam Greetd.readRequest (.challenge .secret longText)).res
      = .error (.oversizedMessage 1048594 1048576) :=
  prompt_lost length_longText

end Halmasuit.Compositor
