import Halmasuit.Greetd.Session

/-!
# The greetd connection driver

`halmasuit-greetd/src/server.rs` 290–593: `Connection`, the sans-IO driver around the session
machine. It buffers greeter bytes, decodes and applies every complete request (`drive`),
suspends on a PAM round and latches `closed`.

A method of the source mutates the connection and returns `Result<Outcome, _>`; it keeps the
mutations also when it returns an error. Here it returns a `Ran`: the connection after the call,
the requests and PAM results the machine was given during the call, and the result.

`drive` loops until the buffer holds no whole message. Each turn consumes at least the length
prefix, so the buffer's length bounds the turns; `drive` counts them down and `Drives` is its
graph without the count:

- `drive_drives`: with more turns than buffered bytes the loop ends by itself;
- `feedGreeter_cases`, `resumePam_cases`: what the two entry points can do, in terms of `Drives`.
-/

namespace Halmasuit.Greetd

open Halmasuit.Lib
open Halmasuit.Lib.Framing (CodecError)

/-- `Demand`: what the I/O layer must do next. -/
inductive Demand where
  | continue
  | pam (response : Option String)
  | spawn (s : SpawnRequest)
  | close
  deriving DecidableEq, Repr

/-- `Outcome`. -/
structure Outcome where
  reply : List UInt8
  demand : Demand
  deriving DecidableEq, Repr

/-- What happened at the connection, in order: a request the machine accepted or refused, a PAM
result or a broker EOF fed in, and what each call returned. -/
inductive ConnEvent where
  | accepted (req : Request) (action : Action)
  | refused (req : Request) (err : StateMachineError)
  | resumed (step : PamStep)
  | brokerClosed
  | failed (err : CodecError)
  | returned (out : Outcome)
  deriving DecidableEq, Repr

/-- `Connection`. -/
structure Connection where
  state : SessionState
  readBuf : List UInt8
  awaitingPam : Bool
  closed : Bool
  deriving DecidableEq, Repr

/-- `Connection::new`. -/
def Connection.new : Connection := ⟨.idle, [], false, false⟩

/-- One call: the connection after it, what the machine was given, and the result. -/
structure Ran where
  conn : Connection
  events : List ConnEvent
  res : Except CodecError Outcome

/-- The same call with an event before the others. -/
def Ran.after (e : ConnEvent) (r : Ran) : Ran := { r with events := e :: r.events }

/-- `MAX_READ_BUF`. -/
def maxReadBuf : Nat := maxMessageSize + 4

/-- `Connection::pending_username`. -/
def Connection.pendingUsername (c : Connection) : Option String :=
  match c.state with
  | .authPending username | .authenticating username => some username
  | .idle | .authSuccess .. | .spawning .. => none

section
variable (fromSlice : List UInt8 → Option Request)

/-- `Connection::drive`: decode and apply buffered requests until the buffer is exhausted or the
connection suspends or terminates. `fuel` counts the turns of the loop. -/
def Connection.drive : Nat → List UInt8 → Connection → Ran
  | 0, reply, c => ⟨c, [], .ok ⟨reply, .continue⟩⟩
  | fuel + 1, reply, c =>
    if c.closed then ⟨c, [], .ok ⟨reply, .close⟩⟩
    else
      match tryDecode fromSlice c.readBuf with
      | .error e => ⟨c, [], .error e⟩
      | .ok none => ⟨c, [], .ok ⟨reply, .continue⟩⟩
      | .ok (some (req, consumed)) =>
        match c.state.onRequest req with
        | .ok (.reply r, st) =>
          match r.encode with
          | .error e => ⟨{ c with state := st }, [.accepted req (.reply r)], .error e⟩
          | .ok bytes =>
            (drive fuel (reply ++ bytes)
              { c with state := st, readBuf := c.readBuf.drop consumed }).after
                (.accepted req (.reply r))
        | .ok (.pam response, st) =>
          ⟨{ c with state := st, readBuf := c.readBuf.drop consumed, awaitingPam := true },
            [.accepted req (.pam response)], .ok ⟨reply, .pam response⟩⟩
        | .ok (.spawn s, st) =>
          match Response.success.encode with
          | .error e => ⟨{ c with state := st }, [.accepted req (.spawn s)], .error e⟩
          | .ok bytes =>
            ⟨{ c with state := st, readBuf := c.readBuf.drop consumed, closed := true },
              [.accepted req (.spawn s)], .ok ⟨reply ++ bytes, .spawn s⟩⟩
        | .error e =>
          match e.toResponse.encode with
          | .error ce => ⟨c, [.refused req e], .error ce⟩
          | .ok bytes =>
            (drive fuel (reply ++ bytes) { c with readBuf := c.readBuf.drop consumed }).after
              (.refused req e)

/-- `Connection::feed_greeter`. -/
def Connection.feedGreeter (c : Connection) (newBytes : List UInt8) : Ran :=
  if c.closed then ⟨c, [], .ok ⟨[], .close⟩⟩
  else if c.awaitingPam then
    match (Response.error .error "greeter sent data while a PAM round was in flight").encode with
    | .error e => ⟨{ c with closed := true }, [], .error e⟩
    | .ok reply => ⟨{ c with closed := true }, [], .ok ⟨reply, .close⟩⟩
  else
    let c' := { c with readBuf := c.readBuf ++ newBytes }
    if maxReadBuf < c'.readBuf.length then
      ⟨c', [], .error (.oversizedMessage (min c'.readBuf.length (2 ^ 32 - 1)) maxMessageSize)⟩
    else c'.drive fromSlice (c'.readBuf.length + 1) []

/-- `Connection::resume_pam`. -/
def Connection.resumePam (c : Connection) (step : PamStep) : Ran :=
  if c.closed then ⟨c, [.resumed step], .ok ⟨[], .close⟩⟩
  else if !c.awaitingPam then
    match (Response.error .error "resume_pam called without an outstanding PAM round").encode with
    | .error e => ⟨{ c with closed := true }, [.resumed step], .error e⟩
    | .ok reply => ⟨{ c with closed := true }, [.resumed step], .ok ⟨reply, .close⟩⟩
  else
    let p := c.state.onPamResult step
    let c' := { c with awaitingPam := false, state := p.1 }
    match p.2.encode with
    | .error e => ⟨c', [.resumed step], .error e⟩
    | .ok reply => (c'.drive fromSlice (c'.readBuf.length + 1) reply).after (.resumed step)

/-- `Connection::broker_closed`. -/
def Connection.brokerClosed (c : Connection) : Ran :=
  if c.closed then ⟨c, [.brokerClosed], .ok ⟨[], .close⟩⟩
  else
    let c' := { c with closed := true, awaitingPam := false }
    match c.state with
    | .spawning .. => ⟨c', [.brokerClosed], .ok ⟨[], .close⟩⟩
    | _ =>
      ⟨{ c' with state := .idle }, [.brokerClosed],
        .ok ⟨(Response.error .authError "broker connection closed").encode.toOption.getD [],
          .close⟩⟩

/-! ## The loop without its count -/

/-- The graph of `drive`: a loop that ends by itself. -/
inductive Drives : Connection → List UInt8 → Ran → Prop
  | closed {c reply} (hc : c.closed = true) : Drives c reply ⟨c, [], .ok ⟨reply, .close⟩⟩
  | codec {c reply e} (hc : c.closed = false) (hd : tryDecode fromSlice c.readBuf = .error e) :
      Drives c reply ⟨c, [], .error e⟩
  | exhausted {c reply} (hc : c.closed = false) (hd : tryDecode fromSlice c.readBuf = .ok none) :
      Drives c reply ⟨c, [], .ok ⟨reply, .continue⟩⟩
  | pam {c reply req n response st} (hc : c.closed = false)
      (hd : tryDecode fromSlice c.readBuf = .ok (some (req, n)))
      (hr : c.state.onRequest req = .ok (.pam response, st)) :
      Drives c reply
        ⟨{ c with state := st, readBuf := c.readBuf.drop n, awaitingPam := true },
          [.accepted req (.pam response)], .ok ⟨reply, .pam response⟩⟩
  | spawn {c reply req n s st bytes} (hc : c.closed = false)
      (hd : tryDecode fromSlice c.readBuf = .ok (some (req, n)))
      (hr : c.state.onRequest req = .ok (.spawn s, st))
      (he : Response.success.encode = .ok bytes) :
      Drives c reply
        ⟨{ c with state := st, readBuf := c.readBuf.drop n, closed := true },
          [.accepted req (.spawn s)], .ok ⟨reply ++ bytes, .spawn s⟩⟩
  | cancel {c reply req n r st bytes ran} (hc : c.closed = false)
      (hd : tryDecode fromSlice c.readBuf = .ok (some (req, n)))
      (hr : c.state.onRequest req = .ok (.reply r, st)) (he : r.encode = .ok bytes)
      (next : Drives { c with state := st, readBuf := c.readBuf.drop n } (reply ++ bytes) ran) :
      Drives c reply (ran.after (.accepted req (.reply r)))
  | refuse {c reply req n e bytes ran} (hc : c.closed = false)
      (hd : tryDecode fromSlice c.readBuf = .ok (some (req, n)))
      (hr : c.state.onRequest req = .error e) (he : e.toResponse.encode = .ok bytes)
      (next : Drives { c with readBuf := c.readBuf.drop n } (reply ++ bytes) ran) :
      Drives c reply (ran.after (.refused req e))

end

variable {fromSlice : List UInt8 → Option Request}

/-- **The loop ends by itself**: each turn takes at least the length prefix off the buffer, and
every response it writes fits the codec. -/
theorem drive_drives (fuel : Nat) (reply : List UInt8) (c : Connection)
    (hf : c.readBuf.length < fuel) : Drives fromSlice c reply (c.drive fromSlice fuel reply) := by
  induction fuel generalizing reply c with
  | zero => exact absurd hf (by omega)
  | succ fuel ih =>
    unfold Connection.drive
    by_cases hc : c.closed = true
    · rw [if_pos hc]
      exact .closed hc
    rw [if_neg hc]
    have hc : c.closed = false := by simpa using hc
    cases hd : tryDecode fromSlice c.readBuf with
    | error e => exact .codec hc hd
    | ok o =>
      cases o with
      | none => exact .exhausted hc hd
      | some p =>
        obtain ⟨req, n⟩ := p
        have hn := Framing.tryDecode_some hd
        have hpos : 0 < Framing.lengthPrefixSize := by decide
        have hdrop : (c.readBuf.drop n).length < fuel := by
          rw [List.length_drop]
          omega
        cases hr : c.state.onRequest req with
        | error e =>
          obtain ⟨bytes, he⟩ := e.encode_isOk
          simp only [hr, he]
          exact .refuse hc hd hr he (ih _ _ hdrop)
        | ok p =>
          obtain ⟨a, st⟩ := p
          cases a with
          | reply r =>
            obtain ⟨bytes, he⟩ : ∃ bytes, r.encode = .ok bytes := by
              rw [(onRequest_reply hr).2.1]
              exact Response.encode_success_isOk
            simp only [hr, he]
            exact .cancel hc hd hr he (ih _ _ hdrop)
          | pam response =>
            simp only [hr]
            exact .pam hc hd hr
          | spawn s =>
            obtain ⟨bytes, he⟩ := Response.encode_success_isOk
            simp only [hr, he]
            exact .spawn hc hd hr he

/-! ## The entry points -/

/-- A closed connection answers every call with `Close` and does nothing else. -/
theorem feedGreeter_closed {c : Connection} (hc : c.closed = true) (bs : List UInt8) :
    c.feedGreeter fromSlice bs = ⟨c, [], .ok ⟨[], .close⟩⟩ := by
  rw [Connection.feedGreeter, if_pos hc]

theorem resumePam_closed {c : Connection} (hc : c.closed = true) (step : PamStep) :
    c.resumePam fromSlice step = ⟨c, [.resumed step], .ok ⟨[], .close⟩⟩ := by
  rw [Connection.resumePam, if_pos hc]

theorem brokerClosed_closed {c : Connection} (hc : c.closed = true) :
    c.brokerClosed = ⟨c, [.brokerClosed], .ok ⟨[], .close⟩⟩ := by
  rw [Connection.brokerClosed, if_pos hc]

/-- What feeding greeter bytes to an open connection can do. -/
theorem feedGreeter_cases (fromSlice : List UInt8 → Option Request) {c : Connection}
    (hc : c.closed = false) (bs : List UInt8) :
    (c.awaitingPam = true ∧ ∃ reply,
      c.feedGreeter fromSlice bs = ⟨{ c with closed := true }, [], .ok ⟨reply, .close⟩⟩) ∨
    (c.awaitingPam = false ∧ maxReadBuf < (c.readBuf ++ bs).length ∧ ∃ e,
      c.feedGreeter fromSlice bs = ⟨{ c with readBuf := c.readBuf ++ bs }, [], .error e⟩) ∨
    (c.awaitingPam = false ∧ (c.readBuf ++ bs).length ≤ maxReadBuf ∧
      Drives fromSlice { c with readBuf := c.readBuf ++ bs } [] (c.feedGreeter fromSlice bs)) := by
  unfold Connection.feedGreeter
  rw [if_neg (by simp [hc])]
  by_cases ha : c.awaitingPam = true
  · left
    obtain ⟨reply, he⟩ := Response.encode_error_isOk .error
      "greeter sent data while a PAM round was in flight" (by decide)
    exact ⟨ha, reply, by rw [if_pos ha, he]⟩
  · right
    have ha' : c.awaitingPam = false := by simpa using ha
    rw [if_neg ha]
    by_cases hlen : maxReadBuf < (c.readBuf ++ bs).length
    · left
      refine ⟨ha', hlen,
        .oversizedMessage (min (c.readBuf ++ bs).length (2 ^ 32 - 1)) maxMessageSize, ?_⟩
      simp only [if_pos hlen]
    · right
      refine ⟨ha', Nat.le_of_not_lt hlen, ?_⟩
      simp only [if_neg hlen]
      exact drive_drives _ _ _ (by simp)

/-- What feeding a PAM result to an open connection can do. -/
theorem resumePam_cases (fromSlice : List UInt8 → Option Request) {c : Connection}
    (hc : c.closed = false) (step : PamStep) :
    (c.awaitingPam = false ∧ ∃ reply, c.resumePam fromSlice step
      = ⟨{ c with closed := true }, [.resumed step], .ok ⟨reply, .close⟩⟩) ∨
    (c.awaitingPam = true ∧ ∃ e, (c.state.onPamResult step).2.encode = .error e ∧
      c.resumePam fromSlice step
        = ⟨{ c with awaitingPam := false, state := (c.state.onPamResult step).1 },
            [.resumed step], .error e⟩) ∨
    (c.awaitingPam = true ∧ ∃ reply ran, (c.state.onPamResult step).2.encode = .ok reply ∧
      Drives fromSlice { c with awaitingPam := false, state := (c.state.onPamResult step).1 }
        reply ran ∧
      c.resumePam fromSlice step = ran.after (.resumed step)) := by
  unfold Connection.resumePam
  rw [if_neg (by simp [hc])]
  by_cases ha : c.awaitingPam = true
  · right
    rw [if_neg (by simp [ha])]
    cases he : (c.state.onPamResult step).2.encode with
    | error e => exact .inl ⟨ha, e, rfl, by simp only [he]⟩
    | ok reply =>
      refine .inr ⟨ha, reply, _, rfl, drive_drives _ _ _ (Nat.lt_succ_self _), ?_⟩
      simp only [he]
  · left
    obtain ⟨reply, he⟩ := Response.encode_error_isOk .error
      "resume_pam called without an outstanding PAM round" (by decide)
    exact ⟨by simpa using ha, reply, by rw [if_pos (by simpa using ha), he]⟩

/-- What broker EOF does to an open connection. -/
theorem brokerClosed_open {c : Connection} (hc : c.closed = false) :
    ∃ st reply, (st = .idle ∨ ∃ n u g cmd env, st = .spawning n u g cmd env) ∧ c.brokerClosed
      = ⟨{ c with closed := true, awaitingPam := false, state := st }, [.brokerClosed],
          .ok ⟨reply, .close⟩⟩ := by
  unfold Connection.brokerClosed
  rw [if_neg (by simp [hc])]
  cases hs : c.state with
  | spawning n u g cmd env =>
    exact ⟨_, [], .inr ⟨n, u, g, cmd, env, rfl⟩, by simp⟩
  | _ => exact ⟨_, _, .inl rfl, rfl⟩

/-! ## What a result says about the connection -/

/-- The flags a call leaves behind, by what it returned. -/
def Ran.Sound (r : Ran) : Prop :=
  match r.res with
  | .ok ⟨_, .continue⟩ => r.conn.closed = false ∧ r.conn.awaitingPam = false
  | .ok ⟨_, .pam _⟩ => r.conn.closed = false ∧ r.conn.awaitingPam = true
  | .ok ⟨_, .spawn _⟩ => r.conn.closed = true
  | .ok ⟨_, .close⟩ => r.conn.closed = true
  | .error _ => r.conn.closed = false ∧ r.conn.awaitingPam = false

/-- A connection no greeter bytes can move again: its buffer is over the cap or starts with a
frame the codec refuses. -/
def Connection.Stuck (fromSlice : List UInt8 → Option Request) (c : Connection) : Prop :=
  c.closed = false ∧ c.awaitingPam = false ∧
    (maxReadBuf < c.readBuf.length ∨ ∃ e, tryDecode fromSlice c.readBuf = .error e)

theorem drives_sound {c : Connection} {reply : List UInt8} {r : Ran}
    (hd : Drives fromSlice c reply r) (hc : c.closed = false) (ha : c.awaitingPam = false) :
    r.Sound ∧ ((∃ e, r.res = .error e) → r.conn.Stuck fromSlice) := by
  induction hd with
  | closed h => exact absurd h (by simp [hc])
  | codec _ h => exact ⟨⟨hc, ha⟩, fun _ => ⟨hc, ha, .inr ⟨_, h⟩⟩⟩
  | exhausted => exact ⟨⟨hc, ha⟩, by simp⟩
  | pam => exact ⟨⟨hc, rfl⟩, by simp⟩
  | spawn => exact ⟨rfl, by simp⟩
  | cancel _ _ _ _ _ ih => exact ih hc ha
  | refuse _ _ _ _ _ ih => exact ih hc ha

theorem feedGreeter_sound (fromSlice : List UInt8 → Option Request) (c : Connection)
    (bs : List UInt8) :
    (c.feedGreeter fromSlice bs).Sound ∧
      ((∃ e, (c.feedGreeter fromSlice bs).res = .error e) →
        (c.feedGreeter fromSlice bs).conn.Stuck fromSlice) := by
  by_cases hc : c.closed = true
  · rw [feedGreeter_closed hc]
    exact ⟨hc, by simp⟩
  have hc : c.closed = false := by simpa using hc
  rcases feedGreeter_cases fromSlice hc bs with
    ⟨-, reply, heq⟩ | ⟨ha, hlen, e, heq⟩ | ⟨ha, -, hd⟩
  · rw [heq]
    exact ⟨rfl, by simp⟩
  · rw [heq]
    exact ⟨⟨hc, ha⟩, fun _ => ⟨hc, ha, .inl hlen⟩⟩
  · exact drives_sound hd hc ha

theorem resumePam_sound (fromSlice : List UInt8 → Option Request) (c : Connection)
    (step : PamStep) : (c.resumePam fromSlice step).Sound := by
  by_cases hc : c.closed = true
  · rw [resumePam_closed hc]
    exact hc
  have hc : c.closed = false := by simpa using hc
  rcases resumePam_cases fromSlice hc step with
    ⟨-, reply, heq⟩ | ⟨-, e, -, heq⟩ | ⟨-, reply, ran, -, hd, heq⟩
  · rw [heq]
    rfl
  · rw [heq]
    exact ⟨hc, rfl⟩
  · rw [heq]
    exact (drives_sound hd hc rfl).1

/-- Broker EOF closes the connection. -/
theorem brokerClosed_isClosed (c : Connection) :
    c.brokerClosed.conn.closed = true ∧ ∃ reply, c.brokerClosed.res = .ok ⟨reply, .close⟩ ∧
      c.brokerClosed.events = [.brokerClosed] := by
  by_cases hc : c.closed = true
  · rw [brokerClosed_closed hc]
    exact ⟨hc, [], rfl, rfl⟩
  · obtain ⟨st, reply, -, heq⟩ := brokerClosed_open (c := c) (by simpa using hc)
    rw [heq]
    exact ⟨rfl, reply, rfl, rfl⟩

/-- A request the loop goes on after: an accepted cancel or a refusal. -/
def IsAside (e : ConnEvent) : Prop :=
  (∃ r, e = .accepted .cancelSession (.reply r)) ∨ ∃ req err, e = .refused req err

/-- What a call gives the machine after the events `hd`: asides, and at most one request that ends
the loop, by which the connection suspends or spawns. -/
def Ran.Shaped (r : Ran) (hd : List ConnEvent) : Prop :=
  ∃ es, (∀ e ∈ es, IsAside e) ∧
    ((r.events = hd ++ es ∧ ∀ reply, (∀ response, r.res ≠ .ok ⟨reply, .pam response⟩) ∧
        ∀ s, r.res ≠ .ok ⟨reply, .spawn s⟩) ∨
      (∃ reply req response, r.events = hd ++ (es ++ [.accepted req (.pam response)]) ∧
        r.res = .ok ⟨reply, .pam response⟩ ∧
        (req = .postAuthMessageResponse response ∨
          ∃ u, req = .createSession u ∧ response = none ∧ r.conn.state = .authPending u)) ∨
      (∃ reply cmd env s, r.events = hd ++ (es ++ [.accepted (.startSession cmd env) (.spawn s)]) ∧
        r.res = .ok ⟨reply, .spawn s⟩ ∧
        r.conn.state = .spawning s.username s.uid s.gid cmd env))

theorem Ran.shaped_of_events {r : Ran} {hd : List ConnEvent} (he : r.events = hd)
    (hr : (∃ e, r.res = .error e) ∨ ∃ reply, r.res = .ok ⟨reply, .close⟩) : r.Shaped hd := by
  refine ⟨[], by simp, .inl ⟨by simpa using he, ?_⟩⟩
  rcases hr with ⟨e, hr⟩ | ⟨reply, hr⟩ <;> simp [hr]

theorem drives_shaped {c : Connection} {reply : List UInt8} {r : Ran}
    (hd : Drives fromSlice c reply r) : r.Shaped [] := by
  induction hd with
  | closed | codec | exhausted => exact ⟨[], by simp, .inl ⟨rfl, by simp⟩⟩
  | @pam c reply req n response st _ _ hr =>
    refine ⟨[], by simp, .inr (.inl ⟨reply, req, response, rfl, rfl, ?_⟩)⟩
    obtain ⟨u, rfl, ⟨-, rfl, rfl⟩ | ⟨-, rfl⟩⟩ := onRequest_pam hr
    · exact .inr ⟨u, rfl, rfl, rfl⟩
    · exact .inl rfl
  | @spawn c reply req n s st bytes _ _ hr _ =>
    obtain ⟨-, rfl, rfl⟩ := onRequest_spawn hr
    exact ⟨[], by simp, .inr (.inr ⟨_, s.cmd, s.env, _, rfl, rfl, rfl⟩)⟩
  | @cancel c reply req n r st bytes ran _ _ hr _ _ ih =>
    obtain ⟨es, hes, hcase⟩ := ih
    obtain ⟨rfl, -, -⟩ := onRequest_reply hr
    refine ⟨.accepted .cancelSession (.reply r) :: es, ?_, ?_⟩
    · intro e he
      rcases List.mem_cons.mp he with rfl | he
      · exact .inl ⟨r, rfl⟩
      · exact hes e he
    · simpa [Ran.after] using hcase
  | @refuse c reply req n e bytes ran _ _ _ _ _ ih =>
    obtain ⟨es, hes, hcase⟩ := ih
    refine ⟨.refused req e :: es, ?_, ?_⟩
    · intro e' he
      rcases List.mem_cons.mp he with rfl | he
      · exact .inr ⟨req, e, rfl⟩
      · exact hes e' he
    · simpa [Ran.after] using hcase

theorem feedGreeter_shaped (fromSlice : List UInt8 → Option Request) (c : Connection)
    (bs : List UInt8) : (c.feedGreeter fromSlice bs).Shaped [] := by
  by_cases hc : c.closed = true
  · rw [feedGreeter_closed hc]
    exact Ran.shaped_of_events rfl (.inr ⟨[], rfl⟩)
  rcases feedGreeter_cases fromSlice (by simpa using hc) bs with
    ⟨-, reply, heq⟩ | ⟨-, -, e, heq⟩ | ⟨-, -, hd⟩
  · rw [heq]
    exact Ran.shaped_of_events rfl (.inr ⟨reply, rfl⟩)
  · rw [heq]
    exact Ran.shaped_of_events rfl (.inl ⟨e, rfl⟩)
  · exact drives_shaped hd

theorem resumePam_shaped (fromSlice : List UInt8 → Option Request) (c : Connection)
    (step : PamStep) : (c.resumePam fromSlice step).Shaped [.resumed step] := by
  by_cases hc : c.closed = true
  · rw [resumePam_closed hc]
    exact Ran.shaped_of_events rfl (.inr ⟨[], rfl⟩)
  rcases resumePam_cases fromSlice (by simpa using hc) step with
    ⟨-, reply, heq⟩ | ⟨-, e, -, heq⟩ | ⟨-, reply, ran, -, hd, heq⟩
  · rw [heq]
    exact Ran.shaped_of_events rfl (.inr ⟨reply, rfl⟩)
  · rw [heq]
    exact Ran.shaped_of_events rfl (.inl ⟨e, rfl⟩)
  · obtain ⟨es, hes, hcase⟩ := drives_shaped hd
    rw [heq]
    exact ⟨es, hes, by simpa [Ran.after] using hcase⟩

/-- An idle machine leaves `Idle` by a `CreateSession` alone, and that suspends the connection. -/
theorem drives_idle {c : Connection} {reply : List UInt8} {r : Ran}
    (hd : Drives fromSlice c reply r) (hs : c.state = .idle) :
    (r.conn.state = .idle ∧ ∀ reply' response, r.res ≠ .ok ⟨reply', .pam response⟩) ∨
      ∃ reply' u, r.res = .ok ⟨reply', .pam none⟩ ∧
        .accepted (.createSession u) (.pam none) ∈ r.events := by
  induction hd with
  | closed | codec | exhausted => exact .inl ⟨hs, by simp⟩
  | @pam c reply req n response st _ _ hr =>
    obtain ⟨u, -, ⟨-, rfl, rfl⟩ | ⟨hs', -⟩⟩ := onRequest_pam hr
    · exact .inr ⟨reply, u, rfl, by simp⟩
    · simp [hs] at hs'
  | @spawn c reply req n s st bytes _ _ hr _ =>
    cases hs.symm.trans (onRequest_spawn hr).1
  | cancel _ _ hr _ _ ih =>
    rcases ih (onRequest_reply hr).2.2 with h | ⟨reply', u, hres, hm⟩
    · exact .inl h
    · exact .inr ⟨reply', u, hres, List.mem_cons_of_mem _ hm⟩
  | refuse _ _ _ _ _ ih =>
    rcases ih hs with h | ⟨reply', u, hres, hm⟩
    · exact .inl h
    · exact .inr ⟨reply', u, hres, List.mem_cons_of_mem _ hm⟩

theorem feedGreeter_idle (fromSlice : List UInt8 → Option Request) {c : Connection}
    (hc : c.closed = false) (hw : c.awaitingPam = false) (hs : c.state = .idle) (bs : List UInt8) :
    ((c.feedGreeter fromSlice bs).conn.state = .idle ∧
        ∀ reply response, (c.feedGreeter fromSlice bs).res ≠ .ok ⟨reply, .pam response⟩) ∨
      ∃ reply u, (c.feedGreeter fromSlice bs).res = .ok ⟨reply, .pam none⟩ ∧
        .accepted (.createSession u) (.pam none) ∈ (c.feedGreeter fromSlice bs).events := by
  rcases feedGreeter_cases fromSlice hc bs with ⟨hw', -⟩ | ⟨-, -, e, heq⟩ | ⟨-, -, hd⟩
  · simp [hw] at hw'
  · rw [heq]
    exact .inl ⟨hs, by simp⟩
  · exact drives_idle hd hs

/-- The loop gives the machine requests and nothing else. -/
theorem drives_resumed {c : Connection} {reply : List UInt8} {r : Ran}
    (hd : Drives fromSlice c reply r) (step : PamStep) : .resumed step ∉ r.events := by
  induction hd with
  | closed | codec | exhausted | pam | spawn => simp
  | cancel _ _ _ _ _ ih => simpa [Ran.after] using ih
  | refuse _ _ _ _ _ ih => simpa [Ran.after] using ih

theorem feedGreeter_resumed (c : Connection) (bs : List UInt8) (step : PamStep) :
    .resumed step ∉ (c.feedGreeter fromSlice bs).events := by
  by_cases hc : c.closed = true
  · simp [feedGreeter_closed hc]
  rcases feedGreeter_cases fromSlice (by simpa using hc) bs with
    ⟨-, reply, heq⟩ | ⟨-, -, e, heq⟩ | ⟨-, -, hd⟩
  · simp [heq]
  · simp [heq]
  · exact drives_resumed hd step

theorem resumePam_resumed {c : Connection} {step step' : PamStep}
    (h : .resumed step' ∈ (c.resumePam fromSlice step).events) : step' = step := by
  by_cases hc : c.closed = true
  · simpa [resumePam_closed hc] using h
  rcases resumePam_cases fromSlice (by simpa using hc) step with
    ⟨-, reply, heq⟩ | ⟨-, e, -, heq⟩ | ⟨-, reply, ran, -, hd, heq⟩
  · simpa [heq] using h
  · simpa [heq] using h
  · rw [heq] at h
    simpa [Ran.after, drives_resumed hd step'] using h

/-- A stuck connection refuses whatever more it is fed, and stays stuck. -/
theorem feedGreeter_stuck {c : Connection} (h : c.Stuck fromSlice) (bs : List UInt8) :
    (∃ e, (c.feedGreeter fromSlice bs).res = .error e) ∧
      (c.feedGreeter fromSlice bs).conn.Stuck fromSlice := by
  have herr : ∃ e, (c.feedGreeter fromSlice bs).res = .error e := by
    obtain ⟨hc, ha, hbad⟩ := h
    unfold Connection.feedGreeter
    rw [if_neg (by simp [hc]), if_neg (by simp [ha])]
    simp only
    split_ifs with hlen
    · exact ⟨_, rfl⟩
    · rcases hbad with hlong | ⟨e, he⟩
      · simp at hlen
        omega
      · have hd := Framing.tryDecode_error_append bs he
        exact ⟨e, by simp [Connection.drive, hc, tryDecode, hd]⟩
  exact ⟨herr, (feedGreeter_sound fromSlice c bs).2 herr⟩

end Halmasuit.Greetd
