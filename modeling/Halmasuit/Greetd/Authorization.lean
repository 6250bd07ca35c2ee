import Halmasuit.Greetd.Connection
import Halmasuit.Lib.Run

/-!
# Spawn authorization of the greetd connection

Any sequence of `feed_greeter` (arbitrary bytes, arbitrary chunks), `resume_pam` (arbitrary
results) and `broker_closed` calls on a fresh `Connection` is a run of `step`, and its trace
holds every request the machine accepted or refused, every PAM result and EOF fed in, and what
each call returned.

`ConnInv` relates the connection to its trace: a suspended or challenged machine stands behind
the `CreateSession` it accepted last (`Begun`), an authenticated one behind the `Success`
resumed for it (`Granted`), and a connection that is still open has returned neither a `Spawn`
nor a `Close`. `drives_inv` carries it through the decode loop, `step_inv` through one call.

- **`spawn_authorized`**: on every run, each `Demand::Spawn` carries the identity of the `Success`
  resumed last, resumed after the last accepted `CreateSession` with no cancel, failure or broker
  EOF since; there is at most one; and after it, or after any `Close`, every call returns `Close`.
-/

namespace Halmasuit.Greetd

open Halmasuit.Lib
open Halmasuit.Lib.Framing (CodecError)

/-- A call on the connection. -/
inductive Call where
  | feedGreeter (bytes : List UInt8)
  | resumePam (step : PamStep)
  | brokerClosed

/-- The call a `Call` names. -/
def Connection.call (fromSlice : List UInt8 → Option Request) (c : Connection) : Call → Ran
  | .feedGreeter bytes => c.feedGreeter fromSlice bytes
  | .resumePam step => c.resumePam fromSlice step
  | .brokerClosed => c.brokerClosed

/-- What a call returned, as an event. -/
def Ran.result (r : Ran) : ConnEvent :=
  match r.res with
  | .ok out => .returned out
  | .error e => .failed e

/-- One call as a step of the machine: the trace gets what the call did and what it returned. -/
def Connection.step (fromSlice : List UInt8 → Option Request) (c : Connection) (i : Call) :
    Connection × List ConnEvent :=
  ((c.call fromSlice i).conn, (c.call fromSlice i).events ++ [(c.call fromSlice i).result])

/-! ## What the trace says -/

/-- The accepted `CreateSession` of `u`. -/
def IsCreate (u : String) (e : ConnEvent) : Prop :=
  e = .accepted (.createSession u) (.pam none)

/-- Neither an accepted `CreateSession`, nor a `CancelSession`, nor a `Failure`, nor broker EOF. -/
def Quiet : ConnEvent → Prop
  | .accepted (.createSession _) _ => False
  | .accepted .cancelSession _ => False
  | .refused .cancelSession _ => False
  | .resumed (.failure _) => False
  | .brokerClosed => False
  | _ => True

/-- A `Success` resumed. -/
def IsSuccess : ConnEvent → Prop
  | .resumed (.success _ _ _) => True
  | _ => False

/-- The last accepted `CreateSession` names `u`, and nothing ended its round since. -/
def Begun (u : String) (tr : List ConnEvent) : Prop := Since (IsCreate u) Quiet tr

/-- The last `Success` resumed is this one; it came after the last accepted `CreateSession`, and
nothing ended that round before it or since. -/
def Granted (n : String) (uid gid : UInt32) (tr : List ConnEvent) : Prop :=
  ∃ a b, tr = a ++ .resumed (.success n uid gid) :: b ∧ (∃ u, Begun u a) ∧
    ∀ e ∈ b, Quiet e ∧ ¬ IsSuccess e

/-- A call returned `Spawn` or `Close`. -/
def Terminal : ConnEvent → Prop
  | .returned ⟨_, .spawn _⟩ => True
  | .returned ⟨_, .close⟩ => True
  | _ => False

/-- What a call returned, with `Close` the only allowed value. -/
def ClosesOnly : ConnEvent → Prop
  | .returned out => out.demand = .close
  | .failed _ => False
  | _ => True

/-- The event of a call that returned `Spawn`. -/
def isSpawn : ConnEvent → Bool
  | .returned ⟨_, .spawn _⟩ => true
  | _ => false

/-- What every trace of a connection satisfies. -/
structure TraceInv (tr : List ConnEvent) : Prop where
  /-- Every `Spawn` was granted by what came before it. -/
  spawn : ∀ pre post reply s, tr = pre ++ .returned ⟨reply, .spawn s⟩ :: post →
    Granted s.username s.uid s.gid pre
  /-- After a `Spawn` or a `Close` only `Close` is returned. -/
  closes : ∀ pre post e, tr = pre ++ e :: post → Terminal e → ∀ e' ∈ post, ClosesOnly e'

/-- **The connection against its trace.** -/
structure ConnInv (c : Connection) (tr : List ConnEvent) : Prop where
  trace : TraceInv tr
  /-- A round in flight belongs to the last accepted `CreateSession`. -/
  begun : c.closed = false → ∀ u, c.state = .authPending u ∨ c.state = .authenticating u →
    Begun u tr
  /-- An authenticated machine holds the identity of the last `Success`. -/
  granted : c.closed = false → ∀ n uid gid, c.state = .authSuccess n uid gid →
    Granted n uid gid tr
  /-- The suspend flag mirrors the state. -/
  awaiting : c.closed = false → (c.awaitingPam = true ↔ ∃ u, c.state = .authPending u)
  /-- An open connection has not finished. -/
  fresh : c.closed = false → ∀ e ∈ tr, ¬ Terminal e

/-! ## Traces grow at the end -/

theorem Granted.append {n : String} {uid gid : UInt32} {tr : List ConnEvent}
    (h : Granted n uid gid tr) {es : List ConnEvent}
    (hes : ∀ e ∈ es, Quiet e ∧ ¬ IsSuccess e) : Granted n uid gid (tr ++ es) := by
  obtain ⟨a, b, rfl, hu, hb⟩ := h
  refine ⟨a, b ++ es, by simp, hu, fun e he => ?_⟩
  rcases List.mem_append.mp he with h' | h'
  · exact hb e h'
  · exact hes e h'

/-- An event that is no result is neither a spawn nor terminal, whatever came before. -/
theorem TraceInv.append_event {tr : List ConnEvent} (h : TraceInv tr) {e : ConnEvent}
    (hr : ∀ out, e ≠ .returned out) (hf : ∀ err, e ≠ .failed err) : TraceInv (tr ++ [e]) := by
  refine ⟨fun pre post reply s heq => ?_, fun pre post t heq ht => ?_⟩
  · rcases split_append heq with ⟨post', h1, -⟩ | ⟨pre', h1, -⟩
    · exact h.spawn _ _ _ _ h1
    · cases pre' <;> simp at h1
      exact absurd h1.1 (hr _)
  · rcases split_append heq with ⟨post', h1, rfl⟩ | ⟨pre', h1, -⟩
    · intro e' he'
      rcases List.mem_append.mp he' with h' | h'
      · exact h.closes _ _ _ h1 ht e' h'
      · obtain rfl : e' = e := by simpa using h'
        cases e' with
        | returned out => exact absurd rfl (hr out)
        | failed err => exact absurd rfl (hf err)
        | _ => trivial
    · cases pre' <;> simp at h1
      obtain ⟨rfl, rfl⟩ := h1
      simp

/-- The result of a call joins the trace: `Close` always may, and anything else while the
connection had not finished, a `Spawn` if it is granted. -/
theorem TraceInv.append_result {tr : List ConnEvent} (h : TraceInv tr) {e : ConnEvent}
    (hspawn : ∀ reply s, e = .returned ⟨reply, .spawn s⟩ → Granted s.username s.uid s.gid tr)
    (hclose : ClosesOnly e ∨ ∀ e' ∈ tr, ¬ Terminal e') : TraceInv (tr ++ [e]) := by
  refine ⟨fun pre post reply s heq => ?_, fun pre post t heq ht => ?_⟩
  · rcases split_append heq with ⟨post', h1, -⟩ | ⟨pre', h1, rfl⟩
    · exact h.spawn _ _ _ _ h1
    · cases pre' <;> simp at h1
      obtain ⟨rfl, rfl⟩ := h1
      simpa using hspawn reply s rfl
  · rcases split_append heq with ⟨post', h1, rfl⟩ | ⟨pre', h1, -⟩
    · intro e' he'
      rcases List.mem_append.mp he' with h' | h'
      · exact h.closes _ _ _ h1 ht e' h'
      · obtain rfl : e' = e := by simpa using h'
        rcases hclose with hc | hc
        · exact hc
        · exact absurd ht (hc t (by simp [h1]))
    · cases pre' <;> simp at h1
      obtain ⟨rfl, rfl⟩ := h1
      simp

/-! ## Through the decode loop -/

variable {fromSlice : List UInt8 → Option Request}

/-- What the decode loop guarantees of its result, over the trace of the call so far. -/
structure DriveGood (tr : List ConnEvent) (r : Ran) : Prop where
  inv : ConnInv r.conn (tr ++ r.events)
  /-- A `Spawn` is granted, and only it closes the connection. -/
  spawn : ∀ reply s, r.res = .ok ⟨reply, .spawn s⟩ →
    Granted s.username s.uid s.gid (tr ++ r.events) ∧ r.conn.closed = true
  open_ : (∀ reply s, r.res ≠ .ok ⟨reply, .spawn s⟩) → r.conn.closed = false
  notClose : ∀ reply, r.res ≠ .ok ⟨reply, .close⟩
  fresh : ∀ e ∈ tr ++ r.events, ¬ Terminal e

theorem DriveGood.after {tr : List ConnEvent} {r : Ran} {e : ConnEvent}
    (h : DriveGood (tr ++ [e]) r) : DriveGood tr (r.after e) := by
  have heq : tr ++ (r.after e).events = tr ++ [e] ++ r.events := by simp [Ran.after]
  refine ⟨?_, ?_, h.open_, h.notClose, ?_⟩
  · rw [heq]; exact h.inv
  · rw [heq]; exact h.spawn
  · rw [heq]; exact h.fresh

/-- An accepted or refused request keeps what the trace says of an open connection. -/
theorem ConnInv.request {c : Connection} {tr : List ConnEvent} {e : ConnEvent}
    (h : ConnInv c tr) (c' : Connection) (hc : c.closed = false)
    (he : (∃ req a, e = .accepted req a) ∨ ∃ req err, e = .refused req err)
    (hbegun : c'.closed = false → ∀ u, c'.state = .authPending u ∨ c'.state = .authenticating u →
      Begun u (tr ++ [e]))
    (hgranted : c'.closed = false → ∀ n uid gid, c'.state = .authSuccess n uid gid →
      Granted n uid gid (tr ++ [e]))
    (hawait : c'.closed = false → (c'.awaitingPam = true ↔ ∃ u, c'.state = .authPending u)) :
    ConnInv c' (tr ++ [e]) ∧ ∀ e' ∈ tr ++ [e], ¬ Terminal e' := by
  have hfresh : ∀ e' ∈ tr ++ [e], ¬ Terminal e' := by
    intro e' he'
    rcases List.mem_append.mp he' with h' | h'
    · exact h.fresh hc e' h'
    · obtain rfl : e' = e := by simpa using h'
      rcases he with ⟨req, a, rfl⟩ | ⟨req, err, rfl⟩ <;> exact id
  refine ⟨⟨h.trace.append_event ?_ ?_, hbegun, hgranted, hawait, fun _ => hfresh⟩, hfresh⟩
  · rintro out rfl
    rcases he with ⟨req, a, h'⟩ | ⟨req, err, h'⟩ <;> simp at h'
  · rintro err rfl
    rcases he with ⟨req, a, h'⟩ | ⟨req, err', h'⟩ <;> simp at h'

/-- A request refused by a machine that is not idle-with-nothing is quiet: a `CancelSession` is
refused in `Idle` and `Spawning` alone. -/
theorem refused_quiet {s : SessionState} {req : Request} {e : StateMachineError}
    (h : s.onRequest req = .error e) (hs : s ≠ .idle)
    (hsp : ∀ n u g cmd env, s ≠ .spawning n u g cmd env) :
    Quiet (.refused req e) := by
  cases req with
  | cancelSession =>
    cases s with
    | idle => exact absurd rfl hs
    | spawning n u g cmd env => exact absurd rfl (hsp n u g cmd env)
    | _ => simp [SessionState.onRequest] at h
  | _ => trivial

/-- **The decode loop keeps the invariant.** -/
theorem drives_inv {c : Connection} {reply : List UInt8} {r : Ran}
    (hd : Drives fromSlice c reply r) :
    ∀ tr, ConnInv c tr → c.closed = false → c.awaitingPam = false → DriveGood tr r := by
  induction hd with
  | closed hc => intro tr _ hopen; exact absurd hc (by simp [hopen])
  | codec hc _ =>
    intro tr h _ _
    exact ⟨by simpa using h, by simp, fun _ => hc, by simp, by simpa using h.fresh hc⟩
  | exhausted hc _ =>
    intro tr h _ _
    exact ⟨by simpa using h, by simp, fun _ => hc, by simp, by simpa using h.fresh hc⟩
  | @pam c reply req n response st hc _ hr =>
    intro tr h _ _
    obtain ⟨u₀, rfl, hreq⟩ := onRequest_pam hr
    have hbegun : Begun u₀ (tr ++ [ConnEvent.accepted req (.pam response)]) := by
      rcases hreq with ⟨-, rfl, rfl⟩ | ⟨hs, rfl⟩
      · exact Since.now tr rfl
      · exact (h.begun hc u₀ (.inr hs)).append (by simp [Quiet])
    have hreq := h.request
      { c with state := .authPending u₀, readBuf := c.readBuf.drop n, awaitingPam := true } hc
        (.inl ⟨req, .pam response, rfl⟩)
      (fun _ u hu => by
        obtain rfl : u₀ = u := by simpa using hu
        exact hbegun)
      (by simp) (by simp)
    exact ⟨hreq.1, by simp, fun _ => hc, by simp, hreq.2⟩
  | @spawn c reply req n s st bytes hc _ hr _ =>
    intro tr h _ _
    have hgr : Granted s.username s.uid s.gid (tr ++ [ConnEvent.accepted req (.spawn s)]) := by
      obtain ⟨hs, rfl, -⟩ := onRequest_spawn hr
      exact (h.granted hc _ _ _ hs).append (by simp [Quiet, IsSuccess])
    have hreq := h.request
      { c with state := st, readBuf := c.readBuf.drop n, closed := true } hc
        (.inl ⟨req, .spawn s, rfl⟩) (by simp) (by simp) (by simp)
    refine ⟨hreq.1, ?_, ?_, by simp, hreq.2⟩
    · intro reply' s' heq
      obtain ⟨-, rfl⟩ : reply ++ bytes = reply' ∧ s = s' := by simpa using heq
      exact ⟨hgr, rfl⟩
    · intro hno
      exact absurd rfl (hno (reply ++ bytes) s)
  | @cancel c reply req n r st bytes ran hc _ hr _ _ ih =>
    intro tr h hopen haw
    obtain ⟨-, -, rfl⟩ := onRequest_reply hr
    refine DriveGood.after (ih _ ?_ hopen haw)
    exact (h.request _ hc (.inl ⟨req, .reply r, rfl⟩) (by simp) (by simp) (by simp [haw])).1
  | @refuse c reply req n e bytes ran hc _ hr _ _ ih =>
    intro tr h hopen haw
    refine DriveGood.after (ih _ ?_ hopen haw)
    refine (h.request { c with readBuf := c.readBuf.drop n } hc (.inr ⟨req, e, rfl⟩)
      ?_ ?_ (fun _ => h.awaiting hc)).1
    · intro _ u hu
      refine (h.begun hc u hu).append ?_
      intro e' he'
      obtain rfl : e' = .refused req e := by simpa using he'
      refine refused_quiet hr ?_ ?_ <;> rcases hu with hu | hu <;> simp_all
    · intro _ nm uid gid hs
      refine (h.granted hc nm uid gid hs).append ?_
      intro e' he'
      obtain rfl : e' = .refused req e := by simpa using he'
      refine ⟨refused_quiet hr ?_ ?_, id⟩ <;> simp_all

/-! ## Through one call -/

/-- The result of the decode loop, with what the call returned put behind its events. -/
theorem DriveGood.result {tr : List ConnEvent} {r : Ran} (h : DriveGood tr r) :
    ConnInv r.conn (tr ++ (r.events ++ [r.result])) := by
  rw [← List.append_assoc]
  have hnt : (∀ reply s, r.res ≠ .ok ⟨reply, .spawn s⟩) → ¬ Terminal r.result := by
    intro hno hterm
    unfold Ran.result at hterm
    split at hterm
    · rename_i out hres
      obtain ⟨reply, d⟩ := out
      cases d with
      | spawn s => exact hno reply s hres
      | close => exact h.notClose reply hres
      | _ => exact hterm
    · exact hterm
  have hspawn : ∀ reply s, r.result = .returned ⟨reply, .spawn s⟩ →
      r.res = .ok ⟨reply, .spawn s⟩ := by
    intro reply s heq
    unfold Ran.result at heq
    split at heq
    · rename_i out hres
      rw [hres]
      simpa using heq
    · simp at heq
  have htrace : TraceInv (tr ++ r.events ++ [r.result]) :=
    h.inv.trace.append_result (fun reply s heq => (h.spawn reply s (hspawn reply s heq)).1)
      (.inr h.fresh)
  -- a result that leaves the connection open is quiet
  have hq : ∀ e ∈ [r.result], Quiet e ∧ ¬ IsSuccess e := by
    intro e he
    obtain rfl : e = r.result := by simpa using he
    unfold Ran.result
    split <;> exact ⟨trivial, id⟩
  refine ⟨htrace, fun hc u hu => (h.inv.begun hc u hu).append fun e he => (hq e he).1,
    fun hc n uid gid hs => (h.inv.granted hc n uid gid hs).append hq, h.inv.awaiting, ?_⟩
  intro hc e he
  rcases List.mem_append.mp he with h' | h'
  · exact h.fresh e h'
  · obtain rfl : e = r.result := by simpa using h'
    refine hnt fun reply s hres => ?_
    have := (h.spawn reply s hres).2
    simp [hc] at this

/-- A call that returns `Close` and leaves the connection closed. -/
theorem TraceInv.close {c : Connection} {tr es : List ConnEvent} {reply : List UInt8}
    (h : TraceInv tr) (hc : c.closed = true)
    (hes : es = [] ∨ (∃ step, es = [.resumed step]) ∨ es = [.brokerClosed]) :
    ConnInv c (tr ++ (es ++ [ConnEvent.returned ⟨reply, .close⟩])) := by
  have h' : TraceInv (tr ++ es) := by
    rcases hes with rfl | ⟨step, rfl⟩ | rfl
    · simpa using h
    · exact h.append_event (by simp) (by simp)
    · exact h.append_event (by simp) (by simp)
  rw [← List.append_assoc]
  exact ⟨h'.append_result (by simp) (.inl rfl), by simp [hc], by simp [hc], by simp [hc],
    by simp [hc]⟩

/-- The connection after a PAM result is consumed, before the loop drains the buffer. -/
theorem ConnInv.resume {c : Connection} {tr : List ConnEvent} (h : ConnInv c tr)
    (hc : c.closed = false) (ha : c.awaitingPam = true) (step : PamStep) :
    ConnInv { c with awaitingPam := false, state := (c.state.onPamResult step).1 }
      (tr ++ [ConnEvent.resumed step]) := by
  obtain ⟨u, hu⟩ := (h.awaiting hc).mp ha
  have hb := h.begun hc u (.inl hu)
  have hfresh : ∀ e ∈ tr ++ [ConnEvent.resumed step], ¬ Terminal e := by
    intro e he
    rcases List.mem_append.mp he with h' | h'
    · exact h.fresh hc e h'
    · obtain rfl : e = .resumed step := by simpa using h'
      exact id
  refine ⟨h.trace.append_event (by simp) (by simp), ?_, ?_, ?_, fun _ => hfresh⟩
  · intro _ u' hu'
    simp only [hu, onPamResult_spec] at hu'
    cases step with
    | challenge kind prompt =>
      obtain rfl : u = u' := by simpa using hu'
      exact hb.append (by simp [Quiet])
    | success n uid gid => simp at hu'
    | failure reason => simp at hu'
  · intro _ n uid gid hs
    simp only [hu, onPamResult_spec] at hs
    cases step with
    | challenge kind prompt => simp at hs
    | success n' uid' gid' =>
      obtain ⟨rfl, rfl, rfl⟩ : n' = n ∧ uid' = uid ∧ gid' = gid := by simpa using hs
      exact ⟨tr, [], rfl, ⟨u, hb⟩, by simp⟩
    | failure reason => simp at hs
  · intro _
    simp only [hu, onPamResult_spec]
    cases step <;> simp

/-- **One call keeps the invariant.** -/
theorem step_inv (fromSlice : List UInt8 → Option Request) (c : Connection) (tr : List ConnEvent)
    (i : Call) (h : ConnInv c tr) :
    ConnInv (c.step fromSlice i).1 (tr ++ (c.step fromSlice i).2) := by
  by_cases hc : c.closed = true
  · -- a closed connection answers `Close`
    cases i with
    | feedGreeter bytes =>
      simp only [Connection.step, Connection.call, feedGreeter_closed hc, Ran.result]
      exact h.trace.close hc (.inl rfl)
    | resumePam step =>
      simp only [Connection.step, Connection.call, resumePam_closed hc, Ran.result]
      exact h.trace.close hc (.inr (.inl ⟨step, rfl⟩))
    | brokerClosed =>
      simp only [Connection.step, Connection.call, brokerClosed_closed hc, Ran.result]
      exact h.trace.close hc (.inr (.inr rfl))
  have hc : c.closed = false := by simpa using hc
  cases i with
  | feedGreeter bytes =>
    simp only [Connection.step, Connection.call]
    rcases feedGreeter_cases fromSlice hc bytes with
      ⟨-, reply, heq⟩ | ⟨ha, -, e, heq⟩ | ⟨ha, -, hd⟩
    · rw [heq]
      exact h.trace.close rfl (.inl rfl)
    · rw [heq]
      have hg : DriveGood tr ⟨{ c with readBuf := c.readBuf ++ bytes }, [], .error e⟩ :=
        ⟨by simpa using ⟨h.trace, h.begun, h.granted, h.awaiting, h.fresh⟩, by simp, fun _ => hc,
          by simp, by simpa using h.fresh hc⟩
      exact hg.result
    · exact (drives_inv hd tr ⟨h.trace, h.begun, h.granted, h.awaiting, h.fresh⟩ hc ha).result
  | resumePam step =>
    simp only [Connection.step, Connection.call]
    rcases resumePam_cases fromSlice hc step with
      ⟨-, reply, heq⟩ | ⟨ha, e, -, heq⟩ | ⟨ha, reply, ran, -, hd, heq⟩
    · rw [heq]
      exact h.trace.close rfl (.inr (.inl ⟨step, rfl⟩))
    · rw [heq]
      have hr := h.resume hc ha step
      have hg : DriveGood tr
          ⟨{ c with awaitingPam := false, state := (c.state.onPamResult step).1 },
            [.resumed step], .error e⟩ :=
        ⟨hr, by simp, fun _ => hc, by simp, hr.fresh hc⟩
      exact hg.result
    · rw [heq]
      exact (DriveGood.after (drives_inv hd _ (h.resume hc ha step) hc rfl)).result
  | brokerClosed =>
    obtain ⟨st, reply, -, heq⟩ := brokerClosed_open hc
    simp only [Connection.step, Connection.call, heq, Ran.result]
    exact h.trace.close rfl (.inr (.inr rfl))

theorem new_inv : ConnInv Connection.new [] :=
  ⟨⟨by simp, by simp⟩, by simp [Connection.new], by simp [Connection.new],
    by simp [Connection.new], by simp⟩

/-! ## Whole runs -/

/-- Where every result after a terminal one is `Close`, at most one is a `Spawn`. -/
theorem TraceInv.count_spawn_le : ∀ tr : List ConnEvent,
    (∀ pre post e, tr = pre ++ e :: post → Terminal e → ∀ e' ∈ post, ClosesOnly e') →
      tr.countP isSpawn ≤ 1
  | [], _ => by simp
  | e :: tr, h => by
    have ih := TraceInv.count_spawn_le tr fun pre post t heq =>
      h (e :: pre) post t (by simp [heq])
    by_cases he : isSpawn e = true
    · have hterm : Terminal e := by
        unfold isSpawn at he
        split at he
        · trivial
        · simp at he
      have hzero : tr.countP isSpawn = 0 := by
        rw [List.countP_eq_zero]
        intro e' he' hs
        have hclose := h [] tr e rfl hterm e' he'
        unfold isSpawn at hs
        split at hs
        · simp [ClosesOnly] at hclose
        · simp at hs
      have hone : (e :: tr).countP isSpawn = 1 := by rw [List.countP_cons, hzero, if_pos he]
      omega
    · rw [List.countP_cons, if_neg he]
      exact ih

/-- **Spawn authorization.** On every run of a fresh connection, whatever bytes, PAM results and
EOFs it is given:

- a returned `Spawn` carries the username, uid and gid of the last `Success` resumed, which was
  resumed after the last accepted `CreateSession` with no `CancelSession`, `Failure` or broker
  EOF in between or since;
- at most one `Spawn` is returned;
- after a `Spawn` or a `Close` every further call returns `Close`. -/
theorem spawn_authorized (fromSlice : List UInt8 → Option Request) (calls : List Call) :
    let tr := (run (Connection.step fromSlice) Connection.new calls).2
    (∀ pre post reply s, tr = pre ++ .returned ⟨reply, .spawn s⟩ :: post →
      Granted s.username s.uid s.gid pre) ∧
    tr.countP isSpawn ≤ 1 ∧
    (∀ pre post e, tr = pre ++ e :: post → Terminal e → ∀ e' ∈ post, ClosesOnly e') := by
  have h := run_invariant_init ConnInv new_inv
    (step_inv fromSlice) calls
  exact ⟨h.trace.spawn, TraceInv.count_spawn_le _ h.trace.closes, h.trace.closes⟩

end Halmasuit.Greetd
