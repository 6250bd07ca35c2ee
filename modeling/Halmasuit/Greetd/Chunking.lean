import Halmasuit.Greetd.Replies

/-!
# How the stream is cut

`feed_greeter` is called with whatever the socket had. Where a first chunk leaves the connection
waiting for more (`Continue`), the loop stopped at an incomplete frame, and the next call goes on
from there as if it had never stopped: `drives_append` is that step, by induction on the loop, and
`drives_after` says that what the loop does not depend on what it has written.

- `feed_chunks`: two calls and one call with the same bytes end in the same state and with the same
  result, the replies concatenated;
- **`chunking_iff`**: they hand back the same bytes exactly when no broken frame in the second chunk
  stands behind a request of the first.

A `CodecError` leaves `drive` through `?` and takes the replies collected so far with it, those of
`Replies`: in one call the answer to a request before the broken frame is dropped, and in two the
first has handed it back (`broken_frame_swallows_reply`).
-/

namespace Halmasuit.Greetd

open Halmasuit.Lib
open Halmasuit.Lib.Framing (CodecError)

variable {fromSlice : List UInt8 → Option Request}

/-- The result of the loop on a connection is the only one. -/
theorem drives_unique {c : Connection} {reply : List UInt8} {r r' : Ran}
    (h : Drives fromSlice c reply r) (h' : Drives fromSlice c reply r') : r = r' := by
  induction h generalizing r' with
  | closed hc => cases h' <;> simp_all
  | codec hc hd => cases h' <;> simp_all
  | exhausted hc hd => cases h' <;> simp_all
  | pam hc hd hr => cases h' <;> simp_all
  | spawn hc hd hr he => cases h' <;> simp_all
  | cancel hc hd hr he _ ih =>
    cases h' with
    | cancel hc' hd' hr' he' next' =>
      simp only [hd, Except.ok.injEq, Option.some.injEq, Prod.mk.injEq] at hd'
      obtain ⟨rfl, rfl⟩ := hd'
      simp only [hr, Except.ok.injEq, Prod.mk.injEq, Action.reply.injEq] at hr'
      obtain ⟨rfl, rfl⟩ := hr'
      obtain rfl := Except.ok.inj (he.symm.trans he')
      rw [ih next']
    | _ => simp_all
  | refuse hc hd hr he _ ih =>
    cases h' with
    | refuse hc' hd' hr' he' next' =>
      simp only [hd, Except.ok.injEq, Option.some.injEq, Prod.mk.injEq] at hd'
      obtain ⟨rfl, rfl⟩ := hd'
      obtain rfl := Except.error.inj (hr.symm.trans hr')
      obtain rfl := Except.ok.inj (he.symm.trans he')
      rw [ih next']
    | _ => simp_all

/-- A result with bytes before its reply. -/
def replyAfter (pre : List UInt8) (res : Except Framing.CodecError Outcome) :
    Except Framing.CodecError Outcome :=
  match res with
  | .ok o => .ok ⟨pre ++ o.reply, o.demand⟩
  | .error e => .error e

/-- What the loop has written is carried along and read by nothing. -/
theorem drives_after {c : Connection} {reply : List UInt8} {r : Ran}
    (h : Drives fromSlice c reply r) (pre : List UInt8) :
    ∃ r', Drives fromSlice c (pre ++ reply) r' ∧ r'.conn = r.conn ∧
      r'.res = replyAfter pre r.res := by
  induction h with
  | closed hc => exact ⟨_, .closed hc, rfl, rfl⟩
  | codec hc hd => exact ⟨_, .codec hc hd, rfl, rfl⟩
  | exhausted hc hd => exact ⟨_, .exhausted hc hd, rfl, rfl⟩
  | pam hc hd hr => exact ⟨_, .pam hc hd hr, rfl, rfl⟩
  | spawn hc hd hr he =>
    refine ⟨_, .spawn hc hd hr he, rfl, ?_⟩
    simp [replyAfter, List.append_assoc]
  | cancel hc hd hr he _ ih =>
    obtain ⟨r', hr', hconn, hres⟩ := ih
    rw [← List.append_assoc] at hr'
    exact ⟨_, .cancel hc hd hr he hr', hconn, hres⟩
  | refuse hc hd hr he _ ih =>
    obtain ⟨r', hr', hconn, hres⟩ := ih
    rw [← List.append_assoc] at hr'
    exact ⟨_, .refuse hc hd hr he hr', hconn, hres⟩

/-- Bytes taken off the front of a buffer leave those at its end. -/
theorem drop_append_of_decoded {buf : List UInt8} {req : Request} {n : Nat}
    (hd : tryDecode fromSlice buf = .ok (some (req, n))) (ext : List UInt8) :
    (buf ++ ext).drop n = buf.drop n ++ ext :=
  List.drop_append_of_le_length (Framing.tryDecode_some hd).2.1

/-- **The loop goes on where it stopped.** A loop that ended for want of bytes, and then one over
the rest of them, are one loop. -/
theorem drives_append {c : Connection} {reply : List UInt8} {r : Ran}
    (h : Drives fromSlice c reply r) {reply' : List UInt8} (hres : r.res = .ok ⟨reply', .continue⟩)
    (ext : List UInt8) {r₂ : Ran}
    (h₂ : Drives fromSlice { r.conn with readBuf := r.conn.readBuf ++ ext } reply' r₂) :
    ∃ r', Drives fromSlice { c with readBuf := c.readBuf ++ ext } reply r' ∧
      r'.conn = r₂.conn ∧ r'.res = r₂.res := by
  induction h with
  | closed hc => simp at hres
  | codec hc hd => simp at hres
  | exhausted hc hd =>
    simp only [Except.ok.injEq, Outcome.mk.injEq, and_true] at hres
    subst hres
    exact ⟨r₂, h₂, rfl, rfl⟩
  | pam hc hd hr => simp at hres
  | spawn hc hd hr he => simp at hres
  | cancel hc hd hr he _ ih =>
    obtain ⟨r', hr', hconn, hres'⟩ := ih hres h₂
    rw [← drop_append_of_decoded hd] at hr'
    exact ⟨_, .cancel hc (Framing.tryDecode_some_append ext hd) hr he hr', hconn, hres'⟩
  | refuse hc hd hr he _ ih =>
    obtain ⟨r', hr', hconn, hres'⟩ := ih hres h₂
    rw [← drop_append_of_decoded hd] at hr'
    exact ⟨_, .refuse hc (Framing.tryDecode_some_append ext hd) hr he hr', hconn, hres'⟩

/-- The loop only takes bytes off the buffer. -/
theorem drives_readBuf_le {c : Connection} {reply : List UInt8} {r : Ran}
    (h : Drives fromSlice c reply r) : r.conn.readBuf.length ≤ c.readBuf.length := by
  induction h with
  | closed hc => exact Nat.le_refl _
  | codec hc hd => exact Nat.le_refl _
  | exhausted hc hd => exact Nat.le_refl _
  | pam hc hd hr => simp
  | spawn hc hd hr he => simp
  | cancel hc hd hr he _ ih =>
    refine Nat.le_trans ih ?_
    simp
  | refuse hc hd hr he _ ih =>
    refine Nat.le_trans ih ?_
    simp

/-- A call within the cap is a run of the loop. -/
theorem feedGreeter_drives {c : Connection} (hc : c.closed = false) (ha : c.awaitingPam = false)
    {bytes : List UInt8} (hlen : (c.readBuf ++ bytes).length ≤ maxReadBuf) :
    Drives fromSlice { c with readBuf := c.readBuf ++ bytes } []
      (c.feedGreeter fromSlice bytes) := by
  rcases feedGreeter_cases fromSlice hc bytes with ⟨ha', -⟩ | ⟨-, hlen', -⟩ | ⟨-, -, hd⟩
  · simp [ha] at ha'
  · omega
  · exact hd

/-- **Two calls are one.** -/
theorem feedGreeter_append {c : Connection} (hc : c.closed = false) (ha : c.awaitingPam = false)
    {b₁ b₂ : List UInt8} (hlen : (c.readBuf ++ b₁ ++ b₂).length ≤ maxReadBuf) {reply : List UInt8}
    (hres : (c.feedGreeter fromSlice b₁).res = .ok ⟨reply, .continue⟩) :
    (c.feedGreeter fromSlice (b₁ ++ b₂)).conn
        = ((c.feedGreeter fromSlice b₁).conn.feedGreeter fromSlice b₂).conn ∧
      (c.feedGreeter fromSlice (b₁ ++ b₂)).res = replyAfter reply
        ((c.feedGreeter fromSlice b₁).conn.feedGreeter fromSlice b₂).res := by
  have hlen' := hlen
  simp only [List.length_append] at hlen'
  have h₁ :
      Drives fromSlice { c with readBuf := c.readBuf ++ b₁ } [] (c.feedGreeter fromSlice b₁) :=
    feedGreeter_drives hc ha (by rw [List.length_append]; omega)
  have hle := drives_readBuf_le h₁
  simp only [List.length_append] at hle
  -- the first call left the connection open, with what it did not read in the buffer
  obtain ⟨hc₁, ha₁⟩ : (c.feedGreeter fromSlice b₁).conn.closed = false ∧
      (c.feedGreeter fromSlice b₁).conn.awaitingPam = false := by
    have hs := (feedGreeter_sound fromSlice c b₁).1
    rwa [Ran.Sound, hres] at hs
  have h₂ : Drives fromSlice { (c.feedGreeter fromSlice b₁).conn with
      readBuf := (c.feedGreeter fromSlice b₁).conn.readBuf ++ b₂ } []
        ((c.feedGreeter fromSlice b₁).conn.feedGreeter fromSlice b₂) :=
    feedGreeter_drives hc₁ ha₁ (by rw [List.length_append]; omega)
  obtain ⟨r, hr, hconn, hres'⟩ := drives_after h₂ reply
  rw [List.append_nil] at hr
  obtain ⟨r', hr', hconn', hres''⟩ := drives_append h₁ hres b₂ hr
  have hone : Drives fromSlice { c with readBuf := c.readBuf ++ b₁ ++ b₂ } []
      (c.feedGreeter fromSlice (b₁ ++ b₂)) := by
    rw [List.append_assoc]
    exact feedGreeter_drives hc ha (by rw [← List.append_assoc]; exact hlen)
  rw [drives_unique hone hr']
  exact ⟨hconn'.trans hconn, hres''.trans hres'⟩

/-- **Chunking does not matter**, and the suspend flag mirrors the state. Of every reachable
connection that is not closed: it awaits PAM exactly in `AuthPending`; and if it does not, and a
first chunk gives `Continue`, feeding a second chunk ends in the same state as feeding both at once,
with the same demand and the same reply, or with the same error. -/
theorem feed_chunks (fromSlice : List UInt8 → Option Request) (calls : List Call) :
    let c := (run (Connection.step fromSlice) Connection.new calls).1
    c.closed = false →
    (c.awaitingPam = true ↔ ∃ u, c.state = .authPending u) ∧
    ∀ b₁ b₂ reply, c.awaitingPam = false → (c.readBuf ++ b₁ ++ b₂).length ≤ maxReadBuf →
      (c.feedGreeter fromSlice b₁).res = .ok ⟨reply, .continue⟩ →
      let two := (c.feedGreeter fromSlice b₁).conn.feedGreeter fromSlice b₂
      let one := c.feedGreeter fromSlice (b₁ ++ b₂)
      one.conn = two.conn ∧
      (∀ o, two.res = .ok o → one.res = .ok ⟨reply ++ o.reply, o.demand⟩) ∧
      (∀ e, two.res = .error e → one.res = .error e) := by
  intro c hc
  have hinv : ConnInv c _ := run_invariant_init ConnInv new_inv (step_inv fromSlice) calls
  refine ⟨hinv.awaiting hc, fun b₁ b₂ reply ha hlen hres => ?_⟩
  obtain ⟨hconn, hone⟩ := feedGreeter_append hc ha hlen hres
  refine ⟨hconn, fun o ho => ?_, fun e he => ?_⟩
  · rw [hone, ho]
    rfl
  · rw [hone, he]
    rfl

/-! ## The bytes that come back -/

/-- No request of the first chunk is answered at once and followed by a broken frame that the second
chunk brings. -/
def Unbroken (fromSlice : List UInt8 → Option Request) (c : Connection) (b₁ b₂ : List UInt8) :
    Prop :=
  ∀ p, answered fromSlice (c.state, c.readBuf ++ b₁) = some p →
    ¬ LeadsToBroken fromSlice (p.1, p.2 ++ b₂)

/-- A request that is answered at once is answered so with more bytes behind it. -/
theorem answered_append {p q : SessionState × List UInt8} (h : answered fromSlice p = some q)
    (ext : List UInt8) : answered fromSlice (p.1, p.2 ++ ext) = some (q.1, q.2 ++ ext) := by
  cases hd : tryDecode fromSlice p.2 with
  | error e => simp [answered, hd] at h
  | ok found =>
    cases found with
    | none => simp [answered, hd] at h
    | some found =>
      obtain ⟨req, n⟩ := found
      have hd' : tryDecode fromSlice (p.2 ++ ext) = .ok (some (req, n)) :=
        Framing.tryDecode_some_append ext hd
      unfold answered at h ⊢
      simp only [hd, hd'] at h ⊢
      rw [drop_append_of_decoded hd]
      cases hr : p.1.onRequest req with
      | error e =>
        simp only [hr, Option.some.injEq] at h ⊢
        rw [← h]
      | ok r =>
        obtain ⟨a, st⟩ := r
        cases a with
        | reply resp =>
          simp only [hr, Option.some.injEq] at h ⊢
          rw [← h]
        | pam response => simp [hr] at h
        | spawn s => simp [hr] at h

/-- A loop that waits for more has written nothing before its first answer. -/
theorem drives_continue_nil {c : Connection} {r : Ran} (hd : Drives fromSlice c [] r)
    (hn : answered fromSlice (c.state, c.readBuf) = none) {reply : List UInt8}
    (hres : r.res = .ok ⟨reply, .continue⟩) : reply = [] := by
  cases hd with
  | closed | codec | pam | spawn => simp at hres
  | exhausted => simpa using hres.symm
  | cancel _ h hr => simp [answered, h, hr] at hn
  | refuse _ h hr => simp [answered, h, hr] at hn

/-- A loop whose first request is answered at once has written something. -/
theorem drives_reply_ne_nil {c : Connection} {r : Ran} (hd : Drives fromSlice c [] r)
    (hc : c.closed = false) {p : SessionState × List UInt8}
    (hs : answered fromSlice (c.state, c.readBuf) = some p) {o : Outcome} (hres : r.res = .ok o) :
    o.reply ≠ [] := by
  obtain ⟨chunks, henc, hout⟩ := drives_owed hd c
  rw [hout o hres, List.nil_append]
  exact flatten_encoded_ne_nil henc (drives_owed_ne_nil hd hc hs c)

/-- The bytes of two calls are those of one exactly when no answer of the first is behind a broken
frame of the second. -/
theorem replied_append_iff {c : Connection} (hc : c.closed = false) (ha : c.awaitingPam = false)
    {b₁ b₂ : List UInt8} (hlen : (c.readBuf ++ b₁ ++ b₂).length ≤ maxReadBuf) {reply : List UInt8}
    (hres : (c.feedGreeter fromSlice b₁).res = .ok ⟨reply, .continue⟩) :
    (c.feedGreeter fromSlice (b₁ ++ b₂)).replied
        = reply ++ ((c.feedGreeter fromSlice b₁).conn.feedGreeter fromSlice b₂).replied ↔
      Unbroken fromSlice c b₁ b₂ := by
  obtain ⟨-, hone⟩ := feedGreeter_append hc ha hlen hres
  have hlen' := hlen
  simp only [List.length_append] at hlen'
  have h₁ :
      Drives fromSlice { c with readBuf := c.readBuf ++ b₁ } [] (c.feedGreeter fromSlice b₁) :=
    feedGreeter_drives hc ha (by rw [List.length_append]; omega)
  have h : Drives fromSlice { c with readBuf := c.readBuf ++ (b₁ ++ b₂) } []
      (c.feedGreeter fromSlice (b₁ ++ b₂)) :=
    feedGreeter_drives hc ha (by rwa [← List.append_assoc])
  by_cases hs : answered fromSlice (c.state, c.readBuf ++ b₁) = none
  · -- the first chunk was not answered, so nothing of it can be lost
    obtain rfl := drives_continue_nil h₁ hs hres
    refine iff_of_true ?_ fun p hp => by simp [hs] at hp
    unfold Ran.replied
    rw [hone]
    cases ((c.feedGreeter fromSlice b₁).conn.feedGreeter fromSlice b₂).res <;> rfl
  · obtain ⟨p, hp⟩ := Option.ne_none_iff_exists'.mp hs
    have hne : reply ≠ [] := drives_reply_ne_nil h₁ hc hp hres
    have hfail := drives_fails_iff h hc
    simp only [← List.append_assoc] at hfail
    rw [leadsToBroken_of_some (answered_append hp b₂)] at hfail
    unfold Unbroken
    simp only [hp, Option.some.injEq, forall_eq']
    rw [← hfail, Ran.replied, Ran.replied, hone]
    cases ((c.feedGreeter fromSlice b₁).conn.feedGreeter fromSlice b₂).res with
    | ok o => simp [replyAfter]
    | error e => simpa [replyAfter] using hne.symm

/-- The demand of a call, or its error. -/
def Ran.demand (r : Ran) : Except CodecError Demand := r.res.map Outcome.demand

/-- **Chunking**, and the suspend flag mirrors the state. Of every reachable connection that is not
closed: it awaits PAM exactly in `AuthPending`; and if it does not, and a first chunk gives
`Continue`, feeding a second chunk ends in the same state, with the same demand and the same bytes
handed back as feeding both at once, exactly if no answer of the first chunk stands before a broken
frame of the second. -/
theorem chunking_iff (fromSlice : List UInt8 → Option Request) (calls : List Call) :
    let c := (run (Connection.step fromSlice) Connection.new calls).1
    c.closed = false →
    (c.awaitingPam = true ↔ ∃ u, c.state = .authPending u) ∧
    ∀ b₁ b₂ reply, c.awaitingPam = false → (c.readBuf ++ b₁ ++ b₂).length ≤ maxReadBuf →
      (c.feedGreeter fromSlice b₁).res = .ok ⟨reply, .continue⟩ →
      let two := (c.feedGreeter fromSlice b₁).conn.feedGreeter fromSlice b₂
      let one := c.feedGreeter fromSlice (b₁ ++ b₂)
      (one.conn = two.conn ∧ one.demand = two.demand ∧ one.replied = reply ++ two.replied ↔
        Unbroken fromSlice c b₁ b₂) := by
  intro c hc
  obtain ⟨hawait, hchunks⟩ := feed_chunks fromSlice calls hc
  refine ⟨hawait, fun b₁ b₂ reply ha hlen hres => ?_⟩
  obtain ⟨hconn, hok, herr⟩ := hchunks b₁ b₂ reply ha hlen hres
  rw [← replied_append_iff hc ha hlen hres]
  refine ⟨fun h => h.2.2, fun h => ⟨hconn, ?_, h⟩⟩
  unfold Ran.demand
  cases htwo : ((c.feedGreeter fromSlice b₁).conn.feedGreeter fromSlice b₂).res with
  | ok o =>
    rw [hok o htwo]
    rfl
  | error e => rw [herr e htwo]

/-- A `CancelSession` out of place, and half of a `CreateSession`. -/
def refusedCancel : List UInt8 := (Request.encode .cancelSession).toOption.getD []

theorem split_create_same_demand :
    let c := Connection.new
    let b₁ := refusedCancel ++ createAlice.take 7
    let b₂ := createAlice.drop 7
    let first := c.feedGreeter readRequest b₁
    let two := first.conn.feedGreeter readRequest b₂
    let one := c.feedGreeter readRequest (b₁ ++ b₂)
    first.res = .ok ⟨first.replied, .continue⟩ ∧ first.replied ≠ [] ∧
      two.demand = .ok (.pam none) ∧
      one.conn = two.conn ∧ one.demand = two.demand ∧
        one.replied = first.replied ++ two.replied := by
  intro c b₁ b₂ first two one
  have hfirst : first.res = .ok ⟨first.replied, .continue⟩ := by decide +kernel
  have hcancel : answered readRequest (c.state, c.readBuf ++ b₁)
      = some (.idle, createAlice.take 7) := by decide +kernel
  have hcreate : answered readRequest (.idle, createAlice.take 7 ++ b₂) = none := by
    decide +kernel
  have hunbroken : Unbroken readRequest c b₁ b₂ := by
    intro p hp
    obtain rfl : (SessionState.idle, createAlice.take 7) = p := by simpa [hcancel] using hp
    rw [leadsToBroken_of_none hcreate]
    rintro ⟨e, he⟩
    have hread : (tryDecode readRequest (createAlice.take 7 ++ b₂)).isOk = true := by
      decide +kernel
    simp [he, Except.isOk, Except.toBool] at hread
  exact ⟨hfirst, by decide +kernel, by decide +kernel,
    ((chunking_iff readRequest [] rfl).2 b₁ b₂ _ rfl (by decide +kernel) hfirst).mpr hunbroken⟩

/-- After a refused request comes a frame over the ceiling. In two calls the first returns the
refusal; in one call the error is all that comes back. -/
theorem broken_frame_swallows_reply :
    let c := Connection.new
    let b₁ := refusedCancel
    let b₂ : List UInt8 := [255, 255, 255, 255]
    let first := c.feedGreeter readRequest b₁
    let two := first.conn.feedGreeter readRequest b₂
    let one := c.feedGreeter readRequest (b₁ ++ b₂)
    (c.readBuf ++ b₁ ++ b₂).length ≤ maxReadBuf ∧
    first.res = .ok ⟨first.replied, .continue⟩ ∧
    two.res = .error (.oversizedMessage 4294967295 maxMessageSize) ∧
    one.res = .error (.oversizedMessage 4294967295 maxMessageSize) ∧
    one.replied ≠ first.replied ++ two.replied := by
  decide +kernel

end Halmasuit.Greetd
