import Mathlib.Logic.Relation
import Halmasuit.Greetd.Authorization

/-!
# Every answer reaches the greeter

A call hands bytes back only inside an `Outcome`. `drive` collects the answers of the call in a
local buffer and leaves through `?` when a frame does not decode, so an error takes the answers
collected so far with it.

- `drives_owed`: a loop that ends in an outcome hands back the answers it owes, in order;
- `drives_fails_iff`: it ends in an error exactly when the requests answered at once lead to a frame
  the codec refuses;
- **`replies_kept_iff`**: a call hands back every answer it owes exactly when it is `Clean`, for
  every connection and every call.
-/

namespace Halmasuit.Greetd

open Halmasuit.Lib
open Halmasuit.Lib.Framing (CodecError)

/-! ## What a call owes -/

/-- The bytes a call hands back. -/
def Ran.replied (r : Ran) : List UInt8 :=
  match r.res with
  | .ok o => o.reply
  | .error _ => []

/-- The answer an event gives in a call made on `c`. A PAM round is answered when its result is
in, and a closed connection answers nothing. -/
def ConnEvent.answer (c : Connection) : ConnEvent → Option Response
  | .accepted _ (.reply r) => some r
  | .accepted _ (.spawn _) => some .success
  | .accepted _ (.pam _) => none
  | .refused _ e => some e.toResponse
  | .resumed step =>
    if c.closed then none
    else if c.awaitingPam then some (c.state.onPamResult step).2
    else some (.error .error "resume_pam called without an outstanding PAM round")
  | .brokerClosed | .failed _ | .returned _ => none

/-- The answers a call made on `c` owes, in the order of the events. -/
def Ran.owed (r : Ran) (c : Connection) : List Response := r.events.filterMap (ConnEvent.answer c)

/-- The answers a call owes stand in the bytes it hands back, encoded and one after the other. -/
def Ran.RepliesKept (r : Ran) (c : Connection) : Prop :=
  ∃ chunks : List (List UInt8), (r.owed c).map Response.encode = chunks.map .ok ∧
    chunks.flatten <:+: r.replied

section
variable (fromSlice : List UInt8 → Option Request)

/-- The request at the front of the buffer, where the machine answers it at once: the machine and
the buffer after it. -/
def answered (p : SessionState × List UInt8) : Option (SessionState × List UInt8) :=
  match tryDecode fromSlice p.2 with
  | .ok (some (req, n)) =>
    match p.1.onRequest req with
    | .ok (.reply _, st) => some (st, p.2.drop n)
    | .ok (.pam _, _) => none
    | .ok (.spawn _, _) => none
    | .error _ => some (p.1, p.2.drop n)
  | _ => none

/-- The buffer starts with a frame the codec refuses. -/
def Broken (p : SessionState × List UInt8) : Prop := ∃ e, tryDecode fromSlice p.2 = .error e

/-- Requests answered at once lead to a frame the codec refuses. -/
def LeadsToBroken (p : SessionState × List UInt8) : Prop :=
  ∃ q, Relation.ReflTransGen (fun x y => answered fromSlice x = some y) p q ∧ Broken fromSlice q

/-- No answer of the call stands before a broken frame. Greeter bytes: no request at the front of
the buffer is answered at once and followed by a broken frame. A PAM result: its response fits the
codec, and no broken frame follows in what was buffered. -/
def Call.Clean (c : Connection) : Call → Prop
  | .feedGreeter bytes =>
    c.closed = false → c.awaitingPam = false → (c.readBuf ++ bytes).length ≤ maxReadBuf →
      ∀ p, answered fromSlice (c.state, c.readBuf ++ bytes) = some p → ¬ LeadsToBroken fromSlice p
  | .resumePam step =>
    c.closed = false → c.awaitingPam = true →
      (c.state.onPamResult step).2.toVec.length ≤ maxMessageSize ∧
        ¬ LeadsToBroken fromSlice ((c.state.onPamResult step).1, c.readBuf)
  | .brokerClosed => True

end

variable {fromSlice : List UInt8 → Option Request}

/-! ## Where the loop goes -/

theorem Ran.owed_after (r : Ran) (c : Connection) (e : ConnEvent) :
    (r.after e).owed c = (e.answer c).toList ++ r.owed c := by
  cases h : e.answer c <;> simp [Ran.owed, Ran.after, h]

theorem leadsToBroken_of_none {p : SessionState × List UInt8} (h : answered fromSlice p = none) :
    LeadsToBroken fromSlice p ↔ Broken fromSlice p := by
  constructor
  · rintro ⟨q, hq, hb⟩
    rcases Relation.ReflTransGen.cases_head hq with rfl | ⟨r, hr, -⟩
    · exact hb
    · simp [h] at hr
  · exact fun hb => ⟨p, .refl, hb⟩

theorem leadsToBroken_of_some {p q : SessionState × List UInt8}
    (h : answered fromSlice p = some q) :
    LeadsToBroken fromSlice p ↔ LeadsToBroken fromSlice q := by
  constructor
  · rintro ⟨r, hr, hb⟩
    rcases Relation.ReflTransGen.cases_head hr with rfl | ⟨q', hq', hr'⟩
    · obtain ⟨e, he⟩ := hb
      simp [answered, he] at h
    · obtain rfl : q = q' := by simpa [h] using hq'
      exact ⟨r, hr', hb⟩
  · rintro ⟨r, hr, hb⟩
    exact ⟨r, hr.head h, hb⟩

/-- **When the loop fails**: exactly when the requests answered at once lead to a broken frame. -/
theorem drives_fails_iff {c : Connection} {reply : List UInt8} {r : Ran}
    (hd : Drives fromSlice c reply r) (hc : c.closed = false) :
    (∃ e, r.res = .error e) ↔ LeadsToBroken fromSlice (c.state, c.readBuf) := by
  induction hd with
  | closed h => exact absurd h (by simp [hc])
  | codec _ h =>
    rw [leadsToBroken_of_none (by simp [answered, h])]
    exact ⟨fun _ => ⟨_, h⟩, fun _ => ⟨_, rfl⟩⟩
  | exhausted _ h =>
    rw [leadsToBroken_of_none (by simp [answered, h])]
    simp [Broken, h]
  | pam _ h hr =>
    rw [leadsToBroken_of_none (by simp [answered, h, hr])]
    simp [Broken, h]
  | spawn _ h hr =>
    rw [leadsToBroken_of_none (by simp [answered, h, hr])]
    simp [Broken, h]
  | cancel _ h hr _ _ ih =>
    rw [leadsToBroken_of_some (by simp only [answered, h, hr]; rfl)]
    exact ih hc
  | refuse _ h hr _ _ ih =>
    rw [leadsToBroken_of_some (by simp only [answered, h, hr]; rfl)]
    exact ih hc

/-- **What the loop owes**: its answers encode, and an outcome hands them all back after what had
been collected before. -/
theorem drives_owed {c : Connection} {reply : List UInt8} {r : Ran}
    (hd : Drives fromSlice c reply r) (c₀ : Connection) :
    ∃ chunks : List (List UInt8), (r.owed c₀).map Response.encode = chunks.map .ok ∧
      ∀ o, r.res = .ok o → o.reply = reply ++ chunks.flatten := by
  induction hd with
  | closed | codec | exhausted | pam =>
    exact ⟨[], by simp [Ran.owed, ConnEvent.answer], by simp⟩
  | @spawn c reply req n s st bytes _ _ _ he =>
    exact ⟨[bytes], by simp [Ran.owed, ConnEvent.answer, he], by simp⟩
  | @cancel c reply req n r st bytes ran _ _ _ he _ ih =>
    obtain ⟨chunks, henc, hout⟩ := ih
    refine ⟨bytes :: chunks, ?_, fun o ho => ?_⟩
    · simp [Ran.owed_after, ConnEvent.answer, he, henc]
    · simp [hout o ho]
  | @refuse c reply req n e bytes ran _ _ _ he _ ih =>
    obtain ⟨chunks, henc, hout⟩ := ih
    refine ⟨bytes :: chunks, ?_, fun o ho => ?_⟩
    · simp [Ran.owed_after, ConnEvent.answer, he, henc]
    · simp [hout o ho]

/-- A loop whose first request is not answered at once owes nothing where it fails. -/
theorem drives_owed_nil {c : Connection} {reply : List UInt8} {r : Ran}
    (hd : Drives fromSlice c reply r) (hn : answered fromSlice (c.state, c.readBuf) = none)
    {e : CodecError} (he : r.res = .error e) (c₀ : Connection) : r.owed c₀ = [] := by
  cases hd with
  | closed | exhausted | pam | spawn => simp at he
  | codec => rfl
  | cancel _ h hr => simp [answered, h, hr] at hn
  | refuse _ h hr => simp [answered, h, hr] at hn

/-- A loop whose first request is answered at once owes that answer. -/
theorem drives_owed_ne_nil {c : Connection} {reply : List UInt8} {r : Ran}
    (hd : Drives fromSlice c reply r) (hc : c.closed = false) {p : SessionState × List UInt8}
    (hs : answered fromSlice (c.state, c.readBuf) = some p) (c₀ : Connection) :
    r.owed c₀ ≠ [] := by
  cases hd with
  | closed h => exact absurd h (by simp [hc])
  | codec _ h => simp [answered, h] at hs
  | exhausted _ h => simp [answered, h] at hs
  | pam _ h hr => simp [answered, h, hr] at hs
  | spawn _ h hr => simp [answered, h, hr] at hs
  | cancel => simp [Ran.owed_after, ConnEvent.answer]
  | refuse => simp [Ran.owed_after, ConnEvent.answer]

/-! ## The call as a whole -/

theorem Ran.repliesKept_of_nil {r : Ran} {c : Connection} (h : r.owed c = []) :
    r.RepliesKept c := ⟨[], by simp [h], List.nil_infix⟩

/-- Answers take bytes: a framed response is at least its length prefix. -/
theorem flatten_encoded_ne_nil {rs : List Response} {chunks : List (List UInt8)}
    (henc : rs.map Response.encode = chunks.map .ok) (hne : rs ≠ []) : chunks.flatten ≠ [] := by
  intro hnil
  obtain ⟨resp, hresp⟩ := List.exists_mem_of_ne_nil _ hne
  have hmem : resp.encode ∈ chunks.map Except.ok := henc ▸ List.mem_map_of_mem hresp
  obtain ⟨bytes, hbytes, henc'⟩ := List.mem_map.mp hmem
  have hframe := (Framing.encode_ok _ henc'.symm).1
  have hb : bytes = [] := List.flatten_eq_nil_iff.mp hnil bytes hbytes
  simp [hb, Framing.toLeBytes] at hframe

/-- An error hands nothing back: what was owed is lost. -/
theorem Ran.not_repliesKept_of_error {r : Ran} {c : Connection} (hne : r.owed c ≠ [])
    {e : CodecError} (he : r.res = .error e) : ¬ r.RepliesKept c := by
  rintro ⟨chunks, henc, hin⟩
  have hnil : r.replied = [] := by simp [replied, he]
  exact flatten_encoded_ne_nil henc hne (List.infix_nil.mp (hnil ▸ hin))

/-- A loop keeps what it owes exactly when it does not fail after an answer. -/
theorem drives_repliesKept_iff {c : Connection} {r : Ran} (hd : Drives fromSlice c [] r)
    (hc : c.closed = false) (c₀ : Connection) :
    r.RepliesKept c₀ ↔ ∀ p, answered fromSlice (c.state, c.readBuf) = some p →
      ¬ LeadsToBroken fromSlice p := by
  obtain ⟨chunks, henc, hout⟩ := drives_owed hd c₀
  have hok : ∀ o, r.res = .ok o → r.RepliesKept c₀ := by
    intro o ho
    refine ⟨chunks, henc, ?_⟩
    have : r.replied = chunks.flatten := by simpa [Ran.replied, ho] using hout o ho
    exact this ▸ List.infix_rfl
  by_cases hs : answered fromSlice (c.state, c.readBuf) = none
  · refine ⟨fun _ p hp => by simp [hs] at hp, fun _ => ?_⟩
    cases he : r.res with
    | ok o => exact hok o he
    | error e => exact Ran.repliesKept_of_nil (drives_owed_nil hd hs he c₀)
  · obtain ⟨p, hp⟩ := Option.ne_none_iff_exists'.mp hs
    have hfail := drives_fails_iff hd hc
    rw [leadsToBroken_of_some hp] at hfail
    simp only [hp, Option.some.injEq, forall_eq']
    rw [← hfail]
    constructor
    · rintro hk ⟨e, he⟩
      exact Ran.not_repliesKept_of_error (drives_owed_ne_nil hd hc hp c₀) he hk
    · intro hne
      cases he : r.res with
      | ok o => exact hok o he
      | error e => exact absurd ⟨e, he⟩ hne

theorem feedGreeter_repliesKept_iff (fromSlice : List UInt8 → Option Request) (c : Connection)
    (bytes : List UInt8) :
    (c.feedGreeter fromSlice bytes).RepliesKept c ↔
      (Call.feedGreeter bytes).Clean fromSlice c := by
  simp only [Call.Clean]
  by_cases hc : c.closed = true
  · rw [feedGreeter_closed hc]
    exact ⟨fun _ h => absurd hc (by simp [h]), fun _ => Ran.repliesKept_of_nil rfl⟩
  have hc : c.closed = false := by simpa using hc
  rcases feedGreeter_cases fromSlice hc bytes with
    ⟨ha, reply, heq⟩ | ⟨ha, hlen, e, heq⟩ | ⟨ha, hlen, hd⟩
  · rw [heq]
    exact ⟨fun _ _ h => absurd ha (by simp [h]), fun _ => Ran.repliesKept_of_nil rfl⟩
  · rw [heq]
    exact ⟨fun _ _ _ h => absurd h (by omega), fun _ => Ran.repliesKept_of_nil rfl⟩
  · rw [drives_repliesKept_iff hd hc]
    simp only [hc, ha, hlen, forall_const]

theorem resumePam_repliesKept_iff (fromSlice : List UInt8 → Option Request) (c : Connection)
    (step : PamStep) :
    (c.resumePam fromSlice step).RepliesKept c ↔ (Call.resumePam step).Clean fromSlice c := by
  simp only [Call.Clean]
  by_cases hc : c.closed = true
  · rw [resumePam_closed hc]
    refine ⟨fun _ h => absurd hc (by simp [h]), fun _ => Ran.repliesKept_of_nil ?_⟩
    simp [Ran.owed, ConnEvent.answer, hc]
  have hc : c.closed = false := by simpa using hc
  have howes : c.awaitingPam = true →
      (ConnEvent.resumed step).answer c = some (c.state.onPamResult step).2 := by
    intro ha
    simp [ConnEvent.answer, hc, ha]
  rcases resumePam_cases fromSlice hc step with
    ⟨ha, -⟩ | ⟨ha, e, he, heq⟩ | ⟨ha, reply, ran, he, hd, heq⟩
  · -- the call is out of place, and is told so
    refine ⟨fun _ _ h => absurd h (by simp [ha]), fun _ => ?_⟩
    obtain ⟨bytes, he⟩ := Response.encode_error_isOk .error
      "resume_pam called without an outstanding PAM round" (by decide)
    have heq : c.resumePam fromSlice step
        = ⟨{ c with closed := true }, [.resumed step], .ok ⟨bytes, .close⟩⟩ := by
      simp [Connection.resumePam, hc, ha, he]
    rw [heq]
    exact ⟨[bytes], by simp [Ran.owed, ConnEvent.answer, hc, ha, he],
      by simp [Ran.replied]⟩
  · -- the response does not fit a frame
    rw [heq]
    have hlost := Ran.not_repliesKept_of_error (c := c)
      (r := ⟨{ c with awaitingPam := false, state := (c.state.onPamResult step).1 },
        [.resumed step], .error e⟩) (by simp [Ran.owed, howes ha]) rfl
    refine ⟨fun hk => absurd hk hlost, fun h => ?_⟩
    have hfit := Response.encode_of_le (h hc ha).1
    simp [hfit] at he
  · have hfit : (c.state.onPamResult step).2.toVec.length ≤ maxMessageSize := by
      exact ((Framing.encode_isOk_iff _).mp ⟨_, he⟩).2
    have hfail := drives_fails_iff hd hc
    obtain ⟨chunks, henc, hout⟩ := drives_owed hd c
    rw [heq]
    simp only [hc, ha, hfit, true_and, forall_const]
    rw [← hfail]
    constructor
    · rintro hk ⟨e, he'⟩
      exact Ran.not_repliesKept_of_error (r := ran.after (.resumed step))
        (by simp [Ran.owed_after, howes ha]) he' hk
    · intro hne
      cases he' : ran.res with
      | error e => exact absurd ⟨e, he'⟩ hne
      | ok o =>
        refine ⟨reply :: chunks, ?_, ?_⟩
        · simp [Ran.owed_after, howes ha, he, henc]
        · have : (ran.after (.resumed step)).replied = (reply :: chunks).flatten := by
            simpa [Ran.replied, Ran.after, he'] using hout o he'
          exact this ▸ List.infix_rfl

/-- **No answer is lost exactly in the clean calls**, for every connection and every call. -/
theorem replies_kept_iff (fromSlice : List UInt8 → Option Request) (c : Connection) (call : Call) :
    (c.call fromSlice call).RepliesKept c ↔ call.Clean fromSlice c := by
  cases call with
  | feedGreeter bytes => exact feedGreeter_repliesKept_iff fromSlice c bytes
  | resumePam step => exact resumePam_repliesKept_iff fromSlice c step
  | brokerClosed =>
    refine ⟨fun _ => trivial, fun _ => Ran.repliesKept_of_nil ?_⟩
    obtain ⟨-, reply, -, hev⟩ := brokerClosed_isClosed c
    simp [Connection.call, Ran.owed, hev, ConnEvent.answer]

def createAlice : List UInt8 := (Request.encode (.createSession "alice")).toOption.getD []

/-- The greeter sends its `CreateSession` with a broken frame behind it in the same write. PAM
succeeds, and the greeter is not told. -/
theorem success_lost_behind_broken_frame :
    let bytes := createAlice ++ [255, 255, 255, 255]
    let asked := Connection.new.feedGreeter readRequest bytes
    let resumed := asked.conn.resumePam readRequest (.success "alice" 1000 1000)
    asked.res = .ok ⟨[], .pam none⟩ ∧
      resumed.owed asked.conn = [.success] ∧
      resumed.res = .error (.oversizedMessage 4294967295 maxMessageSize) ∧
      ¬ resumed.RepliesKept asked.conn := by
  intro bytes asked resumed
  have howed : resumed.owed asked.conn = [.success] := by decide +kernel
  have hres : resumed.res = .error (.oversizedMessage 4294967295 maxMessageSize) := by
    decide +kernel
  exact ⟨by decide +kernel, howed, hres, Ran.not_repliesKept_of_error (by simp [howed]) hres⟩

end Halmasuit.Greetd
