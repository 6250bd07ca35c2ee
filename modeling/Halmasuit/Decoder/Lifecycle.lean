import Halmasuit.Decoder.Decode
import Halmasuit.Lib.Run

/-!
# The decoder's run loop

`halmasuit-decoder/src/main.rs`: `run` (184–297), `apply_control` (307–409) and `send_frame`
(554–610), under the controls of the compositor.

- One turn of the loop takes the control message that is there, or decodes a frame where none is
  and the decoder is `Decoding`. In the other states it waits for a message; a turn without one is
  a wakeup for nothing.
- The video itself is left out. What `open_video_input`, `seek_to_pts`, `decode_next_frame` and
  `rewind` give is in the `Turn`; so are the clock and the results of the socket calls.
- Instants are in nanoseconds.
- A frame whose datagram the socket does not take (`Dropped`) was handed to `send_frame`, and has
  its index.

Results:

- `step_moves`: everything a turn can do;
- **`control_contract_iff`**: exactly when no frame is handed over while the decoder is paused, and
  the indices since the last `LoadFile` start at 0 and increase;
- `seek_or_rewind_fails`: a seek ends a pause, and a loop starts the indices again.
-/

namespace Halmasuit.Decoder

open Halmasuit.Lib
open Halmasuit.DecoderIpc

/-! ## The state of the loop -/

/-- `DecoderError`; the system's error codes are numbers. -/
inductive DecoderError where
  | recv (errno : Nat)
  | send (errno : Nat)
  | codec (e : CodecError)
  | peerHangup
  | loadFileMissingFd
  | decode (e : DecodeError)
  | shutdownRequested
  deriving DecidableEq, Repr

/-- `PtsAnchor`. -/
structure PtsAnchor where
  anchorPtsUs : Int64
  anchorWall : Nat
  deriving DecidableEq, Repr

/-- `LifecycleState`. -/
inductive LifecycleState where
  | idle
  | decoding (loopPlayback : Bool) (nextFrameIdx : UInt64) (pacing : Option PtsAnchor)
  | paused (loopPlayback : Bool) (nextFrameIdx : UInt64)
  | eofWaiting
  deriving DecidableEq, Repr

/-- The decoder process: `run` goes on, or has returned. -/
inductive Process where
  | running (s : LifecycleState)
  | exited (e : DecoderError)
  deriving DecidableEq, Repr

/-- `SendOutcome`. -/
inductive SendOutcome where
  | sent
  | dropped
  deriving DecidableEq, Repr

/-- What a turn of the loop finds. A control message comes with the number of its descriptors. -/
structure Turn where
  recv : Except DecoderError (Option (CompositorToDecoder × Nat))
  opened : Except DecodeError Unit
  sought : Except DecodeError Unit
  decoded : Except DecodeError (Option RgbaFrame)
  rewound : Except DecodeError Unit
  now : Nat
  waited : Except DecoderError Bool
  sentFrame : Except DecoderError SendOutcome
  sentEof : Except DecoderError Unit

/-- What the decoder does, in order: the controls, with whether they took effect, and what it
sends. -/
inductive Event where
  | control (m : CompositorToDecoder) (applied : Bool)
  | frameHeader (frameIdx : UInt64) (frame : RgbaFrame) (outcome : SendOutcome)
  | endOfFile
  | decoderError (code : DecoderErrorCode)
  deriving DecidableEq, Repr

/-! ## Controls -/

/-- `apply_control`. -/
def applyControl (t : Turn) (m : CompositorToDecoder) (fds : Nat) (current : LifecycleState) :
    Except DecoderError LifecycleState × List Event :=
  match m with
  | .shutdown => (.error .shutdownRequested, [.control m true])
  | .loadFile loopPlayback =>
    if fds = 0 then (.error .loadFileMissingFd, [.control m false])
    else
      match t.opened with
      | .error e => (.error (.decode e), [.control m false, .decoderError e.toWireCode])
      | .ok () => (.ok (.decoding loopPlayback 0 none), [.control m true])
  | .pause =>
    match current with
    | .decoding loopPlayback nextFrameIdx _ =>
      (.ok (.paused loopPlayback nextFrameIdx), [.control m true])
    | .paused loopPlayback nextFrameIdx =>
      (.ok (.paused loopPlayback nextFrameIdx), [.control m true])
    | other => (.ok other, [.control m false])
  | .resume =>
    match current with
    | .paused loopPlayback nextFrameIdx =>
      (.ok (.decoding loopPlayback nextFrameIdx none), [.control m true])
    | other => (.ok other, [.control m false])
  | .seek _ =>
    let seek (loopPlayback : Bool) : Except DecoderError LifecycleState × List Event :=
      match t.sought with
      | .error e => (.error (.decode e), [.control m false, .decoderError e.toWireCode])
      | .ok () => (.ok (.decoding loopPlayback 0 none), [.control m true])
    match current with
    | .decoding loopPlayback _ _ => seek loopPlayback
    | .paused loopPlayback _ => seek loopPlayback
    | other => (.ok other, [.control m false])

/-! ## Frames -/

/-- The last instant of the clock: a `timespec` with seconds of 64 bits. -/
def lastInstant : Nat := (2 ^ 63 - 1) * 1000000000 + 999999999

/-- `i64::saturating_sub`. -/
def saturatingSub (a b : Int64) : Int :=
  max Int64.minValue.toInt (min Int64.maxValue.toInt (a.toInt - b.toInt))

/-- Whether a control came while the frame was held back for its time. -/
def holdFrame (pacing : Option PtsAnchor) (frame : RgbaFrame) (waited : Except DecoderError Bool) :
    Except DecoderError Bool :=
  match pacing with
  | none => .ok false
  | some anchor =>
    let delta := saturatingSub frame.ptsUs anchor.anchorPtsUs
    if 0 < delta ∧ anchor.anchorWall + delta.toNat * 1000 ≤ lastInstant then waited else .ok false

/-- `send_frame`. -/
def sendFrame (frame : RgbaFrame) (frameIdx : UInt64)
    (sentFrame : Except DecoderError SendOutcome) : Except DecoderError SendOutcome :=
  let bytesLen := frame.bytes.length
  if 2 ^ 32 ≤ bytesLen then .error (.codec (.oversizedFrame (2 ^ 32 - 1) maxFrameBytes))
  else if maxFrameBytes < bytesLen then .error (.codec (.oversizedFrame bytesLen maxFrameBytes))
  else
    let header := DecoderToCompositor.frameHeader frameIdx frame.ptsUs frame.width frame.height
      .rgba8 (UInt32.ofNat bytesLen)
    match encodeControl header.toVec with
    | .error e => .error (.codec e)
    | .ok _ => sentFrame

/-- The `Decoding` arm of `run`, where no control is there. -/
def decodeTurn (t : Turn) (loopPlayback : Bool) (nextFrameIdx : UInt64)
    (pacing : Option PtsAnchor) : Process × List Event :=
  match t.decoded with
  | .ok (some frame) =>
    match holdFrame pacing frame t.waited with
    | .error e => (.exited e, [])
    | .ok true => (.running (.decoding loopPlayback nextFrameIdx pacing), [])
    | .ok false =>
      let anchor := pacing.getD ⟨frame.ptsUs, t.now⟩
      match sendFrame frame nextFrameIdx t.sentFrame with
      | .error e => (.exited e, [])
      | .ok outcome =>
        (.running (.decoding loopPlayback (nextFrameIdx + 1) (some anchor)),
          [.frameHeader nextFrameIdx frame outcome])
  | .ok none =>
    if loopPlayback then
      match t.rewound with
      | .error e => (.exited (.decode e), [.decoderError e.toWireCode])
      | .ok () => (.running (.decoding loopPlayback 0 none), [])
    else
      match t.sentEof with
      | .error e => (.exited e, [])
      | .ok () => (.running .eofWaiting, [.endOfFile])
  | .error e => (.exited (.decode e), [.decoderError e.toWireCode])

/-- One turn of the loop of `run`. -/
def step : Process → Turn → Process × List Event
  | .exited e, _ => (.exited e, [])
  | .running s, t =>
    match t.recv with
    | .error e => (.exited e, [])
    | .ok (some (m, fds)) =>
      match applyControl t m fds s with
      | (.error e, es) => (.exited e, es)
      | (.ok s, es) => (.running s, es)
    | .ok none =>
      match s with
      | .decoding loopPlayback nextFrameIdx pacing =>
        decodeTurn t loopPlayback nextFrameIdx pacing
      | s => (.running s, [])

/-- `run` after `send_ready`. -/
def start : Except DecoderError Unit → Process
  | .ok () => .running .idle
  | .error e => .exited e

/-! ## What a turn can do -/

/-- A seek that goes through. -/
def Turn.seeks (t : Turn) : Bool :=
  match t.recv, t.sought with
  | .ok (some (.seek _, _)), .ok () => true
  | _, _ => false

/-- The end of the stream, with no control there, and a rewind that goes through. -/
def Turn.rewinds (t : Turn) : Bool :=
  match t.recv, t.decoded, t.rewound with
  | .ok none, .ok none, .ok () => true
  | _, _, _ => false

/-- A frame, with no control there, that is not held back and that the socket takes or drops. -/
def Turn.hands (t : Turn) (frameIdx : UInt64) (pacing : Option PtsAnchor) : Bool :=
  match t.recv, t.decoded with
  | .ok none, .ok (some frame) =>
    match holdFrame pacing frame t.waited, sendFrame frame frameIdx t.sentFrame with
    | .ok false, .ok _ => true
    | _, _ => false
  | _, _ => false

/-- Neither a frame nor a control that takes effect. -/
def Event.Quiet : Event → Prop
  | .control m applied => applied = true → m = .shutdown
  | .frameHeader _ _ _ => False
  | .endOfFile => True
  | .decoderError _ => True

/-- What a turn can do. -/
inductive Moves (t : Turn) : LifecycleState → Process → List Event → Prop
  | exits {s e es} (hes : ∀ ev ∈ es, ev.Quiet) : Moves t s (.exited e) es
  | stays {s es} (hes : ∀ ev ∈ es, ev.Quiet) : Moves t s (.running s) es
  | loads {s loop} : Moves t s (.running (.decoding loop 0 none)) [.control (.loadFile loop) true]
  | pauses {loop idx pacing} :
      Moves t (.decoding loop idx pacing) (.running (.paused loop idx)) [.control .pause true]
  | pausesAgain {loop idx} :
      Moves t (.paused loop idx) (.running (.paused loop idx)) [.control .pause true]
  | resumes {loop idx} :
      Moves t (.paused loop idx) (.running (.decoding loop idx none)) [.control .resume true]
  | seeks {loop idx pacing pts} (h : t.seeks = true) :
      Moves t (.decoding loop idx pacing) (.running (.decoding loop 0 none))
        [.control (.seek pts) true]
  | seeksPaused {loop idx pts} (h : t.seeks = true) :
      Moves t (.paused loop idx) (.running (.decoding loop 0 none)) [.control (.seek pts) true]
  | shows {loop idx pacing frame outcome anchor} (h : t.hands idx pacing = true) :
      Moves t (.decoding loop idx pacing) (.running (.decoding loop (idx + 1) (some anchor)))
        [.frameHeader idx frame outcome]
  | rewinds {idx pacing} (h : t.rewinds = true) :
      Moves t (.decoding true idx pacing) (.running (.decoding true 0 none)) []
  | ends {idx pacing} : Moves t (.decoding false idx pacing) (.running .eofWaiting) [.endOfFile]

section
variable {t : Turn}

theorem quiet_ignored (m : CompositorToDecoder) :
    ∀ ev ∈ [Event.control m false], ev.Quiet := by
  simp [Event.Quiet]

theorem quiet_refused (m : CompositorToDecoder) (code : DecoderErrorCode) :
    ∀ ev ∈ [Event.control m false, .decoderError code], ev.Quiet := by
  simp [Event.Quiet]

/-- The control that is there, as the loop goes on with it. -/
def Process.ofControl : Except DecoderError LifecycleState → Process
  | .ok s => .running s
  | .error e => .exited e

/-- What a control can do. -/
theorem applyControl_moves (m : CompositorToDecoder) (fds : Nat)
    (hrecv : t.recv = .ok (some (m, fds))) (s : LifecycleState) :
    Moves t s (.ofControl (applyControl t m fds s).1) (applyControl t m fds s).2 := by
  cases m with
  | shutdown => exact .exits (by simp [applyControl, Event.Quiet])
  | loadFile loop =>
    unfold applyControl
    dsimp only
    by_cases hfds : fds = 0
    · rw [if_pos hfds]
      exact .exits (quiet_ignored _)
    · rw [if_neg hfds]
      cases t.opened with
      | error e => exact .exits (quiet_refused _ _)
      | ok u => exact .loads
  | pause =>
    cases s with
    | idle => exact .stays (quiet_ignored _)
    | decoding loop idx pacing => exact .pauses
    | paused loop idx => exact .pausesAgain
    | eofWaiting => exact .stays (quiet_ignored _)
  | resume =>
    cases s with
    | idle => exact .stays (quiet_ignored _)
    | decoding loop idx pacing => exact .stays (quiet_ignored _)
    | paused loop idx => exact .resumes
    | eofWaiting => exact .stays (quiet_ignored _)
  | seek pts =>
    unfold applyControl
    dsimp only
    cases hsought : t.sought with
    | error e =>
      cases s with
      | idle => exact .stays (quiet_ignored _)
      | decoding loop idx pacing => exact .exits (quiet_refused _ _)
      | paused loop idx => exact .exits (quiet_refused _ _)
      | eofWaiting => exact .stays (quiet_ignored _)
    | ok u =>
      have hseeks : t.seeks = true := by simp [Turn.seeks, hrecv, hsought]
      cases s with
      | idle => exact .stays (quiet_ignored _)
      | decoding loop idx pacing => exact .seeks hseeks
      | paused loop idx => exact .seeksPaused hseeks
      | eofWaiting => exact .stays (quiet_ignored _)

/-- What a turn without a control can do while the decoder is `Decoding`. -/
theorem decodeTurn_moves (hrecv : t.recv = .ok none) (loop : Bool) (idx : UInt64)
    (pacing : Option PtsAnchor) :
    Moves t (.decoding loop idx pacing) (decodeTurn t loop idx pacing).1
      (decodeTurn t loop idx pacing).2 := by
  unfold decodeTurn
  cases hdecoded : t.decoded with
  | error e => exact .exits (by simp [Event.Quiet])
  | ok r =>
    cases r with
    | some frame =>
      dsimp only
      cases hheld : holdFrame pacing frame t.waited with
      | error e => exact .exits (by simp)
      | ok interrupted =>
        cases interrupted with
        | true => exact .stays (by simp)
        | false =>
          dsimp only
          cases hsend : sendFrame frame idx t.sentFrame with
          | error e => exact .exits (by simp)
          | ok outcome =>
            exact .shows (by simp [Turn.hands, hrecv, hdecoded, hheld, hsend])
    | none =>
      cases loop with
      | true =>
        cases hrewound : t.rewound with
        | error e => exact .exits (by simp [Event.Quiet])
        | ok u => exact .rewinds (by simp [Turn.rewinds, hrecv, hdecoded, hrewound])
      | false =>
        cases t.sentEof with
        | error e => exact .exits (by simp)
        | ok u => exact .ends

theorem step_control {m : CompositorToDecoder} {fds : Nat}
    (hrecv : t.recv = .ok (some (m, fds))) (s : LifecycleState) :
    step (.running s) t
      = (.ofControl (applyControl t m fds s).1, (applyControl t m fds s).2) := by
  simp only [step, hrecv]
  rcases applyControl t m fds s with ⟨_ | _, _⟩ <;> rfl

theorem step_decoding (hrecv : t.recv = .ok none) (loop : Bool) (idx : UInt64)
    (pacing : Option PtsAnchor) :
    step (.running (.decoding loop idx pacing)) t = decodeTurn t loop idx pacing := by
  simp only [step, hrecv]

theorem step_waiting (hrecv : t.recv = .ok none) {s : LifecycleState}
    (hs : ∀ loop idx pacing, s ≠ .decoding loop idx pacing) :
    step (.running s) t = (.running s, []) := by
  cases s with
  | decoding loop idx pacing => exact absurd rfl (hs loop idx pacing)
  | _ => simp only [step, hrecv]

/-- **What a turn can do.** -/
theorem step_moves (s : LifecycleState) (t : Turn) :
    Moves t s (step (.running s) t).1 (step (.running s) t).2 := by
  cases hrecv : t.recv with
  | error e =>
    have heq : step (.running s) t = (.exited e, []) := by simp only [step, hrecv]
    rw [heq]
    exact .exits (by simp)
  | ok r =>
    rcases r with _ | ⟨m, fds⟩
    · by_cases hs : ∃ loop idx pacing, s = .decoding loop idx pacing
      · obtain ⟨loop, idx, pacing, rfl⟩ := hs
        rw [step_decoding hrecv]
        exact decodeTurn_moves hrecv loop idx pacing
      · rw [step_waiting hrecv fun loop idx pacing h => hs ⟨loop, idx, pacing, h⟩]
        exact .stays (by simp)
    · rw [step_control hrecv]
      exact applyControl_moves m fds hrecv s

/-! ### The turns that go wrong -/

/-- A seek, from wherever the decoder is in a stream. -/
theorem step_seeks (h : t.seeks = true) {s : LifecycleState} {loop : Bool} {idx : UInt64}
    (hs : (∃ pacing, s = .decoding loop idx pacing) ∨ s = .paused loop idx) :
    ∃ pts, step (.running s) t
      = (.running (.decoding loop 0 none), [.control (.seek pts) true]) := by
  unfold Turn.seeks at h
  split at h
  · rename_i _ pts fds hrecv hsought
    refine ⟨pts, ?_⟩
    rw [step_control hrecv]
    rcases hs with ⟨pacing, rfl⟩ | rfl
    · simp only [applyControl, hsought, Process.ofControl]
    · simp only [applyControl, hsought, Process.ofControl]
  · cases h

/-- A rewind. -/
theorem step_rewinds (h : t.rewinds = true) (idx : UInt64) (pacing : Option PtsAnchor) :
    step (.running (.decoding true idx pacing)) t = (.running (.decoding true 0 none), []) := by
  unfold Turn.rewinds at h
  split at h
  · rename_i u hrecv hdecoded hrewound
    rw [step_decoding hrecv]
    simp only [decodeTurn, hdecoded, hrewound, if_true]
  · cases h

/-- A frame. -/
theorem step_hands {loop : Bool} {idx : UInt64} {pacing : Option PtsAnchor}
    (h : t.hands idx pacing = true) :
    ∃ frame outcome anchor, step (.running (.decoding loop idx pacing)) t
      = (.running (.decoding loop (idx + 1) (some anchor)), [.frameHeader idx frame outcome]) := by
  unfold Turn.hands at h
  split at h
  · rename_i frame hrecv hdecoded
    split at h
    · rename_i outcome hheld hsend
      rw [step_decoding hrecv]
      simp only [decodeTurn, hdecoded, hheld, hsend]
      exact ⟨frame, outcome, _, rfl⟩
    · cases h
  · cases h

end

/-! ## The contract -/

/-- Whether a pause holds after an event. -/
def holds (h : Bool) : Event → Bool
  | .control .pause true => true
  | .control .resume true => false
  | .control (.loadFile _) true => false
  | _ => h

/-- A pause took effect, and no resume or load has since. -/
def held (tr : List Event) : Bool := tr.foldl holds false

/-- The indices since the last load, after an event. -/
def indexed (l : List UInt64) : Event → List UInt64
  | .control (.loadFile _) true => []
  | .frameHeader idx _ _ => l ++ [idx]
  | _ => l

/-- The indices of the frames handed over since the last load. -/
def indices (tr : List Event) : List UInt64 := tr.foldl indexed []

/-- A frame comes while no pause holds, and its index is the next: greater than those since the last
load, and 0 if it is the first. -/
def Kept (pre : List Event) : Event → Prop
  | .frameHeader idx _ _ => held pre = false ∧ (∀ j ∈ indices pre, j < idx) ∧
    (indices pre = [] → idx = 0)
  | _ => True

instance (pre : List Event) : ∀ e, Decidable (Kept pre e)
  | .frameHeader idx _ _ =>
    inferInstanceAs (Decidable (held pre = false ∧ (∀ j ∈ indices pre, j < idx) ∧
      (indices pre = [] → idx = 0)))
  | .control _ _ => inferInstanceAs (Decidable True)
  | .endOfFile => inferInstanceAs (Decidable True)
  | .decoderError _ => inferInstanceAs (Decidable True)

/-- A turn that leaves the counter alone: a seek goes through, or a loop rewinds, before the first
frame since the last load only; no seek goes through in a pause; and the last index of all is not
used. -/
def Steady : Process → Turn → Prop
  | .running (.decoding loop idx pacing), t =>
    (t.seeks = true → idx = 0) ∧ (loop = true → t.rewinds = true → idx = 0) ∧
      (t.hands idx pacing = true → idx + 1 ≠ 0)
  | .running (.paused _ _), t => t.seeks = false
  | _, _ => True

/-- The counter is past every index since the last load, and at 0 before the first. -/
def Counter (idx : UInt64) (l : List UInt64) : Prop := (∀ j ∈ l, j < idx) ∧ (l = [] → idx = 0)

/-- What a process and its past have in common. -/
def Follows (tr : List Event) : Process → Prop
  | .running (.decoding _ idx _) => held tr = false ∧ Counter idx (indices tr)
  | .running (.paused _ idx) => held tr = true ∧ Counter idx (indices tr)
  | _ => True

/-- The end of the stream, where everything goes well. -/
def Turn.eof : Turn :=
  ⟨.ok none, .ok (), .ok (), .ok none, .ok (), 0, .ok false, .ok .sent, .ok ()⟩

/-- A frame. -/
def Turn.shows (frame : RgbaFrame) : Turn := { Turn.eof with decoded := .ok (some frame) }

/-- A control, with a descriptor. -/
def Turn.tells (m : CompositorToDecoder) : Turn := { Turn.eof with recv := .ok (some (m, 1)) }

/-- A frame of one pixel. -/
def pixel : RgbaFrame := ⟨1, 1, 0, [9, 9, 9, 9]⟩

section
variable {tr : List Event} {t : Turn}

@[simp]
theorem held_snoc (e : Event) : held (tr ++ [e]) = holds (held tr) e := by simp [held]

@[simp]
theorem indices_snoc (e : Event) : indices (tr ++ [e]) = indexed (indices tr) e := by
  simp [indices]

/-- A quiet event changes nothing, and needs no justification. -/
theorem Event.Quiet.spec {e : Event} (h : e.Quiet) (b : Bool) (l : List UInt64) :
    holds b e = b ∧ indexed l e = l ∧ ∀ pre, Kept pre e := by
  cases e with
  | control m applied =>
    cases applied with
    | false => cases m <;> exact ⟨rfl, rfl, fun _ => trivial⟩
    | true =>
      obtain rfl := h rfl
      exact ⟨rfl, rfl, fun _ => trivial⟩
  | frameHeader idx frame outcome => exact h.elim
  | endOfFile => exact ⟨rfl, rfl, fun _ => trivial⟩
  | decoderError code => exact ⟨rfl, rfl, fun _ => trivial⟩

theorem quiet_append (es : List Event) : ∀ tr, (∀ ev ∈ es, ev.Quiet) →
    held (tr ++ es) = held tr ∧ indices (tr ++ es) = indices tr := by
  induction es with
  | nil => exact fun tr _ => by simp
  | cons e es ih =>
    intro tr hes
    obtain ⟨he, hes⟩ := List.forall_mem_cons.mp hes
    obtain ⟨hheld, hindices⟩ := ih (tr ++ [e]) hes
    obtain ⟨h1, h2, -⟩ := he.spec (held tr) (indices tr)
    rw [List.append_assoc] at hheld hindices
    exact ⟨hheld.trans (held_snoc e ▸ h1), hindices.trans (indices_snoc e ▸ h2)⟩

/-- The next index is past the counter before it. -/
theorem Counter.snoc {idx : UInt64} {l : List UInt64} (h : Counter idx l) (hidx : idx + 1 ≠ 0) :
    Counter (idx + 1) (l ++ [idx]) := by
  have hlt : idx < idx + 1 := by
    rw [UInt64.lt_iff_toNat_lt, UInt64.toNat_add]
    have hne : (idx + 1).toNat ≠ 0 := fun h0 => hidx (UInt64.toNat_inj.mp h0)
    rw [UInt64.toNat_add] at hne
    have hbound := idx.toNat_lt
    simp only [UInt64.toNat_one] at hne ⊢
    omega
  refine ⟨fun j hj => ?_, fun h0 => by simp at h0⟩
  rcases List.mem_append.mp hj with hj | hj
  · exact UInt64.lt_trans (h.1 j hj) hlt
  · rw [List.mem_singleton.mp hj]
    exact hlt

/-- Whatever a turn does keeps the contract where the counter is right. -/
theorem kept_step (p : Process) (h : Always Kept tr) (hp : Follows tr p) :
    Always Kept (tr ++ (step p t).2) := by
  cases p with
  | exited e => simpa [step] using h
  | running s =>
    have hmoves := step_moves s t
    revert hmoves
    generalize (step (.running s) t).1 = p'
    generalize (step (.running s) t).2 = es
    intro hmoves
    cases hmoves with
    | exits hes => exact h.append_of_forall fun e he => ((hes e he).spec false []).2.2
    | stays hes => exact h.append_of_forall fun e he => ((hes e he).spec false []).2.2
    | shows hhands => exact h.snoc ⟨hp.1, hp.2.1, hp.2.2⟩
    | rewinds => rwa [List.append_nil]
    | _ => exact h.snoc trivial

/-- A steady turn keeps the counter right. -/
theorem follows_step (p : Process) (hp : Follows tr p) (hsteady : Steady p t) :
    Follows (tr ++ (step p t).2) (step p t).1 := by
  cases p with
  | exited e => trivial
  | running s =>
    have hmoves := step_moves s t
    revert hmoves
    generalize (step (.running s) t).1 = p'
    generalize (step (.running s) t).2 = es
    intro hmoves
    cases hmoves with
    | exits hes => trivial
    | stays hes =>
      obtain ⟨hheld, hindices⟩ := quiet_append es tr hes
      cases s with
      | idle => trivial
      | eofWaiting => trivial
      | decoding loop idx pacing => exact ⟨hheld.trans hp.1, hindices ▸ hp.2⟩
      | paused loop idx => exact ⟨hheld.trans hp.1, hindices ▸ hp.2⟩
    | loads => exact ⟨held_snoc _, by simp [indexed, Counter]⟩
    | pauses => exact ⟨held_snoc _, indices_snoc _ ▸ hp.2⟩
    | pausesAgain => exact ⟨held_snoc _, indices_snoc _ ▸ hp.2⟩
    | resumes => exact ⟨held_snoc _, indices_snoc _ ▸ hp.2⟩
    | seeks hseeks =>
      obtain rfl := hsteady.1 hseeks
      exact ⟨(held_snoc _).trans hp.1, indices_snoc _ ▸ hp.2⟩
    | seeksPaused hseeks => exact absurd hseeks (by simp [show t.seeks = false from hsteady])
    | shows hhands =>
      exact ⟨(held_snoc _).trans hp.1, indices_snoc _ ▸ hp.2.snoc (hsteady.2.2 hhands)⟩
    | rewinds hrewinds =>
      obtain rfl := hsteady.2.1 rfl hrewinds
      rw [List.append_nil]
      exact hp
    | ends => trivial

/-- The next frame breaks the contract where a pause holds, or where the counter is back at 0 after
other frames. -/
theorem next_frame_breaks {loop : Bool} {pacing : Option PtsAnchor}
    (h : held tr = true ∨ indices tr ≠ []) :
    ∃ t', ¬ Always Kept (tr ++ (step (.running (.decoding loop 0 pacing)) t').2) := by
  have hhands : (Turn.shows pixel).hands 0 pacing = true := by
    have hheld : holdFrame pacing pixel (.ok false) = .ok false := by
      cases pacing with
      | none => rfl
      | some anchor => exact ite_self _
    have hsend : sendFrame pixel 0 (.ok .sent) = .ok .sent := by decide
    simp [Turn.hands, Turn.shows, Turn.eof, hheld, hsend]
  obtain ⟨frame, outcome, anchor, hstep⟩ := @step_hands _ loop 0 pacing hhands
  refine ⟨Turn.shows pixel, fun hall => ?_⟩
  rw [hstep] at hall
  obtain ⟨hfree, hlt, -⟩ := hall.last
  rcases h with hheld | hsome
  · rw [hfree] at hheld
    cases hheld
  · obtain ⟨j, hj⟩ := List.exists_mem_of_ne_nil _ hsome
    exact absurd (hlt j hj) (UInt64.not_lt.mpr UInt64.zero_le)

/-- After a turn that is not steady, a frame breaks the contract. -/
theorem unsteady_breaks (p : Process) (hp : Follows tr p) (hsteady : ¬ Steady p t) :
    ∃ t', ¬ Always Kept (tr ++ (step p t).2 ++ (step (step p t).1 t').2) := by
  cases p with
  | exited e => exact absurd trivial hsteady
  | running s =>
    cases s with
    | idle => exact absurd trivial hsteady
    | eofWaiting => exact absurd trivial hsteady
    | paused loop idx =>
      have hseeks : t.seeks = true := by simpa [Steady] using hsteady
      obtain ⟨pts, hstep⟩ := step_seeks hseeks (.inr rfl : _ ∨ LifecycleState.paused loop idx = _)
      rw [hstep]
      refine next_frame_breaks (.inl ?_)
      exact (held_snoc _).trans hp.1
    | decoding loop idx pacing =>
      have hsome : idx ≠ 0 → indices tr ≠ [] := fun hidx hnil => hidx (hp.2.2 hnil)
      by_cases hseeks : t.seeks = true ∧ idx ≠ 0
      · obtain ⟨pts, hstep⟩ := step_seeks hseeks.1 (.inl ⟨pacing, rfl⟩ :
          (∃ pacing', LifecycleState.decoding loop idx pacing = .decoding loop idx pacing') ∨ _)
        rw [hstep]
        refine next_frame_breaks (.inr ?_)
        rw [indices_snoc]
        exact hsome hseeks.2
      by_cases hrewinds : loop = true ∧ t.rewinds = true ∧ idx ≠ 0
      · obtain ⟨rfl, hrewinds, hidx⟩ := hrewinds
        rw [step_rewinds hrewinds, List.append_nil]
        exact next_frame_breaks (.inr (hsome hidx))
      have hlast : t.hands idx pacing = true ∧ idx + 1 = 0 := by
        by_contra hlast
        refine hsteady ⟨fun h => ?_, fun h1 h2 => ?_, fun h h0 => hlast ⟨h, h0⟩⟩
        · by_contra hidx
          exact hseeks ⟨h, hidx⟩
        · by_contra hidx
          exact hrewinds ⟨h1, h2, hidx⟩
      obtain ⟨frame, outcome, anchor, hstep⟩ := @step_hands _ loop _ _ hlast.1
      rw [hstep, hlast.2]
      refine next_frame_breaks (.inr ?_)
      rw [indices_snoc]
      exact List.append_ne_nil_of_right_ne_nil _ (List.cons_ne_nil _ _)

end

/-- **The control contract.** Of a run of the decoder, and of whatever one turn more brings after
any of its turns: no frame is handed over between a pause that takes effect and the next resume or
load, and the indices since the last load start at 0 and increase, if and only if every turn is
steady. -/
theorem control_contract_iff (ready : Except DecoderError Unit) (turns : List Turn) :
    (∀ pre post, turns = pre ++ post →
      ∀ t, Always Kept (run step (start ready) (pre ++ [t])).2) ↔
      Along step Steady (start ready) turns := by
  have hstart : Always Kept [] ∧ Follows [] (start ready) := by
    refine ⟨always_nil _, ?_⟩
    cases ready <;> trivial
  have h := @run_next_always_iff _ _ _ (fun p tr => Always Kept tr ∧ Follows tr p) step Kept Steady
    (fun p tr t hp => kept_step p hp.1 hp.2)
    (fun p tr t hp hsteady => ⟨kept_step p hp.1 hp.2, follows_step p hp.2 hsteady⟩)
    (fun p tr t hp hsteady => unsteady_breaks p hp.2 hsteady) turns (start ready) [] hstart
  simpa using h

/-- A seek ends a pause, and a frame is shown though nothing resumed; and a loop that rewinds gives
its first frame the index 0 again. -/
theorem seek_or_rewind_fails :
    ¬ Always Kept (run step (start (.ok ())) [.tells (.loadFile false), .tells .pause,
      .tells (.seek 0), .shows pixel]).2 ∧
    ¬ Always Kept (run step (start (.ok ())) [.tells (.loadFile true), .shows pixel, .eof,
      .shows pixel]).2 := by
  constructor
  · intro h
    have hkept := h [.control (.loadFile false) true, .control .pause true, .control (.seek 0) true]
      (.frameHeader 0 pixel .sent) [] (by decide +kernel)
    have hpaused : held [.control (.loadFile false) true, .control .pause true,
      .control (.seek 0) true] = true := rfl
    exact absurd (hpaused.symm.trans hkept.1) (by decide)
  · intro h
    have hkept := h [.control (.loadFile true) true, .frameHeader 0 pixel .sent]
      (.frameHeader 0 pixel .sent) [] (by decide +kernel)
    exact absurd (hkept.2.1 0 (List.mem_singleton_self 0)) (by decide)

end Halmasuit.Decoder
