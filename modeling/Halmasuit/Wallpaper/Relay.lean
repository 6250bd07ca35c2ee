import Halmasuit.DecoderIpc.Wire
import Halmasuit.Lib.Run
import Halmasuit.Lib.Window
import Halmasuit.Wallpaper.Engine

/-!
# The decoder relay

`DecoderRelay` (`halmasuit/src/wallpaper/decoder_relay.rs` 106–508), which stands between the
compositor and a decoder that may be compromised: `recv_one` takes one datagram of the decoder's
socket apart, `poll_frames` takes datagrams until there is none, and `note_failure` respawns the
decoder where its restart budget allows.

- A datagram is any list of bytes. A session is a spawned decoder with its socket, counted from 0.
- The clock is in nanoseconds and is read by `note_failure` alone.
- `iterate` is one turn of the loop of `poll_frames`. `run_polls`: a run of polls is a run of turns.
- The engine of the wallpaper has a relay without frames (`Wallpaper.Engine`);
  `pollFrames_engine`: it is what this one does.

Results:

- `iterate_turn`: every way a turn can go, by the datagram;
- **`latest_frame_sound`**: what the latest frame is, and which datagrams leave it;
- **`restart_budget`**: how often the decoder is respawned, and when the relay is dead.
-/

namespace Halmasuit.Wallpaper.Relay

open Halmasuit.Lib
open Halmasuit.DecoderIpc

/-! ## Datagrams -/

/-- What `recvmsg` finds on the socket: nothing, an error, or a datagram. A socket whose peer is
gone gives the empty one. -/
inductive RecvResult where
  | wouldBlock
  | error
  | datagram (bytes : List UInt8)
  deriving DecidableEq, Repr

/-- `IpcError`. -/
inductive IpcError where
  | codec (e : CodecError)
  | io
  | msgSize
  | partialFrame
  | closed
  deriving DecidableEq, Repr

/-- `FrameMeta`. -/
structure FrameMeta where
  width : UInt32
  height : UInt32
  deriving DecidableEq, Repr

/-- `RecvOutcome`. -/
inductive RecvOutcome where
  | ready
  | frame (header : FrameMeta)
  | endOfFile
  | decoderError (code : DecoderErrorCode) (message : String)
  deriving DecidableEq, Repr

/-- `BUF_SIZE` of `DecoderChannel::new`. -/
def bufSize : Nat := maxFrameBytes + maxControlMsgBytes + 4

section
variable (fromSlice : List UInt8 → Option DecoderToCompositor)

/-- The end of `recv_one`: a datagram that was received whole. -/
def readDatagram (scratch d : List UInt8) : List UInt8 × Except IpcError RecvOutcome :=
  match tryDecodeControl fromSlice d with
  | .error e => (scratch, .error (.codec e))
  | .ok none => (scratch, .error .partialFrame)
  | .ok (some (.frameHeader _ _ width height format bytesLen, consumed)) =>
    match validateFrameHeader width height format bytesLen with
    | .error e => (scratch, .error (.codec e))
    | .ok () =>
      if consumed + bytesLen.toNat ≠ d.length then (scratch, .error .partialFrame)
      else ((d.drop consumed).take bytesLen.toNat, .ok (.frame ⟨width, height⟩))
  | .ok (some (.ready version, _)) =>
    if version ≠ wireVersion then
      (scratch, .error (.codec (.wireVersionMismatch version wireVersion)))
    else (scratch, .ok .ready)
  | .ok (some (.endOfFile, _)) => (scratch, .ok .endOfFile)
  | .ok (some (.decoderError code message, _)) => (scratch, .ok (.decoderError code message))

/-- `recv_one`: the payload buffer after it, and its result. A datagram longer than the receive
buffer comes with `MSG_TRUNC`. -/
def recvOne (scratch : List UInt8) : RecvResult → List UInt8 × Except IpcError (Option RecvOutcome)
  | .wouldBlock => (scratch, .ok none)
  | .error => (scratch, .error .io)
  | .datagram d =>
    if bufSize < d.length then (scratch, .error .msgSize)
    else if d = [] then (scratch, .error .closed)
    else ((readDatagram fromSlice scratch d).1, (readDatagram fromSlice scratch d).2.map some)

end

/-! ## The relay -/

/-- `LatestFrame`. -/
structure LatestFrame where
  width : UInt32
  height : UInt32
  bytes : List UInt8
  frameIdx : UInt64
  deriving DecidableEq, Repr

/-- `DecoderRelay`. The channel, the pidfd and the pid are those of one session. -/
structure DecoderRelay where
  session : Nat
  payloadScratch : List UInt8
  latestFrame : Option LatestFrame
  nextFrameIdx : UInt64
  restartHistory : List Nat
  dead : Bool
  ready : Bool
  deriving DecidableEq, Repr

/-- What `note_failure` reads of the world: the clock, and whether `spawn_decoder_session`
succeeds. -/
structure Failure where
  now : Nat
  spawned : Bool
  deriving DecidableEq, Repr

/-- The ways `note_failure` ends. -/
inductive FailureOutcome where
  | respawned
  | respawnFailed
  | exhausted
  deriving DecidableEq, Repr

/-- A datagram that was received: its session, whether it became the latest frame, and the latest
frame before and after it. -/
structure Received where
  session : Nat
  datagram : List UInt8
  stored : Bool
  before : Option LatestFrame
  after : Option LatestFrame
  deriving DecidableEq, Repr

/-- What a relay does, in order. -/
inductive Event where
  | received (e : Received)
  | failed (now : Nat) (outcome : FailureOutcome)
  deriving DecidableEq, Repr

/-- A poll: what the socket gives until it would block, and what a failure finds. -/
structure Poll where
  recvs : List RecvResult
  failure : Failure
  deriving DecidableEq, Repr

/-- The clocks of the calls of `respawn`, whether the decoder was spawned or not. -/
def respawnTimes (tr : List Event) : List Nat :=
  tr.filterMap fun
    | .failed _ .exhausted => none
    | .failed now _ => some now
    | .received _ => none

/-- A second of the clock. -/
def second : Nat := 1000000000

namespace DecoderRelay

/-- The relay that `DecoderRelay::spawn` returns. -/
def new : DecoderRelay := ⟨0, [], none, 0, [], false, false⟩

/-- `respawn`, once the new session is there. -/
def respawn (r : DecoderRelay) : DecoderRelay :=
  { r with session := r.session + 1, ready := false }

/-- `note_failure`. -/
def noteFailure (r : DecoderRelay) (f : Failure) : DecoderRelay × FailureOutcome :=
  let hist := r.restartHistory.filter (fun t => decide ((f.now - t) / second < restartWindowSecs))
    ++ [f.now]
  let r := { r with restartHistory := hist }
  if maxRestartsPerWindow < hist.length then ({ r with dead := true }, .exhausted)
  else if f.spawned then (r.respawn, .respawned)
  else ({ r with dead := true }, .respawnFailed)

/-- How the loop of `poll_frames` goes on after a result of `recv_one`. -/
inductive Next where
  | drained
  | fails
  | goesOn (r : DecoderRelay) (gotFrame : Bool)

/-- The body of the loop of `poll_frames`; `scratch` is the payload buffer `recv_one` left. The
frame takes the buffer, and the buffer of the frame before it is filled next. -/
def handle (r : DecoderRelay) (scratch : List UInt8) : Except IpcError (Option RecvOutcome) → Next
  | .ok none => .drained
  | .ok (some .ready) => .goesOn { r with payloadScratch := scratch, ready := true } false
  | .ok (some (.frame header)) =>
    if !r.ready then .fails
    else
      .goesOn { r with
        nextFrameIdx := r.nextFrameIdx + 1
        payloadScratch := (r.latestFrame.map LatestFrame.bytes).getD []
        latestFrame := some ⟨header.width, header.height, scratch, r.nextFrameIdx⟩ } true
  | .ok (some .endOfFile) => .goesOn { r with payloadScratch := scratch } false
  | .ok (some (.decoderError _ _)) => .fails
  | .error _ => .fails

/-- The reception of a datagram, where there was one. -/
def reception (r r' : DecoderRelay) (stored : Bool) : RecvResult → List Event
  | .datagram d => [.received ⟨r.session, d, stored, r.latestFrame, r'.latestFrame⟩]
  | _ => []

section
variable (fromSlice : List UInt8 → Option DecoderToCompositor)

/-- The loop of `poll_frames`: the relay, `got_frame`, and what it did. -/
def drain (f : Failure) : DecoderRelay → Bool → List RecvResult → (DecoderRelay × Bool) × List Event
  | r, got, [] => ((r, got), [])
  | r, got, m :: ms =>
    let recv := recvOne fromSlice r.payloadScratch m
    match r.handle recv.1 recv.2 with
    | .drained => ((r, got), [])
    | .goesOn r' gotFrame =>
      let n := drain f r' (got || gotFrame) ms
      (n.1, r.reception r' gotFrame m ++ n.2)
    | .fails =>
      let n := { r with payloadScratch := recv.1 }.noteFailure f
      ((n.1, got), r.reception n.1 false m ++ [.failed f.now n.2])

/-- `poll_frames`. -/
def pollFrames (r : DecoderRelay) (p : Poll) : (DecoderRelay × Bool) × List Event :=
  if r.dead then ((r, false), []) else drain fromSlice p.failure r false p.recvs

/-- A poll, as a step of the relay. -/
def poll (r : DecoderRelay) (p : Poll) : DecoderRelay × List Event :=
  ((r.pollFrames fromSlice p).1.1, (r.pollFrames fromSlice p).2)

/-- One turn of the loop. -/
def iterate (r : DecoderRelay) (i : RecvResult × Failure) : DecoderRelay × List Event :=
  if r.dead then (r, [])
  else
    let recv := recvOne fromSlice r.payloadScratch i.1
    match r.handle recv.1 recv.2 with
    | .drained => (r, [])
    | .goesOn r' gotFrame => (r', r.reception r' gotFrame i.1)
    | .fails =>
      let n := { r with payloadScratch := recv.1 }.noteFailure i.2
      (n.1, r.reception n.1 false i.1 ++ [.failed i.2.now n.2])

end

end DecoderRelay

open Halmasuit.Wallpaper.Relay.DecoderRelay (drain iterate poll)

/-! ## One datagram -/

section
variable (fromSlice : List UInt8 → Option DecoderToCompositor)

/-- A `Ready` of this wire version. -/
def IsReady (d : List UInt8) : Prop :=
  d.length ≤ bufSize ∧ ∃ n, tryDecodeControl fromSlice d = .ok (some (.ready wireVersion, n))

/-- A frame that passes the header check, whose payload is as long as it declares. -/
def IsFrame (d : List UInt8) (width height : UInt32) (payload : List UInt8) : Prop :=
  ∃ frameIdx ptsUs bytesLen n, tryDecodeControl fromSlice d
      = .ok (some (.frameHeader frameIdx ptsUs width height .rgba8 bytesLen, n)) ∧
    validateFrameHeader width height .rgba8 bytesLen = .ok () ∧ payload = d.drop n ∧
    payload.length = bytesLen.toNat

end

section
variable {fromSlice : List UInt8 → Option DecoderToCompositor} {d : List UInt8}

/-- The dimensions are positive, and the payload is as long as they say, within the ceiling. -/
theorem IsFrame.bounds {width height : UInt32} {payload : List UInt8}
    (h : IsFrame fromSlice d width height payload) :
    0 < width.toNat ∧ 0 < height.toNat ∧ payload.length = width.toNat * height.toNat * 4 ∧
      payload.length ≤ maxFrameBytes := by
  obtain ⟨_, _, bytesLen, n, -, hvalid, -, hlen⟩ := h
  rw [hlen]
  exact validateFrameHeader_ok_iff.mp hvalid

/-- A frame fits the receive buffer. -/
theorem IsFrame.length_le {width height : UInt32} {payload : List UInt8}
    (h : IsFrame fromSlice d width height payload) : d.length ≤ bufSize ∧ d ≠ [] := by
  obtain ⟨-, -, -, hmax⟩ := h.bounds
  obtain ⟨_, _, bytesLen, n, hdec, -, rfl, hlen⟩ := h
  obtain ⟨h4, hn, hctl⟩ := tryDecodeControl_some hdec
  rw [List.length_drop] at hmax
  constructor
  · unfold bufSize
    omega
  · rintro rfl
    simp at hn
    omega

/-- **A frame the decoder sends is a frame the relay reads.** -/
theorem isFrame_frameDatagram {header payload : List UInt8} {frameIdx : UInt64} {ptsUs : Int64}
    {width height bytesLen : UInt32} (h : encodeFrameDatagram header payload = .ok d)
    (hm : fromSlice header = some (.frameHeader frameIdx ptsUs width height .rgba8 bytesLen))
    (hvalid : validateFrameHeader width height .rgba8 bytesLen = .ok ())
    (hlen : payload.length = bytesLen.toNat) : IsFrame fromSlice d width height payload := by
  obtain ⟨n, hdec, hdrop⟩ := tryDecodeControl_frameDatagram h hm
  exact ⟨frameIdx, ptsUs, bytesLen, n, hdec, hvalid, hdrop.symm, hlen⟩

theorem IsFrame.not_ready {width height : UInt32} {payload : List UInt8}
    (h : IsFrame fromSlice d width height payload) : ¬ IsReady fromSlice d := by
  rintro ⟨-, n, hready⟩
  obtain ⟨_, _, _, _, hdec, -⟩ := h
  rw [hdec] at hready
  cases hready

theorem IsReady.ne_nil (h : IsReady fromSlice d) : d ≠ [] := by
  rintro rfl
  obtain ⟨-, n, hdec⟩ := h
  have := tryDecodeControl_some hdec
  simp at this
  omega

/-- Every way a datagram that was received whole can be taken. -/
theorem readDatagram_cases (scratch d : List UInt8) :
    (∃ width height payload, IsFrame fromSlice d width height payload ∧
      readDatagram fromSlice scratch d = (payload, .ok (.frame ⟨width, height⟩))) ∨
    ((∃ n, tryDecodeControl fromSlice d = .ok (some (.ready wireVersion, n))) ∧
      readDatagram fromSlice scratch d = (scratch, .ok .ready)) ∨
    ((¬ ∃ width height payload, IsFrame fromSlice d width height payload) ∧
      ¬ IsReady fromSlice d ∧ (readDatagram fromSlice scratch d = (scratch, .ok .endOfFile) ∨
        (∃ code message,
          readDatagram fromSlice scratch d = (scratch, .ok (.decoderError code message))) ∨
        ∃ e, readDatagram fromSlice scratch d = (scratch, .error e))) := by
  have hframe : ∀ {width height payload}, IsFrame fromSlice d width height payload →
      ∃ frameIdx ptsUs bytesLen n, tryDecodeControl fromSlice d
        = .ok (some (.frameHeader frameIdx ptsUs width height .rgba8 bytesLen, n)) :=
    fun ⟨frameIdx, ptsUs, bytesLen, n, h, _⟩ => ⟨frameIdx, ptsUs, bytesLen, n, h⟩
  have hother : ∀ {r}, tryDecodeControl fromSlice d = r →
      (∀ frameIdx ptsUs width height bytesLen n,
        r ≠ .ok (some (.frameHeader frameIdx ptsUs width height .rgba8 bytesLen, n))) →
      ¬ ∃ width height payload, IsFrame fromSlice d width height payload := by
    rintro r rfl hne ⟨width, height, payload, h⟩
    obtain ⟨_, _, _, _, hdec⟩ := hframe h
    exact hne _ _ _ _ _ _ hdec
  have hunready : ∀ {r}, tryDecodeControl fromSlice d = r →
      (∀ n, r ≠ .ok (some (.ready wireVersion, n))) → ¬ IsReady fromSlice d := by
    rintro r rfl hne ⟨-, n, hdec⟩
    exact hne n hdec
  unfold readDatagram
  cases hdec : tryDecodeControl fromSlice d with
  | error e =>
    exact .inr (.inr ⟨hother hdec nofun, hunready hdec nofun, .inr (.inr ⟨_, rfl⟩)⟩)
  | ok r =>
    rcases r with _ | ⟨m, n⟩
    · exact .inr (.inr ⟨hother hdec nofun, hunready hdec nofun, .inr (.inr ⟨_, rfl⟩)⟩)
    · cases m with
      | ready version =>
        by_cases hv : version = wireVersion
        · subst hv
          exact .inr (.inl ⟨⟨n, rfl⟩, if_neg (fun h => h rfl)⟩)
        · refine .inr (.inr ⟨hother hdec nofun, hunready hdec fun n' h => ?_,
            .inr (.inr ⟨_, if_pos hv⟩)⟩)
          cases h
          exact hv rfl
      | endOfFile =>
        exact .inr (.inr ⟨hother hdec nofun, hunready hdec nofun, .inl rfl⟩)
      | decoderError code message =>
        exact .inr (.inr ⟨hother hdec nofun, hunready hdec nofun, .inr (.inl ⟨_, _, rfl⟩)⟩)
      | frameHeader frameIdx ptsUs width height format bytesLen =>
        cases format
        have hready : ¬ IsReady fromSlice d := hunready hdec nofun
        dsimp only
        -- the header is checked first, then the length of the datagram
        cases hvalid : validateFrameHeader width height .rgba8 bytesLen with
        | error e =>
          refine .inr (.inr ⟨?_, hready, .inr (.inr ⟨_, rfl⟩)⟩)
          rintro ⟨_, _, _, _, _, _, _, hdec', hvalid', -⟩
          cases hdec.symm.trans hdec'
          cases hvalid.symm.trans hvalid'
        | ok u =>
          have hn : n ≤ d.length := (tryDecodeControl_some hdec).2.1
          by_cases hlen : n + bytesLen.toNat = d.length
          · have hpayload : (d.drop n).length = bytesLen.toNat := by
              rw [List.length_drop]
              omega
            refine .inl ⟨width, height, d.drop n,
              ⟨frameIdx, ptsUs, bytesLen, n, hdec, hvalid, rfl, hpayload⟩, ?_⟩
            rw [if_neg (fun h => h hlen), ← hpayload, List.take_length]
          · refine .inr (.inr ⟨?_, hready, .inr (.inr ⟨_, if_pos hlen⟩)⟩)
            rintro ⟨_, _, _, _, _, _, _, hdec', -, rfl, hlen'⟩
            cases hdec.symm.trans hdec'
            rw [List.length_drop] at hlen'
            omega

end

/-! ## One turn of the loop -/

/-- Every way `note_failure` can end. -/
theorem noteFailure_cases (r : DecoderRelay) (f : Failure) :
    let hist := r.restartHistory.filter
      (fun t => decide ((f.now - t) / second < restartWindowSecs)) ++ [f.now]
    (maxRestartsPerWindow < hist.length ∧ r.noteFailure f
      = ({ r with restartHistory := hist, dead := true }, .exhausted)) ∨
    (hist.length ≤ maxRestartsPerWindow ∧ r.noteFailure f
      = (({ r with restartHistory := hist }.respawn), .respawned)) ∨
    (hist.length ≤ maxRestartsPerWindow ∧ r.noteFailure f
      = ({ r with restartHistory := hist, dead := true }, .respawnFailed)) := by
  intro hist
  unfold DecoderRelay.noteFailure
  by_cases hmax : maxRestartsPerWindow < hist.length
  · exact .inl ⟨hmax, if_pos hmax⟩
  · rw [if_neg hmax]
    by_cases hspawned : f.spawned = true
    · exact .inr (.inl ⟨Nat.le_of_not_lt hmax, if_pos hspawned⟩)
    · exact .inr (.inr ⟨Nat.le_of_not_lt hmax, if_neg hspawned⟩)

/-- A failure leaves the frames; the relay is dead, or has a new session that is not ready. -/
theorem noteFailure_frames (r : DecoderRelay) (f : Failure) :
    (r.noteFailure f).1.latestFrame = r.latestFrame ∧
    (r.noteFailure f).1.nextFrameIdx = r.nextFrameIdx ∧
    (((r.noteFailure f).1.session = r.session ∧ (r.noteFailure f).1.ready = r.ready) ∨
      ((r.noteFailure f).1.session = r.session + 1 ∧ (r.noteFailure f).1.ready = false)) := by
  rcases noteFailure_cases r f with ⟨-, heq⟩ | ⟨-, heq⟩ | ⟨-, heq⟩
  · rw [heq]
    exact ⟨rfl, rfl, .inl ⟨rfl, rfl⟩⟩
  · rw [heq]
    exact ⟨rfl, rfl, .inr ⟨rfl, rfl⟩⟩
  · rw [heq]
    exact ⟨rfl, rfl, .inl ⟨rfl, rfl⟩⟩

section
variable (fromSlice : List UInt8 → Option DecoderToCompositor)

/-- The reception of a datagram that leaves the latest frame. -/
def DecoderRelay.passing (r : DecoderRelay) (d : List UInt8) : Event :=
  .received ⟨r.session, d, false, r.latestFrame, r.latestFrame⟩

/-- The latest frame after a frame of these dimensions and bytes. -/
def DecoderRelay.shows (r : DecoderRelay) (width height : UInt32) (payload : List UInt8) :
    LatestFrame :=
  ⟨width, height, payload, r.nextFrameIdx⟩

/-- A failure comes after the datagram that brought it, which left the latest frame. -/
theorem reception_noteFailure (r : DecoderRelay) (scratch : List UInt8) (f : Failure)
    (d : List UInt8) :
    r.reception ({ r with payloadScratch := scratch }.noteFailure f).1 false (.datagram d)
      = [r.passing d] := by
  have hlatest := (noteFailure_frames { r with payloadScratch := scratch } f).1
  simp only [DecoderRelay.reception, DecoderRelay.passing, hlatest]

/-- One turn of a relay that is not dead: what was received, and what became of it. A turn that
fails may have filled the payload buffer before. -/
inductive Turn (r : DecoderRelay) (f : Failure) : DecoderRelay → List Event → Prop
  | drained : Turn r f r []
  | ready {d} (hd : IsReady fromSlice d) : Turn r f { r with ready := true } [r.passing d]
  | frame {d width height payload} (hd : IsFrame fromSlice d width height payload)
      (hready : r.ready = true) :
      Turn r f
        { r with
          nextFrameIdx := r.nextFrameIdx + 1
          payloadScratch := (r.latestFrame.map LatestFrame.bytes).getD []
          latestFrame := some (r.shows width height payload) }
        [.received ⟨r.session, d, true, r.latestFrame, some (r.shows width height payload)⟩]
  | endOfFile {d} (hready : ¬ IsReady fromSlice d)
      (hframe : ¬ ∃ width height payload, IsFrame fromSlice d width height payload) :
      Turn r f r [r.passing d]
  | broken : Turn r f (r.noteFailure f).1 [.failed f.now (r.noteFailure f).2]
  | rejected {d} (scratch : List UInt8) (hready : ¬ IsReady fromSlice d)
      (hframe : r.ready = true →
        ¬ ∃ width height payload, IsFrame fromSlice d width height payload) :
      Turn r f ({ r with payloadScratch := scratch }.noteFailure f).1
        [r.passing d, .failed f.now ({ r with payloadScratch := scratch }.noteFailure f).2]

/-- A datagram that fails the relay, after it filled the payload buffer or not. -/
theorem iterate_fails {r : DecoderRelay} {f : Failure} {d scratch : List UInt8}
    {res : Except IpcError (Option RecvOutcome)} (hdead : r.dead = false)
    (hrecv : recvOne fromSlice r.payloadScratch (.datagram d) = (scratch, res))
    (hfails : r.handle scratch res = .fails) :
    r.iterate fromSlice (.datagram d, f)
      = (({ r with payloadScratch := scratch }.noteFailure f).1,
        [r.passing d, .failed f.now ({ r with payloadScratch := scratch }.noteFailure f).2]) := by
  unfold DecoderRelay.iterate
  rw [if_neg (by simp [hdead])]
  dsimp only
  rw [hrecv]
  dsimp only
  rw [hfails]
  dsimp only
  rw [reception_noteFailure]
  rfl

/-- **Every way a turn can go.** -/
theorem iterate_turn (r : DecoderRelay) (i : RecvResult × Failure) (hdead : r.dead = false) :
    Turn fromSlice r i.2 (r.iterate fromSlice i).1 (r.iterate fromSlice i).2 := by
  obtain ⟨m, f⟩ := i
  have hgo : ∀ m, r.iterate fromSlice (m, f) = _ := fun m => if_neg (by simp [hdead])
  cases m with
  | wouldBlock =>
    rw [hgo]
    exact .drained
  | error =>
    rw [hgo]
    exact .broken
  | datagram d =>
    have hrejected : ∀ {scratch res}, recvOne fromSlice r.payloadScratch (.datagram d)
        = (scratch, res) → r.handle scratch res = .fails → ¬ IsReady fromSlice d →
        (r.ready = true → ¬ ∃ width height payload, IsFrame fromSlice d width height payload) →
        Turn fromSlice r f (r.iterate fromSlice (.datagram d, f)).1
          (r.iterate fromSlice (.datagram d, f)).2 := by
      intro scratch res hrecv hfails hready hframe
      rw [iterate_fails fromSlice hdead hrecv hfails]
      exact .rejected scratch hready hframe
    have hrecv : recvOne fromSlice r.payloadScratch (.datagram d) = ite _ _ (ite _ _ _) := rfl
    by_cases hlong : bufSize < d.length
    · rw [if_pos hlong] at hrecv
      refine hrejected hrecv rfl (fun h => ?_) fun _ ⟨_, _, _, h⟩ => ?_
      · exact Nat.not_lt.mpr h.1 hlong
      · exact Nat.not_lt.mpr h.length_le.1 hlong
    rw [if_neg hlong] at hrecv
    by_cases hnil : d = []
    · rw [if_pos hnil] at hrecv
      refine hrejected hrecv rfl (fun h => h.ne_nil hnil) fun _ ⟨_, _, _, h⟩ => ?_
      exact h.length_le.2 hnil
    rw [if_neg hnil] at hrecv
    rcases @readDatagram_cases fromSlice r.payloadScratch d with
      ⟨width, height, payload, hd, heq⟩ | ⟨hd, heq⟩ | ⟨hframe, hready, heq⟩
    · rw [heq] at hrecv
      by_cases hr : r.ready = true
      · have hnext : r.handle payload (.ok (some (.frame ⟨width, height⟩))) = .goesOn { r with
            nextFrameIdx := r.nextFrameIdx + 1
            payloadScratch := (r.latestFrame.map LatestFrame.bytes).getD []
            latestFrame := some (r.shows width height payload) } true := if_neg (by simp [hr])
        rw [hgo, hrecv]
        simp only [Except.map, hnext]
        exact .frame hd hr
      · exact hrejected hrecv (if_pos (by simp [hr])) hd.not_ready fun h => absurd h hr
    · rw [heq] at hrecv
      rw [hgo, hrecv]
      exact .ready ⟨Nat.le_of_not_lt hlong, hd⟩
    · rcases heq with heq | ⟨code, message, heq⟩ | ⟨e, heq⟩
      · rw [heq] at hrecv
        rw [hgo, hrecv]
        exact .endOfFile hready hframe
      · rw [heq] at hrecv
        exact hrejected hrecv rfl hready fun _ => hframe
      · rw [heq] at hrecv
        exact hrejected hrecv rfl hready fun _ => hframe

end

/-! ## Polls are runs of turns -/

theorem handle_dead {r r' : DecoderRelay} {scratch : List UInt8} {gotFrame : Bool}
    {m : Except IpcError (Option RecvOutcome)} (h : r.handle scratch m = .goesOn r' gotFrame) :
    r'.dead = r.dead := by
  unfold DecoderRelay.handle at h
  split at h
  · cases h
  · cases h
    rfl
  · split at h
    · cases h
    · cases h
      rfl
  · cases h
    rfl
  · cases h
  · cases h

/-- The loop of a poll is a run of turns; what the loop does not get to is not read. -/
theorem drain_run (fromSlice : List UInt8 → Option DecoderToCompositor) (f : Failure)
    (ms : List RecvResult) : ∀ (r : DecoderRelay) (got : Bool), r.dead = false →
    ∃ is, (drain fromSlice f r got ms).1.1 = (run (iterate fromSlice) r is).1 ∧
      (drain fromSlice f r got ms).2 = (run (iterate fromSlice) r is).2 := by
  induction ms with
  | nil => exact fun r got _ => ⟨[], rfl, rfl⟩
  | cons m ms ih =>
    intro r got hdead
    have hiter : ∀ {r' es}, r.iterate fromSlice (m, f) = (r', es) → ∀ is,
        run (iterate fromSlice) r ((m, f) :: is)
          = ((run (iterate fromSlice) r' is).1, es ++ (run (iterate fromSlice) r' is).2) := by
      intro r' es heq is
      simp only [run, heq]
    unfold DecoderRelay.drain
    dsimp only
    cases hnext : r.handle (recvOne fromSlice r.payloadScratch m).1
        (recvOne fromSlice r.payloadScratch m).2 with
    | drained => exact ⟨[], rfl, rfl⟩
    | goesOn r' gotFrame =>
      obtain ⟨is, hr, hes⟩ := ih r' (got || gotFrame) ((handle_dead hnext).trans hdead)
      have heq : r.iterate fromSlice (m, f) = (r', r.reception r' gotFrame m) := by
        simp [DecoderRelay.iterate, hdead, hnext]
      refine ⟨(m, f) :: is, ?_, ?_⟩
      · rw [hiter heq]
        exact hr
      · rw [hiter heq]
        exact congrArg _ hes
    | fails =>
      let n := { r with
        payloadScratch := (recvOne fromSlice r.payloadScratch m).1 }.noteFailure f
      have heq : r.iterate fromSlice (m, f)
          = (n.1, r.reception n.1 false m ++ [Event.failed f.now n.2]) := by
        unfold DecoderRelay.iterate
        rw [if_neg (by simp [hdead])]
        dsimp only
        rw [hnext]
      refine ⟨[(m, f)], ?_, ?_⟩
      · rw [hiter heq]
        rfl
      · rw [hiter heq]
        exact (List.append_nil _).symm

/-- **A run of polls is a run of turns.** -/
theorem run_polls (fromSlice : List UInt8 → Option DecoderToCompositor) (polls : List Poll) :
    ∀ r : DecoderRelay, ∃ is, run (poll fromSlice) r polls = run (iterate fromSlice) r is := by
  induction polls with
  | nil => exact fun r => ⟨[], rfl⟩
  | cons p polls ih =>
    intro r
    obtain ⟨is, h1, h2⟩ : ∃ is, (r.poll fromSlice p).1 = (run (iterate fromSlice) r is).1 ∧
        (r.poll fromSlice p).2 = (run (iterate fromSlice) r is).2 := by
      by_cases hdead : r.dead = true
      · have hstay : r.pollFrames fromSlice p = ((r, false), []) := if_pos hdead
        refine ⟨[], ?_, ?_⟩
        · simp only [DecoderRelay.poll, hstay, run]
        · simp only [DecoderRelay.poll, hstay, run]
      · have hgo : r.pollFrames fromSlice p =
            drain fromSlice p.failure r false p.recvs :=
          if_neg hdead
        unfold DecoderRelay.poll
        rw [hgo]
        exact drain_run fromSlice p.failure p.recvs r false (by simpa using hdead)
    obtain ⟨is', h⟩ := ih (r.poll fromSlice p).1
    refine ⟨is ++ is', ?_⟩
    rw [run_append, ← h1, ← h, ← h2]
    rfl

/-! ## The relay of the engine -/

section
variable (fromSlice : List UInt8 → Option DecoderToCompositor)

/-- A result of `recv_one`, as the engine sees it. -/
def outcome (m : RecvResult) : Wallpaper.RecvOutcome :=
  match (recvOne fromSlice [] m).2 with
  | .ok none => .drained
  | .ok (some .ready) => .ready
  | .ok (some (.frame _)) => .frame
  | .ok (some .endOfFile) => .endOfFile
  | .ok (some (.decoderError _ _)) => .decoderError
  | .error .closed => .closed
  | .error _ => .error

/-- A millisecond of the clock. -/
def milli : Nat := 1000000

/-- A relay, as the engine sees it: without the frames, on a clock of milliseconds. -/
structure Mirrors (r : DecoderRelay) (e : Wallpaper.DecoderRelay) : Prop where
  history : r.restartHistory = e.restartHistory.map (· * milli)
  dead : r.dead = e.dead
  ready : r.ready = e.ready

/-- The calls of `respawn`, as the engine records them. -/
def decoderCalls (es : List Event) : List DecoderCall := (respawnTimes es).map fun _ => .respawn

end

section
variable {fromSlice : List UInt8 → Option DecoderToCompositor} {r : DecoderRelay}
  {e : Wallpaper.DecoderRelay}

/-- What `recv_one` makes of a datagram does not depend on the payload buffer. -/
theorem recvOne_snd (scratch scratch' : List UInt8) (m : RecvResult) :
    (recvOne fromSlice scratch m).2 = (recvOne fromSlice scratch' m).2 := by
  have hread : ∀ d,
      (readDatagram fromSlice scratch d).2 = (readDatagram fromSlice scratch' d).2 := by
    intro d
    unfold readDatagram
    split
    · rfl
    · rfl
    · split
      · rfl
      · split <;> rfl
    · split <;> rfl
    · rfl
    · rfl
  cases m with
  | wouldBlock => rfl
  | error => rfl
  | datagram d =>
    unfold recvOne
    dsimp only
    rw [hread d]
    split
    · rfl
    · split <;> rfl

theorem Mirrors.noteFailure (h : Mirrors r e) (scratch : List UInt8) (now : Nat) (spawned : Bool) :
    Mirrors ({ r with payloadScratch := scratch }.noteFailure ⟨now * milli, spawned⟩).1
        (e.noteFailure now spawned).1 ∧
      decoderCalls [.failed (now * milli)
        ({ r with payloadScratch := scratch }.noteFailure ⟨now * milli, spawned⟩).2]
        = (e.noteFailure now spawned).2 := by
  have hsecs : ∀ t, (now * milli - t * milli) / second = (now - t) / 1000 := by
    intro t
    rw [← Nat.sub_mul, show second = 1000 * milli from rfl,
      Nat.mul_div_mul_right _ _ (by decide : 0 < milli)]
  have hhist : r.restartHistory.filter
        (fun t => decide ((now * milli - t) / second < restartWindowSecs)) ++ [now * milli]
      = (e.restartHistory.filter (fun t => (now - t) / 1000 < restartWindowSecs) ++ [now]).map
        (· * milli) := by
    rw [h.history, List.filter_map, List.map_append]
    simp only [Function.comp_def, hsecs]
    rfl
  unfold DecoderRelay.noteFailure Wallpaper.DecoderRelay.noteFailure
  dsimp only
  rw [hhist, List.length_map]
  split_ifs
  · exact ⟨⟨rfl, rfl, h.ready⟩, rfl⟩
  · exact ⟨⟨rfl, h.dead, rfl⟩, rfl⟩
  · exact ⟨⟨rfl, rfl, h.ready⟩, rfl⟩

theorem decoderCalls_reception (r' : DecoderRelay) (stored : Bool) (m : RecvResult)
    (es : List Event) : decoderCalls (r.reception r' stored m ++ es) = decoderCalls es := by
  unfold DecoderRelay.reception
  cases m with
  | datagram d => simp [decoderCalls, respawnTimes]
  | _ => rfl

/-- The loop of a poll is the loop the engine has. -/
theorem drain_mirrors (now : Nat) (spawned : Bool) (ms : List RecvResult) :
    ∀ (r : DecoderRelay) (e : Wallpaper.DecoderRelay) (got : Bool), Mirrors r e →
      Mirrors (drain fromSlice ⟨now * milli, spawned⟩ r got ms).1.1
          (e.drain now spawned (ms.map (outcome fromSlice))).1 ∧
        decoderCalls (drain fromSlice ⟨now * milli, spawned⟩ r got ms).2
          = (e.drain now spawned (ms.map (outcome fromSlice))).2 := by
  induction ms with
  | nil => exact fun r e got h => ⟨h, rfl⟩
  | cons m ms ih =>
    intro r e got h
    have hfail := h.noteFailure (recvOne fromSlice r.payloadScratch m).1 now spawned
    have hsame := @recvOne_snd fromSlice [] r.payloadScratch m
    unfold DecoderRelay.drain
    rw [List.map_cons, outcome, hsame]
    dsimp only
    generalize recvOne fromSlice r.payloadScratch m = recv at *
    obtain ⟨scratch, res⟩ := recv
    have hgoesOn : ∀ (r' : DecoderRelay) (e' : Wallpaper.DecoderRelay) (gotFrame : Bool),
        Mirrors r' e' →
        Mirrors (drain fromSlice ⟨now * milli, spawned⟩ r' (got || gotFrame) ms).1.1
            (e'.drain now spawned (ms.map (outcome fromSlice))).1 ∧
          decoderCalls (r.reception r' gotFrame m ++
            (drain fromSlice ⟨now * milli, spawned⟩ r' (got || gotFrame) ms).2)
            = (e'.drain now spawned (ms.map (outcome fromSlice))).2 := by
      intro r' e' gotFrame h'
      rw [decoderCalls_reception]
      exact ih r' e' _ h'
    rw [← decoderCalls_reception ({ r with
      payloadScratch := scratch }.noteFailure ⟨now * milli, spawned⟩).1 false m] at hfail
    match res with
    | .ok none => exact ⟨h, rfl⟩
    | .ok (some .ready) =>
      exact hgoesOn { r with payloadScratch := scratch, ready := true } { e with ready := true }
        false ⟨h.history, h.dead, rfl⟩
    | .ok (some (.frame header)) =>
      by_cases hready : r.ready = true
      · have hnext : r.handle scratch (.ok (some (.frame header))) = .goesOn { r with
            nextFrameIdx := r.nextFrameIdx + 1
            payloadScratch := (r.latestFrame.map LatestFrame.bytes).getD []
            latestFrame := some (r.shows header.width header.height scratch) } true :=
          if_neg (by simp [hready])
        have hframe : ∀ l, Wallpaper.DecoderRelay.drain now spawned e (.frame :: l)
            = e.drain now spawned l := fun l => if_pos (h.ready ▸ hready)
        dsimp only
        rw [hnext, hframe]
        exact hgoesOn _ e true ⟨h.history, h.dead, h.ready⟩
      · have hnext : r.handle scratch (.ok (some (.frame header))) = .fails :=
          if_pos (by simp [hready])
        have hframe : ∀ l, Wallpaper.DecoderRelay.drain now spawned e (.frame :: l)
            = e.noteFailure now spawned := fun l => if_neg (h.ready ▸ hready)
        dsimp only
        rw [hnext, hframe]
        exact hfail
    | .ok (some .endOfFile) =>
      exact hgoesOn { r with payloadScratch := scratch } e false ⟨h.history, h.dead, h.ready⟩
    | .ok (some (.decoderError code message)) => exact hfail
    | .error error =>
      cases error with
      | _ => exact hfail

/-- **The relay of the engine.** A poll does to this relay what it does to the one the engine has,
and calls `respawn` as often. -/
theorem pollFrames_engine (h : Mirrors r e) (ms : List RecvResult) (now : Nat) (spawned : Bool) :
    Mirrors (r.pollFrames fromSlice ⟨ms, ⟨now * milli, spawned⟩⟩).1.1
        (e.pollFrames ⟨ms.map (outcome fromSlice), now, spawned⟩).1 ∧
      decoderCalls (r.pollFrames fromSlice ⟨ms, ⟨now * milli, spawned⟩⟩).2
        = (e.pollFrames ⟨ms.map (outcome fromSlice), now, spawned⟩).2 := by
  unfold DecoderRelay.pollFrames Wallpaper.DecoderRelay.pollFrames
  by_cases hdead : r.dead = true
  · rw [if_pos hdead, if_pos (h.dead ▸ hdead)]
    exact ⟨h, rfl⟩
  · rw [if_neg hdead, if_neg (h.dead ▸ hdead)]
    exact drain_mirrors now spawned ms r e false h

end

/-! ## What has been received -/

/-- The frames that became the latest one. -/
def storedFrames (tr : List Event) : Nat :=
  tr.countP fun
    | .received e => e.stored
    | .failed _ _ => false

section
variable (fromSlice : List UInt8 → Option DecoderToCompositor)

/-- A session has said `Ready`. -/
def ReadySeen (tr : List Event) (session : Nat) : Prop :=
  ∃ e, .received e ∈ tr ∧ e.session = session ∧ IsReady fromSlice e.datagram

/-- A frame of a session that has said `Ready` before. -/
structure Accepted (pre : List Event) (e : Received) : Prop where
  frame : ∃ width height payload, IsFrame fromSlice e.datagram width height payload
  ready : ReadySeen fromSlice pre e.session

/-- The latest frame is the payload of one accepted frame, and while there were less than 2^64 frames
before, its index is greater than that of every latest frame before. -/
def Shown (tr : List Event) (f : LatestFrame) : Prop :=
  ∃ pre e post, tr = pre ++ .received e :: post ∧ e.after = some f ∧
    IsFrame fromSlice e.datagram f.width f.height f.bytes ∧ ReadySeen fromSlice pre e.session ∧
    (storedFrames pre < 2 ^ 64 →
      ∀ e', .received e' ∈ pre → ∀ f', e'.after = some f' → f'.frameIdx < f.frameIdx)

/-- A datagram is stored if and only if it is accepted, and leaves the latest frame if it is not. -/
def Judged (pre : List Event) : Event → Prop
  | .received e => (e.stored = true ↔ Accepted fromSlice pre e) ∧
    (e.stored = false → e.after = e.before)
  | .failed _ _ => True

/-- What a relay and its past have in common. -/
structure Sound (r : DecoderRelay) (tr : List Event) : Prop where
  ready : r.ready = true ↔ ReadySeen fromSlice tr r.session
  sessions : ∀ e, .received e ∈ tr → e.session ≤ r.session
  counter : r.nextFrameIdx = UInt64.ofNat (storedFrames tr)
  judged : Always (Judged fromSlice) tr
  shown : ∀ f, r.latestFrame = some f → Shown fromSlice tr f
  indices : storedFrames tr ≤ 2 ^ 64 →
    ∀ e f, .received e ∈ tr → e.after = some f → f.frameIdx.toNat < storedFrames tr

end

section
variable {fromSlice : List UInt8 → Option DecoderToCompositor} {r : DecoderRelay} {tr : List Event}

theorem sound_new : Sound fromSlice .new [] where
  ready := by simp [DecoderRelay.new, ReadySeen]
  sessions := by simp
  counter := rfl
  judged := always_nil _
  shown := fun _ h => nomatch h
  indices := by simp

theorem ReadySeen.mono {session : Nat} (h : ReadySeen fromSlice tr session) (es : List Event) :
    ReadySeen fromSlice (tr ++ es) session := by
  obtain ⟨e, he, hs, hd⟩ := h
  exact ⟨e, List.mem_append_left _ he, hs, hd⟩

theorem readySeen_received {session : Nat} {e : Received} :
    ReadySeen fromSlice (tr ++ [Event.received e]) session ↔
      ReadySeen fromSlice tr session ∨ (e.session = session ∧ IsReady fromSlice e.datagram) := by
  constructor
  · rintro ⟨e', he, hs, hd⟩
    rcases List.mem_append.mp he with he | he
    · exact .inl ⟨e', he, hs, hd⟩
    · obtain rfl : e' = e := Event.received.inj (List.mem_singleton.mp he)
      exact .inr ⟨hs, hd⟩
  · rintro (h | ⟨hs, hd⟩)
    · exact h.mono _
    · exact ⟨e, by simp, hs, hd⟩

theorem readySeen_failed {session : Nat} {now : Nat} {o : FailureOutcome} :
    ReadySeen fromSlice (tr ++ [Event.failed now o]) session ↔ ReadySeen fromSlice tr session := by
  refine ⟨fun ⟨e, he, h⟩ => ⟨e, ?_, h⟩, fun h => h.mono _⟩
  simpa using he

theorem Shown.mono {f : LatestFrame} (h : Shown fromSlice tr f) (es : List Event) :
    Shown fromSlice (tr ++ es) f := by
  obtain ⟨pre, e, post, rfl, hrest⟩ := h
  exact ⟨pre, e, post ++ es, by simp, hrest⟩

/-- The latest frame has an index below the number of stored frames. -/
theorem Sound.latest_lt (h : Sound fromSlice r tr) (hcount : storedFrames tr ≤ 2 ^ 64)
    {f : LatestFrame} (hf : r.latestFrame = some f) : f.frameIdx.toNat < storedFrames tr := by
  obtain ⟨pre, e, post, heq, hafter, -⟩ := h.shown f hf
  exact h.indices hcount e f (by simp [heq]) hafter

theorem Sound.not_accepted (h : Sound fromSlice r tr) {d : List UInt8}
    (hframe : r.ready = true →
      ¬ ∃ width height payload, IsFrame fromSlice d width height payload) {e : Received}
    (hs : e.session = r.session) (hd : e.datagram = d) : ¬ Accepted fromSlice tr e := by
  rintro ⟨hf, hready⟩
  rw [hs] at hready
  rw [hd] at hf
  exact hframe (h.ready.mpr hready) hf

/-- A datagram that is not an accepted frame. -/
theorem Sound.passing (h : Sound fromSlice r tr) {d : List UInt8} {ready : Bool}
    (hframe : r.ready = true →
      ¬ ∃ width height payload, IsFrame fromSlice d width height payload)
    (hready : ready = true ↔ r.ready = true ∨ IsReady fromSlice d) :
    Sound fromSlice { r with ready := ready } (tr ++ [r.passing d]) := by
  have hcount : storedFrames (tr ++ [r.passing d]) = storedFrames tr := by
    simp [storedFrames, DecoderRelay.passing]
  refine ⟨?_, fun e he => ?_, by rw [hcount]; exact h.counter, ?_, fun f hf => ?_,
    fun hc e f he hf => ?_⟩
  · rw [DecoderRelay.passing, readySeen_received, ← h.ready, hready]
    simp
  · rcases List.mem_append.mp he with he | he
    · exact h.sessions e he
    · cases List.mem_singleton.mp he
      exact Nat.le_refl _
  · refine h.judged.snoc ⟨iff_of_false nofun ?_, fun _ => rfl⟩
    exact h.not_accepted hframe rfl rfl
  · exact (h.shown f hf).mono _
  · rw [hcount] at hc ⊢
    rcases List.mem_append.mp he with he | he
    · exact h.indices hc e f he hf
    · cases List.mem_singleton.mp he
      exact h.latest_lt hc hf

/-- An accepted frame. -/
theorem Sound.frame (h : Sound fromSlice r tr) {d : List UInt8} {width height : UInt32}
    {payload scratch : List UInt8} (hd : IsFrame fromSlice d width height payload)
    (hready : r.ready = true) :
    Sound fromSlice
      { r with
        nextFrameIdx := r.nextFrameIdx + 1
        payloadScratch := scratch
        latestFrame := some (r.shows width height payload) }
      (tr ++ [Event.received ⟨r.session, d, true, r.latestFrame,
        some (r.shows width height payload)⟩]) := by
  have hcount : storedFrames (tr ++ [Event.received ⟨r.session, d, true, r.latestFrame,
      some (r.shows width height payload)⟩]) = storedFrames tr + 1 := by
    simp [storedFrames]
  have hseen : ReadySeen fromSlice tr r.session := h.ready.mp hready
  -- below 2^64 frames the index is the number of frames before
  have hidx : storedFrames tr + 1 ≤ 2 ^ 64 →
      (r.shows width height payload).frameIdx.toNat = storedFrames tr := by
    intro hc
    show r.nextFrameIdx.toNat = storedFrames tr
    rw [h.counter, UInt64.toNat_ofNat']
    omega
  refine ⟨?_, fun e he => ?_, ?_, ?_, fun f hf => ?_, fun hc e f he hf => ?_⟩
  · rw [readySeen_received]
    simp [hready, hseen]
  · rcases List.mem_append.mp he with he | he
    · exact h.sessions e he
    · cases List.mem_singleton.mp he
      exact Nat.le_refl _
  · rw [hcount, h.counter]
    simp
  · refine h.judged.snoc ⟨iff_of_true rfl ?_, nofun⟩
    exact ⟨⟨width, height, payload, hd⟩, hseen⟩
  · obtain rfl := Option.some.inj hf
    refine ⟨tr, _, [], rfl, rfl, hd, hseen, fun hc e' he' f' hf' => ?_⟩
    have hlt := h.indices hc.le e' f' he' hf'
    rw [UInt64.lt_iff_toNat_lt, hidx hc]
    exact hlt
  · rw [hcount] at hc ⊢
    rcases List.mem_append.mp he with he | he
    · exact Nat.lt_succ_of_lt (h.indices (by omega) e f he hf)
    · cases List.mem_singleton.mp he
      obtain rfl := Option.some.inj hf
      rw [hidx hc]
      exact Nat.lt_succ_self _

/-- A failure. -/
theorem Sound.failed (h : Sound fromSlice r tr) (scratch : List UInt8) (f : Failure)
    (now : Nat) (o : FailureOutcome) :
    Sound fromSlice ({ r with payloadScratch := scratch }.noteFailure f).1
      (tr ++ [Event.failed now o]) := by
  have hcount : storedFrames (tr ++ [Event.failed now o]) = storedFrames tr := by simp [storedFrames]
  obtain ⟨hlatest, hnext, hsession⟩ := noteFailure_frames { r with payloadScratch := scratch } f
  have hmem : ∀ e, .received e ∈ tr ++ [Event.failed now o] → .received e ∈ tr := by simp
  refine ⟨?_, fun e he => ?_, ?_, h.judged.snoc trivial, fun f' hf => ?_,
    fun hc e f' he hf => ?_⟩
  · rw [readySeen_failed]
    rcases hsession with ⟨hs, hr⟩ | ⟨hs, hr⟩
    · rw [hs, hr]
      exact h.ready
    · rw [hs, hr]
      refine iff_of_false nofun ?_
      rintro ⟨e, he, heq, -⟩
      have := h.sessions e he
      have hsame : e.session = r.session + 1 := heq
      omega
  · have := h.sessions e (hmem e he)
    rcases hsession with ⟨hs, -⟩ | ⟨hs, -⟩
    · rw [hs]
      exact this
    · rw [hs]
      exact Nat.le_succ_of_le this
  · rw [hnext, hcount]
    exact h.counter
  · rw [hlatest] at hf
    exact (h.shown f' hf).mono _
  · rw [hcount] at hc ⊢
    exact h.indices hc e f' (hmem e he) hf

/-- A turn keeps what a relay and its past have in common. -/
theorem sound_iterate (r : DecoderRelay) (tr : List Event) (i : RecvResult × Failure)
    (h : Sound fromSlice r tr) :
    Sound fromSlice (r.iterate fromSlice i).1 (tr ++ (r.iterate fromSlice i).2) := by
  by_cases hdead : r.dead = true
  · have hstay : r.iterate fromSlice i = (r, []) := if_pos hdead
    rw [hstay, List.append_nil]
    exact h
  · have hturn := iterate_turn fromSlice r i (by simpa using hdead)
    revert hturn
    generalize (r.iterate fromSlice i).2 = es
    generalize (r.iterate fromSlice i).1 = r'
    intro hturn
    cases hturn with
    | drained => rwa [List.append_nil]
    | ready hd =>
      refine h.passing (fun _ ⟨_, _, _, hf⟩ => hf.not_ready hd) ?_
      simp [hd]
    | frame hd hready => exact h.frame hd hready
    | endOfFile hready hframe =>
      have hsame : Sound fromSlice { r with ready := r.ready } (tr ++ [r.passing _]) :=
        h.passing (fun _ => hframe) (by simp [hready])
      exact hsame
    | broken => exact h.failed r.payloadScratch i.2 _ _
    | rejected scratch hready hframe =>
      have hpass : Sound fromSlice { r with ready := r.ready } (tr ++ [r.passing _]) :=
        h.passing hframe (by simp [hready])
      have hfail := hpass.failed scratch i.2 i.2.now
        ({ r with payloadScratch := scratch }.noteFailure i.2).2
      rw [List.append_assoc] at hfail
      exact hfail

end

/-- **The latest frame.** Against any decoder, over every sequence of polls, datagrams, errors and
respawns: the latest frame has positive dimensions and as many bytes as they say, within the ceiling;
it is the payload of one frame that was received after a `Ready` of the same session, and below 2^64
frames its index is greater than those of all latest frames before it; and a datagram that is not
such a frame leaves the latest frame as it was. -/
theorem latest_frame_sound (fromSlice : List UInt8 → Option DecoderToCompositor)
    (polls : List Poll) :
    let r := run (poll fromSlice) .new polls
    (∀ f, r.1.latestFrame = some f → 0 < f.width.toNat ∧ 0 < f.height.toNat ∧
      f.bytes.length = f.width.toNat * f.height.toNat * 4 ∧ f.bytes.length ≤ maxFrameBytes ∧
      Shown fromSlice r.2 f) ∧ Always (Judged fromSlice) r.2 := by
  intro r
  obtain ⟨is, heq⟩ := run_polls fromSlice polls .new
  have hsound : Sound fromSlice r.1 r.2 := by
    have h := run_invariant_init (Sound fromSlice) sound_new sound_iterate is
    rw [← heq] at h
    exact h
  refine ⟨fun f hf => ?_, hsound.judged⟩
  obtain ⟨_, e, _, -, -, hframe, -⟩ := hsound.shown f hf
  obtain ⟨hw, hh, hlen, hmax⟩ := hframe.bounds
  exact ⟨hw, hh, hlen, hmax, hsound.shown f hf⟩

/-- A decoder that says `Ready` and sends a frame, and sends another one with a payload that is too
short after it: the second is not shown. -/
theorem latest_frame_sound_example :
    let ready := [33, 0, 0, 0] ++ (DecoderToCompositor.ready wireVersion).toVec
    let frame := fun payload : List UInt8 =>
      [100, 0, 0, 0] ++ (DecoderToCompositor.frameHeader 0 0 1 1 .rgba8 4).toVec ++ payload
    let r := run (poll readDecoder) .new
      [⟨[.datagram ready, .datagram (frame [9, 9, 9, 9]), .wouldBlock], ⟨0, true⟩⟩,
        ⟨[.datagram (frame [7, 7])], ⟨5, true⟩⟩]
    r.1.latestFrame = some ⟨1, 1, [9, 9, 9, 9], 0⟩ ∧ r.1.session = 1 ∧
      Shown readDecoder r.2 ⟨1, 1, [9, 9, 9, 9], 0⟩ ∧ Always (Judged readDecoder) r.2 := by
  intro ready frame r
  have hlatest : r.1.latestFrame = some ⟨1, 1, [9, 9, 9, 9], 0⟩ := by decide +kernel
  have hsound := latest_frame_sound readDecoder
    [⟨[.datagram ready, .datagram (frame [9, 9, 9, 9]), .wouldBlock], ⟨0, true⟩⟩,
      ⟨[.datagram (frame [7, 7])], ⟨5, true⟩⟩]
  exact ⟨hlatest, by decide +kernel, (hsound.1 _ hlatest).2.2.2.2, hsound.2⟩

/-! ## The restart budget -/

/-- `RESTART_WINDOW_SECS`, on the clock. -/
def restartWindow : Nat := restartWindowSecs * second

/-- The clocks of the failures. -/
def failureTimes (tr : List Event) : List Nat :=
  tr.filterMap fun
    | .failed now _ => some now
    | .received _ => none

/-- The budget of a failure: it is exhausted if and only if the respawns of the window before it use
it up; and a failure that does not end in a respawn is the last thing the relay does. -/
def Budgeted (dead : Bool) (tr : List Event) : Prop :=
  ∀ pre now o post, tr = pre ++ .failed now o :: post →
    (o = .exhausted ↔ maxRestartsPerWindow ≤ Window.recent restartWindow now (respawnTimes pre)) ∧
    (o ≠ .respawned → dead = true ∧ post = [])

/-- What the restart history is to the respawns so far. -/
structure Within (r : DecoderRelay) (tr : List Event) : Prop where
  kept : r.dead = false → ∀ now, (∀ t ∈ failureTimes tr, t ≤ now) →
    Window.Kept restartWindow now (respawnTimes tr) r.restartHistory
  spans : ∀ t, Window.span restartWindow t (respawnTimes tr) ≤ maxRestartsPerWindow ∧
    Window.spanAfter restartWindow t (respawnTimes tr) ≤ maxRestartsPerWindow
  budgeted : Budgeted r.dead tr

section
variable {r : DecoderRelay} {tr : List Event}

theorem within_new : Within .new [] where
  kept _ now _ := .nil _ now
  spans t := ⟨Nat.zero_le _, Nat.zero_le _⟩
  budgeted := by simp [Budgeted]

/-- One more event of a relay that is alive. -/
theorem Budgeted.snoc (h : Budgeted false tr) {e : Event} {dead : Bool}
    (he : ∀ now o, e = .failed now o → (o = .exhausted ↔
      maxRestartsPerWindow ≤ Window.recent restartWindow now (respawnTimes tr)) ∧
      (o ≠ .respawned → dead = true)) : Budgeted dead (tr ++ [e]) := by
  intro pre now o post heq
  rcases split_append heq with ⟨post', htr, -⟩ | ⟨pre', htail, rfl⟩
  · obtain ⟨hiff, halive⟩ := h pre now o post' htr
    refine ⟨hiff, fun ho => ?_⟩
    exact nomatch (halive ho).1
  · cases pre' with
    | nil =>
      obtain ⟨rfl, rfl⟩ := List.cons.inj htail
      rw [List.append_nil]
      exact ⟨(he now o rfl).1, fun ho => ⟨(he now o rfl).2 ho, rfl⟩⟩
    | cons _ pre' => simp at htail

/-- The history is pruned to the window. -/
theorem recent_iff (now t : Nat) :
    decide ((now - t) / second < restartWindowSecs) = true ↔ now < t + restartWindow := by
  have hsecond : (now - t) / second < restartWindowSecs ↔ now - t < restartWindowSecs * second :=
    Nat.div_lt_iff_lt_mul (by decide)
  have hpos : 0 < restartWindow := by decide
  rw [decide_eq_true_iff, hsecond, ← restartWindow]
  omega

/-- A reception. -/
theorem Within.received (h : Within r tr) (hdead : r.dead = false) (e : Received) {ready : Bool}
    {scratch : List UInt8} {latest : Option LatestFrame} {next : UInt64} :
    Within { r with
      ready := ready
      payloadScratch := scratch
      latestFrame := latest
      nextFrameIdx := next } (tr ++ [Event.received e]) := by
  have hfail : failureTimes (tr ++ [Event.received e]) = failureTimes tr := by simp [failureTimes]
  have hresp : respawnTimes (tr ++ [Event.received e]) = respawnTimes tr := by simp [respawnTimes]
  have hbudget := h.budgeted
  rw [hdead] at hbudget
  refine ⟨?_, ?_, hbudget.snoc nofun⟩
  · rw [hfail, hresp]
    exact h.kept
  · rw [hresp]
    exact h.spans

/-- A failure, at a clock that is not behind. -/
theorem Within.failed (h : Within r tr) (hdead : r.dead = false) (f : Failure)
    (hclock : ∀ t ∈ failureTimes tr, t ≤ f.now) :
    Within (r.noteFailure f).1 (tr ++ [.failed f.now (r.noteFailure f).2]) := by
  have hkept := h.kept hdead f.now hclock
  have hbudget := h.budgeted
  rw [hdead] at hbudget
  have hlen : (r.restartHistory.filter
      fun t => decide ((f.now - t) / second < restartWindowSecs)).length
      = Window.recent restartWindow f.now (respawnTimes tr) := hkept.recent (recent_iff f.now)
  have hrespawned : respawnTimes (tr ++ [.failed f.now .respawned])
      = respawnTimes tr ++ [f.now] := by simp [respawnTimes]
  have hfailed : respawnTimes (tr ++ [.failed f.now .respawnFailed])
      = respawnTimes tr ++ [f.now] := by simp [respawnTimes]
  -- one more respawn, at a failure that the budget has room for
  have hspans : Window.recent restartWindow f.now (respawnTimes tr) < maxRestartsPerWindow →
      ∀ t, Window.span restartWindow t (respawnTimes tr ++ [f.now]) ≤ maxRestartsPerWindow ∧
        Window.spanAfter restartWindow t (respawnTimes tr ++ [f.now]) ≤ maxRestartsPerWindow :=
    fun hroom t => ⟨Window.span_snoc_le hroom (h.spans t).1,
      Window.spanAfter_snoc_le hroom (h.spans t).2⟩
  rcases noteFailure_cases r f with ⟨hmax, heq⟩ | ⟨hmax, heq⟩ | ⟨hmax, heq⟩ <;>
    rw [List.length_append, List.length_singleton, hlen] at hmax
  · have hresp : respawnTimes (tr ++ [.failed f.now .exhausted]) = respawnTimes tr := by
      simp [respawnTimes]
    rw [heq]
    refine ⟨nofun, by rw [hresp]; exact h.spans, hbudget.snoc fun now o ho => ?_⟩
    cases ho
    exact ⟨iff_of_true rfl (Nat.le_of_lt_succ hmax), fun _ => rfl⟩
  · have hroom := Nat.lt_of_succ_le hmax
    have hfail : failureTimes (tr ++ [.failed f.now .respawned]) = failureTimes tr ++ [f.now] := by
      simp [failureTimes]
    rw [heq]
    refine ⟨fun _ now hnow => ?_, ?_, hbudget.snoc fun now o ho => ?_⟩
    · rw [hrespawned]
      have hle : f.now ≤ now := hnow f.now (by simp [hfail])
      exact ((hkept.prune fun t ht => (recent_iff f.now t).mpr ht).snoc).later hle
    · rw [hrespawned]
      exact hspans hroom
    · cases ho
      exact ⟨iff_of_false nofun (Nat.not_le_of_lt hroom), fun hne => absurd rfl hne⟩
  · have hroom := Nat.lt_of_succ_le hmax
    rw [heq]
    refine ⟨nofun, ?_, hbudget.snoc fun now o ho => ?_⟩
    · rw [hfailed]
      exact hspans hroom
    · cases ho
      exact ⟨iff_of_false nofun (Nat.not_le_of_lt hroom), fun _ => rfl⟩

theorem clock_of_pairwise {now : Nat} {o : FailureOutcome}
    (h : (failureTimes (tr ++ [Event.failed now o])).Pairwise (· ≤ ·)) :
    (failureTimes tr).Pairwise (· ≤ ·) ∧ ∀ t ∈ failureTimes tr, t ≤ now := by
  have happ : failureTimes (tr ++ [Event.failed now o]) = failureTimes tr ++ [now] := by
    simp [failureTimes]
  rw [happ, List.pairwise_append] at h
  exact ⟨h.1, fun t ht => h.2.2 t ht now (by simp)⟩

/-- A turn keeps the budget while the clock of the failures does not run backwards. -/
theorem within_iterate (fromSlice : List UInt8 → Option DecoderToCompositor) (r : DecoderRelay)
    (tr : List Event) (i : RecvResult × Failure)
    (h : (failureTimes tr).Pairwise (· ≤ ·) → Within r tr) :
    (failureTimes (tr ++ (r.iterate fromSlice i).2)).Pairwise (· ≤ ·) →
      Within (r.iterate fromSlice i).1 (tr ++ (r.iterate fromSlice i).2) := by
  by_cases hdead : r.dead = true
  · have hstay : r.iterate fromSlice i = (r, []) := if_pos hdead
    rw [hstay, List.append_nil]
    exact h
  · have halive : r.dead = false := by simpa using hdead
    have hturn := iterate_turn fromSlice r i halive
    revert hturn
    generalize (r.iterate fromSlice i).2 = es
    generalize (r.iterate fromSlice i).1 = r'
    intro hturn hclock
    have hreceived : ∀ e : Received, failureTimes (tr ++ [.received e]) = failureTimes tr := by
      simp [failureTimes]
    cases hturn with
    | drained =>
      rw [List.append_nil] at hclock ⊢
      exact h hclock
    | ready hd =>
      rw [DecoderRelay.passing, hreceived] at hclock
      exact (h hclock).received halive _
    | frame hd hready =>
      rw [hreceived] at hclock
      exact (h hclock).received halive _
    | endOfFile hready hframe =>
      rw [DecoderRelay.passing, hreceived] at hclock
      exact (h hclock).received halive _
    | broken =>
      obtain ⟨hbefore, hnow⟩ := clock_of_pairwise hclock
      exact (h hbefore).failed halive i.2 hnow
    | rejected scratch hready hframe =>
      rename_i d
      have hsplit : ∀ o, tr ++ [r.passing d, .failed i.2.now o]
          = (tr ++ [r.passing d]) ++ [.failed i.2.now o] := by simp
      rw [hsplit] at hclock ⊢
      obtain ⟨hbefore, hnow⟩ := clock_of_pairwise hclock
      have hpass : Within { r with payloadScratch := scratch } (tr ++ [r.passing d]) := by
        rw [DecoderRelay.passing, hreceived] at hbefore
        exact (h hbefore).received halive _
      exact hpass.failed halive i.2 hnow

end

/-- **The restart budget.** Over every sequence of polls whose failures do not run backwards in
time: in any window `respawn` is called at most `MAX_RESTARTS_PER_WINDOW` times; a failure finds the
budget exhausted exactly if that many calls lie less than the window before it; after a failure that
finds it exhausted, or whose respawn fails, the relay is dead and does nothing more; and a dead
relay stays as it is under every poll. -/
theorem restart_budget (fromSlice : List UInt8 → Option DecoderToCompositor) (polls : List Poll)
    (hclock : (failureTimes (run (poll fromSlice) .new polls).2).Pairwise (· ≤ ·)) :
    let r := run (poll fromSlice) .new polls
    (∀ t, Window.span restartWindow t (respawnTimes r.2) ≤ maxRestartsPerWindow ∧
      Window.spanAfter restartWindow t (respawnTimes r.2) ≤ maxRestartsPerWindow) ∧
    Budgeted r.1.dead r.2 ∧
    (r.1.dead = true → ∀ p polls', r.1.pollFrames fromSlice p = ((r.1, false), []) ∧
      run (poll fromSlice) r.1 polls' = (r.1, [])) := by
  intro r
  obtain ⟨is, heq⟩ := run_polls fromSlice polls .new
  have hwithin : Within r.1 r.2 := by
    have h := run_invariant_init (fun r tr => (failureTimes tr).Pairwise (· ≤ ·) → Within r tr)
      (fun _ => within_new) (within_iterate fromSlice) is
    rw [← heq] at h
    exact h hclock
  refine ⟨hwithin.spans, hwithin.budgeted, fun hdead p polls' => ?_⟩
  have hstay : ∀ p, r.1.pollFrames fromSlice p = ((r.1, false), []) := fun p => if_pos hdead
  refine ⟨hstay p, ?_⟩
  induction polls' with
  | nil => rfl
  | cons p' polls' ih =>
    have hpoll : poll fromSlice r.1 p' = (r.1, []) := by simp only [poll, hstay]
    simp only [run, hpoll, ih, List.nil_append]

/-- Four failures within the window: the third respawn is the last, and the relay is dead. -/
theorem restart_budget_example :
    let polls := [0, 3, 6, 9].map fun t => (⟨[.error], ⟨t * second, true⟩⟩ : Poll)
    let r := run (poll fun _ => none) .new polls
    respawnTimes r.2 = [0, 3 * second, 6 * second] ∧ r.1.dead = true ∧
      Window.span restartWindow 0 (respawnTimes r.2) ≤ maxRestartsPerWindow ∧
      ∀ polls', run (poll fun _ => none) r.1 polls' = (r.1, []) := by
  intro polls r
  have hdead : r.1.dead = true := by decide
  have hbudget := restart_budget (fun _ => none) polls (by decide)
  refine ⟨by decide, hdead, (hbudget.1 0).1, fun polls' => ?_⟩
  exact (hbudget.2.2 hdead ⟨[], ⟨0, true⟩⟩ polls').2

end Halmasuit.Wallpaper.Relay
