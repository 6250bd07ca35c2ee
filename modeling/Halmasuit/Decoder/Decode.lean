import Halmasuit.DecoderIpc.Wire
import Mathlib.Data.List.Forall2

/-!
# Decoding a video

`halmasuit-decoder/src/decode.rs`: `decode_next_frame` (385–407) reads packets, sends them to the
codec and takes a frame; at the end of the file it flushes the codec and takes what is left
(`drain_one_frame`, 412–419). `convert_frame_to_rgba` makes pixels of a frame.

- The demuxer is the list of packets it has not read. At the end `read_packet` gives none, as often
  as it is asked.
- `Codec` is any codec under the send/receive contract of libavcodec. A packet, or the flush, makes
  any number of frames available; where output is pending, a packet may be refused; after the flush
  everything is.
- What the scaler makes of a frame, or how it fails, is a field of the frame. Its caches are left
  out.

Results:

- `decodeAll_ends`: the calls come to an end;
- **`drained_iff`**: exactly when they yield every frame and end with `Ok(None)`;
- `held_frame_fails`: they do not where the codec holds a frame at the end of the stream.
-/

namespace Halmasuit.Decoder

open Halmasuit.DecoderIpc (DecoderErrorCode maxFrameBytes)

/-! ## Errors -/

/-- `RsmpegError`, as far as the code tells its cases apart. -/
inductive RsmpegError where
  | decoderFullError
  | decoderDrainError
  | decoderFlushedError
  | avError (code : Int)
  deriving DecidableEq, Repr

/-- `DecodeError`. -/
inductive DecodeError where
  | invalidFd (fd : Int)
  | openFailed (e : RsmpegError)
  | noVideoStream
  | unsupportedCodec (id : Nat)
  | codec (e : RsmpegError)
  | swsAllocFailed
  | swsScale (e : RsmpegError)
  | frameTooLarge (width height : UInt32) (bytes : Nat)
  | wallpaperTooLarge (bytes max : Nat)
  | mmapFailed
  deriving DecidableEq, Repr

/-- `to_wire_code`. -/
def DecodeError.toWireCode : DecodeError → DecoderErrorCode
  | .invalidFd _ => .internal
  | .openFailed _ => .openFailed
  | .noVideoStream => .openFailed
  | .unsupportedCodec _ => .unsupportedCodec
  | .codec _ => .parseError
  | .swsScale _ => .parseError
  | .swsAllocFailed => .allocationFailed
  | .frameTooLarge _ _ _ => .allocationFailed
  | .wallpaperTooLarge _ _ => .allocationFailed
  | .mmapFailed => .allocationFailed

/-! ## Frames -/

/-- `AVFrame`, with what the scaler makes of it. -/
structure AVFrame where
  width : Int32
  height : Int32
  pts : Int64
  scaled : Except DecodeError (List UInt8)

/-- `AVRational`. -/
structure AVRational where
  num : Int32
  den : Int32
  deriving DecidableEq, Repr

/-- `RgbaFrame`. -/
structure RgbaFrame where
  width : UInt32
  height : UInt32
  ptsUs : Int64
  bytes : List UInt8
  deriving DecidableEq, Repr

/-- `AV_NOPTS_VALUE`. -/
def avNoptsValue : Int64 := Int64.minValue

/-- `u32::try_from(n).unwrap_or(0)`. -/
def dimension (n : Int32) : UInt32 := if 0 ≤ n.toInt then UInt32.ofNat n.toInt.toNat else 0

/-- The time stamp of a frame in microseconds. -/
def ptsUs (timeBase : AVRational) (pts : Int64) : Int64 :=
  if pts = avNoptsValue then 0
  else
    let us := (pts.toInt * timeBase.num.toInt * 1000000).tdiv (max timeBase.den.toInt 1)
    if Int64.minValue.toInt ≤ us ∧ us ≤ Int64.maxValue.toInt then Int64.ofInt us else 0

/-- `convert_frame_to_rgba`. -/
def convertFrameToRgba (timeBase : AVRational) (frame : AVFrame) : Except DecodeError RgbaFrame :=
  let width := dimension frame.width
  let height := dimension frame.height
  let expectedBytes := width.toNat * height.toNat * 4
  if 2 ^ 64 ≤ expectedBytes then .error (.frameTooLarge width height (2 ^ 64 - 1))
  else if maxFrameBytes < expectedBytes then .error (.frameTooLarge width height expectedBytes)
  else frame.scaled.map fun bytes => ⟨width, height, ptsUs timeBase frame.pts, bytes⟩

/-- The frame is within the ceiling, and the scaler converts it. -/
def AVFrame.Convertible (frame : AVFrame) : Prop :=
  (dimension frame.width).toNat * (dimension frame.height).toNat * 4 ≤ maxFrameBytes ∧
    ∃ bytes, frame.scaled = .ok bytes

theorem convertFrameToRgba_ok_iff {timeBase : AVRational} {frame : AVFrame} :
    (∃ g, convertFrameToRgba timeBase frame = .ok g) ↔ frame.Convertible := by
  unfold convertFrameToRgba AVFrame.Convertible
  dsimp only
  generalize (dimension frame.width).toNat * (dimension frame.height).toNat * 4 = expectedBytes
  by_cases h64 : 2 ^ 64 ≤ expectedBytes
  · rw [if_pos h64]
    refine iff_of_false nofun fun h => ?_
    have hmax : maxFrameBytes < 2 ^ 64 := by decide
    omega
  · rw [if_neg h64]
    by_cases hmax : maxFrameBytes < expectedBytes
    · rw [if_pos hmax]
      refine iff_of_false nofun fun h => ?_
      omega
    · rw [if_neg hmax]
      cases frame.scaled with
      | error e => simp [Except.map]
      | ok bytes => simpa [Except.map] using hmax

/-! ## The codec -/

/-- A codec: what a packet and the flush make available, and which packets it refuses where output
is pending. -/
structure Codec (σ π : Type) where
  init : σ
  feed : σ → π → σ × List AVFrame
  flush : σ → List AVFrame
  refuses : σ → List AVFrame → Option π → Bool

/-- `AVCodecContext`: the codec, the frames that are available, and whether it was flushed. -/
structure AVCodecContext (σ : Type) where
  inner : σ
  pending : List AVFrame
  flushed : Bool

/-- A packet of the demuxer. -/
structure Packet (π : Type) where
  streamIndex : Nat
  data : π
  deriving DecidableEq, Repr

/-- `DecoderState`. -/
structure DecoderState (σ π : Type) where
  ictx : List (Packet π)
  dec : AVCodecContext σ
  streamIdx : Nat
  timeBase : AVRational

section
variable {σ π : Type} (c : Codec σ π)

/-- `send_packet`; no packet is the flush. -/
def AVCodecContext.sendPacket (d : AVCodecContext σ) (packet : Option π) :
    AVCodecContext σ × Except RsmpegError Unit :=
  if d.flushed then (d, .error .decoderFlushedError)
  else if d.pending ≠ [] ∧ c.refuses d.inner d.pending packet = true then
    (d, .error .decoderFullError)
  else
    match packet with
    | some p => (⟨(c.feed d.inner p).1, d.pending ++ (c.feed d.inner p).2, false⟩, .ok ())
    | none => (⟨d.inner, d.pending ++ c.flush d.inner, true⟩, .ok ())

/-- `receive_frame`. -/
def AVCodecContext.receiveFrame (d : AVCodecContext σ) :
    AVCodecContext σ × Except RsmpegError AVFrame :=
  match d.pending with
  | f :: fs => ({ d with pending := fs }, .ok f)
  | [] => (d, .error (if d.flushed then .decoderFlushedError else .decoderDrainError))

/-- The receiving half of `drain_one_frame`. -/
def drainOneFrame (d : AVCodecContext σ) :
    AVCodecContext σ × Except DecodeError (Option AVFrame) :=
  match d.receiveFrame with
  | (d, .ok f) => (d, .ok (some f))
  | (d, .error .decoderFlushedError) => (d, .ok none)
  | (d, .error e) => (d, .error (.codec e))

/-- The loop of `decode_next_frame`, up to the frame. -/
def nextFrame (streamIdx : Nat) : List (Packet π) → AVCodecContext σ →
    (List (Packet π) × AVCodecContext σ) × Except DecodeError (Option AVFrame)
  | [], d =>
    match d.sendPacket c none with
    | (d, .error e) => (([], d), .error (.codec e))
    | (d, .ok ()) => (([], (drainOneFrame d).1), (drainOneFrame d).2)
  | p :: ps, d =>
    if p.streamIndex ≠ streamIdx then nextFrame streamIdx ps d
    else
      match d.sendPacket c (some p.data) with
      | (d, .error e) => ((ps, d), .error (.codec e))
      | (d, .ok ()) =>
        match d.receiveFrame with
        | (d, .ok f) => ((ps, d), .ok (some f))
        | (d, .error .decoderDrainError) => nextFrame streamIdx ps d
        | (d, .error e) => ((ps, d), .error (.codec e))

/-- `decode_next_frame`. -/
def decodeNextFrame (s : DecoderState σ π) :
    DecoderState σ π × Except DecodeError (Option RgbaFrame) :=
  let n := nextFrame c s.streamIdx s.ictx s.dec
  ({ s with ictx := n.1.1, dec := n.1.2 },
    match n.2 with
    | .error e => .error e
    | .ok none => .ok none
    | .ok (some f) => (convertFrameToRgba s.timeBase f).map some)

/-- The state `build_state` opens a file with. -/
def buildState (packets : List (Packet π)) (streamIdx : Nat) (timeBase : AVRational) :
    DecoderState σ π :=
  ⟨packets, ⟨c.init, [], false⟩, streamIdx, timeBase⟩

/-- How the calls of `decode_next_frame` end. -/
inductive Ending where
  | eof
  | failed (e : DecodeError)
  deriving DecidableEq, Repr

/-- At most so many calls of `decode_next_frame`: the frames, and the ending if it is reached. -/
def decodeCalls : Nat → DecoderState σ π → List RgbaFrame × Option Ending
  | 0, _ => ([], none)
  | n + 1, s =>
    match decodeNextFrame c s with
    | (_, .ok none) => ([], some .eof)
    | (_, .error e) => ([], some (.failed e))
    | (s, .ok (some f)) => (f :: (decodeCalls n s).1, (decodeCalls n s).2)

/-- The calls of `decode_next_frame` until it gives no frame. There is one for each packet at most,
and two at the end. -/
def decodeAll (s : DecoderState σ π) : List RgbaFrame × Option Ending :=
  decodeCalls c (s.ictx.length + 2) s

/-! ## The frames of a stream -/

/-- The packets of the stream. -/
def videoPackets (streamIdx : Nat) (packets : List (Packet π)) : List π :=
  packets.filterMap fun p => if p.streamIndex = streamIdx then some p.data else none

/-- The frames a codec has in it, in its order: what the packets and then the flush make
available. -/
def Codec.frames : σ → List π → List AVFrame
  | s, [] => c.flush s
  | s, p :: ps => (c.feed s p).2 ++ Codec.frames (c.feed s p).1 ps

/-- The codec keeps up, one frame taken for each packet: no packet is refused over the frames that
are left then, and at the end of the stream none is left and none comes. -/
def Codec.KeepsUp : σ → List AVFrame → List π → Prop
  | s, left, [] => left = [] ∧ c.flush s = []
  | s, left, p :: ps => (left ≠ [] → c.refuses s left (some p) = false) ∧
    Codec.KeepsUp (c.feed s p).1 (left ++ (c.feed s p).2).tail ps

/-- The pixels are those of the frames, one by one. -/
def Converted (timeBase : AVRational) : List AVFrame → List RgbaFrame → Prop :=
  List.Forall₂ fun f g => convertFrameToRgba timeBase f = .ok g

end

/-! ## One call -/

section
variable {σ π : Type} {c : Codec σ π} {streamIdx : Nat} {timeBase : AVRational}

theorem sendPacket_refused {i : σ} {left : List AVFrame} {packet : Option π}
    (h : left ≠ [] ∧ c.refuses i left packet = true) :
    AVCodecContext.sendPacket c ⟨i, left, false⟩ packet
      = (⟨i, left, false⟩, .error .decoderFullError) := if_pos h

theorem sendPacket_some {i : σ} {left : List AVFrame} {p : π}
    (h : ¬ (left ≠ [] ∧ c.refuses i left (some p) = true)) :
    AVCodecContext.sendPacket c ⟨i, left, false⟩ (some p)
      = (⟨(c.feed i p).1, left ++ (c.feed i p).2, false⟩, .ok ()) := if_neg h

theorem sendPacket_none {i : σ} {left : List AVFrame}
    (h : ¬ (left ≠ [] ∧ c.refuses i left none = true)) :
    AVCodecContext.sendPacket c ⟨i, left, false⟩ none
      = (⟨i, left ++ c.flush i, true⟩, .ok ()) := if_neg h

/-- A packet of another stream is skipped. -/
theorem nextFrame_other {p : Packet π} (h : p.streamIndex ≠ streamIdx) (ps : List (Packet π))
    (d : AVCodecContext σ) : nextFrame c streamIdx (p :: ps) d = nextFrame c streamIdx ps d :=
  if_pos h

/-- After the flush the codec takes nothing, and a call fails. -/
theorem nextFrame_flushed {d : AVCodecContext σ} (h : d.flushed = true) (ps : List (Packet π)) :
    (nextFrame c streamIdx ps d).2 = .error (.codec .decoderFlushedError) := by
  have hsend : ∀ packet, d.sendPacket c packet = (d, .error .decoderFlushedError) :=
    fun _ => if_pos h
  induction ps with
  | nil => simp only [nextFrame, hsend]
  | cons p ps ih =>
    by_cases hp : p.streamIndex = streamIdx
    · simp [nextFrame, hp, hsend]
    · rw [nextFrame_other hp]
      exact ih

theorem nextFrame_ok {ps : List (Packet π)} {d : AVCodecContext σ} {r : Option AVFrame}
    (h : (nextFrame c streamIdx ps d).2 = .ok r) : d.flushed = false := by
  by_contra hflushed
  rw [nextFrame_flushed (by simpa using hflushed)] at h
  cases h

/-- A packet that is refused. -/
theorem nextFrame_refused {p : Packet π} (hp : p.streamIndex = streamIdx) {i : σ}
    {left : List AVFrame} (h : left ≠ [] ∧ c.refuses i left (some p.data) = true)
    (ps : List (Packet π)) :
    (nextFrame c streamIdx (p :: ps) ⟨i, left, false⟩).2 = .error (.codec .decoderFullError) := by
  simp [nextFrame, hp, sendPacket_refused h]

/-- A packet that is taken: a frame is received, or the next packet is read. -/
theorem nextFrame_fed {p : Packet π} (hp : p.streamIndex = streamIdx) {i : σ}
    {left : List AVFrame} (h : ¬ (left ≠ [] ∧ c.refuses i left (some p.data) = true))
    (ps : List (Packet π)) :
    nextFrame c streamIdx (p :: ps) ⟨i, left, false⟩ =
      match left ++ (c.feed i p.data).2 with
      | [] => nextFrame c streamIdx ps ⟨(c.feed i p.data).1, [], false⟩
      | f :: rest => ((ps, ⟨(c.feed i p.data).1, rest, false⟩), .ok (some f)) := by
  simp only [nextFrame, hp, ne_eq, not_true_eq_false, if_false, sendPacket_some h,
    AVCodecContext.receiveFrame]
  cases left ++ (c.feed i p.data).2 with
  | nil => rfl
  | cons f rest => rfl

/-- The end of the file, where the codec is not flushed: it has nothing left, or a frame comes of
the flush. -/
theorem nextFrame_eof (i : σ) (left : List AVFrame) :
    (left = [] ∧ c.flush i = [] ∧
      (nextFrame c streamIdx ([] : List (Packet π)) ⟨i, left, false⟩).2 = .ok none) ∨
    (¬ (left = [] ∧ c.flush i = []) ∧
      ((nextFrame c streamIdx ([] : List (Packet π)) ⟨i, left, false⟩).2
        = .error (.codec .decoderFullError) ∨
      ∃ f rest, nextFrame c streamIdx ([] : List (Packet π)) ⟨i, left, false⟩
        = (([], ⟨i, rest, true⟩), .ok (some f)))) := by
  by_cases hrefused : left ≠ [] ∧ c.refuses i left none = true
  · refine .inr ⟨fun h => hrefused.1 h.1, .inl ?_⟩
    simp only [nextFrame, sendPacket_refused hrefused]
  · simp only [nextFrame, sendPacket_none hrefused, drainOneFrame, AVCodecContext.receiveFrame]
    cases hnext : left ++ c.flush i with
    | nil =>
      obtain ⟨hleft, hflush⟩ := List.append_eq_nil_iff.mp hnext
      exact .inl ⟨hleft, hflush, rfl⟩
    | cons f rest =>
      refine .inr ⟨fun h => ?_, .inr ⟨f, rest, rfl⟩⟩
      simp [h.1, h.2] at hnext

/-! ## All calls -/

/-- A call that fails, or finds the end. -/
theorem decodeCalls_last {s : DecoderState σ π} (n : Nat) {e : DecodeError}
    (h : (nextFrame c s.streamIdx s.ictx s.dec).2 = .error e) :
    decodeCalls c (n + 1) s = ([], some (.failed e)) := by
  simp only [decodeCalls, decodeNextFrame, h]

theorem decodeCalls_eof {s : DecoderState σ π} (n : Nat)
    (h : (nextFrame c s.streamIdx s.ictx s.dec).2 = .ok none) :
    decodeCalls c (n + 1) s = ([], some .eof) := by
  simp only [decodeCalls, decodeNextFrame, h]

/-- A call that gets a frame from the codec. -/
theorem decodeCalls_frame {ps ps' : List (Packet π)} {d d' : AVCodecContext σ} (n : Nat)
    {f : AVFrame} (h : nextFrame c streamIdx ps d = ((ps', d'), .ok (some f))) :
    decodeCalls c (n + 1) ⟨ps, d, streamIdx, timeBase⟩ =
      match convertFrameToRgba timeBase f with
      | .error e => ([], some (.failed e))
      | .ok g => (g :: (decodeCalls c n ⟨ps', d', streamIdx, timeBase⟩).1,
          (decodeCalls c n ⟨ps', d', streamIdx, timeBase⟩).2) := by
  simp only [decodeCalls, decodeNextFrame, h]
  cases convertFrameToRgba timeBase f with
  | error e => rfl
  | ok g => rfl

theorem decodeCalls_congr {ps ps' : List (Packet π)} {d d' : AVCodecContext σ} (n : Nat)
    (h : nextFrame c streamIdx ps d = nextFrame c streamIdx ps' d') :
    decodeCalls c (n + 1) ⟨ps, d, streamIdx, timeBase⟩
      = decodeCalls c (n + 1) ⟨ps', d', streamIdx, timeBase⟩ := by
  simp only [decodeCalls, decodeNextFrame, h]

/-- What is left when a frame comes: fewer packets, or a flushed codec. -/
theorem nextFrame_some {ps' : List (Packet π)} {d' : AVCodecContext σ} {f : AVFrame}
    (ps : List (Packet π)) : ∀ d : AVCodecContext σ,
    nextFrame c streamIdx ps d = ((ps', d'), .ok (some f)) →
      (ps'.length < ps.length ∧ d'.flushed = false) ∨ d'.flushed = true := by
  induction ps with
  | nil =>
    rintro ⟨i, left, flushed⟩ h
    obtain rfl : flushed = false := nextFrame_ok (congrArg Prod.snd h)
    rcases @nextFrame_eof σ π c streamIdx i left with ⟨-, -, heq⟩ | ⟨-, heq | ⟨_, _, heq⟩⟩
    · simp [h] at heq
    · simp [h] at heq
    · rw [heq] at h
      cases h
      exact .inr rfl
  | cons p ps ih =>
    rintro ⟨i, left, flushed⟩ h
    obtain rfl : flushed = false := nextFrame_ok (congrArg Prod.snd h)
    have hlater : ∀ d, nextFrame c streamIdx ps d = ((ps', d'), .ok (some f)) →
        (ps'.length < (p :: ps).length ∧ d'.flushed = false) ∨ d'.flushed = true :=
      fun d hd => (ih d hd).imp_left (.imp_left Nat.lt_succ_of_lt)
    by_cases hp : p.streamIndex = streamIdx
    · by_cases hrefused : left ≠ [] ∧ c.refuses i left (some p.data) = true
      · have := @nextFrame_refused _ _ c _ _ hp _ _ hrefused ps
        simp [h] at this
      · rw [nextFrame_fed hp hrefused] at h
        split at h
        · exact hlater _ h
        · cases h
          exact .inl ⟨Nat.lt_succ_self _, rfl⟩
    · rw [nextFrame_other hp] at h
      exact hlater _ h

/-- **The calls come to an end**, one for each packet and two more at most. -/
theorem decodeCalls_ends (n : Nat) : ∀ s : DecoderState σ π,
    (s.dec.flushed = true → 1 ≤ n) → (s.dec.flushed = false → s.ictx.length + 2 ≤ n) →
      (decodeCalls c n s).2.isSome = true := by
  induction n with
  | zero =>
    intro s h1 h2
    cases hf : s.dec.flushed with
    | true => exact absurd (h1 hf) (by decide)
    | false => exact absurd (h2 hf) (by omega)
  | succ n ih =>
    rintro ⟨ps, d, streamIdx, timeBase⟩ h1 h2
    cases hnext : nextFrame c streamIdx ps d with
    | mk rest res =>
      obtain ⟨ps', d'⟩ := rest
      rcases res with e | _ | f
      · rw [decodeCalls_last n (congrArg Prod.snd hnext)]
        rfl
      · rw [decodeCalls_eof n (congrArg Prod.snd hnext)]
        rfl
      · rw [decodeCalls_frame n hnext]
        cases convertFrameToRgba timeBase f with
        | error e => rfl
        | ok g =>
          have hn : ps.length + 2 ≤ n + 1 := h2 (nextFrame_ok (congrArg Prod.snd hnext))
          refine ih _ (fun _ => by omega) fun hd => ?_
          rcases nextFrame_some ps d hnext with ⟨hlt, -⟩ | hd'
          · show ps'.length + 2 ≤ n
            omega
          · exact absurd hd (by simp [hd'])

theorem decodeAll_ends (s : DecoderState σ π) : (decodeAll c s).2.isSome = true :=
  decodeCalls_ends _ s (fun _ => by omega) fun _ => Nat.le_refl _

/-! ## Every frame -/

theorem converted_cons {f : AVFrame} {l : List AVFrame} {gs : List RgbaFrame} :
    Converted timeBase (f :: l) gs ↔
      ∃ g gs', convertFrameToRgba timeBase f = .ok g ∧ Converted timeBase l gs' ∧ gs = g :: gs' :=
  List.forall₂_cons_left_iff

theorem exists_converted_iff {l : List AVFrame} :
    (∃ gs, Converted timeBase l gs) ↔ ∀ f ∈ l, f.Convertible := by
  induction l with
  | nil => simp [Converted]
  | cons f l ih =>
    rw [List.forall_mem_cons, ← ih, ← @convertFrameToRgba_ok_iff timeBase]
    simp only [converted_cons]
    constructor
    · rintro ⟨_, g, gs, hg, hgs, rfl⟩
      exact ⟨⟨g, hg⟩, gs, hgs⟩
    · rintro ⟨⟨g, hg⟩, gs, hgs⟩
      exact ⟨g :: gs, g, gs, hg, hgs, rfl⟩

/-- The end of the file: the calls end with `Ok(None)` only where the codec has nothing. -/
theorem decodeCalls_nil (i : σ) (left : List AVFrame) (n : Nat) :
    (left = [] ∧ c.flush i = [] ∧ decodeCalls c (n + 2)
      (⟨[], ⟨i, left, false⟩, streamIdx, timeBase⟩ : DecoderState σ π) = ([], some .eof)) ∨
    (¬ (left = [] ∧ c.flush i = []) ∧ ∀ gs, decodeCalls c (n + 2)
      (⟨[], ⟨i, left, false⟩, streamIdx, timeBase⟩ : DecoderState σ π) ≠ (gs, some .eof)) := by
  rcases @nextFrame_eof σ π c streamIdx i left with
    ⟨hleft, hflush, heq⟩ | ⟨hsome, heq | ⟨f, rest, heq⟩⟩
  · exact .inl ⟨hleft, hflush, decodeCalls_eof _ heq⟩
  · refine .inr ⟨hsome, fun gs h => ?_⟩
    rw [decodeCalls_last _ heq] at h
    cases h
  · refine .inr ⟨hsome, fun gs h => ?_⟩
    -- the codec is flushed: the call after this frame fails
    have hnext : decodeCalls c (n + 1)
        (⟨[], ⟨i, rest, true⟩, streamIdx, timeBase⟩ : DecoderState σ π)
        = ([], some (.failed (.codec .decoderFlushedError))) :=
      decodeCalls_last n (nextFrame_flushed rfl [])
    rw [decodeCalls_frame _ heq, hnext] at h
    cases hf : convertFrameToRgba timeBase f with
    | error e => simp [hf] at h
    | ok g => simp [hf] at h

/-- **Every frame and the end**, from any state of the codec before the flush. -/
theorem decodeCalls_iff (ps : List (Packet π)) : ∀ (i : σ) (left : List AVFrame) (n : Nat),
    ps.length + 2 ≤ n →
    ((∃ gs, Converted timeBase (left ++ c.frames i (videoPackets streamIdx ps)) gs ∧
        decodeCalls c n ⟨ps, ⟨i, left, false⟩, streamIdx, timeBase⟩ = (gs, some .eof)) ↔
      (∃ gs, Converted timeBase (left ++ c.frames i (videoPackets streamIdx ps)) gs) ∧
        c.KeepsUp i left (videoPackets streamIdx ps)) := by
  induction ps with
  | nil =>
    intro i left n hn
    obtain ⟨n, rfl⟩ := Nat.exists_eq_add_of_le' hn
    show (∃ gs, Converted timeBase (left ++ c.flush i) gs ∧ _) ↔
      (∃ gs, Converted timeBase (left ++ c.flush i) gs) ∧ left = [] ∧ c.flush i = []
    rcases @decodeCalls_nil σ π c streamIdx timeBase i left n with
      ⟨hleft, hflush, heq⟩ | ⟨hsome, hne⟩
    · rw [hleft] at heq
      simp [hleft, hflush, heq, Converted]
    · refine iff_of_false ?_ fun h => hsome h.2
      rintro ⟨gs, -, heq⟩
      exact hne gs heq
  | cons p ps ih =>
    intro i left n hn
    obtain ⟨n, rfl⟩ := Nat.exists_eq_add_of_le' (Nat.le_of_add_left_le hn : 1 ≤ n)
    have hn : ps.length + 2 ≤ n := Nat.le_of_succ_le_succ hn
    by_cases hp : p.streamIndex = streamIdx
    · have hvideo : videoPackets streamIdx (p :: ps) = p.data :: videoPackets streamIdx ps := by
        simp [videoPackets, hp]
      rw [hvideo]
      by_cases hrefused : left ≠ [] ∧ c.refuses i left (some p.data) = true
      · refine iff_of_false ?_ fun h => ?_
        · rintro ⟨gs, -, heq⟩
          rw [decodeCalls_last n (nextFrame_refused hp hrefused ps)] at heq
          cases heq
        · have := h.2.1 hrefused.1
          simp [hrefused.2] at this
      · have hfed := @nextFrame_fed σ π c streamIdx p hp i left hrefused ps
        have hkeeps : c.KeepsUp i left (p.data :: videoPackets streamIdx ps) ↔
            c.KeepsUp (c.feed i p.data).1 (left ++ (c.feed i p.data).2).tail
              (videoPackets streamIdx ps) :=
          and_iff_right fun hleft => by simpa [hleft] using hrefused
        have hframes : left ++ c.frames i (p.data :: videoPackets streamIdx ps)
            = (left ++ (c.feed i p.data).2)
              ++ c.frames (c.feed i p.data).1 (videoPackets streamIdx ps) :=
          (List.append_assoc ..).symm
        rw [hkeeps, hframes]
        cases hout : left ++ (c.feed i p.data).2 with
        | nil =>
          rw [hout] at hfed
          rw [decodeCalls_congr n hfed]
          exact ih _ [] (n + 1) (Nat.le_succ_of_le hn)
        | cons f rest =>
          rw [hout] at hfed
          rw [decodeCalls_frame n hfed]
          simp only [List.cons_append, List.tail_cons, converted_cons]
          cases hf : convertFrameToRgba timeBase f with
          | error e => simp
          | ok g =>
            have hrest := ih (c.feed i p.data).1 rest n hn
            constructor
            · rintro ⟨_, ⟨_, gs, -, hgs, rfl⟩, heq⟩
              obtain ⟨hhead, hlast⟩ := Prod.mk.inj heq
              obtain ⟨-, hall⟩ := List.cons.inj hhead
              obtain ⟨-, hup⟩ := hrest.mp ⟨gs, hgs, Prod.ext hall hlast⟩
              exact ⟨⟨g :: gs, g, gs, rfl, hgs, rfl⟩, hup⟩
            · rintro ⟨⟨_, _, gs, -, hgs, rfl⟩, hup⟩
              obtain ⟨gs, hgs, heq⟩ := hrest.mpr ⟨⟨gs, hgs⟩, hup⟩
              exact ⟨g :: gs, ⟨g, gs, rfl, hgs, rfl⟩, by rw [heq]⟩
    · have hvideo : videoPackets streamIdx (p :: ps) = videoPackets streamIdx ps := by
        simp [videoPackets, hp]
      rw [hvideo, decodeCalls_congr n (nextFrame_other hp ps _)]
      exact ih i left (n + 1) (Nat.le_succ_of_le hn)

end

/-- **Video drain.** The calls of `decode_next_frame` on a file come to an end, and yield every
frame of the stream once and in order and then `Ok(None)` if and only if every frame converts and
the codec keeps up. -/
theorem drained_iff {σ π : Type} (c : Codec σ π) (packets : List (Packet π)) (streamIdx : Nat)
    (timeBase : AVRational) :
    (decodeAll c (buildState c packets streamIdx timeBase)).2.isSome = true ∧
    ((∃ gs, Converted timeBase (c.frames c.init (videoPackets streamIdx packets)) gs ∧
        decodeAll c (buildState c packets streamIdx timeBase) = (gs, some .eof)) ↔
      (∀ f ∈ c.frames c.init (videoPackets streamIdx packets), f.Convertible) ∧
      c.KeepsUp c.init [] (videoPackets streamIdx packets)) := by
  refine ⟨decodeAll_ends _, ?_⟩
  rw [← @exists_converted_iff timeBase]
  exact decodeCalls_iff packets c.init [] _ (Nat.le_refl _)

/-- A codec that shows a frame when the next one comes. -/
def oneBehind : Codec (Option AVFrame) AVFrame where
  init := none
  feed held frame := (some frame, held.toList)
  flush held := held.toList
  refuses _ _ _ := false

/-- A frame of one pixel. -/
def onePixel : AVFrame := ⟨1, 1, 0, .ok [9, 9, 9, 9]⟩

/-- The frame that is left comes of the flush; the call after it flushes again, and fails. -/
theorem second_flush_fails :
    decodeAll oneBehind (buildState oneBehind [⟨0, onePixel⟩] 0 ⟨1, 25⟩)
      = ([⟨1, 1, 0, [9, 9, 9, 9]⟩], some (.failed (.codec .decoderFlushedError))) ∧
    ¬ ∃ gs, Converted ⟨1, 25⟩ (oneBehind.frames none (videoPackets 0 [⟨0, onePixel⟩])) gs ∧
      decodeAll oneBehind (buildState oneBehind [⟨0, onePixel⟩] 0 ⟨1, 25⟩) = (gs, some .eof) := by
  have hall : decodeAll oneBehind (buildState oneBehind [⟨0, onePixel⟩] 0 ⟨1, 25⟩)
      = ([⟨1, 1, 0, [9, 9, 9, 9]⟩], some (.failed (.codec .decoderFlushedError))) := by decide
  refine ⟨hall, ?_⟩
  rintro ⟨gs, -, h⟩
  rw [hall] at h
  cases h

/-! ## Which codecs keep up -/

section
variable {σ π : Type} {c : Codec σ π}

/-- A codec that holds a frame at the end of the stream does not. -/
theorem held_frame_fails (packets : List π) : ∀ (i : σ) (left : List AVFrame),
    c.flush (packets.foldl (fun s p => (c.feed s p).1) i) ≠ [] → ¬ c.KeepsUp i left packets := by
  induction packets with
  | nil => exact fun i left hheld h => hheld h.2
  | cons p packets ih => exact fun i left hheld h => ih _ _ hheld h.2

end

end Halmasuit.Decoder
