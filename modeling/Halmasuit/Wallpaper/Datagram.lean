import Halmasuit.Decoder.Lifecycle
import Halmasuit.Wallpaper.Relay

/-!
# The frame datagram

The two ends of a frame: `send_frame` and `send_frame_gather_or_drop`
(`halmasuit-decoder/src/main.rs` 560–618 and 656–673), which hand the kernel the encoded header and
the pixels as two pieces of one datagram, and `recv_one`
(`halmasuit/src/wallpaper/decoder_relay.rs` 200–273), which reads the datagram.

Results:

- `recvOne_frame_iff`: what `recv_one` takes for a frame is a frame datagram;
- `IsFrame.part_refused`, `IsFrame.longer_refused`: nothing shorter or longer is;
- **`frame_datagram`**: what the decoder sends is what `encode_frame_datagram` writes, and is read
  back.
-/

namespace Halmasuit.Wallpaper.Relay

open Halmasuit.Lib
open Halmasuit.DecoderIpc
open Halmasuit.Decoder (RgbaFrame DecoderError SendOutcome sendFrame)

/-! ## The sender -/

/-- The pieces `send_frame` hands to `sendmsg`. -/
def frameIov (frame : RgbaFrame) (frameIdx : UInt64) : Except DecoderError (List (List UInt8)) :=
  let bytesLen := frame.bytes.length
  if 2 ^ 32 ≤ bytesLen then .error (.codec (.oversizedFrame (2 ^ 32 - 1) maxFrameBytes))
  else if maxFrameBytes < bytesLen then .error (.codec (.oversizedFrame bytesLen maxFrameBytes))
  else
    let header := DecoderToCompositor.frameHeader frameIdx frame.ptsUs frame.width frame.height
      .rgba8 (UInt32.ofNat bytesLen)
    match encodeControl header.toVec with
    | .error e => .error (.codec e)
    | .ok headerBytes => .ok [headerBytes, frame.bytes]

/-- `sendmsg` on a `SOCK_SEQPACKET` socket: the pieces, one after the other, are one datagram. -/
def gather (iov : List (List UInt8)) : List UInt8 := iov.flatten

/-- The header of a frame fits a control message. -/
theorem length_frameHeader_le (frameIdx : UInt64) (ptsUs : Int64) (width height bytesLen : UInt32) :
    (DecoderToCompositor.frameHeader frameIdx ptsUs width height .rgba8 bytesLen).toVec.length
      ≤ maxControlMsgBytes := by
  have hnames : ∀ name ∈ ["type", "frame_header", "frame_idx", "pts_us", "width", "height",
      "format", "rgba8", "bytes_len"], (Json.string name).length ≤ 14 := by decide
  simp only [List.forall_mem_cons] at hnames
  have hidx := Json.length_int_le frameIdx.toNat (k := 20) (by decide)
    (by have := frameIdx.toNat_lt; omega)
  have hpts := Json.length_int_le ptsUs.toInt (k := 20) (by decide)
    (by have := ptsUs.le_toInt; have := ptsUs.toInt_lt; omega)
  have hword : ∀ u : UInt32, (Json.int u.toNat).length ≤ 21 := fun u =>
    Json.length_int_le u.toNat (k := 20) (by decide) (by have := u.toNat_lt; omega)
  have hwidth := hword width
  have hheight := hword height
  have hlen := hword bytesLen
  simp only [DecoderToCompositor.toVec, FrameFormat.name, Json.object, Json.commaSep, Json.member,
    List.map_cons, List.map_nil, List.length_append, List.length_cons, List.length_nil]
  have hmax : maxControlMsgBytes = 4096 := rfl
  omega

/-- The datagram of a frame the header check lets through. -/
theorem frameIov_ok {frame : RgbaFrame} (frameIdx : UInt64) {bytesLen : UInt32}
    (hvalid : validateFrameHeader frame.width frame.height .rgba8 bytesLen = .ok ())
    (hlen : frame.bytes.length = bytesLen.toNat) :
    ∃ iov, frameIov frame frameIdx = .ok iov ∧
      encodeFrameDatagram (DecoderToCompositor.frameHeader frameIdx frame.ptsUs frame.width
        frame.height .rgba8 bytesLen).toVec frame.bytes = .ok (gather iov) := by
  obtain ⟨-, -, -, hmax⟩ := validateFrameHeader_ok_iff.mp hvalid
  rw [← hlen] at hmax
  have h32 : ¬ 2 ^ 32 ≤ frame.bytes.length := by
    have : maxFrameBytes < 2 ^ 32 := by decide
    omega
  have hofNat : UInt32.ofNat frame.bytes.length = bytesLen := by
    rw [hlen, UInt32.ofNat_toNat]
  have henc := Framing.encode_of_le maxControlMsgBytes (by decide)
    (length_frameHeader_le frameIdx frame.ptsUs frame.width frame.height bytesLen)
  rw [← encodeControl_ok] at henc
  generalize Framing.toLeBytes _ ++ _ = headerBytes at henc
  refine ⟨[headerBytes, frame.bytes], ?_, ?_⟩
  · unfold frameIov
    dsimp only
    rw [if_neg h32, if_neg (Nat.not_lt.mpr hmax), hofNat, henc]
  · unfold encodeFrameDatagram
    rw [if_neg h32, if_neg (Nat.not_lt.mpr hmax), henc]
    simp [Except.map, gather]

/-! ## The receiver -/

section
variable {fromSlice : List UInt8 → Option DecoderToCompositor} {d : List UInt8}

/-- A datagram is one frame at most. -/
theorem IsFrame.unique {width height width' height' : UInt32} {payload payload' : List UInt8}
    (h : IsFrame fromSlice d width height payload)
    (h' : IsFrame fromSlice d width' height' payload') :
    width = width' ∧ height = height' ∧ payload = payload' := by
  obtain ⟨_, _, _, _, hdec, -, rfl, -⟩ := h
  obtain ⟨_, _, _, _, hdec', -, rfl, -⟩ := h'
  cases hdec.symm.trans hdec'
  exact ⟨rfl, rfl, rfl⟩

/-- **What `recv_one` takes for a frame.** -/
theorem recvOne_frame_iff {scratch payload : List UInt8} {width height : UInt32} :
    recvOne fromSlice scratch (.datagram d) = (payload, .ok (some (.frame ⟨width, height⟩))) ↔
      IsFrame fromSlice d width height payload := by
  unfold recvOne
  dsimp only
  by_cases hlong : bufSize < d.length
  · rw [if_pos hlong]
    exact iff_of_false nofun fun h => Nat.not_lt.mpr h.length_le.1 hlong
  rw [if_neg hlong]
  by_cases hnil : d = []
  · rw [if_pos hnil]
    exact iff_of_false nofun fun h => h.length_le.2 hnil
  rw [if_neg hnil]
  rcases @readDatagram_cases fromSlice scratch d with
    ⟨width', height', payload', hd, heq⟩ | ⟨hready, heq⟩ | ⟨hframe, -, heq⟩
  · rw [heq]
    constructor
    · intro h
      cases h
      exact hd
    · intro h
      obtain ⟨rfl, rfl, rfl⟩ := h.unique hd
      rfl
  · rw [heq]
    refine iff_of_false nofun fun h => ?_
    exact h.not_ready ⟨Nat.le_of_not_lt hlong, hready⟩
  · refine iff_of_false (fun h => ?_) fun h => hframe ⟨_, _, _, h⟩
    rcases heq with heq | ⟨code, message, heq⟩ | ⟨e, heq⟩ <;>
      · rw [heq] at h
        cases h

/-- A frame is what `encode_frame_datagram` writes, around a header that reads as its own. -/
theorem IsFrame.encoded {width height : UInt32} {payload : List UInt8}
    (h : IsFrame fromSlice d width height payload) :
    ∃ header frameIdx ptsUs bytesLen, encodeFrameDatagram header payload = .ok d ∧
      fromSlice header = some (.frameHeader frameIdx ptsUs width height .rgba8 bytesLen) ∧
      validateFrameHeader width height .rgba8 bytesLen = .ok () ∧
      payload.length = bytesLen.toNat := by
  have hmax := h.bounds.2.2.2
  obtain ⟨frameIdx, ptsUs, bytesLen, n, hdec, hvalid, rfl, hlen⟩ := h
  obtain ⟨header, rest, rfl, hle, hread, rfl⟩ :=
    Framing.tryDecode_some_split (tryDecodeControl_ok.mp hdec)
  have hdrop : (Framing.toLeBytes header.length ++ header ++ rest).drop
      (Framing.lengthPrefixSize + header.length) = rest := by
    refine List.drop_left' ?_
    rw [List.length_append, Framing.length_toLeBytes]
  rw [hdrop] at hmax hlen ⊢
  refine ⟨header, frameIdx, ptsUs, bytesLen, ?_, hread, hvalid, hlen⟩
  have henc := encodeControl_ok.mpr (Framing.encode_of_le maxControlMsgBytes (by decide) hle)
  have h32 : maxFrameBytes < 2 ^ 32 := by decide
  unfold encodeFrameDatagram
  rw [if_neg (by omega), if_neg (by omega), henc]
  rfl

/-- A datagram `try_decode_control` reads to the same header as a frame's, of another length. -/
theorem readDatagram_refused {d' : List UInt8} {width height : UInt32} {payload : List UInt8}
    (h : IsFrame fromSlice d width height payload) (hlen : d'.length ≠ d.length)
    (hdec : tryDecodeControl fromSlice d' = .ok none ∨
      tryDecodeControl fromSlice d' = tryDecodeControl fromSlice d) (scratch : List UInt8) :
    readDatagram fromSlice scratch d' = (scratch, .error .partialFrame) := by
  obtain ⟨_, _, bytesLen, n, hd, hvalid, rfl, hpayload⟩ := h
  have hn := (tryDecodeControl_some hd).2.1
  rw [List.length_drop] at hpayload
  unfold readDatagram
  rcases hdec with hdec | hdec
  · rw [hdec]
  · rw [hdec, hd]
    dsimp only
    rw [hvalid]
    exact if_pos (by omega)

/-- **A part of a frame is refused.** -/
theorem IsFrame.part_refused {width height : UInt32} {payload part rest : List UInt8}
    (h : IsFrame fromSlice (part ++ rest) width height payload) (hrest : rest ≠ [])
    (scratch : List UInt8) :
    ∃ e, recvOne fromSlice scratch (.datagram part) = (scratch, .error e) := by
  have hpos : 0 < rest.length := List.length_pos_iff.mpr hrest
  have hlen : part.length ≠ (part ++ rest).length := by
    rw [List.length_append]
    omega
  have hshort : ¬ bufSize < part.length := by
    have := h.length_le.1
    rw [List.length_append] at this
    omega
  unfold recvOne
  dsimp only
  rw [if_neg hshort]
  by_cases hnil : part = []
  · rw [if_pos hnil]
    exact ⟨_, rfl⟩
  · rw [if_neg hnil, readDatagram_refused h hlen ?_ scratch]
    · exact ⟨_, rfl⟩
    · by_cases hnone : tryDecodeControl fromSlice part = .ok none
      · exact .inl hnone
      · right
        have hwhole := mt tryDecodeControl_ok.mpr hnone
        unfold tryDecodeControl
        rw [Framing.tryDecode_append_of_ne rest hwhole]

/-- **A frame with more behind it is refused.** -/
theorem IsFrame.longer_refused {width height : UInt32} {payload ext : List UInt8}
    (h : IsFrame fromSlice d width height payload) (hext : ext ≠ []) (scratch : List UInt8) :
    ∃ e, recvOne fromSlice scratch (.datagram (d ++ ext)) = (scratch, .error e) := by
  have hpos : 0 < ext.length := List.length_pos_iff.mpr hext
  have hlen : (d ++ ext).length ≠ d.length := by
    rw [List.length_append]
    omega
  unfold recvOne
  dsimp only
  by_cases hlong : bufSize < (d ++ ext).length
  · rw [if_pos hlong]
    exact ⟨_, rfl⟩
  · have hnil : d ++ ext ≠ [] := by simp [hext]
    rw [if_neg hlong, if_neg hnil, readDatagram_refused h hlen (.inr ?_) scratch]
    · exact ⟨_, rfl⟩
    · obtain ⟨_, _, _, _, hd, -⟩ := h
      rw [hd, tryDecodeControl_ok]
      exact Framing.tryDecode_some_append ext (tryDecodeControl_ok.mp hd)

end

/-- **The frame datagram.** With a deserialiser that takes back what the serialiser writes: a frame
whose header passes the check, with its length for `bytes_len`, is sent as `encode_frame_datagram`
writes it, fits the receive buffer, and is read with its dimensions and its payload. Every datagram
that is read as a frame is such a one, around a header that reads as its own, and neither a part of
it nor anything longer is read. -/
theorem frame_datagram (fromSlice : List UInt8 → Option DecoderToCompositor)
    (hround : ∀ m : DecoderToCompositor, fromSlice m.toVec = some m) :
    (∀ (frame : RgbaFrame) (frameIdx : UInt64) (bytesLen : UInt32) (scratch : List UInt8),
      validateFrameHeader frame.width frame.height .rgba8 bytesLen = .ok () →
      frame.bytes.length = bytesLen.toNat →
      ∃ iov, frameIov frame frameIdx = .ok iov ∧
        encodeFrameDatagram (DecoderToCompositor.frameHeader frameIdx frame.ptsUs frame.width
          frame.height .rgba8 bytesLen).toVec frame.bytes = .ok (gather iov) ∧
        (gather iov).length ≤ bufSize ∧
        recvOne fromSlice scratch (.datagram (gather iov))
          = (frame.bytes, .ok (some (.frame ⟨frame.width, frame.height⟩)))) ∧
    ∀ (d scratch payload : List UInt8) (width height : UInt32),
      recvOne fromSlice scratch (.datagram d)
        = (payload, .ok (some (.frame ⟨width, height⟩))) →
      (∃ header frameIdx ptsUs bytesLen, encodeFrameDatagram header payload = .ok d ∧
        fromSlice header = some (.frameHeader frameIdx ptsUs width height .rgba8 bytesLen) ∧
        validateFrameHeader width height .rgba8 bytesLen = .ok () ∧
        payload.length = bytesLen.toNat) ∧
      (∀ part rest, d = part ++ rest → rest ≠ [] →
        ∃ e, recvOne fromSlice scratch (.datagram part) = (scratch, .error e)) ∧
      ∀ ext, ext ≠ [] →
        ∃ e, recvOne fromSlice scratch (.datagram (d ++ ext)) = (scratch, .error e) := by
  refine ⟨fun frame frameIdx bytesLen scratch hvalid hlen => ?_,
    fun d scratch payload width height hrecv => ?_⟩
  · obtain ⟨iov, hiov, henc⟩ := frameIov_ok frameIdx hvalid hlen
    have hframe : IsFrame fromSlice (gather iov) frame.width frame.height frame.bytes :=
      isFrame_frameDatagram henc (hround _) hvalid hlen
    exact ⟨iov, hiov, henc, hframe.length_le.1, recvOne_frame_iff.mpr hframe⟩
  · have hframe := recvOne_frame_iff.mp hrecv
    refine ⟨hframe.encoded, fun part rest hd hrest => ?_, fun ext hext => ?_⟩
    · rw [hd] at hframe
      exact hframe.part_refused hrest scratch
    · exact hframe.longer_refused hext scratch

/-- A frame of one pixel, sent and read, and what is left of it when its last byte is lost. -/
theorem frame_datagram_pixel :
    ∃ iov, frameIov ⟨1, 1, 0, [9, 8, 7, 6]⟩ 0 = .ok iov ∧
      recvOne readDecoder [] (.datagram (gather iov)) = ([9, 8, 7, 6], .ok (some (.frame ⟨1, 1⟩))) ∧
      ∃ e, recvOne readDecoder [] (.datagram (gather iov).dropLast) = ([], .error e) := by
  obtain ⟨hsent, hread⟩ := frame_datagram readDecoder readDecoder_toVec
  obtain ⟨iov, hiov, -, -, hrecv⟩ := hsent ⟨1, 1, 0, [9, 8, 7, 6]⟩ 0 4 [] (by decide) (by decide)
  have hne : gather iov ≠ [] := by
    intro hnil
    rw [hnil] at hrecv
    cases hrecv
  obtain ⟨-, hpart, -⟩ := hread _ [] _ 1 1 hrecv
  refine ⟨iov, hiov, hrecv, hpart _ [(gather iov).getLast hne] ?_ (by simp)⟩
  exact (List.dropLast_append_getLast hne).symm

end Halmasuit.Wallpaper.Relay
