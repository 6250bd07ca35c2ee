import Halmasuit.SessionIpc.Readers

/-!
# The compositor–decoder wire contract

`halmasuit-decoder-ipc/src/lib.rs`: the messages between the compositor and the sandboxed
`halmasuit-decoder`, their framing, and the check of a frame header. A control message is one
datagram; so is a frame, whose RGBA bytes follow the header in the same datagram. The length prefix
covers the header alone.

- What `from_slice` makes of a body is a parameter of the codec. The peer's bytes are arbitrary.
- `readDecoder` reads the compact form.

Results:

- `validateFrameHeader_ok_iff`: which headers the check lets through;
- `tryDecodeControl_frameDatagram`: a frame datagram is its header, then its payload.
-/

namespace Halmasuit.DecoderIpc

open Halmasuit.Lib
open Halmasuit.Greetd (whole closed closed_member field_string)
open Halmasuit.SessionIpc (readU32 readU32_int noDigit_comma noDigit_brace closed_last)

/-- `WIRE_VERSION`. -/
def wireVersion : UInt8 := 2

/-- `MAX_CONTROL_MSG_BYTES`, 4 KiB. -/
def maxControlMsgBytes : Nat := 4 * 1024

/-- `MAX_FRAME_BYTES`, 16 MiB. -/
def maxFrameBytes : Nat := 16 * 1024 * 1024

/-! ## Messages -/

/-- `FrameFormat`. -/
inductive FrameFormat where
  | rgba8
  deriving DecidableEq, Repr

/-- `CompositorToDecoder`. -/
inductive CompositorToDecoder where
  | loadFile (loopPlayback : Bool)
  | pause
  | resume
  | seek (ptsUs : Int64)
  | shutdown
  deriving DecidableEq, Repr

/-- `DecoderErrorCode`. -/
inductive DecoderErrorCode where
  | openFailed
  | unsupportedCodec
  | parseError
  | allocationFailed
  | seccompTrap
  | internal
  deriving DecidableEq, Repr

/-- `DecoderToCompositor`. -/
inductive DecoderToCompositor where
  | ready (wireVersion : UInt8)
  | frameHeader (frameIdx : UInt64) (ptsUs : Int64) (width height : UInt32) (format : FrameFormat)
      (bytesLen : UInt32)
  | endOfFile
  | decoderError (code : DecoderErrorCode) (message : String)
  deriving DecidableEq, Repr

/-! ## JSON shape -/

def FrameFormat.name : FrameFormat → String
  | .rgba8 => "rgba8"

def DecoderErrorCode.name : DecoderErrorCode → String
  | .openFailed => "open_failed"
  | .unsupportedCodec => "unsupported_codec"
  | .parseError => "parse_error"
  | .allocationFailed => "allocation_failed"
  | .seccompTrap => "seccomp_trap"
  | .internal => "internal"

/-- `serde_json::to_vec` of a decoder message, an object tagged by `type`. -/
def DecoderToCompositor.toVec : DecoderToCompositor → List UInt8
  | .ready wireVersion =>
    Json.object [("type", Json.string "ready"), ("wire_version", Json.int wireVersion.toNat)]
  | .frameHeader frameIdx ptsUs width height format bytesLen =>
    Json.object [("type", Json.string "frame_header"), ("frame_idx", Json.int frameIdx.toNat),
      ("pts_us", Json.int ptsUs.toInt), ("width", Json.int width.toNat),
      ("height", Json.int height.toNat), ("format", Json.string format.name),
      ("bytes_len", Json.int bytesLen.toNat)]
  | .endOfFile => Json.object [("type", Json.string "end_of_file")]
  | .decoderError code message =>
    Json.object [("type", Json.string "decoder_error"), ("code", Json.string code.name),
      ("message", Json.string message)]

/-! ## Codec -/

/-- `CodecError`. -/
inductive CodecError where
  | oversizedControl (len max : Nat)
  | oversizedFrame (len max : Nat)
  | malformedFrame (width height declaredBytes : UInt32)
  | truncatedControl (declared got : Nat)
  | wireVersionMismatch (got expected : UInt8)
  | json
  deriving DecidableEq, Repr

def CodecError.ofFraming : Framing.CodecError → CodecError
  | .oversizedMessage len max => .oversizedControl len max
  | .json => .json

/-- `encode_control` of a serialised message. -/
def encodeControl (body : List UInt8) : Except CodecError (List UInt8) :=
  (Framing.encode maxControlMsgBytes body).mapError .ofFraming

/-- `try_decode_control`, over the deserialiser `from_slice`. -/
def tryDecodeControl {α : Type} (fromSlice : List UInt8 → Option α) (buf : List UInt8) :
    Except CodecError (Option (α × Nat)) :=
  (Framing.tryDecode maxControlMsgBytes fromSlice buf).mapError .ofFraming

/-- `encode_frame_datagram` of a serialised header. -/
def encodeFrameDatagram (header payload : List UInt8) : Except CodecError (List UInt8) :=
  if 2 ^ 32 ≤ payload.length then .error (.oversizedFrame (2 ^ 32 - 1) maxFrameBytes)
  else if maxFrameBytes < payload.length then
    .error (.oversizedFrame payload.length maxFrameBytes)
  else (encodeControl header).map (· ++ payload)

/-- The bytes of a pixel. -/
def FrameFormat.bytesPerPixel : FrameFormat → Nat
  | .rgba8 => 4

/-- `validate_frame_header`. The product is taken in 64 bits, and a product that does not fit is the
largest that does. -/
def validateFrameHeader (width height : UInt32) (format : FrameFormat) (bytesLen : UInt32) :
    Except CodecError Unit :=
  if maxFrameBytes < bytesLen.toNat then
    .error (.oversizedFrame bytesLen.toNat maxFrameBytes)
  else
    let product := width.toNat * height.toNat * format.bytesPerPixel
    let expected := if product < 2 ^ 64 then product else 2 ^ 64 - 1
    if width = 0 ∨ height = 0 ∨ expected ≠ bytesLen.toNat then
      .error (.malformedFrame width height bytesLen)
    else .ok ()

/-! ## What the codec lets through -/

/-- **The header check.** The dimensions are positive, and the declared length is theirs and within
the ceiling. -/
theorem validateFrameHeader_ok_iff {width height : UInt32} {bytesLen : UInt32} :
    validateFrameHeader width height .rgba8 bytesLen = .ok () ↔
      0 < width.toNat ∧ 0 < height.toNat ∧ bytesLen.toNat = width.toNat * height.toNat * 4 ∧
        bytesLen.toNat ≤ maxFrameBytes := by
  have hbytes : bytesLen.toNat < 2 ^ 32 := bytesLen.toNat_lt
  have hw : width = 0 ↔ width.toNat = 0 := by
    rw [← UInt32.toNat_inj]
    rfl
  have hh : height = 0 ↔ height.toNat = 0 := by
    rw [← UInt32.toNat_inj]
    rfl
  unfold validateFrameHeader FrameFormat.bytesPerPixel
  dsimp only
  generalize width.toNat * height.toNat * 4 = product
  have hexpected : (if product < 2 ^ 64 then product else 2 ^ 64 - 1) ≠ bytesLen.toNat ↔
      product ≠ bytesLen.toNat := by
    split <;> omega
  simp only [hexpected, hw, hh]
  by_cases hmax : maxFrameBytes < bytesLen.toNat
  · rw [if_pos hmax]
    refine iff_of_false nofun fun h => ?_
    omega
  · rw [if_neg hmax]
    by_cases hbad : width.toNat = 0 ∨ height.toNat = 0 ∨ product ≠ bytesLen.toNat
    · rw [if_pos hbad]
      refine iff_of_false nofun fun h => ?_
      omega
    · rw [if_neg hbad]
      refine iff_of_true rfl ?_
      omega

theorem tryDecodeControl_ok {α : Type} {fromSlice : List UInt8 → Option α} {buf : List UInt8}
    {r : Option (α × Nat)} :
    tryDecodeControl fromSlice buf = .ok r ↔
      Framing.tryDecode maxControlMsgBytes fromSlice buf = .ok r := by
  unfold tryDecodeControl
  cases Framing.tryDecode maxControlMsgBytes fromSlice buf with
  | error e => simp [Except.mapError]
  | ok r' => simp [Except.mapError]

/-- A message took its prefix and its body, which is within the ceiling, off the front. -/
theorem tryDecodeControl_some {α : Type} {fromSlice : List UInt8 → Option α} {buf : List UInt8}
    {m : α} {n : Nat} (h : tryDecodeControl fromSlice buf = .ok (some (m, n))) :
    4 ≤ n ∧ n ≤ buf.length ∧ n ≤ 4 + maxControlMsgBytes :=
  Framing.tryDecode_some (tryDecodeControl_ok.mp h)

theorem encodeControl_ok {body bs : List UInt8} :
    encodeControl body = .ok bs ↔ Framing.encode maxControlMsgBytes body = .ok bs := by
  unfold encodeControl
  cases Framing.encode maxControlMsgBytes body with
  | error e => simp [Except.mapError]
  | ok bs' => simp [Except.mapError]

/-- A frame datagram is its header and then its payload. -/
theorem encodeFrameDatagram_ok {header payload bs : List UInt8}
    (h : encodeFrameDatagram header payload = .ok bs) :
    payload.length ≤ maxFrameBytes ∧
      ∃ hbs, encodeControl header = .ok hbs ∧ bs = hbs ++ payload := by
  unfold encodeFrameDatagram at h
  split_ifs at h with h32 hmax
  refine ⟨Nat.le_of_not_lt hmax, ?_⟩
  cases henc : encodeControl header with
  | error e =>
    rw [henc] at h
    cases h
  | ok hbs =>
    rw [henc] at h
    exact ⟨hbs, rfl, (Except.ok.inj h).symm⟩

/-- **A frame datagram, read.** Its message is the header, and its payload is what follows. -/
theorem tryDecodeControl_frameDatagram {α : Type} {fromSlice : List UInt8 → Option α} {m : α}
    {header payload bs : List UInt8} (h : encodeFrameDatagram header payload = .ok bs)
    (hm : fromSlice header = some m) :
    ∃ n, tryDecodeControl fromSlice bs = .ok (some (m, n)) ∧ bs.drop n = payload := by
  obtain ⟨-, hbs, henc, rfl⟩ := encodeFrameDatagram_ok h
  refine ⟨hbs.length, ?_, List.drop_left' rfl⟩
  rw [tryDecodeControl_ok]
  exact Framing.tryDecode_encode (encodeControl_ok.mp henc) hm payload

/-! ## A reader of the compact form -/

/-- An integer of 8 bits, unsigned. -/
def readU8 : Json.Reader UInt8 := fun bs =>
  match Json.readInt bs with
  | some (n, rest) => if 0 ≤ n ∧ n < 256 then some (UInt8.ofNat n.toNat, rest) else none
  | none => none

/-- An integer of 64 bits, unsigned. -/
def readU64 : Json.Reader UInt64 := fun bs =>
  match Json.readInt bs with
  | some (n, rest) =>
    if 0 ≤ n ∧ n < 18446744073709551616 then some (UInt64.ofNat n.toNat, rest) else none
  | none => none

/-- An integer of 64 bits, signed. -/
def readI64 : Json.Reader Int64 := fun bs =>
  match Json.readInt bs with
  | some (n, rest) =>
    if -9223372036854775808 ≤ n ∧ n < 9223372036854775808 then some (Int64.ofInt n, rest) else none
  | none => none

/-- An error code of a name. -/
def errorCodeOfName (n : String) : Option DecoderErrorCode :=
  [DecoderErrorCode.openFailed, .unsupportedCodec, .parseError, .allocationFailed, .seccompTrap,
    .internal].find? fun c => decide (c.name = n)

/-- The members of a frame header after its tag, and the closing brace. -/
def readFrameHeader : Json.Reader DecoderToCompositor := fun bs =>
  match Json.field 0x2c "frame_idx" readU64 bs with
  | none => none
  | some (frameIdx, bs) =>
    match Json.field 0x2c "pts_us" readI64 bs with
    | none => none
    | some (ptsUs, bs) =>
      match Json.field 0x2c "width" readU32 bs with
      | none => none
      | some (width, bs) =>
        match Json.field 0x2c "height" readU32 bs with
        | none => none
        | some (height, bs) =>
          match Json.field 0x2c "format" Json.readString bs with
          | none => none
          | some (format, bs) =>
            if format = "rgba8" then
              (closed (Json.field 0x2c "bytes_len" readU32) bs).map fun r =>
                (.frameHeader frameIdx ptsUs width height .rgba8 r.1, r.2)
            else none

/-- One message, by its tag. -/
def readDecoderBody : Json.Reader DecoderToCompositor := fun bs =>
  match Json.field 0x7b "type" Json.readString bs with
  | none => none
  | some (tag, bs) =>
    if tag = "ready" then
      (closed (Json.field 0x2c "wire_version" readU8) bs).map fun r => (.ready r.1, r.2)
    else if tag = "frame_header" then readFrameHeader bs
    else if tag = "end_of_file" then
      match bs with
      | 0x7d :: rest => some (.endOfFile, rest)
      | _ => none
    else if tag = "decoder_error" then
      match Json.field 0x2c "code" Json.readString bs with
      | none => none
      | some (n, bs) =>
        match errorCodeOfName n, closed (Json.field 0x2c "message" Json.readString) bs with
        | some code, some (message, bs) => some (.decoderError code message, bs)
        | _, _ => none
    else none

/-- A reader of the messages `to_vec` writes. -/
def readDecoder (bs : List UInt8) : Option DecoderToCompositor := whole readDecoderBody bs

theorem readU8_int (u : UInt8) {rest : List UInt8} (hr : Json.NoDigit rest) :
    readU8 (Json.int u.toNat ++ rest) = some (u, rest) := by
  have hlt := u.toNat_lt
  have hu : 0 ≤ (u.toNat : Int) ∧ (u.toNat : Int) < 256 := by omega
  rw [readU8, Json.readInt_int _ hr]
  simp [hu]

theorem readU64_int (u : UInt64) {rest : List UInt8} (hr : Json.NoDigit rest) :
    readU64 (Json.int u.toNat ++ rest) = some (u, rest) := by
  have hlt := u.toNat_lt
  have hu : 0 ≤ (u.toNat : Int) ∧ (u.toNat : Int) < 18446744073709551616 := by omega
  rw [readU64, Json.readInt_int _ hr]
  simp [hu]

theorem readI64_int (i : Int64) {rest : List UInt8} (hr : Json.NoDigit rest) :
    readI64 (Json.int i.toInt ++ rest) = some (i, rest) := by
  have h1 := i.le_toInt
  have h2 := i.toInt_lt
  have hi : -9223372036854775808 ≤ i.toInt ∧ i.toInt < 9223372036854775808 := by omega
  rw [readI64, Json.readInt_int _ hr]
  simp [hi]

theorem readFrameHeader_members (frameIdx : UInt64) (ptsUs : Int64) (width height bytesLen : UInt32)
    (rest : List UInt8) :
    readFrameHeader (0x2c :: (Json.member "frame_idx" (Json.int frameIdx.toNat) ++ 0x2c ::
      (Json.member "pts_us" (Json.int ptsUs.toInt) ++ 0x2c ::
        (Json.member "width" (Json.int width.toNat) ++ 0x2c ::
          (Json.member "height" (Json.int height.toNat) ++ 0x2c ::
            (Json.member "format" (Json.string "rgba8") ++ 0x2c ::
              (Json.member "bytes_len" (Json.int bytesLen.toNat) ++ 0x7d :: rest))))))) =
      some (.frameHeader frameIdx ptsUs width height .rgba8 bytesLen, rest) := by
  have hidx := fun tl => Json.field_member 0x2c "frame_idx" _ readU64 frameIdx (0x2c :: tl)
    (readU64_int frameIdx (noDigit_comma _))
  have hpts := fun tl => Json.field_member 0x2c "pts_us" _ readI64 ptsUs (0x2c :: tl)
    (readI64_int ptsUs (noDigit_comma _))
  have hwidth := fun tl => Json.field_member 0x2c "width" _ readU32 width (0x2c :: tl)
    (readU32_int width (noDigit_comma _))
  have hheight := fun tl => Json.field_member 0x2c "height" _ readU32 height (0x2c :: tl)
    (readU32_int height (noDigit_comma _))
  have hlen := closed_last 0x2c "bytes_len" _ readU32 bytesLen rest
    (readU32_int bytesLen (noDigit_brace rest))
  simp only [readFrameHeader, hidx, hpts, hwidth, hheight, field_string, hlen, if_true,
    Option.map_some]

/-- **The reader takes back what `to_vec` writes.** -/
theorem readDecoder_toVec (m : DecoderToCompositor) : readDecoder m.toVec = some m := by
  cases m with
  | ready v =>
    have h := closed_last 0x2c "wire_version" _ readU8 v [] (readU8_int v (noDigit_brace []))
    simp only [readDecoder, whole, readDecoderBody, DecoderToCompositor.toVec, Json.object,
      List.map_cons, List.map_nil, Json.commaSep, List.append_assoc, List.cons_append,
      field_string, h, if_true]
    rfl
  | frameHeader frameIdx ptsUs width height format bytesLen =>
    have h := readFrameHeader_members frameIdx ptsUs width height bytesLen []
    simp only [readDecoder, whole, readDecoderBody, DecoderToCompositor.toVec, FrameFormat.name,
      Json.object, List.map_cons, List.map_nil, Json.commaSep, List.append_assoc,
      List.cons_append, field_string, h, if_true]
    rfl
  | endOfFile =>
    simp only [readDecoder, whole, readDecoderBody, DecoderToCompositor.toVec, Json.object,
      List.map_cons, List.map_nil, Json.commaSep, field_string]
    rfl
  | decoderError code message =>
    have hn : errorCodeOfName code.name = some code := by cases code <;> decide
    have h := closed_member 0x2c "message" _ _ message [] (Json.readString_string message)
    simp only [readDecoder, whole, readDecoderBody, DecoderToCompositor.toVec, Json.object,
      List.map_cons, List.map_nil, Json.commaSep, List.append_assoc, List.cons_append,
      field_string, hn, h, if_true]
    rfl

end Halmasuit.DecoderIpc
