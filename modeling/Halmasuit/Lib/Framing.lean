import Mathlib.Algebra.Group.Nat.Defs
import Mathlib.Data.List.Basic
import Halmasuit.Lib.Run

/-!
# Length-prefixed framing

A message body behind a four-byte little-endian length, with a ceiling on the length that is
checked before the body is looked at. `encode` frames a message, `tryDecode` takes one message
off the front of a buffer; both are generic in the message type and in the (de)serialiser.

What the users of this module rely on:

- `tryDecode_encode`: a frame decodes to its message, whatever follows it;
- `tryDecode_some_split`: what decodes is a frame and a rest;
- `tryDecode_short`: a proper prefix of a frame is "not enough bytes yet";
- `tryDecode_some_append`, `tryDecode_error_append`: a verdict on the front of a buffer does not
  depend on the bytes that arrive later;
- `decodeAll_frames`: frames written one after the other are read back one after the other;
- `run_receive`: and so they are when they arrive in chunks cut anywhere.
-/

namespace Halmasuit.Lib.Framing

/-- Why a frame was refused: its length is over the ceiling, or its body is no message. -/
inductive CodecError where
  | oversizedMessage (len max : Nat)
  | json
  deriving DecidableEq, Repr

/-- The size of the length prefix. -/
def lengthPrefixSize : Nat := 4

/-- A 32-bit length as four bytes, least significant first. -/
def toLeBytes (n : Nat) : List UInt8 :=
  [UInt8.ofNat n, UInt8.ofNat (n / 256), UInt8.ofNat (n / 65536), UInt8.ofNat (n / 16777216)]

/-- The length four such bytes stand for. -/
def fromLeBytes : List UInt8 → Nat
  | [] => 0
  | b :: bs => b.toNat + 256 * fromLeBytes bs

@[simp] theorem length_toLeBytes (n : Nat) : (toLeBytes n).length = lengthPrefixSize := rfl

theorem fromLeBytes_toLeBytes {n : Nat} (h : n < 2 ^ 32) : fromLeBytes (toLeBytes n) = n := by
  simp only [toLeBytes, fromLeBytes, UInt8.toNat_ofNat']
  omega

/-- Four bytes are the length they stand for, written out. -/
theorem toLeBytes_fromLeBytes {bs : List UInt8} (h : bs.length = lengthPrefixSize) :
    toLeBytes (fromLeBytes bs) = bs := by
  obtain ⟨b0, b1, b2, b3, rfl⟩ := List.length_eq_four.mp h
  have h0 := b0.toNat_lt
  have h1 := b1.toNat_lt
  have h2 := b2.toNat_lt
  have h3 := b3.toNat_lt
  have hbyte : ∀ (b : UInt8) (n : Nat), n % 256 = b.toNat → UInt8.ofNat n = b := by
    intro b n hn
    rw [← UInt8.toNat_inj, UInt8.toNat_ofNat']
    exact hn
  simp only [toLeBytes, fromLeBytes, List.cons.injEq, and_true]
  refine ⟨hbyte b0 _ ?_, hbyte b1 _ ?_, hbyte b2 _ ?_, hbyte b3 _ ?_⟩ <;> omega

variable {α : Type} (max : Nat)

/-- Frame a message whose serialised body is `body`. A length that does not fit 32 bits is
reported as the largest one that does. -/
def encode (body : List UInt8) : Except CodecError (List UInt8) :=
  if 2 ^ 32 ≤ body.length then .error (.oversizedMessage (2 ^ 32 - 1) max)
  else if max < body.length then .error (.oversizedMessage body.length max)
  else .ok (toLeBytes body.length ++ body)

/-- Take one message off the front of `buf`: the message and the bytes it used, `none` while
the frame is incomplete. -/
def tryDecode (fromSlice : List UInt8 → Option α) (buf : List UInt8) :
    Except CodecError (Option (α × Nat)) :=
  if buf.length < lengthPrefixSize then .ok none
  else
    let len := fromLeBytes (buf.take lengthPrefixSize)
    if max < len then .error (.oversizedMessage len max)
    else
      let needed := lengthPrefixSize + len
      if buf.length < needed then .ok none
      else
        match fromSlice ((buf.drop lengthPrefixSize).take len) with
        | none => .error .json
        | some m => .ok (some (m, needed))

/-- A body is framed exactly when it is within both ceilings. -/
theorem encode_isOk_iff {body : List UInt8} :
    (∃ bs, encode max body = .ok bs) ↔ body.length < 2 ^ 32 ∧ body.length ≤ max := by
  unfold encode
  split_ifs with h1 h2
  · simpa using fun h => absurd h (by omega)
  · simpa using fun _ => h2
  · exact ⟨fun _ => ⟨by omega, by omega⟩, fun _ => ⟨_, rfl⟩⟩

theorem encode_of_le {body : List UInt8} (hmax : max < 2 ^ 32) (h : body.length ≤ max) :
    encode max body = .ok (toLeBytes body.length ++ body) := by
  rw [encode, if_neg (by omega), if_neg (by omega)]

/-- A framed body has the shape `encode` writes. -/
theorem encode_ok {body bs : List UInt8} (h : encode max body = .ok bs) :
    bs = toLeBytes body.length ++ body ∧ body.length < 2 ^ 32 ∧ body.length ≤ max := by
  have hle := (encode_isOk_iff max).mp ⟨bs, h⟩
  refine ⟨?_, hle⟩
  rw [encode, if_neg (by omega), if_neg (by omega)] at h
  exact (Except.ok.inj h).symm

section
variable {max} {fromSlice : List UInt8 → Option α}

/-- What a decoded message says about the buffer. -/
theorem tryDecode_some {buf : List UInt8} {m : α} {n : Nat}
    (h : tryDecode max fromSlice buf = .ok (some (m, n))) :
    lengthPrefixSize ≤ n ∧ n ≤ buf.length ∧ n ≤ lengthPrefixSize + max := by
  unfold tryDecode at h
  simp only at h
  split_ifs at h with h1 h2 h3
  · simp at h
  · simp at h
  split at h
  · simp at h
  · simp only [Except.ok.injEq, Option.some.injEq, Prod.mk.injEq] at h
    omega

/-- A buffer a message was decoded from is the frame of a body that reads as it, and a rest. -/
theorem tryDecode_some_split {buf : List UInt8} {m : α} {n : Nat}
    (h : tryDecode max fromSlice buf = .ok (some (m, n))) :
    ∃ body rest, buf = toLeBytes body.length ++ body ++ rest ∧ body.length ≤ max ∧
      fromSlice body = some m ∧ n = lengthPrefixSize + body.length := by
  unfold tryDecode at h
  simp only at h
  split_ifs at h with hprefix hmax hwhole
  · simp at h
  · simp at h
  generalize hlen : fromLeBytes (buf.take lengthPrefixSize) = len at *
  have hbody : ((buf.drop lengthPrefixSize).take len).length = len := by
    rw [List.length_take, List.length_drop]
    omega
  cases hread : fromSlice ((buf.drop lengthPrefixSize).take len) with
  | none =>
    rw [hread] at h
    cases h
  | some m' =>
    rw [hread] at h
    obtain ⟨rfl, rfl⟩ : m' = m ∧ lengthPrefixSize + len = n := by simpa using h
    refine ⟨(buf.drop lengthPrefixSize).take len, (buf.drop lengthPrefixSize).drop len, ?_, ?_,
      hread, ?_⟩
    · have htake : (buf.take lengthPrefixSize).length = lengthPrefixSize := by
        rw [List.length_take]
        omega
      rw [hbody, ← hlen, toLeBytes_fromLeBytes htake, List.append_assoc, List.take_append_drop,
        List.take_append_drop]
    · omega
    · rw [hbody]

/-- The verdict on a buffer that holds a whole frame depends on that frame alone. -/
theorem tryDecode_append_of_ne {buf : List UInt8} (ext : List UInt8)
    (h : tryDecode max fromSlice buf ≠ .ok none) :
    tryDecode max fromSlice (buf ++ ext) = tryDecode max fromSlice buf := by
  by_cases h1 : buf.length < lengthPrefixSize
  · exact absurd (by rw [tryDecode, if_pos h1]) h
  have htake : (buf ++ ext).take lengthPrefixSize = buf.take lengthPrefixSize :=
    List.take_append_of_le_length (by omega)
  have h1' : ¬ (buf ++ ext).length < lengthPrefixSize := by simp; omega
  simp only [tryDecode, if_neg h1, if_neg h1', htake] at h ⊢
  by_cases h2 : max < fromLeBytes (buf.take lengthPrefixSize)
  · rw [if_pos h2, if_pos h2]
  rw [if_neg h2] at h ⊢
  by_cases h3 : buf.length < lengthPrefixSize + fromLeBytes (buf.take lengthPrefixSize)
  · exact absurd (by rw [if_pos h3]) h
  have h3' :
      ¬ (buf ++ ext).length < lengthPrefixSize + fromLeBytes (buf.take lengthPrefixSize) := by
    simp; omega
  have hbody : ((buf ++ ext).drop lengthPrefixSize).take (fromLeBytes (buf.take lengthPrefixSize))
      = (buf.drop lengthPrefixSize).take (fromLeBytes (buf.take lengthPrefixSize)) := by
    rw [List.drop_append_of_le_length (by omega)]
    exact List.take_append_of_le_length (by simp; omega)
  rw [if_neg h2, if_neg h3, if_neg h3', hbody]

theorem tryDecode_some_append {buf : List UInt8} {m : α} {n : Nat} (ext : List UInt8)
    (h : tryDecode max fromSlice buf = .ok (some (m, n))) :
    tryDecode max fromSlice (buf ++ ext) = .ok (some (m, n)) := by
  rw [tryDecode_append_of_ne ext (by simp [h]), h]

theorem tryDecode_error_append {buf : List UInt8} {e : CodecError} (ext : List UInt8)
    (h : tryDecode max fromSlice buf = .error e) :
    tryDecode max fromSlice (buf ++ ext) = .error e := by
  rw [tryDecode_append_of_ne ext (by simp [h]), h]

/-- What a frame decodes to is what its body reads as, whatever follows it. -/
theorem tryDecode_frame {body bs : List UInt8} (henc : encode max body = .ok bs)
    (rest : List UInt8) :
    tryDecode max fromSlice (bs ++ rest) =
      match fromSlice body with
      | none => .error .json
      | some m => .ok (some (m, bs.length)) := by
  obtain ⟨rfl, hlt, hle⟩ := encode_ok max henc
  have htake : (toLeBytes body.length ++ body ++ rest).take lengthPrefixSize
      = toLeBytes body.length := by
    rw [List.append_assoc]
    exact List.take_left' (length_toLeBytes _)
  have hdrop : (toLeBytes body.length ++ body ++ rest).drop lengthPrefixSize = body ++ rest := by
    rw [List.append_assoc]
    exact List.drop_left' (length_toLeBytes _)
  have hlen : (toLeBytes body.length ++ body ++ rest).length
      = lengthPrefixSize + body.length + rest.length := by simp [Nat.add_assoc]
  rw [tryDecode, if_neg (by omega)]
  simp only [htake, fromLeBytes_toLeBytes hlt]
  rw [if_neg (by omega), if_neg (by omega), hdrop, List.take_left' rfl]
  simp

/-- **Round trip.** A frame decodes to its message, whatever follows it. -/
theorem tryDecode_encode {body bs : List UInt8} {m : α} (henc : encode max body = .ok bs)
    (hm : fromSlice body = some m) (rest : List UInt8) :
    tryDecode max fromSlice (bs ++ rest) = .ok (some (m, bs.length)) := by
  rw [tryDecode_frame henc rest, hm]

/-- A frame whose body is no message is an error, whatever follows it. -/
theorem tryDecode_refused {body bs : List UInt8} (henc : encode max body = .ok bs)
    (hm : fromSlice body = none) (rest : List UInt8) :
    tryDecode max fromSlice (bs ++ rest) = .error .json := by
  rw [tryDecode_frame henc rest, hm]

/-- A proper prefix of a frame is not a frame yet. -/
theorem tryDecode_short {body bs : List UInt8} (henc : encode max body = .ok bs) {part : List UInt8}
    {rest : List UInt8} (hsplit : bs = part ++ rest) (hne : rest ≠ []) :
    tryDecode max fromSlice part = .ok none := by
  obtain ⟨hbs, hlt, hle⟩ := encode_ok max henc
  have hlen : part.length + rest.length = lengthPrefixSize + body.length := by
    have := congrArg List.length (hbs.symm.trans hsplit)
    simp at this
    omega
  have hrest : 0 < rest.length := List.length_pos_iff.mpr hne
  by_cases h1 : part.length < lengthPrefixSize
  · rw [tryDecode, if_pos h1]
  have htake : part.take lengthPrefixSize = toLeBytes body.length := by
    have hpart : (part ++ rest).take lengthPrefixSize = part.take lengthPrefixSize :=
      List.take_append_of_le_length (by omega)
    rw [← hpart, ← hsplit, hbs]
    exact List.take_left' (length_toLeBytes _)
  rw [tryDecode, if_neg h1]
  simp only [htake, fromLeBytes_toLeBytes hlt]
  rw [if_neg (by omega), if_pos (by omega)]

end

/-! ## Streams of frames -/

/-- The messages at the front of a buffer, taken off one after the other. `fuel` bounds their
number. -/
def decodeAll (fromSlice : List UInt8 → Option α) : Nat → List UInt8 → List α
  | 0, _ => []
  | fuel + 1, buf =>
    match tryDecode max fromSlice buf with
    | .ok (some (m, n)) => m :: decodeAll fromSlice fuel (buf.drop n)
    | _ => []

/-- What is written frame by frame is read message by message. -/
theorem decodeAll_frames {fromSlice : List UInt8 → Option α} (hmax : max < 2 ^ 32)
    {toVec : α → List UInt8} (hdec : ∀ m, fromSlice (toVec m) = some m) (ms : List α)
    (hfit : ∀ m ∈ ms, (toVec m).length ≤ max) : ∀ fuel, ms.length ≤ fuel →
      decodeAll max fromSlice fuel
        (ms.flatMap fun m => toLeBytes (toVec m).length ++ toVec m) = ms := by
  induction ms with
  | nil =>
    intro fuel _
    cases fuel <;> rfl
  | cons m ms ih =>
    intro fuel hfuel
    obtain ⟨fuel, rfl⟩ : ∃ n, fuel = n + 1 := ⟨fuel - 1, by simp at hfuel; omega⟩
    have henc := encode_of_le max hmax (hfit m (by simp))
    have hread := tryDecode_encode henc (hdec m)
      (ms.flatMap fun m => toLeBytes (toVec m).length ++ toVec m)
    rw [List.flatMap_cons, decodeAll, hread]
    simp only [List.drop_left]
    rw [ih (fun m' hm' => hfit m' (by simp [hm'])) fuel (by simpa using hfuel)]

/-! ## A stream cut anywhere -/

/-- The messages at the front of a buffer and the bytes left over. `fuel` bounds the messages. -/
def takeAll (fromSlice : List UInt8 → Option α) : Nat → List UInt8 → List α × List UInt8
  | 0, buf => ([], buf)
  | fuel + 1, buf =>
    match tryDecode max fromSlice buf with
    | .ok (some (m, n)) =>
      let r := takeAll fromSlice fuel (buf.drop n)
      (m :: r.1, r.2)
    | _ => ([], buf)

/-- A receiver that keeps the bytes left over: a chunk comes in, the messages it completes go
out. -/
def receive (fromSlice : List UInt8 → Option α) (buf chunk : List UInt8) : List UInt8 × List α :=
  let r := takeAll max fromSlice ((buf ++ chunk).length + 1) (buf ++ chunk)
  (r.2, r.1)

section
variable {max} {fromSlice : List UInt8 → Option α} {toVec : α → List UInt8}

/-- The bytes `bss` frame the messages `ms`, one by one. -/
def Frames (max : Nat) (toVec : α → List UInt8) (ms : List α) (bss : List (List UInt8)) : Prop :=
  ms.map (fun m => encode max (toVec m)) = bss.map .ok

/-- What can be taken off the front of a stream of frames: some of its messages, and what is left
over is no frame yet. -/
theorem takeAll_frames (hdec : ∀ m, fromSlice (toVec m) = some m) (bss : List (List UInt8)) :
    ∀ (ms : List α) (fuel : Nat) (b r : List UInt8), Frames max toVec ms bss →
      b ++ r = bss.flatten → b.length < fuel →
      ∃ k b', takeAll max fromSlice fuel b = (ms.take k, b') ∧ b' ++ r = (bss.drop k).flatten ∧
        tryDecode max fromSlice b' = .ok none := by
  have hnil : tryDecode max fromSlice [] = .ok none := by rw [tryDecode, if_pos (by decide)]
  induction bss with
  | nil =>
    intro ms fuel b r hfr heq hf
    obtain ⟨rfl, rfl⟩ : b = [] ∧ r = [] := by simpa using heq
    obtain ⟨fuel, rfl⟩ : ∃ n, fuel = n + 1 := ⟨fuel - 1, by omega⟩
    exact ⟨0, [], by simp [takeAll, hnil], rfl, hnil⟩
  | cons bs bss ih =>
    intro ms fuel b r hfr heq hf
    cases ms with
    | nil => simp [Frames] at hfr
    | cons m ms =>
      obtain ⟨henc, hfr⟩ : encode max (toVec m) = .ok bs ∧ Frames max toVec ms bss := by
        simpa [Frames] using hfr
      obtain ⟨fuel, rfl⟩ : ∃ n, fuel = n + 1 := ⟨fuel - 1, by omega⟩
      rw [List.flatten_cons] at heq
      by_cases hlen : bs.length ≤ b.length
      · -- the buffer holds the next frame
        obtain ⟨b₂, rfl, heq₂⟩ : ∃ b₂, b = bs ++ b₂ ∧ b₂ ++ r = bss.flatten := by
          obtain ⟨b₂, hb₂⟩ := List.prefix_of_prefix_length_le
            (show bs <+: b ++ r from heq ▸ List.prefix_append bs _) (List.prefix_append b r) hlen
          refine ⟨b₂, hb₂.symm, ?_⟩
          rw [← hb₂, List.append_assoc] at heq
          exact List.append_cancel_left heq
        have hread := tryDecode_encode henc (hdec m) b₂
        have hpos : 0 < bs.length := by
          rw [(encode_ok max henc).1]
          simp [toLeBytes]
        obtain ⟨k, b', htake, hrest, hstuck⟩ := ih ms fuel b₂ r hfr heq₂ (by
          simp only [List.length_append] at hf
          omega)
        refine ⟨k + 1, b', ?_, hrest, hstuck⟩
        rw [takeAll, hread]
        simp [htake]
      · -- it ends inside the next frame
        obtain ⟨part, hpart⟩ := List.prefix_of_prefix_length_le
          (List.prefix_append b r) (heq ▸ List.prefix_append bs _) (by omega)
        have hne : part ≠ [] := by
          rintro rfl
          rw [List.append_nil] at hpart
          exact hlen (Nat.le_of_eq (by rw [hpart]))
        have hshort := @tryDecode_short _ _ fromSlice _ _ henc _ _ hpart.symm hne
        exact ⟨0, b, by simp [takeAll, hshort], by simpa using heq, hshort⟩

/-- **Where a stream is cut does not matter.** Frames that arrive in chunks of any size are read
message by message, and nothing is left over. -/
theorem run_receive (hdec : ∀ m, fromSlice (toVec m) = some m) (chunks : List (List UInt8)) :
    ∀ (ms : List α) (bss : List (List UInt8)) (buf : List UInt8), Frames max toVec ms bss →
      buf ++ chunks.flatten = bss.flatten → tryDecode max fromSlice buf = .ok none →
      run (receive max fromSlice) buf chunks = ([], ms) := by
  induction chunks with
  | nil =>
    intro ms bss buf hfr heq hstuck
    rw [List.flatten_nil, List.append_nil] at heq
    cases bss with
    | nil =>
      obtain rfl : ms = [] := by simpa [Frames] using hfr
      rw [heq]
      rfl
    | cons bs bss =>
      cases ms with
      | nil => simp [Frames] at hfr
      | cons m ms =>
        obtain ⟨henc, -⟩ : encode max (toVec m) = .ok bs ∧ Frames max toVec ms bss := by
          simpa [Frames] using hfr
        have hread := tryDecode_encode henc (hdec m) bss.flatten
        rw [heq, List.flatten_cons, hread] at hstuck
        simp at hstuck
  | cons chunk chunks ih =>
    intro ms bss buf hfr heq hstuck
    rw [List.flatten_cons, ← List.append_assoc] at heq
    obtain ⟨k, b', htake, hrest, hstuck'⟩ := takeAll_frames hdec bss ms
      ((buf ++ chunk).length + 1) (buf ++ chunk) chunks.flatten hfr heq (by omega)
    have hfr' : Frames max toVec (ms.drop k) (bss.drop k) := by
      simpa [Frames] using congrArg (List.drop k) hfr
    have hrun := ih (ms.drop k) (bss.drop k) b' hfr' hrest hstuck'
    simp only [run, receive, htake, hrun, List.take_append_drop]

end

end Halmasuit.Lib.Framing
