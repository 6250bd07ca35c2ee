import Halmasuit.Lib.File
import Halmasuit.Lib.Run

/-!
# Reading the wallpaper

Model of `build_avio` (`halmasuit-decoder/src/decode.rs` 186–249): libavformat reads the mapped file
through two callbacks that share a cursor. `whence` is what the caller asks for, with flags.

The callbacks are to be a file that is read (`Lib.File`). They are, but for one request: the comment
of the source says that `AVSEEK_FORCE` is stripped, and it is, after the test for `AVSEEK_SIZE`. So
the request for the size with that flag is refused.

- `step_agrees_iff`: the one request;
- `avio_iff`: exactly the sequences of requests that the file answers as a file does.
-/

namespace Halmasuit.Decoder.Avio

open Lib Lib.File

/-! ## The callbacks -/

/-- `MAX_WALLPAPER_BYTES`. -/
def maxWallpaperBytes : Nat := 256 * 1024 * 1024

/-- The mapped file. `open_video_input` maps none that is larger. -/
structure Mmap where
  bytes : List UInt8
  le : bytes.length ≤ maxWallpaperBytes

/-- `AVERROR_EOF`, of libavutil. -/
def averrorEof : Int32 := -541478725

/-- `AVSEEK_SIZE` and `AVSEEK_FORCE`, of libavformat. -/
def avseekSize : Int32 := 0x10000

def avseekForce : Int32 := 0x20000

/-- `SEEK_SET`, `SEEK_CUR` and `SEEK_END`, of the C library. -/
def seekSet : Int32 := 0

def seekCur : Int32 := 1

def seekEnd : Int32 := 2

inductive Call where
  | read (size : Nat)
  | seek (offset : Int64) (whence : Int32)
  deriving DecidableEq, Repr

/-- What a callback leaves in the buffer and returns. -/
inductive Reply where
  | read (bytes : List UInt8) (ret : Int32)
  | seek (ret : Int64)
  deriving DecidableEq, Repr

/-- `read_cb`. -/
def readCb (wallpaper : Mmap) (c : Nat) (size : Nat) : Nat × Reply :=
  let avail := wallpaper.bytes.length - c
  if avail = 0 then (c, .read [] averrorEof)
  else
    let n := min avail size
    (c + n, .read ((wallpaper.bytes.drop c).take n)
      (if n ≤ Int32.maxValue.toInt.toNat then Int32.ofNat n else Int32.maxValue))

/-- `i64::checked_add`. -/
def checkedAdd (a b : Int64) : Option Int64 :=
  if Int64.minValue.toInt ≤ a.toInt + b.toInt ∧ a.toInt + b.toInt ≤ Int64.maxValue.toInt then
    some (a + b)
  else none

/-- The base of a seek. -/
def seekBase (total : Int64) (c : Nat) (whence : Int32) : Option Int64 :=
  if whence = seekSet then some 0
  else if whence = seekCur then some (Int64.ofNat c)
  else if whence = seekEnd then some total
  else none

/-- A seek by `offset` from `base`. -/
def seekFrom (total : Int64) (c : Nat) (base offset : Int64) : Nat × Reply :=
  match checkedAdd base offset with
  | none => (c, .seek (-1))
  | some newPos =>
    if newPos < 0 ∨ newPos > total then (c, .seek (-1)) else (newPos.toInt.toNat, .seek newPos)

/-- `seek_cb`. -/
def seekCb (wallpaper : Mmap) (c : Nat) (offset : Int64) (whence : Int32) : Nat × Reply :=
  let total := Int64.ofNat wallpaper.bytes.length
  if whence = avseekSize then (c, .seek total)
  else
    match seekBase total c (whence &&& ~~~avseekForce) with
    | none => (c, .seek (-1))
    | some base => seekFrom total c base offset

/-- The callbacks, with the cursor they share. -/
def step (wallpaper : Mmap) (c : Nat) : Call → Nat × List Reply
  | .read size => ((readCb wallpaper c size).1, [(readCb wallpaper c size).2])
  | .seek offset whence =>
    ((seekCb wallpaper c offset whence).1, [(seekCb wallpaper c offset whence).2])

/-! ## What they are to be -/

/-- What a call asks of the file. `AVSEEK_FORCE` says how hard to try, not what to do. -/
def Call.request : Call → Request
  | .read size => .read size
  | .seek offset whence =>
    let whence := whence &&& ~~~avseekForce
    if whence = avseekSize then .length
    else if whence = seekSet then .seek .start offset.toInt
    else if whence = seekCur then .seek .here offset.toInt
    else if whence = seekEnd then .seek .finish offset.toInt
    else .other

/-- An answer of the file, as a callback has to give it. -/
def encode : Call → Answer UInt8 → Reply
  | .read _, .data bytes => .read bytes (Int32.ofNat bytes.length)
  | .read _, _ => .read [] averrorEof
  | .seek _ _, .length n => .seek (Int64.ofNat n)
  | .seek _ _, .position pos => .seek (Int64.ofNat pos)
  | .seek _ _, _ => .seek (-1)

/-- The file, behind the interface of the callbacks. -/
def file {content : List UInt8} (p : Place content) (call : Call) : Place content × List Reply :=
  ((machine p call.request).1, (machine p call.request).2.map (encode call))

/-- **The claim on a sequence of calls**: at the end of every part of it the cursor is at the place
of the file, and the replies are the file's. -/
def Behaves (wallpaper : Mmap) (calls : List Call) : Prop :=
  ∀ pre, pre <+: calls →
    (run (step wallpaper) 0 pre).1 = (run file (start wallpaper.bytes) pre).1.pos ∧
    (run (step wallpaper) 0 pre).2 = (run file (start wallpaper.bytes) pre).2

/-- The request for the size, with the flag. -/
def Call.forcesSize : Call → Bool
  | .read _ => false
  | .seek _ whence => whence == avseekSize ||| avseekForce

/-! ## One call -/

theorem toInt_ofNat_length {wallpaper : Mmap} {n : Nat} (h : n ≤ wallpaper.bytes.length) :
    (Int64.ofNat n).toInt = n := by
  have hle := wallpaper.le
  unfold maxWallpaperBytes at hle
  exact Int64.toInt_ofNat_of_lt (by omega)

/-- What is left of a `whence` without the flag. -/
theorem and_not_force_eq_size {whence : Int32} :
    whence &&& ~~~avseekForce = avseekSize ↔
      whence = avseekSize ∨ whence = avseekSize ||| avseekForce := by
  constructor
  · intro h
    have hsplit : whence = (whence &&& ~~~avseekForce) ||| (whence &&& avseekForce) := by
      apply Int32.toBitVec_inj.mp
      ext i hi
      simp only [Int32.toBitVec_or, Int32.toBitVec_and, Int32.toBitVec_not, BitVec.getElem_or,
        BitVec.getElem_and, BitVec.getElem_not]
      cases whence.toBitVec[i] <;> cases avseekForce.toBitVec[i] <;> rfl
    have hbit : whence &&& avseekForce = 0 ∨ whence &&& avseekForce = avseekForce := by
      have hforce : avseekForce.toBitVec = BitVec.twoPow 32 17 := by decide
      rw [← Int32.toBitVec_inj, ← Int32.toBitVec_inj, Int32.toBitVec_and, hforce,
        BitVec.and_twoPow]
      split
      · exact .inr rfl
      · exact .inl rfl
    rw [h] at hsplit
    rcases hbit with hb | hb
    · rw [hb] at hsplit
      exact .inl (hsplit.trans (by decide))
    · rw [hb] at hsplit
      exact .inr hsplit
  · rintro (rfl | rfl) <;> decide

/-- A read is one of the file. -/
theorem step_read {wallpaper : Mmap} (p : Place wallpaper.bytes) (size : Nat) :
    step wallpaper p.pos (.read size)
      = ((file p (.read size)).1.pos, (file p (.read size)).2) := by
  have hle := wallpaper.le
  have hp := p.le
  unfold maxWallpaperBytes at hle
  simp only [step, readCb, file, Call.request, machine]
  by_cases hend : p.pos = wallpaper.bytes.length
  · simp [hend, encode]
  · have hpos : wallpaper.bytes.length - p.pos ≠ 0 := by omega
    have hmin : min (wallpaper.bytes.length - p.pos) size ≤ Int32.maxValue.toInt.toNat := by
      have hmax : Int32.maxValue.toInt.toNat = 2147483647 := by decide
      omega
    have htake : (wallpaper.bytes.drop p.pos).take (min (wallpaper.bytes.length - p.pos) size)
        = (wallpaper.bytes.drop p.pos).take size := by
      rw [List.take_eq_take_iff, List.length_drop]
      omega
    simp only [if_neg hpos, if_neg hend, if_pos hmin, htake, Place.advance, List.map_cons,
      List.map_nil, encode, List.length_take, List.length_drop]
    rw [Nat.min_comm size]

/-- A seek from a place of the file. -/
theorem seekFrom_eq {wallpaper : Mmap} (c : Nat) {base : Nat}
    (hbase : base ≤ wallpaper.bytes.length) (offset : Int64) :
    seekFrom (Int64.ofNat wallpaper.bytes.length) c (Int64.ofNat base) offset =
      match place? wallpaper.bytes (base + offset.toInt) with
      | some q => (q.pos, .seek (Int64.ofNat q.pos))
      | none => (c, .seek (-1)) := by
  have hle := wallpaper.le
  unfold maxWallpaperBytes at hle
  have hb := toInt_ofNat_length hbase
  have ht := toInt_ofNat_length (Nat.le_refl wallpaper.bytes.length)
  have hmin : Int64.minValue.toInt = -9223372036854775808 := by decide
  have hmax : Int64.maxValue.toInt = 9223372036854775807 := by decide
  unfold seekFrom checkedAdd
  rw [hb, hmin, hmax]
  split_ifs with hadd
  · have hsum : (Int64.ofNat base + offset).toInt = base + offset.toInt := by
      rw [Int64.toInt_add, hb]
      exact Int.bmod_eq_of_le (by omega) (by omega)
    have hcond : (Int64.ofNat base + offset < 0 ∨
        Int64.ofNat base + offset > Int64.ofNat wallpaper.bytes.length) ↔
        base + offset.toInt < 0 ∨ (wallpaper.bytes.length : Int) < base + offset.toInt := by
      rw [gt_iff_lt, Int64.lt_iff_toInt_lt, Int64.lt_iff_toInt_lt, hsum, ht]
      rfl
    dsimp only
    cases hq : place? wallpaper.bytes (base + offset.toInt) with
    | none => rw [if_pos (hcond.mpr (place?_eq_none.mp hq))]
    | some q =>
      have hpos := place?_eq_some.mp hq
      have hqle := q.le
      rw [if_neg (fun h => by have := hcond.mp h; omega)]
      have hval : Int64.ofNat base + offset = Int64.ofNat q.pos := by
        rw [← Int64.toInt_inj, hsum, toInt_ofNat_length hqle, hpos]
      rw [hval, toInt_ofNat_length hqle]
      simp
  · have hnone : place? wallpaper.bytes (base + offset.toInt) = none := by
      rw [place?_eq_none]
      have := Int64.toInt_lt offset
      have := Int64.le_toInt offset
      omega
    rw [hnone]

theorem request_length (offset : Int64) {whence : Int32}
    (h : whence &&& ~~~avseekForce = avseekSize) :
    Call.request (.seek offset whence) = .length := by
  simp only [Call.request, if_pos h]

theorem file_seek {wallpaper : Mmap} (p : Place wallpaper.bytes) {offset : Int64} {whence : Int32}
    {w : Whence} (hreq : Call.request (.seek offset whence) = .seek w offset.toInt) :
    ((file p (.seek offset whence)).1.pos, (file p (.seek offset whence)).2) =
      match place? wallpaper.bytes (w.base p + offset.toInt) with
      | some q => (q.pos, [.seek (Int64.ofNat q.pos)])
      | none => (p.pos, [.seek (-1)]) := by
  simp only [file, hreq, machine]
  cases place? wallpaper.bytes (w.base p + offset.toInt) <;> rfl

/-- The base of a seek is that of the file. -/
theorem seekCb_from {wallpaper : Mmap} (p : Place wallpaper.bytes) {offset : Int64}
    {whence : Int32} (w : Whence) (hsize : whence ≠ avseekSize)
    (hbase : seekBase (Int64.ofNat wallpaper.bytes.length) p.pos (whence &&& ~~~avseekForce)
      = some (Int64.ofNat (w.base p)))
    (hreq : Call.request (.seek offset whence) = .seek w offset.toInt) :
    step wallpaper p.pos (.seek offset whence)
      = ((file p (.seek offset whence)).1.pos, (file p (.seek offset whence)).2) := by
  have hle : w.base p ≤ wallpaper.bytes.length := by
    cases w with
    | start => exact Nat.zero_le _
    | here => exact p.le
    | finish => exact Nat.le_refl _
  rw [file_seek p hreq]
  simp only [step, seekCb, if_neg hsize, hbase, seekFrom_eq p.pos hle]
  cases place? wallpaper.bytes (w.base p + offset.toInt) <;> rfl

/-- A seek is one of the file, unless it asks for the size by force. -/
theorem step_seek {wallpaper : Mmap} (p : Place wallpaper.bytes) (offset : Int64) {whence : Int32}
    (h : whence ≠ avseekSize ||| avseekForce) :
    step wallpaper p.pos (.seek offset whence)
      = ((file p (.seek offset whence)).1.pos, (file p (.seek offset whence)).2) := by
  rcases eq_or_ne whence avseekSize with rfl | hsize
  · have hreq := request_length offset (and_not_force_eq_size.mpr (.inl rfl))
    simp only [step, seekCb, file, hreq, if_pos, machine, List.map_cons, List.map_nil, encode]
  · have hno : whence &&& ~~~avseekForce ≠ avseekSize := by
      intro heq
      rcases and_not_force_eq_size.mp heq with h' | h'
      · exact hsize h'
      · exact h h'
    by_cases hset : whence &&& ~~~avseekForce = seekSet
    · exact seekCb_from p .start hsize (if_pos hset) (by
        simp only [Call.request, if_neg hno, if_pos hset])
    by_cases hcur : whence &&& ~~~avseekForce = seekCur
    · exact seekCb_from p .here hsize
        (by simp only [seekBase, if_neg hset, if_pos hcur, Whence.base])
        (by simp only [Call.request, if_neg hno, if_neg hset, if_pos hcur])
    by_cases hend : whence &&& ~~~avseekForce = seekEnd
    · exact seekCb_from p .finish hsize
        (by simp only [seekBase, if_neg hset, if_neg hcur, if_pos hend, Whence.base])
        (by simp only [Call.request, if_neg hno, if_neg hset, if_neg hcur, if_pos hend])
    · simp only [step, seekCb, file, Call.request, seekBase, machine, if_neg hsize, if_neg hno,
        if_neg hset, if_neg hcur, if_neg hend, List.map_cons, List.map_nil, encode]

/-- **One call.** The callbacks differ from the file on the one request. -/
theorem step_agrees_iff {wallpaper : Mmap} (p : Place wallpaper.bytes) (call : Call) :
    ((step wallpaper p.pos call).2 = (file p call).2 ↔ call.forcesSize = false) ∧
      (call.forcesSize = false → (step wallpaper p.pos call).1 = (file p call).1.pos) := by
  cases call with
  | read size =>
    rw [step_read]
    exact ⟨iff_of_true rfl rfl, fun _ => rfl⟩
  | seek offset whence =>
    simp only [Call.forcesSize, beq_eq_false_iff_ne]
    rcases eq_or_ne whence (avseekSize ||| avseekForce) with rfl | h
    · refine ⟨iff_of_false ?_ (by simp), fun h => absurd rfl h⟩
      have hreq := request_length offset (and_not_force_eq_size.mpr (.inr rfl))
      have hcode : (step wallpaper p.pos (.seek offset (avseekSize ||| avseekForce))).2
          = [.seek (-1)] := rfl
      intro heq
      simp only [hcode, file, hreq, machine, List.map_cons, List.map_nil, encode,
        List.cons.injEq, Reply.seek.injEq, and_true] at heq
      have hval := congrArg Int64.toInt heq
      rw [toInt_ofNat_length (Nat.le_refl _)] at hval
      have hneg : (-1 : Int64).toInt = -1 := by decide
      omega
    · rw [step_seek p offset h]
      exact ⟨iff_of_true rfl h, fun _ => rfl⟩

/-! ## Sequences of calls -/

/-- **The callbacks are the file, call after call, exactly if no call asks for the size with
`AVSEEK_FORCE`.** -/
theorem avio_iff (wallpaper : Mmap) (calls : List Call) :
    Behaves wallpaper calls ↔ ∀ call ∈ calls, call.forcesSize = false := by
  rw [← along_const_iff calls 0]
  exact run_refines_iff (fun c p => c = p.pos)
    (fun _ p call h => h ▸ (step_agrees_iff p call).2)
    (fun _ p call h => h ▸ (step_agrees_iff p call).1) calls 0 (start wallpaper.bytes) rfl

/-- Eleven bytes. -/
def shortFile : Mmap := ⟨[0, 1, 2, 3, 4, 5, 6, 7, 8, 9, 10], by decide⟩

/-- The size of the file, asked for with the flag: the callback refuses. -/
theorem forced_size_is_refused :
    (step shortFile 0 (.seek 0 0x30000)).2 = [.seek (-1)] ∧
      ¬ ∀ wallpaper calls, Behaves wallpaper calls := by
  refine ⟨by decide, fun h => ?_⟩
  have hpre := (h shortFile [.seek 0 0x30000] [.seek 0 0x30000] (by simp)).2
  revert hpre
  decide

end Halmasuit.Decoder.Avio
