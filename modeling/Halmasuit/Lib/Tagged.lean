import Halmasuit.Lib.Framing
import Halmasuit.Lib.Json

/-!
# Tagged messages behind a length prefix

A message type with its serialiser and deserialiser is a `Codec`: the deserialiser takes back what
the serialiser writes. A `Tagged` codec writes an object that starts with a tag of its own, and
refuses every other tag; it is how one channel carries several message types.

- `Codec.tryDecode_append`, `Codec.tryDecode_part`, `Codec.run_receive`: a frame is read back
  whatever follows it, no part of it is read, and a stream of frames is read wherever it is cut;
- `Tagged.refuses_toVec`: a codec reads nothing another one wrote if their tags are disjoint.
-/

namespace Halmasuit.Lib

open Framing (CodecError)

/-- A serialised form of the messages `α`, with its law. -/
structure Codec (α : Type) where
  toVec : α → List UInt8
  fromSlice : List UInt8 → Option α
  fromSlice_toVec : ∀ m, fromSlice (toVec m) = some m

/-- A serialised form whose messages are objects with the member `key` in front, its value one of
`tags`. -/
structure Tagged (key : String) (α : Type) extends Codec α where
  tags : List String
  tagged : ∀ m, ∃ tag ∈ tags, ∃ ms,
    toVec m = Json.object ((key, Json.string tag) :: ms)
  refuses : ∀ tag ∉ tags, ∀ ms, fromSlice (Json.object ((key, Json.string tag) :: ms)) = none

section
variable {α : Type} {max : Nat} (C : Codec α)

/-- A frame is read back, whatever follows it. -/
theorem Codec.tryDecode_append {m : α} {bs : List UInt8}
    (h : Framing.encode max (C.toVec m) = .ok bs) (tail : List UInt8) :
    Framing.tryDecode max C.fromSlice (bs ++ tail) = .ok (some (m, bs.length)) :=
  Framing.tryDecode_encode h (C.fromSlice_toVec m) tail

/-- A proper part of a frame is not read yet. -/
theorem Codec.tryDecode_part {m : α} {part rest : List UInt8} (hne : rest ≠ [])
    (h : Framing.encode max (C.toVec m) = .ok (part ++ rest)) :
    Framing.tryDecode max C.fromSlice part = .ok none :=
  Framing.tryDecode_short h rfl hne

/-- A stream of frames is read message by message, wherever it is cut. -/
theorem Codec.run_receive {ms : List α} {bss chunks : List (List UInt8)}
    (h : Framing.Frames max C.toVec ms bss) (hcut : chunks.flatten = bss.flatten) :
    run (Framing.receive max C.fromSlice) [] chunks = ([], ms) :=
  Framing.run_receive C.fromSlice_toVec chunks ms bss [] h hcut
    (by rw [Framing.tryDecode, if_pos (by decide)])

end

section
variable {key : String} {α β : Type} (A : Tagged key α) (B : Tagged key β)

/-- What one codec writes, another with tags of its own does not take. -/
theorem Tagged.refuses_toVec (h : List.Disjoint A.tags B.tags) (m : α) :
    B.fromSlice (A.toVec m) = none := by
  obtain ⟨tag, htag, ms, hvec⟩ := A.tagged m
  rw [hvec]
  exact B.refuses tag (h htag) ms

/-- A frame of one codec is an error to the other, whatever follows it. -/
theorem Tagged.tryDecode_other {max : Nat} (h : List.Disjoint A.tags B.tags) {m : α}
    {bs : List UInt8} (henc : Framing.encode max (A.toVec m) = .ok bs) (tail : List UInt8) :
    Framing.tryDecode max B.fromSlice (bs ++ tail) = .error .json :=
  Framing.tryDecode_refused henc (A.refuses_toVec B h m) tail

end

end Halmasuit.Lib
