import Mathlib.Data.List.Basic

/-!
# A file that is read

The bytes of a file and a place in it (`Place`), which is never past the end. A read gives what is
left, at most as many bytes as are asked for, and goes on behind them; a seek goes to a place of the
file, or is refused and goes nowhere (`machine`).

`place?_eq_some`, `place?_eq_none`: the targets that are places.
-/

namespace Halmasuit.Lib.File

variable {α : Type} {content : List α}

/-- A place in the file. -/
@[ext]
structure Place (content : List α) where
  pos : Nat
  le : pos ≤ content.length

/-- What an offset counts from. -/
inductive Whence where
  | start
  | here
  | finish
  deriving DecidableEq, Repr

inductive Request where
  | read (size : Nat)
  | length
  | seek (whence : Whence) (offset : Int)
  /-- A request for something else. -/
  | other
  deriving DecidableEq, Repr

inductive Answer (α : Type) where
  | data (bytes : List α)
  | endOfFile
  | length (n : Nat)
  | position (pos : Nat)
  | refused
  deriving DecidableEq, Repr

/-- The beginning of the file. -/
def start (content : List α) : Place content := ⟨0, Nat.zero_le _⟩

def Whence.base (p : Place content) : Whence → Nat
  | .start => 0
  | .here => p.pos
  | .finish => content.length

/-- The place at `target`, if there is one. -/
def place? (content : List α) (target : Int) : Option (Place content) :=
  if h : 0 ≤ target ∧ target ≤ content.length then some ⟨target.toNat, by omega⟩ else none

theorem place?_eq_some {target : Int} {q : Place content} :
    place? content target = some q ↔ (q.pos : Int) = target := by
  unfold place?
  have hle := q.le
  split_ifs with h
  · rw [Option.some.injEq, Place.ext_iff]
    dsimp only
    omega
  · exact iff_of_false (by simp) (by omega)

theorem place?_eq_none {target : Int} :
    place? content target = none ↔ target < 0 ∨ content.length < target := by
  unfold place?
  split_ifs with h
  · exact iff_of_false (by simp) (by omega)
  · exact iff_of_true rfl (by omega)

/-- `n` bytes on, or at the end. -/
def Place.advance (p : Place content) (n : Nat) : Place content :=
  ⟨p.pos + min n (content.length - p.pos), by have := p.le; omega⟩

def machine (p : Place content) : Request → Place content × List (Answer α)
  | .read size =>
    if p.pos = content.length then (p, [.endOfFile])
    else (p.advance size, [.data ((content.drop p.pos).take size)])
  | .length => (p, [.length content.length])
  | .seek whence offset =>
    match place? content (whence.base p + offset) with
    | some q => (q, [.position q.pos])
    | none => (p, [.refused])
  | .other => (p, [.refused])

end Halmasuit.Lib.File
