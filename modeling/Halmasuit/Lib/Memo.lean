import Mathlib.Data.Option.Basic

/-!
# A cache of one value

A value that is made of a key and an input is kept, and is used again as long as the key is the
same, whatever the input is by then. `origin` is the key and the input that the value was made of.

- `fetch_made`: what is kept is what was made of the origin;
- `fetch_fresh_iff`: what is used is what would be made now exactly if the origin, where the key is
  the same, makes the same as the input that is there now.
-/

namespace Halmasuit.Lib.Memo

variable {κ ι β : Type} (make : κ → ι → Option β)

/-- What is kept was made of this. -/
inductive Made : Option (κ × β) → Option (κ × ι) → Prop
  | empty : Made none none
  | kept {k : κ} {i : ι} {b : β} (h : make k i = some b) : Made (some (k, b)) (some (k, i))

theorem Made.exists_value {make : κ → ι → Option β} {cell : Option (κ × β)} {k : κ} {i : ι}
    (h : Made make cell (some (k, i))) : ∃ b, make k i = some b := by
  cases h with
  | kept hb => exact ⟨_, hb⟩

variable [DecidableEq κ]

/-- The value for the key, and whose it is. It is made if the one that is kept has another key. -/
def fetch (cell : Option (κ × β)) (k : κ) (i : ι) : Option (κ × β) :=
  match cell with
  | some e => if e.1 = k then some e else (make k i).map (k, ·)
  | none => (make k i).map (k, ·)

/-- What the value that is kept then was made of. -/
def origin (o : Option (κ × ι)) (k : κ) (i : ι) : κ × ι :=
  match o with
  | some o => if o.1 = k then o else (k, i)
  | none => (k, i)

variable {make} {cell : Option (κ × β)} {o : Option (κ × ι)} {k : κ} {i : ι} {e : κ × β}

theorem fetch_key (h : fetch make cell k i = some e) : e.1 = k := by
  unfold fetch at h
  split at h
  · split at h
    · obtain rfl := Option.some.inj h
      assumption
    · obtain ⟨b, -, rfl⟩ := Option.map_eq_some_iff.mp h
      rfl
  · obtain ⟨b, -, rfl⟩ := Option.map_eq_some_iff.mp h
    rfl

/-- A value that is fetched stays, with its origin. -/
theorem fetch_made (hmade : Made make cell o) (h : fetch make cell k i = some e) :
    Made make (some e) (some (origin o k i)) := by
  cases hmade with
  | empty =>
    obtain ⟨b, hb, rfl⟩ := Option.map_eq_some_iff.mp h
    exact .kept hb
  | @kept k' i' b' hb' =>
    unfold fetch at h
    unfold origin
    by_cases hk : k' = k
    · simp only [hk, if_true, Option.some.injEq] at h ⊢
      subst h hk
      exact .kept hb'
    · simp only [hk, if_false] at h ⊢
      obtain ⟨b, hb, rfl⟩ := Option.map_eq_some_iff.mp h
      exact .kept hb

/-- **The value is the one of now exactly if its origin makes the same.** -/
theorem fetch_fresh_iff (hmade : Made make cell o) (h : fetch make cell k i = some e) :
    make k i = some e.2 ↔ ∀ i', o = some (k, i') → make k i' = make k i := by
  cases hmade with
  | empty =>
    obtain ⟨b, hb, rfl⟩ := Option.map_eq_some_iff.mp h
    exact iff_of_true hb (by simp)
  | @kept k' i' b' hb' =>
    unfold fetch at h
    by_cases hk : k' = k
    · simp only [hk, if_true, Option.some.injEq] at h
      subst h hk
      simp only [Option.some.injEq, Prod.mk.injEq, true_and, forall_eq', hb']
      exact eq_comm
    · simp only [hk, if_false] at h
      obtain ⟨b, hb, rfl⟩ := Option.map_eq_some_iff.mp h
      exact iff_of_true hb (by simp [hk])

/-- A key whose value is kept is not made again. -/
theorem fetch_none (hmade : Made make cell o) (h : fetch make cell k i = none) (i' : ι) :
    o ≠ some (k, i') := by
  rintro rfl
  cases hmade with
  | kept hb => simp [fetch] at h

end Halmasuit.Lib.Memo
