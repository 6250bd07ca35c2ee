import Mathlib.Data.List.Basic

/-!
# A timeline

Elements one after the other, each for a time of its own: the first has the times from 0 on, and
each other those after the one before it.

- `at?_eq_some`: what is on at a time is the element whose interval it is in;
- `at?_isSome`: something is on exactly at the times before the end;
- `at?_between`: what is on at two times is on between them.
-/

namespace Halmasuit.Lib.Timeline

section
variable {α : Type} (w : α → Nat)

/-- How long the elements take. -/
def total : List α → Nat
  | [] => 0
  | x :: xs => w x + total xs

/-- The element that is on at `t`. -/
def at? : Nat → List α → Option α
  | _, [] => none
  | t, x :: xs => if t < w x then some x else at? (t - w x) xs

@[simp]
theorem total_nil : total w [] = 0 := rfl

@[simp]
theorem total_cons (x : α) (xs : List α) : total w (x :: xs) = w x + total w xs := rfl

/-- The interval of `x` contains `t`. -/
def OnAt (xs : List α) (t : Nat) (x : α) : Prop :=
  ∃ before after, xs = before ++ x :: after ∧ total w before ≤ t ∧ t < total w before + w x

variable {w} {xs : List α} {t : Nat} {x : α}

/-- **What is on is the element whose interval contains the time.** -/
theorem at?_eq_some : at? w t xs = some x ↔ OnAt w xs t x := by
  induction xs generalizing t with
  | nil => simp [at?, OnAt]
  | cons y ys ih =>
    rw [at?]
    split
    · rename_i hlt
      constructor
      · rintro h
        obtain rfl := Option.some.inj h
        exact ⟨[], ys, rfl, Nat.zero_le _, by simpa using hlt⟩
      · rintro ⟨before, after, hxs, hle, -⟩
        cases before with
        | nil => rw [(List.cons.inj hxs).1]
        | cons z before =>
          obtain ⟨rfl, -⟩ := List.cons.inj hxs
          rw [total_cons] at hle
          omega
    · rename_i hge
      rw [ih]
      constructor
      · rintro ⟨before, after, rfl, hle, hlt⟩
        exact ⟨y :: before, after, rfl, by rw [total_cons]; omega, by rw [total_cons]; omega⟩
      · rintro ⟨before, after, hxs, hle, hlt⟩
        cases before with
        | nil =>
          obtain ⟨rfl, -⟩ := List.cons.inj hxs
          rw [total_nil] at hlt
          omega
        | cons z before =>
          obtain ⟨rfl, rfl⟩ := List.cons.inj hxs
          rw [total_cons] at hle hlt
          exact ⟨before, after, rfl, by omega, by omega⟩

theorem at?_isSome : (at? w t xs).isSome = true ↔ t < total w xs := by
  induction xs generalizing t with
  | nil => simp [at?]
  | cons y ys ih =>
    rw [at?, total_cons]
    split
    · simp only [Option.isSome_some, true_iff]
      omega
    · rw [ih]
      omega

theorem mem_of_at? (h : at? w t xs = some x) : x ∈ xs := by
  obtain ⟨before, after, rfl, -, -⟩ := at?_eq_some.mp h
  simp

/-- An element that is on at two times is on between them, and they are less than its own time
apart. -/
theorem at?_between (hnodup : xs.Nodup) {a b : Nat} (ha : at? w a xs = some x)
    (hb : at? w b xs = some x) (hat : a ≤ t) (htb : t ≤ b) :
    at? w t xs = some x ∧ b < a + w x := by
  induction xs generalizing a b t with
  | nil => cases ha
  | cons y ys ih =>
    obtain ⟨hy, hys⟩ := List.nodup_cons.mp hnodup
    rw [at?] at ha hb ⊢
    by_cases hay : a < w y
    · rw [if_pos hay] at ha
      obtain rfl := Option.some.inj ha
      by_cases hby : b < w y
      · exact ⟨if_pos (Nat.lt_of_le_of_lt htb hby), by omega⟩
      · rw [if_neg hby] at hb
        exact absurd (mem_of_at? hb) hy
    · rw [if_neg hay] at ha
      rw [if_neg (by omega)] at hb ⊢
      obtain ⟨ht, hlt⟩ := @ih (t - w y) hys _ _ ha hb (by omega) (by omega)
      exact ⟨ht, by omega⟩

end

end Halmasuit.Lib.Timeline
