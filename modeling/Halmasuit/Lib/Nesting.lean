import Mathlib.Data.List.Induction
import Mathlib.Order.MinMax

/-!
# Counting brackets

A `Reader` goes through a text, is in some context at each place, and sees the brackets in some of
the contexts only. `depth` is the nesting of the brackets that it has seen, where a closing bracket
without an opening one does not count, and `peak` is the deepest nesting so far.

`guards_iff` compares two readers of one text: when a bound on the peak of the one is a bound on the
peak of the other, for every part of the text with any number of opening brackets behind it.
-/

namespace Halmasuit.Lib.Nesting

/-- A reader of the brackets `o` and `c`. An opening bracket does not change whether the next one is
seen. -/
structure Reader {α : Type} (o c : α) (σ : Type) where
  start : σ
  next : σ → α → σ
  sees : σ → Bool
  sees_opening : ∀ s, sees (next s o) = sees s

/-- A place in a text. -/
structure Place (σ : Type) where
  context : σ
  depth : Nat
  peak : Nat

theorem prefix_append_replicate {α : Type} {o : α} {t t' : List α} {k : Nat}
    (h : t' <+: t ++ List.replicate k o) :
    t' <+: t ∨ ∃ j ≤ k, t' = t ++ List.replicate j o := by
  rcases List.prefix_or_prefix_of_prefix h (List.prefix_append t _) with hle | ⟨rest, rfl⟩
  · exact .inl hle
  · have hrest := List.prefix_replicate_iff.mp ((List.prefix_append_right_inj t).mp h)
    exact .inr ⟨rest.length, hrest.1, by rw [← hrest.2]⟩

variable {α σ : Type} [DecidableEq α] {o c : α}

namespace Reader

/-- The nesting after a character. -/
def nest (R : Reader o c σ) (s : σ) (depth : Nat) (x : α) : Nat :=
  if R.sees s = true then
    if x = o then depth + 1
    else if x = c then depth - 1
    else depth
  else depth

def step (R : Reader o c σ) (p : Place σ) (x : α) : Place σ :=
  let depth := R.nest p.context p.depth x
  ⟨R.next p.context x, depth, max p.peak depth⟩

/-- The place at the end of a text. -/
def run (R : Reader o c σ) (t : List α) : Place σ := t.foldl R.step ⟨R.start, 0, 0⟩

variable (R : Reader o c σ)

@[simp] theorem step_context (p : Place σ) (x : α) :
    (R.step p x).context = R.next p.context x := rfl

@[simp] theorem step_depth (p : Place σ) (x : α) :
    (R.step p x).depth = R.nest p.context p.depth x := rfl

@[simp] theorem step_peak (p : Place σ) (x : α) :
    (R.step p x).peak = max p.peak (R.nest p.context p.depth x) := rfl

theorem run_append (t t' : List α) : R.run (t ++ t') = t'.foldl R.step (R.run t) :=
  List.foldl_append

theorem run_concat (t : List α) (x : α) : R.run (t ++ [x]) = R.step (R.run t) x := by
  rw [run_append]
  rfl

theorem nest_unseen {s : σ} (h : R.sees s = false) (depth : Nat) (x : α) :
    R.nest s depth x = depth := by
  rw [nest, h, if_neg Bool.false_ne_true]

theorem nest_opening {s : σ} (h : R.sees s = true) (depth : Nat) :
    R.nest s depth o = depth + 1 := by
  rw [nest, if_pos h, if_pos rfl]

theorem nest_other {s : σ} (depth : Nat) {x : α} (ho : x ≠ o) (hc : x ≠ c) :
    R.nest s depth x = depth := by
  unfold nest
  rw [if_neg ho, if_neg hc, ite_self]

theorem nest_le (s : σ) (depth : Nat) (x : α) : R.nest s depth x ≤ depth + 1 := by
  unfold nest
  split_ifs <;> omega

/-- A nesting that is deeper is by an opening bracket that is seen. -/
theorem opening_of_lt_nest {s : σ} {depth : Nat} {x : α} (h : depth < R.nest s depth x) :
    R.sees s = true ∧ x = o := by
  unfold nest at h
  split_ifs at h with hs ho hc
  · exact ⟨hs, ho⟩
  · omega
  · omega
  · omega

theorem depth_le_peak (t : List α) : (R.run t).depth ≤ (R.run t).peak := by
  rcases t.eq_nil_or_concat with rfl | ⟨t, x, rfl⟩
  · exact Nat.le_refl 0
  · rw [List.concat_eq_append, run_concat]
    exact Nat.le_max_right _ _

theorem peak_le_foldl (p : Place σ) (t : List α) : p.peak ≤ (t.foldl R.step p).peak := by
  induction t generalizing p with
  | nil => exact Nat.le_refl _
  | cons x t ih => exact Nat.le_trans (Nat.le_max_left _ _) (ih (R.step p x))

theorem peak_le_of_prefix {t t' : List α} (h : t <+: t') : (R.run t).peak ≤ (R.run t').peak := by
  obtain ⟨rest, rfl⟩ := h
  rw [run_append]
  exact R.peak_le_foldl _ _

/-- A nesting beyond a bound was reached with an opening bracket that took it there. -/
theorem exists_prefix_of_lt_peak {B : Nat} {t : List α} (h : B < (R.run t).peak) :
    ∃ t', t' <+: t ∧ R.sees (R.run t').context = true ∧ (R.run t').depth = B + 1 := by
  induction t using List.reverseRecOn with
  | nil => exact absurd h (Nat.not_lt_zero B)
  | append_singleton t x ih =>
    by_cases hB : B < (R.run t).peak
    · obtain ⟨t', ht', hplace⟩ := ih hB
      exact ⟨t', ht'.trans (List.prefix_append t [x]), hplace⟩
    · have hle := Nat.le_trans (R.depth_le_peak t) (Nat.le_of_not_lt hB)
      have hstep := R.nest_le (R.run t).context (R.run t).depth x
      have hnew : B < R.nest (R.run t).context (R.run t).depth x := by
        rw [run_concat] at h
        exact (lt_max_iff.mp h).resolve_left hB
      obtain ⟨hsees, rfl⟩ := R.opening_of_lt_nest (Nat.lt_of_le_of_lt hle hnew)
      refine ⟨_, List.prefix_refl _, ?_, ?_⟩
      · rw [run_concat, step_context, R.sees_opening, hsees]
      · rw [run_concat, step_depth]
        omega

/-- Opening brackets behind a text: all of them are seen, or none. -/
theorem run_replicate (t : List α) (k : Nat) :
    R.sees (R.run (t ++ List.replicate k o)).context = R.sees (R.run t).context ∧
      if R.sees (R.run t).context = true then
        (R.run (t ++ List.replicate k o)).depth = (R.run t).depth + k
      else (R.run (t ++ List.replicate k o)).peak = (R.run t).peak := by
  induction k with
  | zero => simp
  | succ k ih =>
    obtain ⟨hsees, hplace⟩ := ih
    rw [List.replicate_succ', ← List.append_assoc, run_concat]
    refine ⟨by rw [step_context, R.sees_opening, hsees], ?_⟩
    split_ifs at hplace ⊢ with hs
    · rw [step_depth, R.nest_opening (hsees.trans hs), hplace]
      rfl
    · rw [step_peak, R.nest_unseen (hsees.trans (eq_false_of_ne_true hs)),
        max_eq_left (R.depth_le_peak _), hplace]

theorem depth_replicate {t : List α} (h : R.sees (R.run t).context = true) (k : Nat) :
    (R.run (t ++ List.replicate k o)).depth = (R.run t).depth + k := by
  have hplace := (R.run_replicate t k).2
  rwa [if_pos h] at hplace

end Reader

/-- With opening brackets behind a text, a nesting beyond a bound is one in the text, or the
brackets are seen and are enough of them. -/
theorem Reader.lt_peak_replicate (R : Reader o c σ) {t : List α} {B k : Nat}
    (h : B < (R.run (t ++ List.replicate k o)).peak) :
    B < (R.run t).peak ∨ ∃ j ≤ k, R.sees (R.run t).context = true ∧ (R.run t).depth + j = B + 1 := by
  obtain ⟨t', ht', hsees, hdepth⟩ := R.exists_prefix_of_lt_peak h
  rcases prefix_append_replicate ht' with hle | ⟨j, hj, rfl⟩
  · have hpeak := Nat.le_trans (R.depth_le_peak t') (R.peak_le_of_prefix hle)
    exact .inl (by omega)
  · rw [(R.run_replicate t j).1] at hsees
    rw [R.depth_replicate hsees] at hdepth
    exact .inr ⟨j, hj, hsees, hdepth⟩

/-! ## One reader as the guard of another -/

section
variable {τ : Type} (G : Reader o c σ) (K : Reader o c τ) (size : List α → Nat) (L B : Nat)

/-- The guard takes a text that is not too long and, for it, not too deep. -/
def Accepts (t : List α) : Prop := size t ≤ L ∧ (G.run t).peak ≤ B

/-- What the guard takes is not too deep for the other. -/
def Guarded (t : List α) : Prop := Accepts G size L B t → (K.run t).peak ≤ B

/-- The guard sees the next opening bracket if the other does, and is as deep as the other; or there
is no room for the brackets that the other lacks, or the guard has had enough. -/
def Covered (t : List α) : Prop :=
  K.sees (K.run t).context = true →
    B < (G.run t).peak ∨ L < size t + (B + 1 - (K.run t).depth) ∨
      (G.sees (G.run t).context = true ∧ (K.run t).depth ≤ (G.run t).depth)

variable {G K size L B}

theorem covered_of_guarded (hsize : ∀ t k, size (t ++ List.replicate k o) = size t + k)
    {t : List α} (h : ∀ k, Guarded G K size L B (t ++ List.replicate k o)) :
    Covered G K size L B t := by
  intro hsees
  by_cases hB : B < (G.run t).peak
  · exact .inl hB
  by_cases hL : L < size t + (B + 1 - (K.run t).depth)
  · exact .inr (.inl hL)
  refine .inr (.inr ?_)
  have hdeep : B < (K.run (t ++ List.replicate (B + 1 - (K.run t).depth) o)).peak := by
    have hle := K.depth_le_peak (t ++ List.replicate (B + 1 - (K.run t).depth) o)
    rw [K.depth_replicate hsees] at hle
    omega
  have hpeak : B < (G.run (t ++ List.replicate (B + 1 - (K.run t).depth) o)).peak := by
    by_contra hle
    have hroom := hsize t (B + 1 - (K.run t).depth)
    have hbound := h (B + 1 - (K.run t).depth) ⟨by omega, Nat.le_of_not_lt hle⟩
    omega
  have hdepthG := G.depth_le_peak t
  obtain ⟨j, hj, hseesG, hdepth⟩ := (G.lt_peak_replicate hpeak).resolve_left hB
  exact ⟨hseesG, by omega⟩

theorem guarded_of_covered (hsize : ∀ t k, size (t ++ List.replicate k o) = size t + k)
    (hmono : ∀ t t', t <+: t' → size t ≤ size t') {t : List α}
    (h : ∀ t', t' <+: t → Covered G K size L B t') (k : Nat) :
    Guarded G K size L B (t ++ List.replicate k o) := by
  rintro ⟨hL, hB⟩
  by_contra hdeep
  have hbefore := G.peak_le_of_prefix (List.prefix_append t (List.replicate k o))
  rcases K.lt_peak_replicate (Nat.lt_of_not_le hdeep) with hlt | ⟨j, hj, hsees, hdepth⟩
  · obtain ⟨t', ht', hsees, hdepth⟩ := K.exists_prefix_of_lt_peak hlt
    have hpeak := G.peak_le_of_prefix ht'
    have hle := hmono t' _ (ht'.trans (List.prefix_append t (List.replicate k o)))
    have hdepthG := G.depth_le_peak t'
    rcases h t' ht' hsees with hG | hroom | ⟨-, hcount⟩ <;> omega
  · rcases h t (List.prefix_refl t) hsees with hG | hroom | ⟨hseesG, hcount⟩
    · omega
    · have hroom' := hsize t k
      omega
    · have hpeak := G.depth_le_peak (t ++ List.replicate k o)
      rw [G.depth_replicate hseesG] at hpeak
      omega

/-- **Guards.** Of a text, each part with any number of opening brackets behind it is guarded exactly
if each part is covered. -/
theorem guards_iff (hsize : ∀ t k, size (t ++ List.replicate k o) = size t + k)
    (hmono : ∀ t t', t <+: t' → size t ≤ size t') (t : List α) :
    (∀ t' k, t' <+: t → Guarded G K size L B (t' ++ List.replicate k o)) ↔
      ∀ t', t' <+: t → Covered G K size L B t' := by
  constructor
  · intro h t' ht'
    exact covered_of_guarded hsize fun k => h t' k ht'
  · intro h t' k ht'
    exact guarded_of_covered hsize hmono (fun t'' ht'' => h t'' (ht''.trans ht')) k

end

end Halmasuit.Lib.Nesting
