import Mathlib.Data.List.Induction
import Mathlib.Data.Nat.Log
import Halmasuit.Lib.Machine
import Halmasuit.Lib.Run

/-!
# The fault boundary

Model of `run_loop_iteration` and `should_log_degraded` (`halmasuit/src/main.rs` 4388–4460), which
the main loop (6033–6056) puts around each of its iterations, with the counter that it keeps for
them. An iteration that fails or panics is logged, and the loop goes on. A fault that stays comes
back at the speed of the CPU, so not all of it is logged.

The addition to the counter is outside of `catch_unwind`. Where it overflows, a build that checks
panics there, which ends the process; the release is built without the check.

- **`outlives_iff`**: which runs the process outlives;
- **`faults_logged`**: a fault of `n` iterations has at most `n` and about `log2 n` lines, and the
  first iteration after it says that there were `n`.
-/

namespace Halmasuit.Compositor.Supervision

open Halmasuit.Lib
open Halmasuit.Lib.Machine

/-- How the body of an iteration ends. -/
inductive Outcome where
  | done
  | failed (error : String)
  | panicked
  deriving DecidableEq, Repr

/-- The body did not end well. -/
def Outcome.fails : Outcome → Bool
  | .done => false
  | _ => true

/-- A line of the journal. -/
inductive Line where
  | recovered (suppressed : Nat)
  | dispatchError (error : String) (consecutive : Nat)
  | iterationPanicked (consecutive : Nat)
  deriving DecidableEq, Repr

/-- `should_log_degraded`. -/
def shouldLogDegraded (n : Nat) : Bool := decide (n ≤ 5) || decide n.isPowerOfTwo

/-- `*consecutive_errors += 1`, and the line for the new count. -/
def degrade (build : Build) (consecutiveErrors : Nat) (line : Nat → Line) :
    Option Nat × Option Line :=
  match unsigned build UInt32.size (consecutiveErrors + 1) with
  | none => (none, none)
  | some n => (some n, if shouldLogDegraded n then some (line n) else none)

/-- `run_loop_iteration`: the counter after it, unless that ended the process, and what it logs. -/
def runLoopIteration (build : Build) (consecutiveErrors : Nat) :
    Outcome → Option Nat × Option Line
  | .done =>
    if consecutiveErrors ≠ 0 then (some 0, some (.recovered consecutiveErrors))
    else (some consecutiveErrors, none)
  | .failed error => degrade build consecutiveErrors (.dispatchError error)
  | .panicked => degrade build consecutiveErrors .iterationPanicked

/-- An iteration, with its line. -/
structure Turn where
  outcome : Outcome
  line : Option Line
  deriving DecidableEq, Repr

/-- One iteration of a process that is alive. -/
def step (build : Build) : Option Nat → Outcome → Option Nat × List Turn
  | none, _ => (none, [])
  | some n, o => ((runLoopIteration build n o).1, [⟨o, (runLoopIteration build n o).2⟩])

/-! ## Iterations that fail in a row -/

/-- How many iterations failed since the last that did not. -/
def streak (os : List Outcome) : Nat := (os.reverse.takeWhile Outcome.fails).length

/-- The iterations that fail in a row are never so many that the counter overflows. -/
def Short (os : List Outcome) : Prop := ∀ pre, pre <+: os → streak pre < UInt32.size

@[simp] theorem streak_nil : streak [] = 0 := rfl

@[simp] theorem streak_snoc (os : List Outcome) (o : Outcome) :
    streak (os ++ [o]) = if o.fails then streak os + 1 else 0 := by
  unfold streak
  rw [List.reverse_append, List.reverse_singleton, List.singleton_append, List.takeWhile_cons]
  split <;> rfl

theorem streak_append {os fault : List Outcome} (h : ∀ o ∈ fault, o.fails = true) :
    streak (os ++ fault) = streak os + fault.length := by
  induction fault using List.reverseRecOn with
  | nil => simp
  | append_singleton fault o ih =>
    have hfault := ih fun o' ho' => h o' (List.mem_append_left _ ho')
    rw [← List.append_assoc, streak_snoc, if_pos (h o (by simp)), hfault, List.length_append]
    rfl

theorem short_nil : Short [] := by
  intro pre hpre
  rw [List.prefix_nil.mp hpre]
  decide

theorem short_snoc (os : List Outcome) (o : Outcome) :
    Short (os ++ [o]) ↔ Short os ∧ streak (os ++ [o]) < UInt32.size := by
  unfold Short
  constructor
  · intro h
    exact ⟨fun pre hpre => h pre (hpre.trans (List.prefix_append os [o])), h _ List.prefix_rfl⟩
  · rintro ⟨hos, ho⟩ pre hpre
    rcases List.prefix_concat_iff.mp hpre with rfl | hpre
    · exact ho
    · exact hos pre hpre

/-! ## The counter -/

section
variable {build : Build} {os : List Outcome} {o : Outcome}

theorem run_snoc (build : Build) (s : Option Nat) (os : List Outcome) (o : Outcome) :
    run (step build) s (os ++ [o]) = ((step build (run (step build) s os).1 o).1,
      (run (step build) s os).2 ++ (step build (run (step build) s os).1 o).2) := by
  simp [run_append, run]

/-- The line of an iteration after `n` that failed. -/
def lineAfter (n : Nat) : Outcome → Option Line
  | .done => if n = 0 then none else some (.recovered n)
  | .failed error =>
    if shouldLogDegraded (n + 1) then some (.dispatchError error (n + 1)) else none
  | .panicked => if shouldLogDegraded (n + 1) then some (.iterationPanicked (n + 1)) else none

/-- An iteration counts, where the count fits. -/
theorem runLoopIteration_fits (build : Build) {n : Nat}
    (h : (if o.fails then n + 1 else 0) < UInt32.size) :
    runLoopIteration build n o = (some (if o.fails then n + 1 else 0), lineAfter n o) := by
  cases o with
  | done =>
    by_cases hn : n = 0
    · subst hn
      rfl
    · simp [runLoopIteration, lineAfter, Outcome.fails, hn]
  | failed error =>
    have hfit : unsigned build UInt32.size (n + 1) = some (n + 1) := unsigned_of_lt h
    simp [runLoopIteration, degrade, hfit, lineAfter, Outcome.fails]
  | panicked =>
    have hfit : unsigned build UInt32.size (n + 1) = some (n + 1) := unsigned_of_lt h
    simp [runLoopIteration, degrade, hfit, lineAfter, Outcome.fails]

/-- A build that checks does not go on past the end of the counter. -/
theorem runLoopIteration_overflow {n : Nat}
    (h : ¬ (if o.fails then n + 1 else 0) < UInt32.size) :
    (runLoopIteration .checked n o).1 = none := by
  cases o with
  | done => exact absurd (by simp [Outcome.fails]) h
  | failed error =>
    have hover : unsigned .checked UInt32.size (n + 1) = none := if_neg h
    simp [runLoopIteration, degrade, hover]
  | panicked =>
    have hover : unsigned .checked UInt32.size (n + 1) = none := if_neg h
    simp [runLoopIteration, degrade, hover]

theorem runLoopIteration_wrapping (n : Nat) (o : Outcome) :
    (runLoopIteration .wrapping n o).1.isSome = true := by
  cases o with
  | done =>
    unfold runLoopIteration
    dsimp only
    split <;> rfl
  | failed error => simp [runLoopIteration, degrade, unsigned_wrapping]
  | panicked => simp [runLoopIteration, degrade, unsigned_wrapping]

/-- What is right about an iteration, after the iterations before it. -/
def LineOk (pre : List Turn) (t : Turn) : Prop :=
  t.line = lineAfter (streak (pre.map Turn.outcome)) t.outcome

/-- Where the counter does not overflow, it counts, and the lines are about the count. -/
theorem run_short (build : Build) (h : Short os) :
    (run (step build) (some 0) os).1 = some (streak os) ∧
      (run (step build) (some 0) os).2.map Turn.outcome = os ∧
      Always LineOk (run (step build) (some 0) os).2 := by
  induction os using List.reverseRecOn with
  | nil => exact ⟨rfl, rfl, always_nil _⟩
  | append_singleton os o ih =>
    obtain ⟨hos, ho⟩ := (short_snoc os o).mp h
    obtain ⟨hcount, hmap, hlines⟩ := ih hos
    rw [streak_snoc] at ho
    have hstep : step build (some (streak os)) o =
        (some (streak (os ++ [o])), [⟨o, lineAfter (streak os) o⟩]) := by
      simp only [step, runLoopIteration_fits build ho, streak_snoc]
    rw [run_snoc, hcount, hstep]
    refine ⟨rfl, by rw [List.map_append, hmap]; rfl, hlines.snoc ?_⟩
    unfold LineOk
    rw [hmap]

/-- In a build that checks, the counter is gone after it overflowed. -/
theorem run_checked_none (h : ¬ Short os) : (run (step .checked) (some 0) os).1 = none := by
  induction os using List.reverseRecOn with
  | nil => exact absurd short_nil h
  | append_singleton os o ih =>
    rw [run_snoc]
    by_cases hos : Short os
    · have ho : ¬ streak (os ++ [o]) < UInt32.size := fun ho => h ((short_snoc os o).mpr ⟨hos, ho⟩)
      rw [streak_snoc] at ho
      rw [(run_short .checked hos).1]
      exact runLoopIteration_overflow ho
    · rw [ih hos]
      rfl

theorem run_wrapping_isSome (os : List Outcome) :
    (run (step .wrapping) (some 0) os).1.isSome = true := by
  induction os using List.reverseRecOn with
  | nil => rfl
  | append_singleton os o ih =>
    obtain ⟨n, hn⟩ := Option.isSome_iff_exists.mp ih
    rw [run_snoc, hn]
    exact runLoopIteration_wrapping n o

end

/-- **The process outlives its faults.** In a build that wraps it outlives every run; in one that
checks, exactly those in which never 2³² iterations in a row fail. -/
theorem outlives_iff (build : Build) (os : List Outcome) :
    (run (step build) (some 0) os).1.isSome = true ↔ (build = .checked → Short os) := by
  cases build with
  | wrapping => exact iff_of_true (run_wrapping_isSome os) (fun h => by cases h)
  | checked =>
    by_cases h : Short os
    · rw [(run_short .checked h).1]
      exact iff_of_true rfl fun _ => h
    · rw [run_checked_none h]
      exact iff_of_false (by decide) fun hno => h (hno rfl)

/-! ## How many lines a fault has -/

/-- The number of lines of a fault. -/
def degradedLines (n : Nat) : Nat := if n ≤ 4 then n else 3 + n.log2

/-- The logarithm grows at the powers of two. -/
theorem log2_succ {n : Nat} (hn : n ≠ 0) :
    (n + 1).log2 = if (n + 1).isPowerOfTwo then n.log2 + 1 else n.log2 := by
  obtain ⟨hle, hlt⟩ := (Nat.log2_eq_iff hn).mp rfl
  split
  · rename_i hpow
    obtain ⟨k, hk⟩ := hpow
    -- `n` lies below the power and at least at the one before
    have hk1 : n.log2 < k := (Nat.pow_lt_pow_iff_right (by decide : 1 < 2)).mp (by omega)
    have hk2 : k < n.log2 + 2 := by
      refine (Nat.pow_lt_pow_iff_right (by decide : 1 < 2)).mp ?_
      rw [← hk, Nat.pow_succ]
      omega
    obtain rfl : k = n.log2 + 1 := by omega
    rw [hk, Nat.log2_two_pow]
  · rename_i hpow
    refine (Nat.log2_eq_iff (Nat.succ_ne_zero n)).mpr ⟨by omega, ?_⟩
    exact Nat.lt_of_le_of_ne hlt fun heq => hpow ⟨_, heq⟩

theorem degradedLines_succ (n : Nat) :
    degradedLines (n + 1) = degradedLines n + if shouldLogDegraded (n + 1) then 1 else 0 := by
  unfold degradedLines shouldLogDegraded
  rcases Nat.lt_trichotomy n 4 with h | rfl | h
  · simp [Nat.succ_le_of_lt h, Nat.le_of_lt h, show n + 1 ≤ 5 by omega]
  · decide
  · have h5 : ¬ n + 1 ≤ 5 := by omega
    rw [if_neg (by omega), if_neg (by omega), log2_succ (by omega)]
    by_cases hpow : (n + 1).isPowerOfTwo <;> simp [h5, hpow, Nat.add_assoc]

/-- The turns with a line. -/
def logged (tr : List Turn) : List Turn := tr.filter (·.line.isSome)

/-- The line of an iteration that fails. -/
theorem lineAfter_isSome {o : Outcome} (h : o.fails = true) (n : Nat) :
    (lineAfter n o).isSome = shouldLogDegraded (n + 1) := by
  cases o with
  | done => cases h
  | _ =>
    unfold lineAfter
    cases shouldLogDegraded (n + 1) <;> rfl

theorem logged_length {pre fault : List Turn} (hpre : streak (pre.map Turn.outcome) = 0)
    (hfault : ∀ t ∈ fault, t.outcome.fails = true) (h : Always LineOk (pre ++ fault)) :
    (logged fault).length = degradedLines fault.length := by
  induction fault using List.reverseRecOn with
  | nil => rfl
  | append_singleton fault t ih =>
    have hfault' : ∀ t ∈ fault, t.outcome.fails = true := fun t ht =>
      hfault t (List.mem_append_left _ ht)
    rw [← List.append_assoc] at h
    have hline : LineOk (pre ++ fault) t := h.last
    unfold LineOk at hline
    rw [List.map_append, streak_append (by simpa using hfault'), hpre, Nat.zero_add,
      List.length_map] at hline
    have hsome : t.line.isSome = shouldLogDegraded (fault.length + 1) := by
      rw [hline]
      exact lineAfter_isSome (hfault t (by simp)) _
    rw [List.length_append, List.length_singleton, degradedLines_succ, ← ih hfault' h.of_append,
      logged, List.filter_append, List.length_append, ← hsome]
    cases hl : t.line <;> simp [logged, hl]

/-- What the journal has of a fault between `pre` and `post`. -/
structure FaultLogged (pre fault post : List Turn) : Prop where
  /-- The `k`-th iteration of the fault is the `k`-th in its line. -/
  lines : ∀ k t, fault[k]? = some t → t.line = lineAfter k t.outcome
  count : (logged fault).length = degradedLines fault.length
  /-- The end of the fault is told. -/
  recovered : ∀ t ∈ post.head?, t.outcome = .done →
    t.line = if fault = [] then none else some (.recovered fault.length)

/-- **A fault has few lines.** Where the counter does not overflow, every iteration of a run is
taken, and of the iterations that fail in a row after one that did not, or at the start, the first
four and about as many as the logarithm of their number have a line. -/
theorem faults_logged (build : Build) {os : List Outcome} (h : Short os) :
    (run (step build) (some 0) os).2.map Turn.outcome = os ∧
      ∀ pre fault post, (run (step build) (some 0) os).2 = pre ++ fault ++ post →
        (∀ t ∈ pre.getLast?, t.outcome = .done) → (∀ t ∈ fault, t.outcome.fails = true) →
        FaultLogged pre fault post := by
  obtain ⟨-, hmap, hlines⟩ := run_short build h
  refine ⟨hmap, fun pre fault post heq hlast hfault => ?_⟩
  rw [heq] at hlines
  have hpre : streak (pre.map Turn.outcome) = 0 := by
    rcases List.eq_nil_or_concat pre with rfl | ⟨pre', t, rfl⟩
    · rfl
    · have hdone : t.outcome = .done := hlast t (by simp)
      simp [hdone, Outcome.fails]
  -- the streak within the fault is the position in it
  have hstreak : ∀ part, (∀ t ∈ part, t ∈ fault) →
      streak ((pre ++ part).map Turn.outcome) = part.length := by
    intro part hpart
    rw [List.map_append, streak_append, hpre, Nat.zero_add, List.length_map]
    simpa using fun t ht => hfault t (hpart t ht)
  refine ⟨fun k t hk => ?_, logged_length hpre hfault hlines.of_append, fun t ht hdone => ?_⟩
  · obtain ⟨hlt, rfl⟩ := List.getElem?_eq_some_iff.mp hk
    have hsplit : pre ++ fault ++ post =
        (pre ++ fault.take k) ++ fault[k] :: (fault.drop (k + 1) ++ post) := by
      rw [List.append_assoc, List.append_assoc, ← List.cons_append, List.getElem_cons_drop,
        ← List.append_assoc (fault.take k), List.take_append_drop]
    have hline : LineOk (pre ++ fault.take k) fault[k] := hlines _ _ _ hsplit
    rw [LineOk, hstreak _ fun t ht => List.mem_of_mem_take ht, List.length_take,
      Nat.min_eq_left (Nat.le_of_lt hlt)] at hline
    exact hline
  · cases post with
    | nil => cases ht
    | cons t' post =>
      obtain rfl : t' = t := Option.some.inj ht
      have hline : LineOk (pre ++ fault) t' := hlines _ _ _ rfl
      rw [LineOk, hstreak _ fun _ ht => ht, hdone] at hline
      rw [hline]
      cases fault <;> rfl

/-- Six failures have five lines, and the sixth is told when they are over. -/
theorem faults_logged_six :
    let os := List.replicate 6 Outcome.panicked ++ [.done]
    ∃ fault t, (run (step .wrapping) (some 0) os).2 = [] ++ fault ++ [t] ∧
      FaultLogged [] fault [t] ∧ (logged fault).length = 5 ∧ t.line = some (.recovered 6) := by
  intro os
  have hshort : Short os := by
    intro pre hpre
    have hlen : pre.length ≤ 7 := hpre.length_le
    have hle : streak pre ≤ pre.length := by
      unfold streak
      exact (List.takeWhile_sublist _).length_le.trans (by simp)
    have h7 : 7 < UInt32.size := by decide
    omega
  have h := (faults_logged .wrapping hshort).2 [] ((run (step .wrapping) (some 0) os).2.take 6)
    [⟨.done, some (.recovered 6)⟩] (by decide) (by simp) (by decide)
  exact ⟨_, _, by decide, h, by decide, rfl⟩

end Halmasuit.Compositor.Supervision
