import Mathlib.Data.List.Basic

/-!
# Runs of a machine that emits events

A machine is a step function from a state and an input to a state and the events the step
emitted. `run` folds it over a list of inputs and concatenates the events into the trace of the
run. `run_invariant` is the one induction: a relation between the state and the trace so far
that every step keeps holds at the end of every run, and `run_invariant_along` is the same for the
runs whose steps all meet a condition; `along_congr` says when two conditions are met by the same
runs. `run_ranked` is the rule for a machine whose states are those of a smaller one, with a rank
that bounds how often it moves, `run_refines_iff` the exact rule for a machine that is to give what
another one gives. `run_next_always_iff` is the exact rule for a safety property: it holds however a
run goes on, exactly if every step meets a condition.
-/

namespace Halmasuit.Lib

variable {σ ι ε : Type}

/-- The state and the trace after the inputs, in order. -/
def run (step : σ → ι → σ × List ε) : σ → List ι → σ × List ε
  | s, [] => (s, [])
  | s, i :: is => ((run step (step s i).1 is).1, (step s i).2 ++ (run step (step s i).1 is).2)

theorem run_append (step : σ → ι → σ × List ε) (is is' : List ι) : ∀ s : σ,
    run step s (is ++ is') = ((run step (run step s is).1 is').1,
      (run step s is).2 ++ (run step (run step s is).1 is').2) := by
  induction is with
  | nil => exact fun s => rfl
  | cons i is ih =>
    intro s
    simp [run, ih]

/-- **The invariant rule.** `Inv s tr` relates a state to everything emitted before it. -/
theorem run_invariant (Inv : σ → List ε → Prop) {step : σ → ι → σ × List ε}
    (hstep : ∀ s tr i, Inv s tr → Inv (step s i).1 (tr ++ (step s i).2)) :
    ∀ (is : List ι) (s : σ) (tr : List ε), Inv s tr →
      Inv (run step s is).1 (tr ++ (run step s is).2)
  | [], s, tr, h => by simpa [run] using h
  | i :: is, s, tr, h => by
    have ih := run_invariant Inv hstep is (step s i).1 (tr ++ (step s i).2) (hstep s tr i h)
    simpa [run] using ih

/-- The rule from the initial state, where nothing has been emitted. -/
theorem run_invariant_init (Inv : σ → List ε → Prop) {step : σ → ι → σ × List ε} {s₀ : σ}
    (h₀ : Inv s₀ []) (hstep : ∀ s tr i, Inv s tr → Inv (step s i).1 (tr ++ (step s i).2))
    (is : List ι) : Inv (run step s₀ is).1 (run step s₀ is).2 := by
  simpa using run_invariant Inv hstep is s₀ [] h₀

/-! ## Runs under a condition -/

/-- Every step of the run meets the condition, which reads the state before it and its input. -/
def Along (step : σ → ι → σ × List ε) (P : σ → ι → Prop) : σ → List ι → Prop
  | _, [] => True
  | s, i :: is => P s i ∧ Along step P (step s i).1 is

instance Along.decidable {step : σ → ι → σ × List ε} {P : σ → ι → Prop}
    [∀ s i, Decidable (P s i)] : ∀ s is, Decidable (Along step P s is)
  | _, [] => inferInstanceAs (Decidable True)
  | s, i :: is =>
    have : Decidable (Along step P (step s i).1 is) := Along.decidable _ _
    inferInstanceAs (Decidable (P s i ∧ _))

/-- The invariant rule for the runs whose steps meet a condition. -/
theorem run_invariant_along (Inv : σ → List ε → Prop) {step : σ → ι → σ × List ε}
    {P : σ → ι → Prop}
    (hstep : ∀ s tr i, P s i → Inv s tr → Inv (step s i).1 (tr ++ (step s i).2)) :
    ∀ (is : List ι) (s : σ) (tr : List ε), Along step P s is → Inv s tr →
      Inv (run step s is).1 (tr ++ (run step s is).2)
  | [], s, tr, _, h => by simpa [run] using h
  | i :: is, s, tr, hp, h => by
    have ih := run_invariant_along Inv hstep is (step s i).1 (tr ++ (step s i).2) hp.2
      (hstep s tr i hp.1 h)
    simpa [run] using ih

/-- The steps of a run, by what comes before each. -/
theorem along_iff_forall {step : σ → ι → σ × List ε} {P : σ → ι → Prop} (is : List ι) : ∀ s : σ,
    Along step P s is ↔ ∀ pre i post, is = pre ++ i :: post → P (run step s pre).1 i := by
  induction is with
  | nil =>
    intro s
    simp [Along]
  | cons i is ih =>
    intro s
    simp only [Along, ih]
    constructor
    · rintro ⟨hi, h⟩ pre j post heq
      cases pre with
      | nil =>
        obtain ⟨rfl, -⟩ := List.cons.inj heq
        exact hi
      | cons _ pre =>
        obtain ⟨rfl, hpost⟩ := List.cons.inj heq
        exact h pre j post hpost
    · intro h
      refine ⟨h [] i is rfl, fun pre j post heq => ?_⟩
      exact h (i :: pre) j post (by rw [heq]; rfl)

theorem along_append {step : σ → ι → σ × List ε} {P : σ → ι → Prop} (is is' : List ι) : ∀ s : σ,
    Along step P s (is ++ is') ↔ Along step P s is ∧ Along step P (run step s is).1 is' := by
  induction is with
  | nil =>
    intro s
    simp [Along, run]
  | cons i is ih =>
    intro s
    simp only [List.cons_append, Along, run, ih, and_assoc]

/-- The states of a run, by the inputs that lead to them. -/
theorem along_next_iff {step : σ → ι → σ × List ε} {Q : σ → Prop} (is : List ι) : ∀ s : σ,
    (∀ pre post, is = pre ++ post → Q (run step s pre).1) ↔
      Q s ∧ Along step (fun s i => Q (step s i).1) s is := by
  induction is with
  | nil =>
    intro s
    simp only [Along, and_true]
    refine ⟨fun h => h [] [] rfl, fun h pre post heq => ?_⟩
    obtain ⟨rfl, -⟩ := List.append_eq_nil_iff.mp heq.symm
    exact h
  | cons i is ih =>
    intro s
    simp only [Along, ← ih]
    constructor
    · intro h
      exact ⟨h [] (i :: is) rfl, fun pre post heq => h (i :: pre) post (by rw [heq]; rfl)⟩
    · rintro ⟨hs, h⟩ pre post heq
      cases pre with
      | nil => exact hs
      | cons _ pre =>
        obtain ⟨rfl, hpost⟩ := List.cons.inj heq
        exact h pre post hpost

/-- The events of a run, by the steps that emit them. -/
theorem along_events_iff {step : σ → ι → σ × List ε} {Q : ε → Prop} (is : List ι) : ∀ s : σ,
    (∀ e ∈ (run step s is).2, Q e) ↔ Along step (fun s i => ∀ e ∈ (step s i).2, Q e) s is := by
  induction is with
  | nil =>
    intro s
    simp [Along, run]
  | cons i is ih =>
    intro s
    simp only [run, Along, List.forall_mem_append, ih]

/-- **The equivalence rule.** Two conditions that agree on every state of an invariant, which steps
that meet the first keep, are met by the same runs. -/
theorem along_congr (Inv : σ → Prop) {step : σ → ι → σ × List ε} {P Q : σ → ι → Prop}
    (hiff : ∀ s i, Inv s → (P s i ↔ Q s i)) (hstep : ∀ s i, Inv s → P s i → Inv (step s i).1)
    (is : List ι) : ∀ s : σ, Inv s → (Along step P s is ↔ Along step Q s is) := by
  induction is with
  | nil => exact fun s _ => Iff.rfl
  | cons i is ih =>
    intro s hs
    constructor
    · rintro ⟨hi, his⟩
      exact ⟨(hiff s i hs).mp hi, (ih _ (hstep s i hs hi)).mp his⟩
    · rintro ⟨hi, his⟩
      have hp : P s i := (hiff s i hs).mpr hi
      exact ⟨hp, (ih _ (hstep s i hs hp)).mpr his⟩

/-! ## Conditions on the past -/

/-- The machine that carries its trace, for conditions that read what came before. -/
def recording (step : σ → ι → σ × List ε) (p : σ × List ε) (i : ι) : (σ × List ε) × List ε :=
  (((step p.1 i).1, p.2 ++ (step p.1 i).2), (step p.1 i).2)

theorem run_recording (step : σ → ι → σ × List ε) (is : List ι) : ∀ s tr,
    (run (recording step) (s, tr) is).2 = (run step s is).2 := by
  induction is with
  | nil => exact fun s tr => rfl
  | cons i is ih =>
    intro s tr
    simp only [run, recording, ih]

/-- The invariant rule for the runs whose steps meet a condition on the state and the trace so
far. -/
theorem run_invariant_recording (Inv : σ → List ε → Prop) {step : σ → ι → σ × List ε}
    {P : σ × List ε → ι → Prop}
    (hstep : ∀ s tr i, P (s, tr) i → Inv s tr → Inv (step s i).1 (tr ++ (step s i).2)) :
    ∀ (is : List ι) (s : σ) (tr : List ε), Along (recording step) P (s, tr) is → Inv s tr →
      Inv (run step s is).1 (tr ++ (run step s is).2)
  | [], s, tr, _, h => by simpa [run] using h
  | i :: is, s, tr, hp, h => by
    have ih := run_invariant_recording Inv hstep is (step s i).1 (tr ++ (step s i).2) hp.2
      (hstep s tr i hp.1 h)
    simpa [run] using ih

/-! ## Ranked simulation -/

/-- The number of inputs of a run that change the state. -/
def moves [DecidableEq σ] (step : σ → ι → σ × List ε) : σ → List ι → Nat
  | _, [] => 0
  | s, i :: is => (if (step s i).1 = s then 0 else 1) + moves step (step s i).1 is

/-- **Ranked simulation.** `rep a` is the state an abstract state stands for. When every step from
a represented state stays put or goes to one of smaller rank, and emits only events in `P`, a whole
run does, and no run moves more often than the rank it starts at. -/
theorem run_ranked [DecidableEq σ] {α : Type} (step : σ → ι → σ × List ε) (rep : α → σ)
    (Ok : α → Prop) (P : ε → Prop) (rank : α → Nat)
    (hstep : ∀ a i, Ok a → ∃ a', Ok a' ∧ (step (rep a) i).1 = rep a' ∧
      (∀ e ∈ (step (rep a) i).2, P e) ∧ (a' = a ∨ rank a' < rank a)) :
    ∀ (is : List ι) (a : α), Ok a → ∃ a', Ok a' ∧ (run step (rep a) is).1 = rep a' ∧
      (∀ e ∈ (run step (rep a) is).2, P e) ∧ moves step (rep a) is + rank a' ≤ rank a
  | [], a, h => ⟨a, h, rfl, by simp [run], by simp [moves]⟩
  | i :: is, a, h => by
    obtain ⟨a₁, h₁, heq, hev, hrank⟩ := hstep a i h
    obtain ⟨a', h', heq', hev', hrank'⟩ := run_ranked step rep Ok P rank hstep is a₁ h₁
    refine ⟨a', h', by simpa [run, heq] using heq', ?_, ?_⟩
    · intro e he
      simp only [run, heq, List.mem_append] at he
      exact he.elim (hev e) (hev' e)
    · simp only [moves, heq]
      rcases hrank with rfl | hlt
      · simpa using hrank'
      · split <;> omega

/-! ## Refinement -/

/-- **Refinement.** Where related states give equal events and go on to related states exactly on
the inputs with `P`, a run refines the other machine's all along exactly if its steps all meet
`P`. -/
theorem run_refines_iff {τ : Type} (R : σ → τ → Prop) {step : σ → ι → σ × List ε}
    {step' : τ → ι → τ × List ε} {P : σ → ι → Prop}
    (hkeep : ∀ s t i, R s t → P s i → R (step s i).1 (step' t i).1)
    (hiff : ∀ s t i, R s t → ((step s i).2 = (step' t i).2 ↔ P s i)) (is : List ι) :
    ∀ s t, R s t → ((∀ pre, pre <+: is → R (run step s pre).1 (run step' t pre).1 ∧
      (run step s pre).2 = (run step' t pre).2) ↔ Along step P s is) := by
  induction is with
  | nil =>
    intro s t h
    refine iff_of_true (fun pre hpre => ?_) trivial
    obtain rfl := List.prefix_nil.mp hpre
    exact ⟨h, rfl⟩
  | cons i is ih =>
    intro s t h
    constructor
    · intro hall
      have hone := (hall [i] (by simp)).2
      simp only [run, List.append_nil] at hone
      have hi : P s i := (hiff s t i h).mp hone
      refine ⟨hi, (ih _ _ (hkeep s t i h hi)).mp fun pre hpre => ?_⟩
      obtain ⟨hR, hev⟩ := hall (i :: pre) (List.cons_prefix_cons.mpr ⟨rfl, hpre⟩)
      refine ⟨hR, ?_⟩
      simp only [run, hone] at hev
      exact List.append_cancel_left hev
    · rintro ⟨hi, his⟩ pre hpre
      cases pre with
      | nil => exact ⟨h, rfl⟩
      | cons j pre =>
        obtain ⟨rfl, htail⟩ := List.cons_prefix_cons.mp hpre
        obtain ⟨hR, hev⟩ := (ih _ _ (hkeep s t j h hi)).mpr his pre htail
        refine ⟨hR, ?_⟩
        simp only [run, (hiff s t j h).mpr hi, hev]

/-- A condition on the inputs alone. -/
theorem along_const_iff {step : σ → ι → σ × List ε} {P : ι → Prop} (is : List ι) : ∀ s : σ,
    Along step (fun _ i => P i) s is ↔ ∀ i ∈ is, P i := by
  induction is with
  | nil =>
    intro s
    simp [Along]
  | cons i is ih =>
    intro s
    simp [Along, ih]

/-! ## Positions in a trace -/

/-- A split of `xs ++ ys` at an element lies in `xs` or in `ys`. -/
theorem split_append {xs ys pre post : List ε} {e : ε} (h : xs ++ ys = pre ++ e :: post) :
    (∃ post', xs = pre ++ e :: post' ∧ post = post' ++ ys) ∨
    (∃ pre', ys = pre' ++ e :: post ∧ pre = xs ++ pre') := by
  rcases List.append_eq_append_iff.mp h with ⟨as, rfl, rfl⟩ | ⟨bs, hx, hy⟩
  · exact .inr ⟨as, rfl, rfl⟩
  · cases bs with
    | nil => exact .inr ⟨[], by simpa using hy.symm, by simpa using hx.symm⟩
    | cons b bs =>
      simp only [List.cons_append, List.cons.injEq] at hy
      obtain ⟨rfl, rfl⟩ := hy
      exact .inl ⟨bs, hx, rfl⟩

/-- Every event is justified by the events before it. -/
def Always (Q : List ε → ε → Prop) (tr : List ε) : Prop :=
  ∀ pre e post, tr = pre ++ e :: post → Q pre e

theorem always_nil (Q : List ε → ε → Prop) : Always Q [] := by simp [Always]

theorem Always.append {Q : List ε → ε → Prop} {tr es : List ε} (h : Always Q tr)
    (hes : Always (fun pre e => Q (tr ++ pre) e) es) : Always Q (tr ++ es) := by
  intro pre e post heq
  rcases split_append heq with ⟨post', h1, -⟩ | ⟨pre', h1, rfl⟩
  · exact h pre e post' h1
  · exact hes pre' e post h1

theorem always_singleton {Q : List ε → ε → Prop} {e : ε} : Always Q [e] ↔ Q [] e := by
  refine ⟨fun h => h [] e [] rfl, ?_⟩
  intro h pre e' post heq
  cases pre with
  | nil =>
    obtain ⟨rfl, -⟩ := List.cons.inj heq
    exact h
  | cons _ pre => simp at heq

/-- One more event, justified by the trace it joins. -/
theorem Always.snoc {Q : List ε → ε → Prop} {tr : List ε} (h : Always Q tr) {e : ε}
    (he : Q tr e) : Always Q (tr ++ [e]) :=
  h.append (always_singleton.mpr (by simpa using he))

/-- What is justified in a trace is justified in its beginnings. -/
theorem Always.of_append {Q : List ε → ε → Prop} {tr es : List ε} (h : Always Q (tr ++ es)) :
    Always Q tr :=
  fun pre e post heq => h pre e (post ++ es) (by simp [heq])

/-- The last event of a justified trace. -/
theorem Always.last {Q : List ε → ε → Prop} {tr : List ε} {e : ε} (h : Always Q (tr ++ [e])) :
    Q tr e := h tr e [] rfl

theorem always_iff_getElem {Q : List ε → ε → Prop} {tr : List ε} :
    Always Q tr ↔ ∀ i, ∀ hi : i < tr.length, Q (tr.take i) (tr.get ⟨i, hi⟩) := by
  constructor
  · intro h i hi
    refine h _ _ (tr.drop (i + 1)) ?_
    rw [List.get_eq_getElem, List.getElem_cons_drop, List.take_append_drop]
  · rintro h pre e post rfl
    simpa using h pre.length (by simp)

instance (Q : List ε → ε → Prop) [∀ pre e, Decidable (Q pre e)] (tr : List ε) :
    Decidable (Always Q tr) := decidable_of_iff _ always_iff_getElem.symm

/-- A justification that does not read the trace. -/
theorem always_const_iff {P : ε → Prop} {tr : List ε} :
    Always (fun _ e => P e) tr ↔ ∀ e ∈ tr, P e := by
  constructor
  · intro h e he
    obtain ⟨pre, post, heq⟩ := List.append_of_mem he
    exact h pre e post heq
  · rintro h pre e post rfl
    exact h e (by simp)

/-- Events that need no justification. -/
theorem Always.append_of_forall {Q : List ε → ε → Prop} {tr es : List ε} (h : Always Q tr)
    (hes : ∀ e ∈ es, ∀ pre, Q pre e) : Always Q (tr ++ es) :=
  h.append fun pre e post heq => hes e (by simp [heq]) _

/-- **The equivalence rule for traces.** When a step's events are justified exactly if the step
meets a condition, the trace of a run is justified exactly if its steps all do. -/
theorem run_always_iff (Inv : σ → List ε → Prop) {step : σ → ι → σ × List ε}
    {Q : List ε → ε → Prop} {P : σ → ι → Prop}
    (hiff : ∀ s tr i, Inv s tr → Always Q tr → (Always Q (tr ++ (step s i).2) ↔ P s i))
    (hstep : ∀ s tr i, Inv s tr → P s i → Inv (step s i).1 (tr ++ (step s i).2)) (is : List ι) :
    ∀ s tr, Inv s tr → Always Q tr →
      (Always Q (tr ++ (run step s is).2) ↔ Along step P s is) := by
  induction is with
  | nil =>
    intro s tr _ hq
    simpa [run, Along] using hq
  | cons i is ih =>
    intro s tr hs hq
    simp only [run, Along, ← List.append_assoc]
    constructor
    · intro h
      have hi : P s i := (hiff s tr i hs hq).mp h.of_append
      exact ⟨hi, (ih _ _ (hstep s tr i hs hi) h.of_append).mp h⟩
    · rintro ⟨hi, his⟩
      exact (ih _ _ (hstep s tr i hs hi) ((hiff s tr i hs hq).mpr hi)).mpr his

/-- **The rule for safe runs.** When what comes next is justified in every state of an invariant
that the steps with `P` keep, and after a step without `P` something can come next that is not, then
what comes next is justified all along a run exactly if its steps all meet `P`. -/
theorem run_next_always_iff (Inv : σ → List ε → Prop) {step : σ → ι → σ × List ε}
    {Q : List ε → ε → Prop} {P : σ → ι → Prop}
    (hnext : ∀ s tr i, Inv s tr → Always Q (tr ++ (step s i).2))
    (hstep : ∀ s tr i, Inv s tr → P s i → Inv (step s i).1 (tr ++ (step s i).2))
    (hbreak : ∀ s tr i, Inv s tr → ¬ P s i →
      ∃ j, ¬ Always Q (tr ++ (step s i).2 ++ (step (step s i).1 j).2)) (is : List ι) :
    ∀ s tr, Inv s tr →
      ((∀ pre post, is = pre ++ post → ∀ j, Always Q (tr ++ (run step s (pre ++ [j])).2)) ↔
        Along step P s is) := by
  induction is with
  | nil =>
    intro s tr hs
    refine iff_of_true (fun pre post heq j => ?_) trivial
    obtain ⟨rfl, -⟩ := List.append_eq_nil_iff.mp heq.symm
    simpa [run] using hnext s tr j hs
  | cons i is ih =>
    intro s tr hs
    constructor
    · intro h
      have hi : P s i := by
        by_contra hi
        obtain ⟨j, hj⟩ := hbreak s tr i hs hi
        exact hj (by simpa [run] using h [i] is rfl j)
      refine ⟨hi, (ih _ _ (hstep s tr i hs hi)).mp fun pre post heq j => ?_⟩
      have := h (i :: pre) post (by rw [heq]; rfl) j
      rwa [List.cons_append, run, ← List.append_assoc] at this
    · rintro ⟨hi, his⟩ pre post heq j
      cases pre with
      | nil => simpa [run] using hnext s tr j hs
      | cons _ pre =>
        obtain ⟨rfl, hpost⟩ := List.cons.inj heq
        have := (ih _ _ (hstep s tr _ hs hi)).mpr his pre post hpost j
        rwa [List.cons_append, run, ← List.append_assoc]

/-- An event `p` occurred, and every later event satisfies `q`. -/
def Since (p q : ε → Prop) (tr : List ε) : Prop :=
  ∃ a e b, tr = a ++ e :: b ∧ p e ∧ ∀ e' ∈ b, q e'

theorem Since.append {p q : ε → Prop} {tr : List ε} (h : Since p q tr) {es : List ε}
    (hes : ∀ e ∈ es, q e) : Since p q (tr ++ es) := by
  obtain ⟨a, e, b, rfl, he, hb⟩ := h
  refine ⟨a, e, b ++ es, by simp, he, fun e' he' => ?_⟩
  rcases List.mem_append.mp he' with h' | h'
  · exact hb e' h'
  · exact hes e' h'

theorem Since.now {p q : ε → Prop} (tr : List ε) {e : ε} (he : p e) : Since p q (tr ++ [e]) :=
  ⟨tr, e, [], by simp, he, by simp⟩

end Halmasuit.Lib
