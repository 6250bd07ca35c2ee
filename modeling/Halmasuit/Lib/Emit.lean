import Mathlib.Data.List.Basic

/-!
# Computations that emit events and can fail

`Emit ε err α` is a finished computation: the events it emitted, in order, and its result. Binding
is `?`: the first failure ends the computation, and the events before it stay.

- `bind_result_ok`: a sequence succeeds when each of its parts does.
- `bind_events`: the events of a sequence.
- `mem_bind`: one event of a sequence.
- `forall_bind`: what holds of the events of the parts holds of the whole.
- `Leads.bind`: a partial reader of events that follows the parts follows the whole.
-/

namespace Halmasuit.Lib

/-- A computation, run: what it emitted and what it returned. -/
structure Emit (ε err α : Type) where
  events : List ε
  result : Except err α

namespace Emit

variable {ε err α β : Type}

/-- Emit one event. -/
def tell (e : ε) : Emit ε err Unit := ⟨[e], .ok ()⟩

/-- Fail without an event. -/
def fail (e : err) : Emit ε err α := ⟨[], .error e⟩

/-- A result without an event. -/
def lift (r : Except err α) : Emit ε err α := ⟨[], r⟩

instance : Monad (Emit ε err) where
  pure a := ⟨[], .ok a⟩
  bind x f :=
    match x.result with
    | .ok a => ⟨x.events ++ (f a).events, (f a).result⟩
    | .error e => ⟨x.events, .error e⟩

@[simp] theorem pure_events (a : α) : (pure a : Emit ε err α).events = [] := rfl
@[simp] theorem pure_result (a : α) : (pure a : Emit ε err α).result = .ok a := rfl
@[simp] theorem tell_events (e : ε) : (tell e : Emit ε err Unit).events = [e] := rfl
@[simp] theorem tell_result (e : ε) : (tell e : Emit ε err Unit).result = .ok () := rfl
@[simp] theorem fail_events (e : err) : (fail e : Emit ε err α).events = [] := rfl
@[simp] theorem fail_result (e : err) : (fail e : Emit ε err α).result = .error e := rfl
@[simp] theorem lift_events (r : Except err α) : (lift r : Emit ε err α).events = [] := rfl
@[simp] theorem lift_result (r : Except err α) : (lift r : Emit ε err α).result = r := rfl

theorem bind_of_ok {x : Emit ε err α} {a : α} (h : x.result = .ok a) (f : α → Emit ε err β) :
    x >>= f = ⟨x.events ++ (f a).events, (f a).result⟩ := by
  simp only [bind, h]

theorem bind_of_error {x : Emit ε err α} {e : err} (h : x.result = .error e)
    (f : α → Emit ε err β) : x >>= f = ⟨x.events, .error e⟩ := by
  simp only [bind, h]

/-- The events of a sequence are those of its first part, then those of the rest if it gets
there. -/
theorem bind_events (x : Emit ε err α) (f : α → Emit ε err β) :
    (∃ a, x.result = .ok a ∧ (x >>= f).events = x.events ++ (f a).events) ∨
    (∃ e, x.result = .error e ∧ (x >>= f).events = x.events ∧ (x >>= f).result = .error e) := by
  cases h : x.result with
  | ok a => exact .inl ⟨a, rfl, by rw [bind_of_ok h]⟩
  | error e => exact .inr ⟨e, rfl, by rw [bind_of_error h], by rw [bind_of_error h]⟩

/-- A sequence succeeds when both its parts do. -/
theorem bind_result_ok {x : Emit ε err α} {f : α → Emit ε err β} {b : β} :
    (x >>= f).result = .ok b ↔ ∃ a, x.result = .ok a ∧ (f a).result = .ok b := by
  cases h : x.result with
  | ok a =>
    rw [bind_of_ok h]
    simp
  | error e =>
    rw [bind_of_error h]
    simp

/-- An event of a sequence is one of its first part, or one of the rest that was reached. -/
theorem mem_bind {x : Emit ε err α} {f : α → Emit ε err β} {e : ε} :
    e ∈ (x >>= f).events ↔ e ∈ x.events ∨ ∃ a, x.result = .ok a ∧ e ∈ (f a).events := by
  cases h : x.result with
  | ok a =>
    rw [bind_of_ok h]
    simp
  | error err =>
    rw [bind_of_error h]
    simp

/-- What holds of every event of the parts holds of every event of the sequence. -/
theorem forall_bind {P : ε → Prop} {x : Emit ε err α} {f : α → Emit ε err β}
    (hx : ∀ e ∈ x.events, P e) (hf : ∀ a, ∀ e ∈ (f a).events, P e) :
    ∀ e ∈ (x >>= f).events, P e := by
  rcases bind_events x f with ⟨a, -, h⟩ | ⟨e, -, h, -⟩
  · rw [h]
    intro e he
    rcases List.mem_append.mp he with he | he
    · exact hx e he
    · exact hf a e he
  · rw [h]
    exact hx

/-! ## Reading the events -/

variable {σ : Type}

/-- Where a partial reader of events gets from a place. -/
def readAll (next : σ → ε → Option σ) : σ → List ε → Option σ
  | p, [] => some p
  | p, e :: es => (next p e).bind fun p' => readAll next p' es

theorem readAll_append (next : σ → ε → Option σ) (p : σ) (es es' : List ε) :
    readAll next p (es ++ es') = (readAll next p es).bind fun p' => readAll next p' es' := by
  induction es generalizing p with
  | nil => rfl
  | cons e es ih =>
    simp only [List.cons_append, readAll]
    cases next p e with
    | none => rfl
    | some p' => exact ih p'

/-- The reader follows the computation from `p`: to `q` when it succeeds, and to a place in `E` when
it fails. -/
structure Leads (next : σ → ε → Option σ) (E : σ → Prop) (p : σ) (x : Emit ε err α) (q : σ) :
    Prop where
  ok : ∀ a, x.result = .ok a → readAll next p x.events = some q
  error : ∀ e, x.result = .error e → ∃ p', readAll next p x.events = some p' ∧ E p'

section
variable {next : σ → ε → Option σ} {E : σ → Prop} {p q r : σ}

theorem Leads.bind {x : Emit ε err α} {f : α → Emit ε err β} (hx : Leads next E p x q)
    (hf : ∀ a, Leads next E q (f a) r) : Leads next E p (x >>= f) r := by
  cases h : x.result with
  | ok a =>
    rw [bind_of_ok h]
    have hread : readAll next p (x.events ++ (f a).events) = readAll next q (f a).events := by
      rw [readAll_append, hx.ok a h, Option.bind_some]
    constructor
    · intro b hb
      rw [hread]
      exact (hf a).ok b hb
    · intro e he
      rw [hread]
      exact (hf a).error e he
  | error e =>
    rw [bind_of_error h]
    constructor
    · intro b hb
      cases hb
    · intro e' _
      exact hx.error e h

theorem leads_of_ok {x : Emit ε err α} {a : α} (h : x.result = .ok a)
    (hr : readAll next p x.events = some q) : Leads next E p x q := by
  constructor
  · intro _ _
    exact hr
  · intro e he
    rw [h] at he
    cases he

theorem leads_of_error {x : Emit ε err α} {e : err} (h : x.result = .error e)
    (hr : readAll next p x.events = some r) (hE : E r) : Leads next E p x q := by
  constructor
  · intro a ha
    rw [h] at ha
    cases ha
  · intro _ _
    exact ⟨r, hr, hE⟩

/-- A computation without events stays where it is. -/
theorem leads_of_events_nil {x : Emit ε err α} (hx : x.events = []) (hp : E p) :
    Leads next E p x p := by
  constructor
  · intro a _
    rw [hx]
    rfl
  · intro e _
    rw [hx]
    exact ⟨p, rfl, hp⟩

end

end Emit

end Halmasuit.Lib
