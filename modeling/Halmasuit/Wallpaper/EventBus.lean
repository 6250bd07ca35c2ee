import Mathlib.Logic.Function.Basic
import Mathlib.Algebra.BigOperators.Group.Finset.Basic
import Mathlib.Algebra.BigOperators.Group.List.Basic
import Mathlib.Data.Fintype.BigOperators
import Halmasuit.Introspect.Event
import Halmasuit.Lib.Amortised
import Halmasuit.Wallpaper.Uniforms

/-!
# The bus of the events

How an event that some thread emits reaches the wallpaper: `emit` and `register_listener`
(`halmasuit-introspect/src/lib.rs` 487–557), `emit_phase` and `spawn_wallpaper_event_consumer`
(`halmasuit/src/main.rs` 3222–3232, 4006–4056), `notify_event` of the engine and its backends
(`wallpaper/mod.rs`, `wallpaper/backend.rs`), and the store of the phase (`dbus_compositor1.rs`
112–145).

A thread logs an event and then, as another step, hands it to the listeners under their lock. The
only listener sends it to the main loop, which takes one event at a time, tells the wallpaper, and
then emits an event of its own for every uniform that was written. Thread 0 is the one of the main
loop; a phase is entered by it.

* A closed channel, a poisoned lock and an event that does not serialise are left out.
* A step that is not possible changes nothing.

Results, for every interleaving of the threads:
* `bus_delivers`: what the wallpaper is told, and in which order; what is said of it in the journal.
* `bus_frames`: what a frame shows.
* `bus_settles`: the events that the wallpaper emits come to an end.
* `phase_agrees`: the phase that D-Bus tells is that of the journal.
-/

namespace Halmasuit.Wallpaper.Bus

open Halmasuit.Lib
open Halmasuit.Introspect
open Halmasuit.Wallpaper.Shader

/-! ## The process -/

variable {F : Type} {n : Nat}

/-- A `WallpaperBackend`. Those of an image and of a video have no uniforms, and keep the
`notify_event` that does nothing. -/
inductive Backend (F : Type) where
  | shader (s : ShaderBackend F)
  | other

/-- What a thread has still to do of an `emit` or an `emit_phase`. -/
inductive Work where
  | record (phase : Phase)
  | log (e : Event)
  | fanOut (e : Event)
  deriving DecidableEq, Repr

/-- The compositor, with `n` threads beside the one of the main loop. -/
structure Process (F : Type) (n : Nat) where
  /-- The backend of the engine of `drm_backend`. -/
  engine : Option (Backend F)
  /-- Whether the listener is in `LISTENERS`. -/
  registered : Bool
  channel : List Event
  work : Fin (n + 1) → List Work
  /-- `CURRENT_PHASE`. -/
  currentPhase : UInt32
  clock : Nat

/-- What a thread does, or what happens to it. -/
inductive Act (n : Nat) where
  | emit (t : Fin (n + 1)) (e : Event)
  | emitPhase (p : Phase)
  | work (t : Fin (n + 1))
  | register
  | consume (now : Nat)
  | render (now : Nat) (w h : Int)

/-- What is seen of the steps. `heard` says whether there was a listener. -/
inductive Obs (F : Type) (n : Nat) where
  | recorded (phase : Phase)
  | logged (t : Fin (n + 1)) (e : Event)
  | fannedOut (t : Fin (n + 1)) (e : Event) (heard : Bool)
  | consumed (e : Event) (now : Nat)
  | rendered (now : Nat) (w h : Int) (uniforms : List (String × UniformValue F))

/-- The steps of `emit`, for one event after the other. -/
def emitAll (es : List Event) : List Work := es.flatMap fun e => [.log e, .fanOut e]

/-- The steps of `emit_phase`. -/
def phaseWork (p : Phase) : List Work := .record p :: emitAll [.phaseEntered p]

/-- An event that is neither of the consumer nor of `emit_phase`. -/
def plain (e : Event) : Bool := !e.isMarker && e.phase?.isNone

variable (ops : F32 F)

/-- `event_value`. -/
def eventValue (e : Event) : F := if (canonicalName e).isSome then ops.one else ops.zero

/-- `notify_event` of a backend. -/
def Backend.notifyEvent (now : Nat) (eventName : String) (value : F) :
    Backend F → Backend F × List String
  | .shader s =>
    let r := s.notifyEvent ops now eventName value
    (.shader r.1, r.2)
  | .other => (.other, [])

/-- The callback of `spawn_wallpaper_event_consumer`: the backend, and the events to emit. -/
def consume (engine : Option (Backend F)) (e : Event) (now : Nat) :
    Option (Backend F) × List Event :=
  match canonicalName e, engine with
  | some eventName, some b =>
    let r := b.notifyEvent ops now eventName (eventValue ops e)
    (some r.1, r.2.map (.wallpaperUniformApplied eventName))
  | _, _ => (engine, [])

namespace Process

def start (engine : Option (Backend F)) (now : Nat) : Process F n where
  engine := engine
  registered := false
  channel := []
  work := fun _ => []
  currentPhase := 0
  clock := now

/-- The work of a thread that is not busy. -/
def begin (s : Process F n) (t : Fin (n + 1)) (ws : List Work) : Process F n :=
  if s.work t = [] then { s with work := Function.update s.work t ws } else s

/-- The next step of a thread. -/
def workStep (s : Process F n) (t : Fin (n + 1)) : Process F n × List (Obs F n) :=
  match s.work t with
  | [] => (s, [])
  | .record p :: ws =>
    ({ s with currentPhase := p.asU32, work := Function.update s.work t ws }, [.recorded p])
  | .log e :: ws => ({ s with work := Function.update s.work t ws }, [.logged t e])
  | .fanOut e :: ws =>
    ({ s with
        channel := if s.registered then s.channel ++ [e] else s.channel
        work := Function.update s.work t ws }, [.fannedOut t e s.registered])

def step (s : Process F n) : Act n → Process F n × List (Obs F n)
  | .emit t e => (if plain e then s.begin t (emitAll [e]) else s, [])
  | .emitPhase p => (s.begin 0 (phaseWork p), [])
  | .work t => s.workStep t
  | .register => ({ s with registered := true }, [])
  | .consume now =>
    match s.channel with
    | [] => (s, [])
    | e :: channel =>
      if s.work 0 = [] ∧ s.clock ≤ now then
        let r := consume ops s.engine e now
        ({ s with
            engine := r.1
            channel := channel
            work := Function.update s.work 0 (emitAll r.2)
            clock := now }, [.consumed e now])
      else (s, [])
  | .render now w h =>
    match s.engine with
    | some (.shader b) =>
      if s.work 0 = [] ∧ s.clock ≤ now then
        let r := b.renderElement ops now w h
        ({ s with engine := some (.shader r.1), clock := now }, [.rendered now w h r.2])
      else (s, [])
    | _ => (s, [])

/-- `current_phase_name`, what D-Bus tells. -/
def currentPhaseName (s : Process F n) : String :=
  match Phase.fromU32 s.currentPhase with
  | some p => p.name
  | none => "unknown"

/-- There is nothing left to do. -/
def Idle (s : Process F n) : Prop := s.channel = [] ∧ ∀ t, s.work t = []

end Process

/-- The work that an act begins. -/
def Act.begins : Act n → List Work
  | .emit _ e => emitAll [e]
  | .emitPhase p => phaseWork p
  | _ => []

/-- The uniforms of a wallpaper. -/
def bindingsOf : Option (Backend F) → List (Binding F)
  | some (.shader b) => b.bindings
  | _ => []

/-! ## What is seen -/

/-- The events that the listener got. -/
def heard (tr : List (Obs F n)) : List Event :=
  tr.filterMap fun
    | .fannedOut _ e true => some e
    | _ => none

/-- The events that the main loop took, with the times. -/
def consumed (tr : List (Obs F n)) : List (Event × Nat) :=
  tr.filterMap fun
    | .consumed e now => some (e, now)
    | _ => none

/-- What a thread logged. -/
def loggedBy (t : Fin (n + 1)) (tr : List (Obs F n)) : List Event :=
  tr.filterMap fun
    | .logged t' e => if t' = t then some e else none
    | _ => none

/-- What a thread handed to the listeners. -/
def fannedBy (t : Fin (n + 1)) (tr : List (Obs F n)) : List Event :=
  tr.filterMap fun
    | .fannedOut t' e _ => if t' = t then some e else none
    | _ => none

/-- What the journal says of uniforms. -/
def markersLogged (tr : List (Obs F n)) : List Event :=
  tr.filterMap fun
    | .logged _ e => if e.isMarker then some e else none
    | _ => none

/-- The phases of the journal. -/
def phasesLogged (tr : List (Obs F n)) : List Phase :=
  tr.filterMap fun
    | .logged _ e => e.phase?
    | _ => none

/-- The phases that were stored. -/
def recorded (tr : List (Obs F n)) : List Phase :=
  tr.filterMap fun
    | .recorded p => some p
    | _ => none

/-- The events for an event that the wallpaper is told. -/
def markersOf (bs : List (Binding F)) (e : Event) : List Event :=
  match canonicalName e with
  | some eventName => (watchers bs eventName).map (.wallpaperUniformApplied eventName)
  | none => []

/-- What the shader saw of it. -/
def seen (bs : List (Binding F)) (tr : List (Obs F n)) : List (Seen F) :=
  tr.filterMap fun
    | .consumed e now => (canonicalName e).map fun eventName =>
      .fired now eventName (eventValue ops e) (watchers bs eventName)
    | .rendered now w h uniforms => some (.frame now w h uniforms)
    | _ => none

@[simp] theorem heard_append (tr obs : List (Obs F n)) :
    heard (tr ++ obs) = heard tr ++ heard obs := List.filterMap_append

@[simp] theorem consumed_append (tr obs : List (Obs F n)) :
    consumed (tr ++ obs) = consumed tr ++ consumed obs := List.filterMap_append

@[simp] theorem markersLogged_append (tr obs : List (Obs F n)) :
    markersLogged (tr ++ obs) = markersLogged tr ++ markersLogged obs := List.filterMap_append

@[simp] theorem phasesLogged_append (tr obs : List (Obs F n)) :
    phasesLogged (tr ++ obs) = phasesLogged tr ++ phasesLogged obs := List.filterMap_append

@[simp] theorem recorded_append (tr obs : List (Obs F n)) :
    recorded (tr ++ obs) = recorded tr ++ recorded obs := List.filterMap_append

@[simp] theorem loggedBy_append (t : Fin (n + 1)) (tr obs : List (Obs F n)) :
    loggedBy t (tr ++ obs) = loggedBy t tr ++ loggedBy t obs := List.filterMap_append

@[simp] theorem fannedBy_append (t : Fin (n + 1)) (tr obs : List (Obs F n)) :
    fannedBy t (tr ++ obs) = fannedBy t tr ++ fannedBy t obs := List.filterMap_append

@[simp] theorem seen_append (bs : List (Binding F)) (tr obs : List (Obs F n)) :
    seen ops bs (tr ++ obs) = seen ops bs tr ++ seen ops bs obs := List.filterMap_append

/-! ## What a step can do -/

/-- What a thread that is not busy begins with. -/
inductive Begins : Fin (n + 1) → List Work → Prop where
  | emit (t : Fin (n + 1)) (e : Event) : plain e = true → Begins t (emitAll [e])
  | phase (p : Phase) : Begins 0 (phaseWork p)

/-- The steps that are possible, where `ws` may begin. -/
inductive Move (s : Process F n) : List Work → Process F n → List (Obs F n) → Prop where
  | idle (ws : List Work) : Move s ws s []
  | begin (t : Fin (n + 1)) (ws : List Work) : s.work t = [] → Begins t ws →
      Move s ws { s with work := Function.update s.work t ws } []
  | record (t : Fin (n + 1)) (p : Phase) (ws : List Work) : s.work t = .record p :: ws →
      Move s [] { s with currentPhase := p.asU32, work := Function.update s.work t ws }
        [.recorded p]
  | log (t : Fin (n + 1)) (e : Event) (ws : List Work) : s.work t = .log e :: ws →
      Move s [] { s with work := Function.update s.work t ws } [.logged t e]
  | fanOut (t : Fin (n + 1)) (e : Event) (ws : List Work) : s.work t = .fanOut e :: ws →
      Move s [] { s with
        channel := if s.registered then s.channel ++ [e] else s.channel
        work := Function.update s.work t ws } [.fannedOut t e s.registered]
  | register : Move s [] { s with registered := true } []
  | consume (e : Event) (channel : List Event) (now : Nat) : s.channel = e :: channel →
      s.work 0 = [] → s.clock ≤ now →
      Move s [] { s with
        engine := (Bus.consume ops s.engine e now).1
        channel := channel
        work := Function.update s.work 0 (emitAll (Bus.consume ops s.engine e now).2)
        clock := now } [.consumed e now]
  | render (b : ShaderBackend F) (now : Nat) (w h : Int) : s.engine = some (.shader b) →
      s.work 0 = [] → s.clock ≤ now →
      Move s [] { s with engine := some (.shader (b.renderElement ops now w h).1), clock := now }
        [.rendered now w h (b.renderElement ops now w h).2]

theorem begin_move (s : Process F n) {t : Fin (n + 1)} {ws : List Work} (h : Begins t ws) :
    Move ops s ws (s.begin t ws) [] := by
  unfold Process.begin
  by_cases hw : s.work t = []
  · rw [if_pos hw]
    exact .begin t ws hw h
  · rw [if_neg hw]
    exact .idle ws

theorem workStep_move (s : Process F n) (t : Fin (n + 1)) :
    Move ops s [] (s.workStep t).1 (s.workStep t).2 := by
  unfold Process.workStep
  split
  · exact .idle []
  · next p ws hw => exact .record t p ws hw
  · next e ws hw => exact .log t e ws hw
  · next e ws hw => exact .fanOut t e ws hw

/-- Every step is one of them. -/
theorem step_move (s : Process F n) (a : Act n) :
    Move ops s a.begins (s.step ops a).1 (s.step ops a).2 := by
  cases a with
  | emit t e =>
    simp only [Process.step]
    by_cases he : plain e = true
    · rw [if_pos he]
      exact begin_move ops s (.emit t e he)
    · rw [if_neg he]
      exact .idle _
  | emitPhase p => exact begin_move ops s (.phase p)
  | work t => exact workStep_move ops s t
  | register => exact .register
  | consume now =>
    simp only [Process.step]
    cases hc : s.channel with
    | nil => exact .idle []
    | cons e channel =>
      by_cases hg : s.work 0 = [] ∧ s.clock ≤ now
      · simp only [if_pos hg]
        exact .consume e channel now hc hg.1 hg.2
      · simp only [if_neg hg]
        exact .idle []
  | render now w h =>
    simp only [Process.step]
    split
    · next b hb =>
      by_cases hg : s.work 0 = [] ∧ s.clock ≤ now
      · simp only [if_pos hg]
        exact .render b now w h hb hg.1 hg.2
      · simp only [if_neg hg]
        exact .idle []
    · exact .idle []

variable {ops}

/-! ## The order of the events -/

/-- What was handed to the listener is taken in that order, once. -/
def InOrder (s : Process F n) (tr : List (Obs F n)) : Prop :=
  heard tr = (consumed tr).map Prod.fst ++ s.channel

theorem Move.inOrder {s s' : Process F n} {ws : List Work} {obs tr : List (Obs F n)}
    (hm : Move ops s ws s' obs) (h : InOrder s tr) : InOrder s' (tr ++ obs) := by
  unfold InOrder at h ⊢
  rw [heard_append, consumed_append, List.map_append, h]
  cases hm with
  | fanOut =>
    cases hr : s.registered with
    | true => simp [heard, consumed]
    | false => simp [heard, consumed]
  | consume e channel now hc => simp [heard, consumed, hc]
  | _ => simp [heard, consumed]

/-! ## What a thread has still to do -/

theorem plain_iff {e : Event} : plain e = true ↔ e.isMarker = false ∧ e.phase? = none := by
  simp [plain]

/-- Events of which none enters a phase. -/
def Phaseless (es : List Event) : Prop := ∀ e ∈ es, e.phase? = none

/-- Where a thread can be in its work. -/
inductive OnPlan : List Work → Prop where
  | rest (es : List Event) : Phaseless es → OnPlan (emitAll es)
  | sending (e : Event) (es : List Event) : Phaseless es → OnPlan (.fanOut e :: emitAll es)
  | entering (p : Phase) : OnPlan (phaseWork p)
  | entered (p : Phase) : OnPlan (emitAll [.phaseEntered p])

/-- The event that is logged and not yet handed on. -/
def inFlight : List Work → List Event
  | .fanOut e :: _ => [e]
  | _ => []

/-- The phase that is stored and not yet logged. -/
def due : List Work → List Phase
  | .log e :: _ => e.phase?.toList
  | _ => []

theorem emitAll_cons (e : Event) (es : List Event) :
    emitAll (e :: es) = .log e :: .fanOut e :: emitAll es := rfl

theorem Phaseless.due {es : List Event} (h : Phaseless es) : due (emitAll es) = [] := by
  cases es with
  | nil => rfl
  | cons e es => simp [emitAll_cons, Bus.due, h e (List.mem_cons_self ..)]

theorem inFlight_emitAll (es : List Event) : inFlight (emitAll es) = [] := by
  cases es <;> rfl

theorem OnPlan.after_record {p : Phase} {ws : List Work} (h : OnPlan (.record p :: ws)) :
    OnPlan ws ∧ inFlight ws = [] ∧ due ws = [p] := by
  generalize hv : Work.record p :: ws = v at h
  cases h with
  | rest es hes => cases es <;> cases hv
  | sending => cases hv
  | entering p' =>
    cases hv
    exact ⟨.entered p, rfl, rfl⟩
  | entered => cases hv

theorem OnPlan.after_log {e : Event} {ws : List Work} (h : OnPlan (.log e :: ws)) :
    OnPlan ws ∧ inFlight ws = [e] ∧ due ws = [] := by
  generalize hv : Work.log e :: ws = v at h
  cases h with
  | rest es hes =>
    cases es with
    | nil => cases hv
    | cons e' es =>
      cases hv
      exact ⟨.sending e es fun e' he' => hes e' (List.mem_cons_of_mem _ he'), rfl, rfl⟩
  | sending => cases hv
  | entering p' => cases hv
  | entered =>
    cases hv
    exact ⟨.sending _ [] (by simp [Phaseless]), rfl, rfl⟩

theorem OnPlan.after_fanOut {e : Event} {ws : List Work} (h : OnPlan (.fanOut e :: ws)) :
    OnPlan ws ∧ inFlight ws = [] ∧ due ws = [] := by
  generalize hv : Work.fanOut e :: ws = v at h
  cases h with
  | rest es hes => cases es <;> cases hv
  | sending _ es hes =>
    cases hv
    exact ⟨.rest es hes, inFlight_emitAll es, hes.due⟩
  | entering p' => cases hv
  | entered => cases hv

theorem Begins.onPlan {t : Fin (n + 1)} {ws : List Work} (h : Begins t ws) :
    OnPlan ws ∧ inFlight ws = [] ∧ due ws = [] := by
  cases h with
  | emit t e he =>
    have hphase : Phaseless [e] := by simpa [Phaseless] using (plain_iff.mp he).2
    exact ⟨.rest [e] hphase, rfl, hphase.due⟩
  | phase p => exact ⟨.entering p, rfl, rfl⟩

/-- What the consumer does. -/
theorem consume_spec (engine : Option (Backend F)) (e : Event) (now : Nat) :
    (consume ops engine e now).2 = markersOf (bindingsOf engine) e ∧
      bindingsOf (consume ops engine e now).1 = bindingsOf engine := by
  unfold consume markersOf
  cases hname : canonicalName e with
  | none => exact ⟨rfl, rfl⟩
  | some eventName =>
    rcases engine with _ | b | _
    · exact ⟨rfl, rfl⟩
    · exact ⟨congrArg _ (applyEvent_written _ _ _ _ _ _), rfl⟩
    · exact ⟨rfl, rfl⟩

theorem markersOf_marker (bs : List (Binding F)) (e : Event) :
    ∀ e' ∈ markersOf bs e, e'.isMarker = true ∧ e'.phase? = none := by
  unfold markersOf
  split
  · intro e' he'
    obtain ⟨u, -, rfl⟩ := List.mem_map.mp he'
    exact ⟨rfl, rfl⟩
  · simp

/-- The journal has an event before the listener does, and a thread does one after the other. -/
structure Threaded (s : Process F n) (tr : List (Obs F n)) : Prop where
  plan : ∀ t, OnPlan (s.work t)
  logged : ∀ t, loggedBy t tr = fannedBy t tr ++ inFlight (s.work t)

/-- One thread goes on. -/
theorem Threaded.update {s s' : Process F n} {tr : List (Obs F n)} (h : Threaded s tr)
    {t : Fin (n + 1)} {ws : List Work} (hs' : s'.work = Function.update s.work t ws)
    (hplan : OnPlan ws) {obs : List (Obs F n)}
    (hother : ∀ t' ≠ t, loggedBy t' obs = [] ∧ fannedBy t' obs = [])
    (hself : inFlight (s.work t) ++ loggedBy t obs = fannedBy t obs ++ inFlight ws) :
    Threaded s' (tr ++ obs) := by
  refine ⟨fun t' => ?_, fun t' => ?_⟩
  · rw [hs']
    by_cases ht : t' = t
    · rw [ht, Function.update_self]
      exact hplan
    · rw [Function.update_of_ne ht]
      exact h.plan t'
  · rw [hs', loggedBy_append, fannedBy_append, h.logged]
    by_cases ht : t' = t
    · rw [ht, Function.update_self, List.append_assoc, hself, List.append_assoc]
    · rw [Function.update_of_ne ht, (hother t' ht).1, (hother t' ht).2, List.append_nil,
        List.append_nil]

theorem Move.threaded {s s' : Process F n} {ws : List Work} {obs tr : List (Obs F n)}
    (hm : Move ops s ws s' obs) (h : Threaded s tr) : Threaded s' (tr ++ obs) := by
  cases hm with
  | idle => simpa using h
  | begin t _ hw hb =>
    obtain ⟨hplan, hflight, -⟩ := hb.onPlan
    exact h.update rfl hplan (fun _ _ => ⟨rfl, rfl⟩) (by rw [hw, hflight]; rfl)
  | record t p ws hw =>
    have hplan := h.plan t
    rw [hw] at hplan
    obtain ⟨hplan, hflight, -⟩ := hplan.after_record
    exact h.update rfl hplan (fun _ _ => ⟨rfl, rfl⟩) (by rw [hw, hflight]; rfl)
  | log t e ws hw =>
    have hplan := h.plan t
    rw [hw] at hplan
    obtain ⟨hplan, hflight, -⟩ := hplan.after_log
    refine h.update rfl hplan (fun t' ht => ⟨by simp [loggedBy, ht.symm], rfl⟩) ?_
    rw [hw, hflight]
    simp [inFlight, loggedBy, fannedBy]
  | fanOut t e ws hw =>
    have hplan := h.plan t
    rw [hw] at hplan
    obtain ⟨hplan, hflight, -⟩ := hplan.after_fanOut
    refine h.update rfl hplan (fun t' ht => ⟨rfl, by simp [fannedBy, ht.symm]⟩) ?_
    rw [hw, hflight]
    simp [inFlight, loggedBy, fannedBy]
  | register => exact ⟨by simpa using h.plan, by simpa using h.logged⟩
  | consume e channel now _ hw =>
    have hphase : Phaseless (Bus.consume ops s.engine e now).2 := by
      rw [(consume_spec s.engine e now).1]
      exact fun e' he' => (markersOf_marker _ _ e' he').2
    exact h.update rfl (.rest _ hphase) (fun _ _ => ⟨rfl, rfl⟩)
      (by rw [hw, inFlight_emitAll]; rfl)
  | render => exact ⟨h.plan, by simpa [loggedBy, fannedBy] using h.logged⟩

/-! ## What the journal says -/

/-- The events about uniforms that are still to be logged. -/
def pendingMarkers (ws : List Work) : List Event :=
  ws.filterMap fun
    | .log e => if e.isMarker then some e else none
    | _ => none

theorem pendingMarkers_emitAll (es : List Event) :
    pendingMarkers (emitAll es) = es.filter Event.isMarker := by
  induction es with
  | nil => rfl
  | cons e es ih =>
    unfold pendingMarkers at ih ⊢
    rw [emitAll_cons, List.filterMap_cons, List.filterMap_cons, List.filter_cons]
    by_cases he : e.isMarker = true
    · simpa [he] using ih
    · simpa [he] using ih

theorem pendingMarkers_begins {t : Fin (n + 1)} {ws : List Work} (h : Begins t ws) :
    pendingMarkers ws = [] := by
  cases h with
  | emit t e he => rw [pendingMarkers_emitAll, List.filter_singleton, (plain_iff.mp he).1]; rfl
  | phase p => rfl

/-- What the journal says of uniforms and of phases. Only the thread of the main loop has a part in
it. -/
structure Told (bs : List (Binding F)) (s : Process F n) (tr : List (Obs F n)) : Prop where
  bindings_eq : bindingsOf s.engine = bs
  others : ∀ t, t ≠ 0 → ∀ e, .log e ∈ s.work t → plain e = true
  unrecorded : ∀ t, t ≠ 0 → ∀ p, .record p ∉ s.work t
  markers : markersLogged tr ++ pendingMarkers (s.work 0) =
    (consumed tr).flatMap fun c => markersOf bs c.1
  phases : recorded tr = phasesLogged tr ++ due (s.work 0)
  phase_eq : s.currentPhase = ((recorded tr).getLast?.getD .init).asU32

/-- Another thread goes on. -/
theorem Told.other {bs : List (Binding F)} {s s' : Process F n} {tr : List (Obs F n)}
    (h : Told bs s tr) (obs : List (Obs F n)) {t : Fin (n + 1)} {ws : List Work} (ht : t ≠ 0)
    (hs' : s'.work = Function.update s.work t ws) (hengine : s'.engine = s.engine)
    (hphase : s'.currentPhase = s.currentPhase)
    (hlog : ∀ e, .log e ∈ ws → plain e = true) (hrecord : ∀ p, .record p ∉ ws)
    (hmarkers : markersLogged obs = []) (hphases : phasesLogged obs = [])
    (hrecorded : recorded obs = []) (hconsumed : consumed obs = []) : Told bs s' (tr ++ obs) := by
  have hwork : s'.work 0 = s.work 0 := by rw [hs', Function.update_of_ne ht.symm]
  refine ⟨hengine ▸ h.bindings_eq, fun t' ht' e he => ?_, fun t' ht' p hp => ?_, ?_, ?_, ?_⟩
  · rw [hs'] at he
    by_cases heq : t' = t
    · rw [heq, Function.update_self] at he
      exact hlog e he
    · rw [Function.update_of_ne heq] at he
      exact h.others t' ht' e he
  · rw [hs'] at hp
    by_cases heq : t' = t
    · rw [heq, Function.update_self] at hp
      exact hrecord p hp
    · rw [Function.update_of_ne heq] at hp
      exact h.unrecorded t' ht' p hp
  · rw [hwork, markersLogged_append, consumed_append, hmarkers, hconsumed, List.append_nil,
      List.append_nil, h.markers]
  · rw [hwork, phasesLogged_append, recorded_append, hphases, hrecorded, List.append_nil,
      List.append_nil, h.phases]
  · rw [hphase, recorded_append, hrecorded, List.append_nil, h.phase_eq]

/-- The thread of the main loop goes on. -/
theorem Told.main {bs : List (Binding F)} {s s' : Process F n} {tr : List (Obs F n)}
    (h : Told bs s tr) (obs : List (Obs F n)) {ws : List Work}
    (hs' : s'.work = Function.update s.work 0 ws)
    (hengine : bindingsOf s'.engine = bindingsOf s.engine)
    (hmarkers : markersLogged obs ++ pendingMarkers ws =
      pendingMarkers (s.work 0) ++ (consumed obs).flatMap fun c => markersOf bs c.1)
    (hphases : due (s.work 0) ++ recorded obs = phasesLogged obs ++ due ws)
    (hphase : s'.currentPhase =
      ((recorded obs).getLast?.map Phase.asU32).getD s.currentPhase) :
    Told bs s' (tr ++ obs) := by
  have hother : ∀ t, t ≠ 0 → s'.work t = s.work t := fun t ht => by
    rw [hs', Function.update_of_ne ht]
  refine ⟨hengine ▸ h.bindings_eq, fun t ht e he => ?_, fun t ht p hp => ?_, ?_, ?_, ?_⟩
  · rw [hother t ht] at he
    exact h.others t ht e he
  · rw [hother t ht] at hp
    exact h.unrecorded t ht p hp
  · rw [hs', Function.update_self, markersLogged_append, consumed_append, List.flatMap_append,
      List.append_assoc, hmarkers, ← List.append_assoc, h.markers]
  · rw [hs', Function.update_self, recorded_append, phasesLogged_append, List.append_assoc,
      ← hphases, h.phases, List.append_assoc]
  · rw [hphase, h.phase_eq, recorded_append, List.getLast?_append]
    cases (recorded obs).getLast? <;> rfl

theorem Move.told {bs : List (Binding F)} {s s' : Process F n} {ws : List Work}
    {obs tr : List (Obs F n)} (hm : Move ops s ws s' obs) (hthreads : Threaded s tr)
    (h : Told bs s tr) : Told bs s' (tr ++ obs) := by
  have hmem : ∀ {t w ws'}, s.work t = w :: ws' → ∀ {w'}, w' ∈ ws' → w' ∈ s.work t :=
    fun hw _ hw' => hw ▸ List.mem_cons_of_mem _ hw'
  cases hm with
  | idle => simpa using h
  | begin t _ hw hb =>
    by_cases ht : t = 0
    · subst ht
      refine h.main [] rfl rfl ?_ ?_ rfl
      · rw [hw, pendingMarkers_begins hb]
        rfl
      · rw [hw, hb.onPlan.2.2]
        rfl
    · cases hb with
      | phase p => exact absurd rfl ht
      | emit _ e he =>
        refine h.other [] ht rfl rfl rfl (fun e' he' => ?_) (fun p hp => ?_) rfl rfl rfl rfl
        · simp only [emitAll, List.flatMap_cons, List.flatMap_nil, List.append_nil] at he'
          rcases List.mem_cons.mp he' with heq | he'
          · cases heq
            exact he
          · simp at he'
        · simp [emitAll] at hp
  | record t p ws hw =>
    by_cases ht : t = 0
    · subst ht
      have hplan := hthreads.plan 0
      rw [hw] at hplan
      refine h.main [.recorded p] rfl rfl ?_ ?_ rfl
      · rw [hw]
        simp [markersLogged, pendingMarkers, consumed]
      · rw [hw, hplan.after_record.2.2]
        rfl
    · exact absurd (hw ▸ List.mem_cons_self ..) (h.unrecorded t ht p)
  | log t e ws hw =>
    by_cases ht : t = 0
    · subst ht
      have hplan := hthreads.plan 0
      rw [hw] at hplan
      refine h.main [.logged 0 e] rfl rfl ?_ ?_ rfl
      · rw [hw]
        by_cases he : e.isMarker = true
        · simp [markersLogged, pendingMarkers, consumed, he]
        · simp [markersLogged, pendingMarkers, consumed, he]
      · rw [hw, hplan.after_log.2.2]
        cases he : e.phase? <;> simp [recorded, phasesLogged, due, he]
    · have he := plain_iff.mp (h.others t ht e (hw ▸ List.mem_cons_self ..))
      refine h.other [.logged t e] ht rfl rfl rfl (fun e' he' => h.others t ht e' (hmem hw he'))
        (fun p hp => h.unrecorded t ht p (hmem hw hp)) ?_ ?_ rfl rfl
      · simp [markersLogged, he.1]
      · simp [phasesLogged, he.2]
  | fanOut t e ws hw =>
    by_cases ht : t = 0
    · subst ht
      have hplan := hthreads.plan 0
      rw [hw] at hplan
      refine h.main [.fannedOut 0 e s.registered] rfl rfl ?_ ?_ rfl
      · rw [hw]
        simp [markersLogged, pendingMarkers, consumed]
      · rw [hw, hplan.after_fanOut.2.2]
        rfl
    · exact h.other [.fannedOut t e s.registered] ht rfl rfl rfl
        (fun e' he' => h.others t ht e' (hmem hw he'))
        (fun p hp => h.unrecorded t ht p (hmem hw hp)) rfl rfl rfl rfl
  | register =>
    obtain ⟨h1, h2, h3, h4, h5, h6⟩ := h
    exact ⟨h1, h2, h3, by simpa using h4, by simpa using h5, by simpa using h6⟩
  | consume e channel now _ hw =>
    have hmarkers : (Bus.consume ops s.engine e now).2 = markersOf bs e :=
      h.bindings_eq ▸ (consume_spec s.engine e now).1
    have hbindings : bindingsOf (Bus.consume ops s.engine e now).1 = bindingsOf s.engine :=
      (consume_spec s.engine e now).2
    have hall : ∀ e' ∈ markersOf bs e, e'.isMarker = true := fun e' he' =>
      (markersOf_marker bs e e' he').1
    refine h.main [.consumed e now] rfl hbindings ?_ ?_ rfl
    · rw [hw, pendingMarkers_emitAll, hmarkers, List.filter_eq_self.mpr hall]
      simp [markersLogged, pendingMarkers, consumed]
    · have hphase : Phaseless (markersOf bs e) := fun e' he' => (markersOf_marker bs e e' he').2
      rw [hw, hmarkers, hphase.due]
      rfl
  | render b now w h' hb =>
    have hbindings : bindingsOf (some (.shader (b.renderElement ops now w h').1)) =
        bindingsOf s.engine := by rw [hb]; rfl
    obtain ⟨h1, h2, h3, h4, h5, h6⟩ := h
    refine ⟨hbindings ▸ h1, h2, h3, ?_, ?_, ?_⟩
    · simpa [markersLogged, consumed] using h4
    · simpa [recorded, phasesLogged] using h5
    · simpa [recorded] using h6

/-! ## What a frame shows -/

/-- A frame shows what the shader saw, and nothing that it saw lies in the future. -/
def FrameOk (ops : F32 F) (bs : List (Binding F)) (start : Nat) (pre : List (Obs F n)) :
    Obs F n → Prop
  | .rendered now w h uniforms =>
    SeenOk ops bs start (seen ops bs pre) (.frame now w h uniforms) ∧
      ∀ c ∈ consumed pre, c.2 ≤ now
  | _ => True

/-- What the shader keeps is right about what it saw. -/
structure Framed (ops : F32 F) (bs : List (Binding F)) (start : Nat) (s : Process F n)
    (tr : List (Obs F n)) : Prop where
  reflects : ∀ b, s.engine = some (.shader b) → Reflects ops bs start b (seen ops bs tr)
  past : ∀ c ∈ consumed tr, c.2 ≤ s.clock
  frames : Always (FrameOk ops bs start) tr

/-- A step that is no matter of the shader. -/
theorem Framed.other {bs : List (Binding F)} {start : Nat} {s s' : Process F n}
    {tr : List (Obs F n)} (h : Framed ops bs start s tr) {o : Obs F n}
    (hengine : s'.engine = s.engine) (hclock : s'.clock = s.clock) (hseen : seen ops bs [o] = [])
    (hconsumed : consumed [o] = []) (ho : ∀ pre, FrameOk ops bs start pre o) :
    Framed ops bs start s' (tr ++ [o]) := by
  refine ⟨fun b hb => ?_, ?_, h.frames.snoc (ho tr)⟩
  · rw [seen_append, hseen, List.append_nil]
    exact h.reflects b (hengine ▸ hb)
  · rw [consumed_append, hconsumed, List.append_nil, hclock]
    exact h.past

theorem Framed.consume {bs : List (Binding F)} {start : Nat} {s : Process F n}
    {tr : List (Obs F n)} (h : Framed ops bs start s tr) (e : Event) (now : Nat)
    {b : ShaderBackend F} (hb : (Bus.consume ops s.engine e now).1 = some (.shader b)) :
    Reflects ops bs start b (seen ops bs (tr ++ [.consumed e now])) := by
  rw [seen_append]
  unfold Bus.consume at hb
  cases hname : canonicalName e with
  | none =>
    rw [hname] at hb
    have hseen : seen (n := n) ops bs [.consumed e now] = [] := by simp [seen, hname]
    rw [hseen, List.append_nil]
    exact h.reflects b hb
  | some eventName =>
    rw [hname] at hb
    rcases hengine : s.engine with _ | b' | _
    · rw [hengine] at hb
      cases hb
    · rw [hengine] at hb
      obtain rfl : (b'.notifyEvent ops now eventName (eventValue ops e)).1 = b := by
        simpa [Backend.notifyEvent] using hb
      have hb' := h.reflects b' hengine
      have hstep := (hb'.notify now eventName (eventValue ops e)).1
      have hwritten : (b'.notifyEvent ops now eventName (eventValue ops e)).2 =
          watchers bs eventName := by
        rw [← hb'.bindings_eq]
        exact applyEvent_written _ _ _ _ _ _
      have hseen : seen (n := n) ops bs [.consumed e now] =
          [.fired now eventName (eventValue ops e) (watchers bs eventName)] := by
        simp [seen, hname]
      simp only [ShaderBackend.step, hwritten] at hstep
      rwa [hseen]
    · rw [hengine] at hb
      cases hb

theorem Move.framed {bs : List (Binding F)} {start : Nat} {s s' : Process F n} {ws : List Work}
    {obs tr : List (Obs F n)} (hm : Move ops s ws s' obs) (h : Framed ops bs start s tr) :
    Framed ops bs start s' (tr ++ obs) := by
  cases hm with
  | idle => simpa using h
  | begin => exact ⟨by simpa using h.reflects, by simpa using h.past, by simpa using h.frames⟩
  | record => exact h.other rfl rfl rfl rfl fun _ => trivial
  | log => exact h.other rfl rfl rfl rfl fun _ => trivial
  | fanOut t e ws hw =>
    refine h.other rfl rfl rfl ?_ fun _ => trivial
    cases s.registered <;> rfl
  | register => exact ⟨by simpa using h.reflects, by simpa using h.past, by simpa using h.frames⟩
  | consume e channel now _ _ hclock =>
    refine ⟨fun b hb => h.consume e now hb, fun c hc => ?_, h.frames.snoc trivial⟩
    rw [consumed_append] at hc
    rcases List.mem_append.mp hc with hc | hc
    · exact (h.past c hc).trans hclock
    · have hnow : c = (e, now) := List.mem_singleton.mp hc
      rw [hnow]
  | render b now w h' hb _ hclock =>
    have hstep := (h.reflects b hb).render now w h'
    have hpast : ∀ c ∈ consumed tr, c.2 ≤ now := fun c hc => (h.past c hc).trans hclock
    simp only [ShaderBackend.step] at hstep
    refine ⟨fun b' hb' => ?_, ?_, h.frames.snoc ⟨?_, hpast⟩⟩
    · cases hb'
      simpa [seen] using hstep.1
    · simpa [consumed] using hpast
    · simpa using always_singleton.mp hstep.2

/-! ## How long it takes -/

/-- What it costs to take an event from the channel, with all that comes of it. -/
def takeCost (bs : List (Binding F)) (e : Event) : Nat := 1 + 3 * (markersOf bs e).length

def Work.cost (bs : List (Binding F)) : Work → Nat
  | .record _ => 1
  | .log _ => 1
  | .fanOut e => 1 + takeCost bs e

/-- The steps that are to come before there is nothing left to do. -/
def Process.cost (bs : List (Binding F)) (s : Process F n) : Nat :=
  (s.channel.map (takeCost bs)).sum + ∑ t, ((s.work t).map (Work.cost bs)).sum

/-- A frame is no such step. -/
def Obs.isWork : Obs F n → Bool
  | .rendered .. => false
  | _ => true

/-- What an act costs at most. -/
def Act.cost (bs : List (Binding F)) : Act n → Nat
  | .emit _ e => 3 + 3 * (markersOf bs e).length
  | .emitPhase p => 4 + 3 * (markersOf bs (.phaseEntered p)).length
  | _ => 0

theorem Act.cost_begins (bs : List (Binding F)) (a : Act n) :
    (a.begins.map (Work.cost bs)).sum = a.cost bs := by
  cases a with
  | emit t e =>
    simp [Act.begins, Act.cost, emitAll, Work.cost, takeCost]
    omega
  | emitPhase p =>
    simp [Act.begins, Act.cost, phaseWork, emitAll, Work.cost, takeCost]
    omega
  | _ => rfl

theorem markersOf_of_marker (bs : List (Binding F)) {e : Event} (h : e.isMarker = true) :
    markersOf bs e = [] := by simp [markersOf, canonicalName_marker h]

theorem cost_markers (bs bs' : List (Binding F)) (e : Event) :
    ((emitAll (markersOf bs' e)).map (Work.cost bs)).sum = 3 * (markersOf bs' e).length := by
  have hall : ∀ e' ∈ markersOf bs' e, e'.isMarker = true := fun e' he' =>
    (markersOf_marker bs' e e' he').1
  generalize markersOf bs' e = es at hall
  induction es with
  | nil => rfl
  | cons e' es ih =>
    have he' := markersOf_of_marker bs (hall e' (List.mem_cons_self ..))
    have ih := ih fun e'' he'' => hall e'' (List.mem_cons_of_mem _ he'')
    simp only [emitAll_cons, List.map_cons, List.sum_cons, Work.cost, takeCost, he',
      List.length_nil, List.length_cons, ih]
    omega

/-- The work of one thread is another. -/
theorem cost_update (bs : List (Binding F)) (work : Fin (n + 1) → List Work) (t : Fin (n + 1))
    (ws : List Work) :
    ∑ t', ((Function.update work t ws t').map (Work.cost bs)).sum +
        ((work t).map (Work.cost bs)).sum =
      ∑ t', ((work t').map (Work.cost bs)).sum + (ws.map (Work.cost bs)).sum := by
  rw [← Finset.add_sum_erase _ _ (Finset.mem_univ t),
    ← Finset.add_sum_erase _ (fun t' => ((work t').map (Work.cost bs)).sum) (Finset.mem_univ t),
    Function.update_self]
  have hrest : ∑ t' ∈ Finset.univ.erase t, ((Function.update work t ws t').map (Work.cost bs)).sum =
      ∑ t' ∈ Finset.univ.erase t, ((work t').map (Work.cost bs)).sum :=
    Finset.sum_congr rfl fun t' ht' => by rw [Function.update_of_ne (Finset.ne_of_mem_erase ht')]
  rw [hrest]
  omega

theorem Move.cost_le {bs : List (Binding F)} {s s' : Process F n} {ws : List Work}
    {obs : List (Obs F n)} (hm : Move ops s ws s' obs) (hbs : bindingsOf s.engine = bs) :
    (obs.filter Obs.isWork).length + s'.cost bs ≤
      s.cost bs + (ws.map (Work.cost bs)).sum := by
  unfold Process.cost
  cases hm with
  | idle => simp
  | begin t _ hw =>
    have hsum := cost_update bs s.work t ws
    simp only [hw, List.map_nil, List.sum_nil] at hsum
    simp only [List.filter_nil, List.length_nil]
    omega
  | record t p ws' hw =>
    have hsum := cost_update bs s.work t ws'
    simp only [hw, List.map_cons, List.sum_cons, Work.cost] at hsum
    simp only [List.filter_cons, Obs.isWork, if_true, List.filter_nil, List.length_singleton,
      List.map_nil, List.sum_nil]
    omega
  | log t e ws' hw =>
    have hsum := cost_update bs s.work t ws'
    simp only [hw, List.map_cons, List.sum_cons, Work.cost] at hsum
    simp only [List.filter_cons, Obs.isWork, if_true, List.filter_nil, List.length_singleton,
      List.map_nil, List.sum_nil]
    omega
  | fanOut t e ws' hw =>
    have hsum := cost_update bs s.work t ws'
    simp only [hw, List.map_cons, List.sum_cons, Work.cost] at hsum
    have hchannel : ((if s.registered then s.channel ++ [e] else s.channel).map (takeCost bs)).sum
        ≤ (s.channel.map (takeCost bs)).sum + takeCost bs e := by
      split
      · simp
      · exact Nat.le_add_right _ _
    simp only [List.filter_cons, Obs.isWork, if_true, List.filter_nil, List.length_singleton,
      List.map_nil, List.sum_nil]
    omega
  | register => simp
  | consume e channel now hc hw =>
    have hsum := cost_update bs s.work 0 (emitAll (markersOf bs e))
    rw [cost_markers] at hsum
    simp only [hw, List.map_nil, List.sum_nil] at hsum
    rw [(consume_spec s.engine e now).1, hbs]
    simp only [hc, List.map_cons, List.sum_cons, takeCost, List.filter_cons, Obs.isWork, if_true,
      List.filter_nil, List.length_singleton, List.map_nil, List.sum_nil]
    omega
  | render => simp [Obs.isWork]

/-! ## Every run -/

/-- What there is to say of the events after a run. -/
structure Delivered (bs : List (Binding F)) (s : Process F n) (tr : List (Obs F n)) : Prop where
  /-- The main loop takes what the listener got, in the order in which it got it, once. -/
  fifo : heard tr = (consumed tr).map Prod.fst ++ s.channel
  /-- What a thread handed on, it had logged, and in that order; all but one of the logged events
  are handed on. -/
  logged : ∀ t, loggedBy t tr = fannedBy t tr ++ inFlight (s.work t)
  /-- There is a line in the journal for every uniform that was written, and no other. -/
  markers : markersLogged tr ++ pendingMarkers (s.work 0) =
    (consumed tr).flatMap fun c => markersOf bs c.1
  /-- Where nothing is left to do, nothing is missing. -/
  settled : s.Idle → markersLogged tr = (heard tr).flatMap (markersOf bs)

theorem start_threaded (engine : Option (Backend F)) (now : Nat) :
    Threaded (Process.start (n := n) engine now) [] :=
  ⟨fun _ => .rest [] (by simp [Phaseless]), fun _ => rfl⟩

theorem start_told (engine : Option (Backend F)) (now : Nat) :
    Told (bindingsOf engine) (Process.start (n := n) engine now) [] :=
  ⟨rfl, fun _ _ _ h => absurd h List.not_mem_nil, fun _ _ _ => List.not_mem_nil, rfl, rfl, rfl⟩

variable (ops)

theorem run_told (engine : Option (Backend F)) (now : Nat) (acts : List (Act n)) :
    let r := run (Process.step ops) (Process.start (n := n) engine now) acts
    Threaded r.1 r.2 ∧ Told (bindingsOf engine) r.1 r.2 := by
  refine run_invariant_init
    (fun s tr => Threaded s tr ∧ Told (bindingsOf engine) s tr)
    ⟨start_threaded engine now, start_told engine now⟩ (fun s tr a h => ?_) acts
  have hm := step_move ops s a
  exact ⟨hm.threaded h.1, hm.told h.1 h.2⟩

/-- **The wallpaper is told of every event, once and in order.** However the threads interleave, the
main loop takes the events that were handed to the listener in that order and none twice; a thread
hands on what it logged; and the journal has a line for each uniform that an event was written to,
in the order of the events. -/
theorem bus_delivers (engine : Option (Backend F)) (now : Nat) (acts : List (Act n)) :
    let r := run (Process.step ops) (Process.start (n := n) engine now) acts
    Delivered (bindingsOf engine) r.1 r.2 := by
  intro r
  obtain ⟨hthreads, htold⟩ := run_told ops engine now acts
  have hstart : InOrder (Process.start (n := n) engine now) [] := rfl
  have horder : InOrder r.1 r.2 :=
    run_invariant_init InOrder hstart (fun s tr a h => (step_move ops s a).inOrder h) acts
  refine ⟨horder, hthreads.logged, htold.markers, fun hidle => ?_⟩
  have hmarkers := htold.markers
  have hheard := horder
  unfold InOrder at hheard
  rw [hidle.1, List.append_nil] at hheard
  rw [hidle.2 0, pendingMarkers, List.filterMap_nil, List.append_nil] at hmarkers
  rw [hmarkers, hheard, List.flatMap_map]

/-- **What a frame shows.** However the threads interleave, a frame shows what `valueAt` says of the
events that the main loop took and the frames before it, in the types that the program is compiled
with. None of these events is later than the frame, so that the age of an event is never negative. -/
theorem bus_frames (raw : List Char) (uniforms : UniformMap F) (start now : Nat)
    (acts : List (Act n)) :
    let b := ShaderBackend.new raw uniforms start
    Always (FrameOk ops b.bindings start)
      (run (Process.step ops) (Process.start (n := n) (some (.shader b)) now) acts).2 := by
  intro b
  have hreflects : ∀ b', some (Backend.shader b) = some (.shader b') →
      Reflects ops b.bindings start b' [] := by
    rintro b' heq
    cases heq
    exact ⟨rfl, rfl, rfl, rfl, fun _ _ _ => rfl, fun _ _ _ => rfl⟩
  exact (run_invariant_init (fun s tr => Framed ops b.bindings start s tr)
    ⟨hreflects, fun c hc => absurd hc List.not_mem_nil, always_nil _⟩
    (fun s tr a h => (step_move ops s a).framed h) acts).frames

theorem consume_bindings {bs : List (Binding F)} {s s' : Process F n} {ws : List Work}
    {obs : List (Obs F n)} (hm : Move ops s ws s' obs) (h : bindingsOf s.engine = bs) :
    bindingsOf s'.engine = bs := by
  cases hm with
  | consume e channel now => exact (consume_spec s.engine e now).2.trans h
  | render b now w h' hb =>
    rw [hb] at h
    exact h
  | _ => exact h

/-- Where something is left to do, some thread can go on, or the main loop has an event to take. -/
theorem can_go_on (s : Process F n) (h : ¬ s.Idle) :
    ∃ a : Act n, (∀ bs : List (Binding F), a.cost bs = 0) ∧
      0 < ((s.step ops a).2.filter Obs.isWork).length := by
  by_cases hwork : ∃ t, s.work t ≠ []
  · obtain ⟨t, ht⟩ := hwork
    refine ⟨.work t, fun _ => rfl, ?_⟩
    simp only [Process.step, Process.workStep]
    split
    · next hnil => exact absurd hnil ht
    · simp [Obs.isWork]
    · simp [Obs.isWork]
    · simp [Obs.isWork]
  · have hnil : ∀ t, s.work t = [] := fun t => by_contra fun ht => hwork ⟨t, ht⟩
    refine ⟨.consume s.clock, fun _ => rfl, ?_⟩
    simp only [Process.step]
    cases hc : s.channel with
    | nil => exact absurd ⟨hc, hnil⟩ h
    | cons e channel => simp [hnil 0, Obs.isWork]

/-- **The wallpaper does not keep itself busy.** However the threads interleave, an event costs three
steps and three more for each uniform that it is written to, and a phase one more; and from every
state that is reached, the process comes to rest if nothing else is emitted. -/
theorem bus_settles (engine : Option (Backend F)) (now : Nat) (acts : List (Act n)) :
    let bs := bindingsOf engine
    let r := run (Process.step ops) (Process.start (n := n) engine now) acts
    (r.2.filter Obs.isWork).length + r.1.cost bs ≤ (acts.map (Act.cost bs)).sum ∧
      ∃ acts' : List (Act n), acts'.length ≤ r.1.cost bs ∧ (∀ a ∈ acts', a.cost bs = 0) ∧
        (run (Process.step ops) r.1 acts').1.Idle := by
  intro bs r
  have hstep : ∀ (s : Process F n) (a : Act n), bindingsOf s.engine = bs →
      bindingsOf (s.step ops a).1.engine = bs ∧
        ((s.step ops a).2.filter Obs.isWork).length + (s.step ops a).1.cost bs ≤
          s.cost bs + a.cost bs := by
    intro s a hs
    have hm := step_move ops s a
    exact ⟨consume_bindings ops hm hs, Act.cost_begins bs a ▸ hm.cost_le hs⟩
  have hstart : (Process.start (n := n) engine now).cost bs = 0 := by
    simp [Process.start, Process.cost]
  have hbs : bindingsOf r.1.engine = bs :=
    run_invariant_init (fun s _ => bindingsOf s.engine = bs) rfl
      (fun s _ a hs => (hstep s a hs).1) acts
  refine ⟨?_, ?_⟩
  · have hle := run_amortised (fun s : Process F n => bindingsOf s.engine = bs) (Process.cost bs)
      (Act.cost bs) Obs.isWork hstep acts (Process.start engine now) rfl
    rwa [hstart, Nat.zero_add] at hle
  · refine exists_drain (fun s : Process F n => bindingsOf s.engine = bs) (Process.cost bs)
      (Act.cost bs) Obs.isWork Process.Idle hstep (fun s hs => ?_) _ r.1 hbs (Nat.le_refl _)
    obtain ⟨a, hcost, hmoves⟩ := can_go_on ops s hs
    exact ⟨a, hcost bs, hmoves⟩

/-- **D-Bus and the journal tell one phase.** However the threads interleave, the phases that were
stored are those of the journal, and maybe the one that is to be logged next; and D-Bus tells the
last of them, by the name that the journal has for it. -/
theorem phase_agrees (engine : Option (Backend F)) (now : Nat) (acts : List (Act n)) :
    let r := run (Process.step ops) (Process.start (n := n) engine now) acts
    recorded r.2 = phasesLogged r.2 ++ due (r.1.work 0) ∧
      r.1.currentPhaseName = ((recorded r.2).getLast?.getD .init).serdeName := by
  intro r
  have htold := (run_told ops engine now acts).2
  refine ⟨htold.phases, ?_⟩
  rw [Process.currentPhaseName, htold.phase_eq, Phase.fromU32_asU32, Phase.serdeName_eq]

end Halmasuit.Wallpaper.Bus
