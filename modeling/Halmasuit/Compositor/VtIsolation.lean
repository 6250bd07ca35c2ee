import Halmasuit.Compositor.Login
import Halmasuit.Compositor.Screen

/-!
# Input and the virtual terminals

`dispatch_libinput` (`halmasuit/src/main.rs` 569–639) routes the events of the input devices, which
libinput has open whichever VT is active, to the focused client, and intercepts the system chords.
`handle_vt_relsig` and `handle_vt_acqsig` (792–828) pause and resume the DRM device
(`halmasuit/src/drm.rs` 1296–1334) and answer the kernel. The two share no state.

* The seat of `smithay` is a parameter (`Seat`): where its pointer is, its grabs and the touch points
  that are down are its own state. What is known of it is that it sends a key to the surface it is
  given, and the rest to a surface that it is given or was given before.
* A key comes with the keysym and the modifiers that xkb resolved.
* `released` says that a release of the VT was handled and no acquire has come since.

Headlines:
* `run_without_vt`: the VT signals make no difference to what becomes of the input.
* `isolated_run`: nothing is forwarded and no chord is triggered away from the VT if no event that
  comes there is a chord or finds a focused surface, and if the seat was on no surface when the VT
  was released.
-/

namespace Halmasuit.Compositor

open Halmasuit.Greetd (Request readRequest)
open Halmasuit.Wallpaper (WallpaperConfig)
open Halmasuit.Lib
open HalmasuitState (login)

/-! ## Chords -/

/-- `detect_vt_chord`: the keysyms `XF86Switch_VT_1` to `XF86Switch_VT_12`. -/
def detectVtChord (keysym : UInt32) : Option UInt8 :=
  if 0x1008FE01 ≤ keysym ∧ keysym ≤ 0x1008FE0C then some (keysym - 0x1008FE01 + 1).toUInt8 else none

/-- `XK_ESCAPE`. -/
def xkEscape : UInt32 := 0xFF1B

/-- `detect_overlay_chord`. -/
def detectOverlayChord (keysym : UInt32) (ctrl alt shift : Bool) : Bool :=
  ctrl && alt && shift && keysym == xkEscape

/-- `is_dismiss_key`. -/
def isDismissKey (keysym : UInt32) : Bool := keysym == xkEscape

/-- `ChordAction`. -/
inductive ChordAction where
  | vtSwitch (vt : UInt8)
  | overlayToggle
  | overlayDismiss
  deriving DecidableEq, Repr

/-! ## The seat -/

/-- `InputEvent`. -/
inductive InputEvent where
  | keyboard (keysym : UInt32) (ctrl alt shift pressed : Bool)
  | pointerMotion
  | pointerMotionAbsolute
  | pointerButton
  | pointerAxis
  | touchDown (slot : Nat)
  | touchUp (slot : Nat)
  | touchMotion (slot : Nat)
  | touchFrame
  | touchCancel
  | other
  deriving DecidableEq, Repr

/-- A call into the seat, with the surface it is given. -/
inductive SeatCall where
  /-- `KeyboardHandle::input`, with what the filter says. -/
  | key (focus : Option Focus) (intercepted : Bool)
  | motion (focus : Option Focus)
  | button
  | axis
  | frame
  | touchDown (slot : Nat) (focus : Option Focus)
  | touchUp (slot : Nat)
  | touchMotion (slot : Nat) (focus : Option Focus)
  | touchFrame
  | touchCancel

/-- The surface that the pointer or a touch point is put on. -/
def SeatCall.target : SeatCall → Option Focus
  | .motion focus => focus
  | .touchDown _ focus => focus
  | .touchMotion _ focus => focus
  | _ => none

/-- `Seat`, with its keyboard, pointer and touch handles. -/
structure Seat (σ : Type) where
  /-- The surfaces that a call sends an event to. -/
  call : σ → SeatCall → σ × List Focus
  /-- What the requests of the clients and the end of their surfaces make of the seat. -/
  settle : σ → Screen → σ
  /-- The pointer, a grab or a touch point is on the surface. -/
  holds : σ → Focus → Prop
  /-- A key goes to the surface with the keyboard's focus, unless the filter intercepts it. -/
  sent_key : ∀ s focus intercepted, ∀ f ∈ (call s (.key focus intercepted)).2,
    intercepted = false ∧ focus = some f
  /-- An event goes to a surface that is held, or that the call puts it on. -/
  sent_held : ∀ s c, (∀ focus intercepted, c ≠ .key focus intercepted) →
    ∀ f ∈ (call s c).2, holds s f ∨ c.target = some f
  holds_call : ∀ s c f, holds (call s c).1 f → holds s f ∨ c.target = some f
  holds_settle : ∀ s screen f, holds (settle s screen) f → holds s f

/-! ## The machine -/

/-- The compositor with its seat and its VT. -/
structure Console (σ : Type) where
  screen : Screen
  /-- `vt_fd` is `Some`. -/
  vtFd : Bool
  drmMaster : Bool
  seat : σ
  /-- The seat when the VT was released, away from it. -/
  released : Option σ

/-- What happens, in order. -/
inductive ConsoleEvent where
  | screen (e : ScreenEvent)
  /-- An input event is sent to the client of a surface. -/
  | forwarded (target : Focus)
  | chord (a : ChordAction)
  deriving DecidableEq

/-- An input event reached a client, or triggered a chord. -/
def ConsoleEvent.isHeard : ConsoleEvent → Bool
  | .screen _ => false
  | .forwarded _ => true
  | .chord _ => true

/-- A callback, with what it finds. -/
inductive ConsoleInput where
  | screen (m : ScreenInput)
  | input (e : InputEvent) (w : World)
  /-- The outcomes of `pause` and of `VT_RELDISP`. -/
  | vtRelsig (paused reldisp : Bool)
  /-- The outcome of `resume`. -/
  | vtAcqsig (resumed : Bool)

/-- The signals of the kernel. -/
def ConsoleInput.isVt : ConsoleInput → Bool
  | .vtRelsig .. => true
  | .vtAcqsig _ => true
  | _ => false

/-- The overlay is toggled and dismissed by keys alone. -/
def ScreenInput.isChord : ScreenInput → Bool
  | .overlayToggle _ => true
  | .overlayDismiss _ => true
  | _ => false

/-- The calls of `dispatch_libinput` into the seat, for an event that is no key. -/
def InputEvent.calls (focus : Option Focus) : InputEvent → List SeatCall
  | .keyboard .. => []
  | .pointerMotion => [.motion focus, .frame]
  | .pointerMotionAbsolute => [.motion focus, .frame]
  | .pointerButton => [.button, .frame]
  | .pointerAxis => [.axis, .frame]
  | .touchDown slot => [.touchDown slot focus]
  | .touchUp slot => [.touchUp slot]
  | .touchMotion slot => [.touchMotion slot focus]
  | .touchFrame => [.touchFrame]
  | .touchCancel => [.touchCancel]
  | .other => []

/-- The event is put on the surface that has the keyboard's focus. -/
def InputEvent.aims : InputEvent → Bool
  | .pointerMotion | .pointerMotionAbsolute | .touchDown _ | .touchMotion _ => true
  | _ => false

namespace Console

variable {σ : Type}

/-- The keyboard filter of `dispatch_libinput`. -/
def filter (p : Console σ) (keysym : UInt32) (ctrl alt shift pressed : Bool) :
    Option ChordAction :=
  if !pressed then none
  else
    match detectVtChord keysym with
    | some vt => some (.vtSwitch vt)
    | none =>
      if detectOverlayChord keysym ctrl alt shift then some .overlayToggle
      else if p.screen.diagOverlayOpen && isDismissKey keysym then some .overlayDismiss
      else none

/-- The keyboard's focus, which is also `pointer_focus`. -/
def focus (p : Console σ) : Option Focus := p.screen.state.focus

section
variable (fromSlice : List UInt8 → Option Request) (seat : Seat σ)

/-- `handle_chord_action`. -/
def handleChordAction (p : Console σ) (a : ChordAction) (w : World) :
    Console σ × List ConsoleEvent :=
  match a with
  | .vtSwitch _ => (p, [.chord a])
  | .overlayToggle =>
    let r := p.screen.step fromSlice (.overlayToggle w)
    ({ p with screen := r.1 }, .chord a :: r.2.map .screen)
  | .overlayDismiss =>
    let r := p.screen.step fromSlice (.overlayDismiss w)
    ({ p with screen := r.1 }, .chord a :: r.2.map .screen)

/-- Calls into the seat, one after the other. -/
def callSeat (p : Console σ) (cs : List SeatCall) : Console σ × List ConsoleEvent :=
  let r := run seat.call p.seat cs
  ({ p with seat := r.1 }, r.2.map .forwarded)

/-- `dispatch_libinput`. -/
def dispatchLibinput (p : Console σ) (w : World) : InputEvent → Console σ × List ConsoleEvent
  | .keyboard keysym ctrl alt shift pressed =>
    let action := p.filter keysym ctrl alt shift pressed
    let input := p.callSeat seat [.key p.focus action.isSome]
    match action with
    | some a =>
      let chord := input.1.handleChordAction fromSlice a w
      (chord.1, input.2 ++ chord.2)
    | none => input
  | e => p.callSeat seat (e.calls p.focus)

/-- One callback. The events of the devices are dispatched while the libinput source is
registered. -/
def step (p : Console σ) : ConsoleInput → Console σ × List ConsoleEvent
  | .screen m =>
    if m.isChord then (p, [])
    else
      let r := p.screen.step fromSlice m
      ({ p with screen := r.1, seat := seat.settle p.seat r.1 }, r.2.map .screen)
  | .input e w => if p.screen.libinput then p.dispatchLibinput fromSlice seat w e else (p, [])
  | .vtRelsig paused reldisp =>
    if p.vtFd then
      ({ p with
          drmMaster := p.drmMaster && !(paused && !p.screen.outputs.isEmpty)
          released := p.released.or (if reldisp then some p.seat else none) }, [])
    else (p, [])
  | .vtAcqsig resumed =>
    ({ p with
        drmMaster := p.drmMaster || (resumed && p.vtFd && !p.screen.outputs.isEmpty)
        released := none }, [])

/-- Away from the VT, no input event reaches a client or triggers a chord. -/
def Isolated (p : Console σ) (m : ConsoleInput) : Prop :=
  p.released ≠ none → ∀ e ∈ (p.step fromSlice seat m).2, e.isHeard = false

end

/-- The compositor when its main loop begins. -/
def start (screen : Screen) (vtFd : Bool) (s : σ) : Console σ := ⟨screen, vtFd, true, s, none⟩

section
variable (seat : Seat σ)

/-- What an event has to meet that is dispatched away from the VT. A key is no chord, and nothing has
the keyboard's focus. Nothing has it either when the pointer moves or a touch point is put down; and
for any event of the pointer or of the touch screen, the seat was on no surface when the VT was
released. -/
def QuietEvent (p : Console σ) (s : σ) : InputEvent → Prop
  | .keyboard keysym ctrl alt shift pressed =>
    p.filter keysym ctrl alt shift pressed = none ∧ p.focus = none
  | .other => True
  | e => (e.aims = true → p.focus = none) ∧ ∀ f, ¬ seat.holds s f

def Quiet (p : Console σ) : ConsoleInput → Prop
  | .input e _ => ∀ s, p.released = some s → p.screen.libinput = true → p.QuietEvent seat s e
  | _ => True

/-! ## The seat away from the VT -/

/-- Away from the VT, the seat is on no surface that it was not on when the VT was released. -/
def Faded (p : Console σ) : Prop :=
  ∀ s, p.released = some s → ∀ f, seat.holds p.seat f → seat.holds s f

/-- Calls that put nothing on a surface reach those that were held, and no more are held after
them. -/
theorem run_call_untargeted (s : σ) {cs : List SeatCall}
    (hcs : ∀ c ∈ cs, c.target = none ∧ ∀ focus intercepted, c ≠ .key focus intercepted) :
    (∀ f, seat.holds (run seat.call s cs).1 f → seat.holds s f) ∧
      ∀ f ∈ (run seat.call s cs).2, seat.holds s f := by
  refine run_invariant_along
    (fun s' sent => (∀ f, seat.holds s' f → seat.holds s f) ∧ ∀ f ∈ sent, seat.holds s f)
    (P := fun _ c => c.target = none ∧ ∀ focus intercepted, c ≠ .key focus intercepted)
    (fun s' sent c hc h => ⟨fun f hf => ?_, fun f hf => ?_⟩) cs s []
    ((along_const_iff cs s).mpr hcs) ⟨fun _ h => h, by simp⟩
  · rcases seat.holds_call s' c f hf with hheld | htarget
    · exact h.1 f hheld
    · simp [hc.1] at htarget
  · rcases List.mem_append.mp hf with hf | hf
    · exact h.2 f hf
    rcases seat.sent_held s' c hc.2 f hf with hheld | htarget
    · exact h.1 f hheld
    · simp [hc.1] at htarget

theorem calls_untargeted {e : InputEvent} {focus : Option Focus}
    (h : e.aims = true → focus = none) :
    ∀ c ∈ e.calls focus, c.target = none ∧ ∀ focus intercepted, c ≠ .key focus intercepted := by
  cases e <;> simp_all [InputEvent.calls, InputEvent.aims, SeatCall.target]

/-- A key that no surface is there for. -/
theorem call_key_unfocused (s : σ) (intercepted : Bool) :
    (∀ f, seat.holds (seat.call s (.key none intercepted)).1 f → seat.holds s f) ∧
      (seat.call s (.key none intercepted)).2 = [] := by
  refine ⟨fun f hf => (seat.holds_call s _ f hf).resolve_right nofun, ?_⟩
  refine List.eq_nil_iff_forall_not_mem.mpr fun f hf => ?_
  cases (seat.sent_key s none intercepted f hf).2

section
variable (fromSlice : List UInt8 → Option Request)

theorem handleChordAction_seat (p : Console σ) (a : ChordAction) (w : World) :
    (p.handleChordAction fromSlice a w).1.released = p.released ∧
      (p.handleChordAction fromSlice a w).1.seat = p.seat := by
  cases a <;> exact ⟨rfl, rfl⟩

theorem dispatchLibinput_released (p : Console σ) (w : World) (e : InputEvent) :
    (p.dispatchLibinput fromSlice seat w e).1.released = p.released := by
  cases e with
  | keyboard keysym ctrl alt shift pressed =>
    unfold dispatchLibinput
    dsimp only
    cases p.filter keysym ctrl alt shift pressed with
    | none => rfl
    | some a => exact (handleChordAction_seat fromSlice _ a w).1
  | _ => rfl

/-- A quiet event away from the VT is heard by nobody, and the seat is on no more surfaces after
it. -/
theorem dispatchLibinput_quiet {p : Console σ} (hp : p.Faded seat) {s : σ}
    (hs : p.released = some s) (w : World) {e : InputEvent} (he : p.QuietEvent seat s e) :
    (p.dispatchLibinput fromSlice seat w e).1.Faded seat ∧
      ∀ e' ∈ (p.dispatchLibinput fromSlice seat w e).2, e'.isHeard = false := by
  have hcalls : (e.aims = true → p.focus = none) ∧ (∀ f, ¬ seat.holds s f) →
      (p.callSeat seat (e.calls p.focus)).1.Faded seat ∧
        ∀ e' ∈ (p.callSeat seat (e.calls p.focus)).2, e'.isHeard = false := by
    rintro ⟨hfocus, hnone⟩
    obtain ⟨hheld, hsent⟩ := run_call_untargeted seat p.seat (calls_untargeted hfocus)
    refine ⟨fun s' hs' f hf => hp s' hs' f (hheld f hf), fun e' he' => ?_⟩
    obtain ⟨f, hf, -⟩ := List.mem_map.mp he'
    exact absurd (hp s hs f (hsent f hf)) (hnone f)
  cases e with
  | keyboard keysym ctrl alt shift pressed =>
    obtain ⟨hfilter, hfocus⟩ := he
    obtain ⟨hheld, hsent⟩ := call_key_unfocused seat p.seat false
    have hr : p.dispatchLibinput fromSlice seat w (.keyboard keysym ctrl alt shift pressed)
        = ({ p with seat := (seat.call p.seat (.key none false)).1 }, []) := by
      simp [dispatchLibinput, callSeat, run, hfilter, hfocus, hsent]
    rw [hr]
    exact ⟨fun s' hs' f hf => hp s' hs' f (hheld f hf), by simp⟩
  | other => exact ⟨hp, by simp [dispatchLibinput, callSeat, run, InputEvent.calls]⟩
  | _ => exact hcalls he

/-- **One step.** -/
theorem step_quiet {p : Console σ} (hp : p.Faded seat) {m : ConsoleInput} (hm : p.Quiet seat m) :
    (p.step fromSlice seat m).1.Faded seat ∧ p.Isolated fromSlice seat m := by
  unfold Isolated
  cases m with
  | screen m =>
    unfold step
    dsimp only
    split_ifs
    · exact ⟨hp, by simp⟩
    · refine ⟨fun s hs f hf => hp s hs f (seat.holds_settle _ _ f hf), fun _ e he => ?_⟩
      obtain ⟨_, -, rfl⟩ := List.mem_map.mp he
      rfl
  | input e w =>
    unfold step
    dsimp only
    split_ifs with hl
    · cases hs : p.released with
      | none =>
        have hs' := (dispatchLibinput_released seat fromSlice p w e).trans hs
        exact ⟨fun s h => by simp [hs'] at h, fun h => absurd rfl h⟩
      | some s =>
        obtain ⟨hfaded, hheard⟩ := dispatchLibinput_quiet seat fromSlice hp hs w (hm s hs hl)
        exact ⟨hfaded, fun _ => hheard⟩
    · exact ⟨hp, by simp⟩
  | vtRelsig paused reldisp =>
    unfold step
    dsimp only
    split_ifs with hvt hreldisp
    · refine ⟨fun s hs f hf => ?_, by simp⟩
      cases hr : p.released with
      | none =>
        obtain rfl : p.seat = s := by simpa [hr] using hs
        exact hf
      | some s' => exact hp s (by simpa [hr] using hs) f hf
    · exact ⟨fun s hs => hp s (by simpa using hs), by simp⟩
    · exact ⟨hp, by simp⟩
  | vtAcqsig resumed => exact ⟨fun s hs => by simp [step] at hs, by simp [step]⟩

/-! ## The VT signals make no difference -/

/-- Two consoles that differ only in what the VT signals write. -/
structure Alike (p q : Console σ) : Prop where
  screen : p.screen = q.screen
  seat : p.seat = q.seat

theorem Alike.chord {p q : Console σ} (h : Alike p q) (a : ChordAction) (w : World) :
    (p.handleChordAction fromSlice a w).2 = (q.handleChordAction fromSlice a w).2 ∧
    Alike (p.handleChordAction fromSlice a w).1 (q.handleChordAction fromSlice a w).1 := by
  cases a with
  | vtSwitch vt => exact ⟨rfl, h⟩
  | overlayToggle | overlayDismiss =>
    simp only [handleChordAction, h.screen]
    exact ⟨trivial, rfl, h.seat⟩

theorem Alike.callSeat {p q : Console σ} (h : Alike p q) (cs : List SeatCall) :
    (p.callSeat seat cs).2 = (q.callSeat seat cs).2 ∧
    Alike (p.callSeat seat cs).1 (q.callSeat seat cs).1 := by
  simp only [Console.callSeat, h.seat]
  exact ⟨trivial, h.screen, rfl⟩

theorem Alike.dispatch {p q : Console σ} (h : Alike p q) (w : World) (e : InputEvent) :
    (p.dispatchLibinput fromSlice seat w e).2 = (q.dispatchLibinput fromSlice seat w e).2 ∧
    Alike (p.dispatchLibinput fromSlice seat w e).1 (q.dispatchLibinput fromSlice seat w e).1 := by
  have hfocus : p.focus = q.focus := by rw [Console.focus, Console.focus, h.screen]
  cases e with
  | keyboard keysym ctrl alt shift pressed =>
    have hfilter : p.filter keysym ctrl alt shift pressed
        = q.filter keysym ctrl alt shift pressed := by
      simp only [Console.filter, h.screen]
    unfold dispatchLibinput
    dsimp only
    rw [hfilter, hfocus]
    cases q.filter keysym ctrl alt shift pressed with
    | none => exact h.callSeat seat _
    | some a =>
      obtain ⟨hev, hin⟩ := h.callSeat seat [.key q.focus true]
      obtain ⟨hev', hchord⟩ := hin.chord fromSlice a w
      exact ⟨congrArg₂ (· ++ ·) hev hev', hchord⟩
  | _ =>
    simp only [dispatchLibinput, hfocus]
    exact h.callSeat seat _

theorem Alike.step {p q : Console σ} (h : Alike p q) {m : ConsoleInput} (hm : m.isVt = false) :
    (p.step fromSlice seat m).2 = (q.step fromSlice seat m).2 ∧
    Alike (p.step fromSlice seat m).1 (q.step fromSlice seat m).1 := by
  unfold Console.step
  cases m with
  | screen m =>
    dsimp only
    split_ifs
    · exact ⟨rfl, h⟩
    · rw [h.screen, h.seat]
      exact ⟨rfl, rfl, rfl⟩
  | input e w =>
    dsimp only
    rw [h.screen]
    split_ifs
    · exact h.dispatch seat fromSlice w e
    · exact ⟨rfl, h⟩
  | vtRelsig paused reldisp => cases hm
  | vtAcqsig resumed => cases hm

/-- A VT signal emits nothing, and its handlers write nothing that the rest of the compositor
reads. -/
theorem alike_vt (p : Console σ) {m : ConsoleInput} (hm : m.isVt = true) :
    (p.step fromSlice seat m).2 = [] ∧ Alike (p.step fromSlice seat m).1 p := by
  unfold Console.step
  cases m with
  | screen m => cases hm
  | input e w => cases hm
  | vtRelsig paused reldisp =>
    dsimp only
    split_ifs <;> exact ⟨rfl, rfl, rfl⟩
  | vtAcqsig resumed => exact ⟨rfl, rfl, rfl⟩

/-- **The VT signals make no difference.** A run forwards the events, and triggers the chords, that
it would without them. -/
theorem run_without_vt (ms : List ConsoleInput) : ∀ p q : Console σ, Alike p q →
    (run (step fromSlice seat) p ms).2 = (run (step fromSlice seat) q (ms.filter (!·.isVt))).2 ∧
    Alike (run (step fromSlice seat) p ms).1
      (run (step fromSlice seat) q (ms.filter (!·.isVt))).1 := by
  induction ms with
  | nil => exact fun p q h => ⟨rfl, h⟩
  | cons m ms ih =>
    intro p q h
    by_cases hm : m.isVt = true
    · obtain ⟨hev, halike⟩ := alike_vt seat fromSlice p hm
      have hpq : Alike (p.step fromSlice seat m).1 q :=
        ⟨halike.screen.trans h.screen, halike.seat.trans h.seat⟩
      rw [List.filter_cons_of_neg (by simp [hm])]
      simpa [run, hev] using ih _ _ hpq
    · have hm' : m.isVt = false := by simpa using hm
      obtain ⟨hev, hpq⟩ := h.step seat fromSlice hm'
      rw [List.filter_cons_of_pos (by simp [hm'])]
      simpa [run, hev] using ih _ _ hpq

/-! ## Whole runs -/

/-- **VT isolation.** In every run of the compositor with any seat, no key, pointer or touch event
that comes between the release of the VT and its next acquire reaches a client or triggers a chord,
if those that are dispatched there are all quiet. -/
theorem isolated_run (s : σ) (inInitramfs : Bool) (greeterUid : UInt32) (pamService : String)
    (greeter : Option UInt32) (crtcs : List Nat) (config : Option WallpaperConfig) (libinput : Bool)
    (w : World) (vtFd : Bool) (ms : List ConsoleInput)
    (h : Along (step fromSlice seat) (Quiet seat) (start
      (Screen.start inInitramfs greeterUid pamService greeter crtcs config libinput w) vtFd s) ms) :
    let p := start
      (Screen.start inInitramfs greeterUid pamService greeter crtcs config libinput w) vtFd s
    ∀ pre m post, ms = pre ++ m :: post →
      Isolated fromSlice seat (run (step fromSlice seat) p pre).1 m := by
  rintro p pre m post rfl
  obtain ⟨hpre, hm, -⟩ := (along_append pre (m :: post) p).mp h
  have hfaded : (run (step fromSlice seat) p pre).1.Faded seat :=
    run_invariant_along (fun p _ => p.Faded seat)
      (fun _ _ _ hq hf => (step_quiet seat fromSlice hf hq).1) pre p [] hpre
      (fun _ hs => by cases hs)
  exact (step_quiet seat fromSlice hfaded hm).2

end

end

/-! ## A seat with a pointer -/

/-- The calls into a seat without touch points and with no button held down: its state is the surface
under the pointer, and a surface that the pointer leaves is told so. -/
def plainCall (pointer : Option Focus) : SeatCall → Option Focus × List Focus
  | .key focus intercepted => (pointer, if intercepted then [] else focus.toList)
  | .motion focus =>
    (focus, (if pointer = focus then [] else pointer.toList) ++ focus.toList)
  | .button | .axis | .frame => (pointer, pointer.toList)
  | .touchDown _ _ | .touchUp _ | .touchMotion _ _ | .touchFrame | .touchCancel => (pointer, [])

def plainSeat : Seat (Option Focus) where
  call := plainCall
  settle pointer _ := pointer
  holds pointer f := pointer = some f
  sent_key pointer focus intercepted f hf := by
    cases intercepted <;> simp_all [plainCall]
  sent_held pointer c hc f hf := by
    cases c with
    | key focus intercepted => exact absurd rfl (hc focus intercepted)
    | motion focus =>
      rcases List.mem_append.mp hf with hf | hf
      · split_ifs at hf <;> simp_all
      · exact .inr (by simpa [SeatCall.target] using hf)
    | _ => simp_all [plainCall]
  holds_call pointer c f h := by
    cases c with
    | motion focus => exact .inr h
    | _ => exact .inl h
  holds_settle _ _ _ h := h

/-- Nothing is on the screen yet. What is typed and pointed at on the text console stays there, and
back home Ctrl+Alt+F3 asks for the next switch. -/
theorem empty_screen_isolated :
    let w : World := fun _ _ => ⟨.queued, true, true, [], 0, true⟩
    let p := start (Screen.start false 990 "halmasuit" (some 50) [0] (some .shader) true w) true none
    let ms : List ConsoleInput := [.input .pointerMotion w, .vtRelsig true true,
      .input (.keyboard 0x61 false false false true) w, .input .pointerMotion w,
      .vtAcqsig true, .input (.keyboard 0x1008FE03 true true false true) w]
    (∀ pre m post, ms = pre ++ m :: post →
      Isolated readRequest plainSeat (run (step readRequest plainSeat) p pre).1 m) ∧
    (run (step readRequest plainSeat) p ms).2 = [.chord (.vtSwitch 3)] := by
  intro w p ms
  have hquiet : Along (step readRequest plainSeat) (Quiet plainSeat) p ms := by
    refine ⟨?_, trivial, ?_, ?_, trivial, ?_, trivial⟩
    · intro s hs
      cases hs
    · exact fun s _ _ => ⟨by decide +kernel, by decide +kernel⟩
    · intro s hs _
      refine ⟨fun _ => by decide +kernel, fun f hf => ?_⟩
      cases (Option.some.inj hs).trans hf
    · intro s hs
      cases hs
  exact ⟨isolated_run plainSeat readRequest none false 990 "halmasuit" (some 50) [0] (some .shader)
    true w true ms hquiet, by decide +kernel⟩

/-- Alice's session runs and the user has switched to a text console. The `a` that is typed there
reaches her session, and Ctrl+Alt+F3 asks the kernel for another switch. -/
theorem released_input_heard :
    let w : World := fun _ _ => ⟨.queued, true, true, [], 0, true⟩
    let p := start (Screen.start false 990 "halmasuit" (some 50) [0] (some .shader) true w) true none
    let away := (run (step readRequest plainSeat) p
      ((login 0 "alice" 1000).map (.screen <| .callback · false w) ++ [.vtRelsig true true])).1
    let a : ConsoleInput := .input (.keyboard 0x61 false false false true) w
    let f3 : ConsoleInput := .input (.keyboard 0x1008FE03 true true false true) w
    away.released ≠ none ∧ away.drmMaster = false ∧
      (away.step readRequest plainSeat a).2 = [.forwarded (.toplevel ⟨0, 1000⟩)] ∧
      (away.step readRequest plainSeat f3).2 = [.chord (.vtSwitch 3)] ∧
      ¬ Isolated readRequest plainSeat away a ∧ ¬ Isolated readRequest plainSeat away f3 := by
  intro w p away a f3
  have hreleased : away.released ≠ none := by decide +kernel
  have ha : (away.step readRequest plainSeat a).2 = [.forwarded (.toplevel ⟨0, 1000⟩)] := by
    decide +kernel
  have hf3 : (away.step readRequest plainSeat f3).2 = [.chord (.vtSwitch 3)] := by decide +kernel
  refine ⟨hreleased, by decide +kernel, ha, hf3, fun h => ?_, fun h => ?_⟩
  · cases h hreleased _ (by rw [ha]; exact List.mem_singleton_self _)
  · cases h hreleased _ (by rw [hf3]; exact List.mem_singleton_self _)

end Console

end Halmasuit.Compositor
