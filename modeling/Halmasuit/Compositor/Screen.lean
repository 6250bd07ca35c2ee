import Halmasuit.Compositor.Login
import Halmasuit.Lib.Flip
import Halmasuit.Wallpaper.Engine

/-!
# The screen

The compositor with its DRM backend: the frames that the render paths of `halmasuit/src/main.rs`
composite, and the page flips of `halmasuit/src/drm.rs`. The paths are `repaint` (1578–1605), the
vblank of `handle_drm_event` (4459–4618), the keepalive timer (5660–5738), `apply_overlay_state`
(690–724), the overlay's journal (3838–3859), `layer_destroyed` (1661–1693), `toplevel_destroyed`
(1780–1793), `apply_swap_action` (1161–1179) and `graceful_shutdown` (3675–3710).

* A `Frame` is a call of `render_layer_elements`, `render_one_frame` or `render_output`: the
  foreground it is given, and `foreground_toplevel` and `shutting_down` at that moment.
* What the calls find on each output is in a `World`. A path that renders every output stops at one
  that fails.
* The `DrmCompositor` of an output is a `FlipQueue`: a frame is held back until the one before it is
  acknowledged. The device sends a VBlank for each flip it completes. Errors of the device are left
  out.
* Without a DRM backend there is no output.
-/

namespace Halmasuit.Compositor

open Halmasuit.Greetd (Request readRequest)
open Halmasuit.Wallpaper (Engine WallpaperConfig WallpaperTickAction)
open Halmasuit.Lib

/-! ## Frames -/

/-- The calls that composite a frame. -/
inductive RenderPath where
  | frameZero
  | repaint
  | vblank
  | backstop
  | overlay
  | overlayJournal
  | layerDestroyed
  | toplevelDestroyed
  | swap
  | revert
  | shutdown
  deriving DecidableEq, Repr

/-- A frame: the foreground that was passed, and the scene it was composited in. -/
structure Frame where
  path : RenderPath
  foreground : Option Surface
  toplevel : Option Surface
  shuttingDown : Bool
  deriving DecidableEq, Repr

/-- What becomes of a frame on an output. -/
inductive RenderResult where
  | queued
  | noDamage
  | failed
  deriving DecidableEq, Repr

/-- What compositing on an output finds. -/
structure Composite where
  result : RenderResult
  wallpaper : Wallpaper.Answers
  deriving DecidableEq, Repr

/-- What each path finds on each output. -/
abbrev World := RenderPath → Nat → Composite

/-- `OutputSurface`. -/
structure DrmOutput where
  crtc : Nat
  flips : FlipQueue
  deriving DecidableEq, Repr

/-- The compositor, with its screen. -/
structure Screen where
  state : HalmasuitState
  outputs : List DrmOutput
  engine : Engine
  /-- The wallpaper timer is registered. -/
  wallpaperTimer : Bool
  lastVblank : Option Nat
  diagOverlayOpen : Bool
  framePending : Bool
  /-- `libinput_token` is `Some`. -/
  libinput : Bool
  /-- How many frames were composited. -/
  frames : Nat

/-- What happens, in order. -/
inductive ScreenEvent where
  | compositor (e : Event)
  | frame (f : Frame)
  /-- The device says that it completed a flip. -/
  | vblank (crtc : Nat)
  /-- `frame_submitted`. -/
  | submitted (crtc : Nat)
  deriving DecidableEq

/-- A callback, with what it finds. -/
inductive ScreenInput where
  /-- `input` is the outcome of `setup_libinput_direct`, in the `Setup` tick. -/
  | callback (i : HalmasuitState.Input) (input : Bool) (w : World)
  | layerDestroyed (w : World)
  | overlayToggle (w : World)
  | overlayDismiss (w : World)
  | overlayJournal (w : World)
  | vblank (crtc now : Nat) (w : World)
  | wallpaperTick (a : Wallpaper.Answers) (now : Nat) (w : World)
  /-- The end of a turn of the main loop. -/
  | turn (w : World)

/-! ## Outputs -/

namespace DrmOutput

/-- The output that owns the CRTC is changed. -/
def update (crtc : Nat) (f : FlipQueue → FlipQueue) : List DrmOutput → List DrmOutput
  | [] => []
  | o :: os => if o.crtc = crtc then ⟨o.crtc, f o.flips⟩ :: os else o :: update crtc f os

/-- The flips of the output that owns the CRTC. -/
def flips? (crtc : Nat) : List DrmOutput → Option FlipQueue
  | [] => none
  | o :: os => if o.crtc = crtc then some o.flips else flips? crtc os

/-- The loop of `render_all`, for the `n`-th frame. -/
def renderAll (w : Nat → Composite) (n : Nat) :
    Engine → List DrmOutput → Engine × List DrmOutput
  | e, [] => (e, [])
  | e, o :: os =>
    let e' := (Engine.renderElement e (w o.crtc).wallpaper).1
    let r := renderAll w n e' os
    match (w o.crtc).result with
    | .queued => (r.1, ⟨o.crtc, o.flips.queue n⟩ :: r.2)
    | .noDamage => (r.1, o :: r.2)
    | .failed => (e', o :: os)

end DrmOutput

namespace Screen

open HalmasuitState

/-! ## Rendering -/

/-- `render_all`. -/
def renderAll (p : Screen) (w : Nat → Composite) : Screen :=
  let r := DrmOutput.renderAll w (p.frames + 1) p.engine p.outputs
  { p with engine := r.1, outputs := r.2, frames := p.frames + 1 }

/-- `render_output`, on an output there is. -/
def renderOutput (p : Screen) (crtc : Nat) (c : Composite) : Screen :=
  { p with
    engine := (Engine.renderElement p.engine c.wallpaper).1
    outputs := if c.result = .queued then
        DrmOutput.update crtc (·.queue (p.frames + 1)) p.outputs
      else p.outputs
    frames := p.frames + 1 }

/-- The frame of a path. -/
def frame (p : Screen) (path : RenderPath) (foreground : Option Surface) : Frame :=
  ⟨path, foreground, p.state.foregroundToplevel, p.state.shuttingDown⟩

/-- A frame on every output. -/
def composite (p : Screen) (f : Frame) (w : World) : Screen × List ScreenEvent :=
  if p.outputs = [] then (p, []) else (p.renderAll (w f.path), [.frame f])

/-- Frames one after the other. -/
def compositeAll (w : World) : Screen → List Frame → Screen × List ScreenEvent
  | p, [] => (p, [])
  | p, f :: fs =>
    let r := p.composite f w
    let rs := compositeAll w r.1 fs
    (rs.1, r.2 ++ rs.2)

/-- The foreground that `repaint` and the vblank pass. -/
def foreground (p : Screen) : Option Surface :=
  if p.state.shuttingDown then none else p.state.foregroundToplevel

/-! ## The callbacks of the compositor -/

/-- `graceful_shutdown` latched `shutting_down`. -/
def latches (s s' : HalmasuitState) : Bool := !s.shuttingDown && s'.shuttingDown

/-- The frame of `apply_swap_action`, where the gate was called. -/
def swapFrame (s : HalmasuitState) : Event → Option Frame
  | .gate _ .swap => some ⟨.swap, s.foregroundToplevel, s.foregroundToplevel, s.shuttingDown⟩
  | .gate _ .revert => some ⟨.revert, none, s.foregroundToplevel, s.shuttingDown⟩
  | _ => none

/-- The frame of `toplevel_destroyed`, which has cleared `foreground_toplevel`. -/
def destroyedFrame (s : HalmasuitState) : Input → Option Frame
  | .toplevelDestroyed t _ _ =>
    if t.uid ∈ s.clients ∧ s.foregroundToplevel = some t then
      some ⟨.toplevelDestroyed, none, none, s.shuttingDown⟩
    else none
  | _ => none

/-- The frames of a callback. `graceful_shutdown` composites before it latches. -/
def callbackFrames (s : HalmasuitState) (i : Input) (s' : HalmasuitState) (es : List Event) :
    List Frame :=
  (destroyedFrame s i).toList ++ es.filterMap (swapFrame s') ++
    if latches s s' then [⟨.shutdown, none, none, false⟩] else []

/-- A commit asks for a repaint. -/
def commits (s : HalmasuitState) : Input → Bool
  | .commit c _ => decide (c.surface.uid ∈ s.clients) && !c.sync
  | _ => false

/-- The `Setup` tick sets libinput up where it is not; `graceful_shutdown` takes it down. -/
def libinputAfter (p : Screen) (i : Input) (s' : HalmasuitState) (input : Bool) : Bool :=
  match i with
  | .postPivotSetup _ _ _ =>
    if Source.pivotPoll ∈ p.state.sources then p.libinput || input else p.libinput
  | _ => p.libinput && !latches p.state s'

/-! ## Steps -/

/-- `vblank_stale`, with the 200 ms of the keepalive timer. -/
def vblankStale (p : Screen) (now : Nat) : Bool :=
  match p.lastVblank with
  | none => true
  | some t => decide (200 ≤ now - t)

/-- `should_render` of the keepalive timer. -/
def shouldRender (p : Screen) (action : WallpaperTickAction) (now : Nat) : Bool :=
  match action with
  | .renderAndSwapped => true
  | .renderContinuous => p.vblankStale now
  | .idle => false

/-- `handle_drm_event`. -/
def handleDrmEvent (p : Screen) (crtc now : Nat) (w : World) : Screen × List ScreenEvent :=
  if p.state.shuttingDown then (p, [])
  else
    let p := { p with
      outputs := DrmOutput.update crtc FlipQueue.submitted p.outputs
      lastVblank := some now }
    if p.engine.wantsContinuousRender then
      (p.renderOutput crtc (w .vblank crtc),
      [.submitted crtc, .frame (p.frame .vblank p.foreground)])
    else (p, [.submitted crtc])

/-- The device completes a flip, if it has one to complete, and the event is handled. -/
def deliver (p : Screen) (crtc now : Nat) (w : World) : Screen × List ScreenEvent :=
  if (DrmOutput.flips? crtc p.outputs).any (·.inFlight) then
    let done := { p with outputs := DrmOutput.update crtc FlipQueue.complete p.outputs }
    let r := done.handleDrmEvent crtc now w
    (r.1, .vblank crtc :: r.2)
  else (p, [])

/-- One callback. -/
def step (fromSlice : List UInt8 → Option Request) (p : Screen) :
    ScreenInput → Screen × List ScreenEvent
  | .callback i input w =>
    let r := p.state.step fromSlice i
    let rs := compositeAll w { p with
        state := r.1
        framePending := p.framePending || commits p.state i
        libinput := p.libinputAfter i r.1 input }
      (callbackFrames p.state i r.1 r.2)
    (rs.1, r.2.map .compositor ++ rs.2)
  | .layerDestroyed w => p.composite (p.frame .layerDestroyed p.state.foregroundToplevel) w
  | .overlayToggle w =>
    if p.libinput then
      { p with diagOverlayOpen := !p.diagOverlayOpen }.composite
        (p.frame .overlay p.state.foregroundToplevel) w
    else (p, [])
  | .overlayDismiss w =>
    if p.libinput && p.diagOverlayOpen then
      { p with diagOverlayOpen := false }.composite
        (p.frame .overlay p.state.foregroundToplevel) w
    else (p, [])
  | .overlayJournal w =>
    if p.diagOverlayOpen then p.composite (p.frame .overlayJournal p.state.foregroundToplevel) w
    else (p, [])
  | .vblank crtc now w => p.deliver crtc now w
  | .wallpaperTick a now w =>
    if p.wallpaperTimer && !p.outputs.isEmpty then
      let r := Engine.tickWallpaper p.engine a
      if p.shouldRender r.1.2 now then
        { p with engine := r.1.1 }.composite (p.frame .backstop none) w
      else ({ p with engine := r.1.1 }, [])
    else (p, [])
  | .turn w =>
    if p.framePending then
      { p with framePending := false }.composite (p.frame .repaint p.foreground) w
    else (p, [])

/-- The compositor when its main loop begins, after frame 0. -/
def start (inInitramfs : Bool) (greeterUid : UInt32) (pamService : String) (greeter : Option UInt32)
    (crtcs : List Nat) (config : Option WallpaperConfig) (libinput : Bool) (w : World) : Screen :=
  renderAll
    { state := .start inInitramfs greeterUid pamService greeter
      outputs := crtcs.map (⟨·, 0, none, none, false⟩)
      engine := if crtcs = [] then none else config.map WallpaperConfig.backend
      wallpaperTimer := config.any WallpaperConfig.needsTick
      lastVblank := none
      diagOverlayOpen := false
      framePending := false
      libinput := libinput
      frames := 0 }
    (w .frameZero)

/-! ## The events of a frame -/

theorem composite_events (p : Screen) (f : Frame) (w : World) :
    (p.composite f w).2 = if p.outputs = [] then [] else [.frame f] := by
  unfold composite
  split_ifs <;> rfl

theorem renderAll_crtcs (w : Nat → Composite) (n : Nat) (os : List DrmOutput) : ∀ e : Engine,
    (DrmOutput.renderAll w n e os).2.map DrmOutput.crtc = os.map DrmOutput.crtc := by
  induction os with
  | nil => exact fun e => rfl
  | cons o os ih =>
    intro e
    unfold DrmOutput.renderAll
    dsimp only
    split
    · simp [ih]
    · simp [ih]
    · rfl

theorem composite_outputs (p : Screen) (f : Frame) (w : World) :
    (p.composite f w).1.outputs = [] ↔ p.outputs = [] := by
  unfold composite
  split_ifs with h
  · exact Iff.rfl
  · have hmap := renderAll_crtcs (w f.path) (p.frames + 1) p.outputs p.engine
    constructor
    · intro h'
      have hnil : (DrmOutput.renderAll (w f.path) (p.frames + 1) p.engine p.outputs).2 = [] := h'
      rw [hnil] at hmap
      exact List.map_eq_nil_iff.mp hmap.symm
    · exact fun h' => absurd h' h

theorem compositeAll_events (w : World) (fs : List Frame) : ∀ p : Screen,
    (compositeAll w p fs).2 = if p.outputs = [] then [] else fs.map .frame := by
  induction fs with
  | nil => simp [compositeAll]
  | cons f fs ih =>
    intro p
    simp only [compositeAll, ih, composite_events, composite_outputs]
    split_ifs <;> simp

end Screen

end Halmasuit.Compositor
