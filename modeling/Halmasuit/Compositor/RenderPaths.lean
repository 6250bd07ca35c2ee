import Halmasuit.Compositor.Screen
import Halmasuit.Compositor.Windows

/-!
# The render paths

Each path that composites a frame works out on its own which toplevel it passes as the foreground.
`repaint` and the vblank pass `foreground_toplevel` unless the compositor is shutting down. The
keepalive timer calls `render_one_frame`, which has no foreground. The overlay, the end of a layer
and the swap pass `foreground_toplevel` whether or not the compositor is shutting down.

Headlines:
* `agrees_step_iff`: which callbacks composite what the scene says.
* `frames_run_iff`: the same over whole runs.
-/

namespace Halmasuit.Compositor

open Halmasuit.Greetd (Request readRequest)
open Halmasuit.Wallpaper (Engine WallpaperConfig)
open Halmasuit.Lib

/-- The frame passes the foreground toplevel, and none where the compositor shuts down. -/
def Frame.agrees (f : Frame) : Prop :=
  f.foreground = if f.shuttingDown then none else f.toplevel

instance (f : Frame) : Decidable f.agrees := inferInstanceAs (Decidable (_ = _))

/-- A frame, unless it is that of a revert, passes what the scene says. -/
def ScreenEvent.agrees : ScreenEvent → Prop
  | .frame f => f.path ≠ .revert → f.agrees
  | _ => True

/-- The frames of a run: each passes what its scene says, and two in the same scene draw the same,
however many are between them. The frame of a revert is left out. -/
structure NoFlash (tr : List ScreenEvent) : Prop where
  agrees : ∀ f, .frame f ∈ tr → f.path ≠ .revert → f.agrees
  steady : ∀ f g, .frame f ∈ tr → .frame g ∈ tr → f.path ≠ .revert → g.path ≠ .revert →
    f.toplevel = g.toplevel → f.shuttingDown = g.shuttingDown → f.foreground = g.foreground

theorem noFlash_iff (tr : List ScreenEvent) : NoFlash tr ↔ ∀ e ∈ tr, e.agrees := by
  constructor
  · intro h e he
    cases e with
    | frame f => exact h.agrees f he
    | _ => trivial
  · intro h
    refine ⟨fun f hf => h _ hf, fun f g hf hg hfr hgr htop hdown => ?_⟩
    have hf' : f.agrees := h _ hf hfr
    have hg' : g.agrees := h _ hg hgr
    unfold Frame.agrees at hf' hg'
    rw [hf', hg', htop, hdown]

namespace Screen

open HalmasuitState

/-- No toplevel is in the foreground of a compositor that shuts down. -/
def Cleared (p : Screen) : Prop :=
  p.state.shuttingDown = true → p.state.foregroundToplevel = none

/-- What a callback has to meet, where there is a screen. The keepalive timer may render only where
there is nothing in the foreground; a path that does not ask whether the compositor shuts down, only
where it has no toplevel then. -/
def Bare (p : Screen) (m : ScreenInput) : Prop :=
  p.outputs ≠ [] →
    match m with
    | .callback i _ _ => ∀ c ∈ p.state.gateCall i, (p.state.swap.call c).1 = .swap → p.Cleared
    | .layerDestroyed _ => p.Cleared
    | .overlayToggle _ => p.libinput = true → p.Cleared
    | .overlayDismiss _ => p.libinput = true → p.diagOverlayOpen = true → p.Cleared
    | .overlayJournal _ => p.diagOverlayOpen = true → p.Cleared
    | .wallpaperTick a now _ => p.wallpaperTimer = true →
      p.shouldRender (Engine.tickWallpaper p.engine a).1.2 now = true → p.foreground = none
    | .vblank _ _ _ => True
    | .turn _ => True

/-! ## The frames of a path -/

theorem agrees_foreground (p : Screen) (path : RenderPath) :
    (p.frame path p.foreground).agrees := rfl

theorem agrees_toplevel_iff (p : Screen) (path : RenderPath) :
    (p.frame path p.state.foregroundToplevel).agrees ↔ p.Cleared := by
  unfold Frame.agrees frame Cleared
  cases p.state.shuttingDown <;> simp

theorem agrees_none_iff (p : Screen) (path : RenderPath) :
    (p.frame path none).agrees ↔ p.foreground = none := by
  unfold Frame.agrees frame foreground
  exact eq_comm

/-- One frame on every output. -/
theorem agrees_composite (p : Screen) (f : Frame) (w : World) :
    (∀ e ∈ (p.composite f w).2, e.agrees) ↔ (p.outputs ≠ [] → f.path ≠ .revert → f.agrees) := by
  rw [composite_events]
  by_cases h : p.outputs = []
  · simp [h]
  · simp [h, ScreenEvent.agrees]

section
variable (fromSlice : List UInt8 → Option Request)

/-- The scene in which the frame of a swap is composited. -/
theorem swap_scene (s : HalmasuitState) {i : Input} {c : GateCall} (hc : s.gateCall i = some c)
    (ha : (s.swap.call c).1 = .swap) :
    (s.step fromSlice i).1.foregroundToplevel = s.foregroundToplevel ∧
      (s.step fromSlice i).1.shuttingDown = s.shuttingDown := by
  have hm := s.step_moves fromSlice i
  refine ⟨(hm.swap_front hc ha).2.1, ?_⟩
  obtain ⟨t, w, f, ht, -, heq⟩ := hm.gate_some hc
  rw [heq, ← ht.shuttingDown]
  rw [← ht.swap] at ha
  rw [Scene.feedGate_swap t c w ha]

/-- The frames of a callback: only that of a swap may pass what the scene does not say. -/
theorem agrees_callbackFrames (s : HalmasuitState) (i : Input) :
    (∀ f ∈ callbackFrames s i (s.step fromSlice i).1 (s.step fromSlice i).2,
      f.path ≠ .revert → f.agrees) ↔
    ∀ c ∈ s.gateCall i, (s.swap.call c).1 = .swap → s.shuttingDown = true →
      s.foregroundToplevel = none := by
  constructor
  · intro h c hc ha hdown
    obtain ⟨htop, hdown'⟩ := swap_scene fromSlice s hc ha
    have hgate : .gate c .swap ∈ (s.step fromSlice i).2 :=
      (gate_mem_step fromSlice s i c .swap).mpr ⟨hc, ha⟩
    have hmem : (⟨.swap, s.foregroundToplevel, s.foregroundToplevel, s.shuttingDown⟩ : Frame) ∈
        callbackFrames s i (s.step fromSlice i).1 (s.step fromSlice i).2 := by
      refine List.mem_append_left _
        (List.mem_append_right _ (List.mem_filterMap.mpr ⟨_, hgate, ?_⟩))
      rw [swapFrame, htop, hdown']
    have hagrees := h _ hmem (by simp)
    simpa [Frame.agrees, hdown] using hagrees
  · intro h f hf hpath
    rcases List.mem_append.mp hf with hf | hf
    · rcases List.mem_append.mp hf with hf | hf
      · -- `toplevel_destroyed` has cleared the slot.
        rw [Option.mem_toList] at hf
        unfold destroyedFrame at hf
        split at hf
        · split_ifs at hf
          cases hf
          simp [Frame.agrees]
        · cases hf
      · obtain ⟨e, he, hfe⟩ := List.mem_filterMap.mp hf
        unfold swapFrame at hfe
        split at hfe
        · rename_i c
          cases hfe
          obtain ⟨hc, ha⟩ := (gate_mem_step fromSlice s i c .swap).mp he
          obtain ⟨htop, hdown⟩ := swap_scene fromSlice s hc ha
          unfold Frame.agrees
          dsimp only
          rw [htop, hdown]
          by_cases hd : s.shuttingDown = true
          · simp [h c hc ha hd]
          · simp [hd]
        · cases hfe
          exact absurd rfl hpath
        · cases hfe
    · split_ifs at hf
      · rw [List.mem_singleton] at hf
        subst hf
        rfl
      · cases hf

/-! ## Steps and runs -/

/-- A path that passes the toplevel without asking whether the compositor shuts down. -/
theorem agrees_unasked_iff (p q : Screen) (hout : q.outputs = p.outputs)
    (path : RenderPath) (hpath : path ≠ .revert) (w : World) :
    (∀ e ∈ (q.composite (p.frame path p.state.foregroundToplevel) w).2, e.agrees) ↔
      (p.outputs ≠ [] → p.Cleared) := by
  rw [agrees_composite, agrees_toplevel_iff, hout]
  simp [frame, hpath]

/-- A flip that completes renders what is in the foreground. -/
theorem agrees_vblank (p : Screen) (crtc now : Nat) (w : World) :
    ∀ e ∈ (p.step fromSlice (.vblank crtc now w)).2, e.agrees := by
  intro e he
  unfold step deliver at he
  dsimp only at he
  split_ifs at he
  · unfold handleDrmEvent at he
    dsimp only at he
    split_ifs at he
    · rw [List.mem_singleton] at he
      subst he
      trivial
    · simp only [List.mem_cons, List.not_mem_nil, or_false] at he
      rcases he with rfl | rfl | rfl
      · trivial
      · trivial
      · exact fun _ => agrees_foreground _ _
    · simp only [List.mem_cons, List.not_mem_nil, or_false] at he
      rcases he with rfl | rfl <;> trivial
  · cases he

theorem agrees_wallpaperTick_iff (p : Screen) (a : Wallpaper.Answers) (now : Nat) (w : World) :
    (∀ e ∈ (p.step fromSlice (.wallpaperTick a now w)).2, e.agrees) ↔
      p.Bare (.wallpaperTick a now w) := by
  unfold step Bare
  dsimp only
  by_cases hr : p.shouldRender (Engine.tickWallpaper p.engine a).1.2 now = true
  · by_cases ht : p.wallpaperTimer = true
    · by_cases ho : p.outputs = []
      · simp [ho]
      · have hcond : (p.wallpaperTimer && !p.outputs.isEmpty) = true := by simp [ht, ho]
        rw [if_pos hcond, if_pos hr, agrees_composite, agrees_none_iff]
        simp [frame, ht, hr]
    · simp [ht]
  · rw [if_neg hr]
    refine iff_of_true ?_ fun _ _ h => absurd h hr
    split_ifs <;> simp

/-- **One step, exactly.** -/
theorem agrees_step_iff (p : Screen) (m : ScreenInput) :
    (∀ e ∈ (p.step fromSlice m).2, e.agrees) ↔ p.Bare m := by
  cases m with
  | callback i input w =>
    have hplain : ∀ e ∈ (p.state.step fromSlice i).2.map ScreenEvent.compositor, e.agrees := by
      intro e he
      obtain ⟨_, -, rfl⟩ := List.mem_map.mp he
      trivial
    simp only [step, List.forall_mem_append, compositeAll_events]
    rw [and_iff_right hplain]
    unfold Bare Cleared
    dsimp only
    rw [← agrees_callbackFrames fromSlice p.state i]
    by_cases h : p.outputs = []
    · simp [h]
    · simp [h, ScreenEvent.agrees]
  | layerDestroyed w => exact p.agrees_unasked_iff p rfl .layerDestroyed (by decide) w
  | overlayToggle w =>
    unfold step Bare
    dsimp only
    split_ifs with hl
    · rw [p.agrees_unasked_iff { p with diagOverlayOpen := !p.diagOverlayOpen } rfl .overlay
        (by decide)]
      simp [hl]
    · simp [hl]
  | overlayDismiss w =>
    unfold step Bare
    dsimp only
    split_ifs with hl
    · rw [Bool.and_eq_true] at hl
      rw [p.agrees_unasked_iff { p with diagOverlayOpen := false } rfl .overlay (by decide)]
      simp [hl]
    · simp only [List.not_mem_nil, false_imp_iff, implies_true, true_iff]
      rw [Bool.and_eq_true] at hl
      exact fun _ h1 h2 => absurd ⟨h1, h2⟩ hl
  | overlayJournal w =>
    unfold step Bare
    dsimp only
    split_ifs with hopen
    · rw [p.agrees_unasked_iff p rfl .overlayJournal (by decide)]
      simp [hopen]
    · simp [hopen]
  | vblank crtc now w => exact iff_of_true (p.agrees_vblank fromSlice crtc now w) fun _ => trivial
  | wallpaperTick a now w => exact p.agrees_wallpaperTick_iff fromSlice a now w
  | turn w =>
    refine iff_of_true ?_ (fun _ => trivial)
    unfold step
    dsimp only
    split_ifs
    · exact (agrees_composite _ _ _).mpr fun _ _ => agrees_foreground p .repaint
    · simp

/-- **The render paths agree.** Over every run of the compositor after frame 0: every frame passes
the foreground toplevel if there is one and the compositor does not shut down, and none otherwise,
and two frames in the same scene draw the same, if and only if every callback meets the
condition. -/
theorem frames_run_iff (inInitramfs : Bool) (greeterUid : UInt32) (pamService : String)
    (greeter : Option UInt32) (crtcs : List Nat) (config : Option WallpaperConfig) (libinput : Bool)
    (w : World) (ms : List ScreenInput) :
    NoFlash (run (step fromSlice)
      (start inInitramfs greeterUid pamService greeter crtcs config libinput w) ms).2 ↔
    Along (step fromSlice) Bare
      (start inInitramfs greeterUid pamService greeter crtcs config libinput w) ms := by
  rw [noFlash_iff, along_events_iff]
  refine along_congr (fun _ => True) ?_ (fun _ _ _ _ => trivial) ms _ trivial
  exact fun p m _ => agrees_step_iff fromSlice p m

/-- The session's window is on the screen, and no vblank came for a while: the keepalive timer
renders the next frame without it. -/
theorem backstop_flashes :
    let w : World := fun _ _ => ⟨.queued, true, true, [], 0, true⟩
    let p := start false 990 "halmasuit" (some 50) [0] (some .shader) true w
    let r := run (step readRequest) p ((login 0 "alice" 1000).map (.callback · false w) ++
      [.turn w, .wallpaperTick ⟨true, true, [], 0, true⟩ 200 w])
    r.2.reverse.take 2 = [.frame ⟨.backstop, none, some ⟨0, 1000⟩, false⟩,
        .frame ⟨.repaint, some ⟨0, 1000⟩, some ⟨0, 1000⟩, false⟩] ∧
      r.1.state.foreground = .session ∧ ¬ NoFlash r.2 := by
  intro w p r
  have hlast : r.2.reverse.take 2 = [.frame ⟨.backstop, none, some ⟨0, 1000⟩, false⟩,
      .frame ⟨.repaint, some ⟨0, 1000⟩, some ⟨0, 1000⟩, false⟩] := by decide +kernel
  refine ⟨hlast, by decide +kernel, fun h => ?_⟩
  have hmem : ScreenEvent.frame ⟨.backstop, none, some ⟨0, 1000⟩, false⟩ ∈ r.2 := by
    rw [← List.mem_reverse]
    exact List.mem_of_mem_take (by rw [hlast]; simp)
  cases h.agrees _ hmem (by simp)

end

end Screen

end Halmasuit.Compositor
