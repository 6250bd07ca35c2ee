import Halmasuit.Drm.ConsoleFont
import Halmasuit.Drm.Cursor
import Halmasuit.Lib.Memo
import Halmasuit.Lib.Run

/-!
# The caches of the scene

Model of the part of `drm.rs` that makes the two elements of a scene that are not a client's: the
diagnostic overlay, which `rasterize_overlay` draws, and a cursor with a name, whose image the theme
has. The buffers of both are kept from one frame to the next.

`History` says what each buffer that is kept was made of, for which the code has no field.

- `buildOverlayElement_fetch`, `cursorElements_fetch`: either is a cache of one value;
- `step_made`: what `History` says, over every step;
- `elements_fresh_iff`: every element that is built has the buffer of its output and its time exactly
  if no step takes one that was kept for another size or another image.
-/

namespace Halmasuit.Drm.SceneCaches

open Lib Lib.Memo ConsoleFont Cursor
open Lib.Machine (Build)

/-! ## The code -/

/-- `MemoryRenderBuffer`. -/
structure Buffer where
  data : List UInt8
  width : Int32
  height : Int32
  deriving DecidableEq

/-- `CursorImageStatus`. -/
inductive CursorImageStatus where
  | hidden
  | named (name : String)
  | surface (surface : Nat)
  deriving DecidableEq

/-- `CachedNamed`. -/
structure CachedNamed where
  name : String
  hotspot : Int32 × Int32
  buffer : Buffer
  deriving DecidableEq

/-- `CursorRenderState`. -/
structure CursorRenderState where
  theming : CursorTheming
  status : CursorImageStatus
  pointerLoc : Int32 × Int32
  hasMoved : Bool
  cached : Option CachedNamed

/-- `DrmBackend`, as far as these elements go. -/
structure DrmBackend where
  cursor : CursorRenderState
  overlayVisible : Bool
  overlayText : List Char
  overlayBuffer : Option Buffer

/-- The size of an output, by its current mode. -/
abbrev Mode : Type := Option (Int32 × Int32)

/-- An output. -/
structure Output where
  crtc : Nat
  mode : Mode
  deriving DecidableEq

/-- What the rest of the world does while an output is rendered: the time since `started_at`,
whether the renderer takes the two buffers, whether the wallpaper has its element, and whether
`render_one_output` succeeds. -/
structure Env where
  elapsed : Duration
  takesCursor : Bool
  takesOverlay : Bool
  wallpaper : Bool
  queued : Bool
  deriving DecidableEq

/-- An element that is built, with what it is built for. A cursor is drawn at the difference of the
location and the hotspot. -/
inductive Element where
  | cursor (name : String) (elapsed : Duration) (loc hotspot : Int32 × Int32) (buffer : Buffer)
  | surface (surface : Nat) (loc : Int32 × Int32)
  | overlay (text : List Char) (mode : Mode) (buffer : Buffer)
  deriving DecidableEq

/-- The state that `DrmBackend` starts in. -/
def DrmBackend.new (theming : CursorTheming) : DrmBackend where
  cursor :=
    { theming := theming, status := .named "default", pointerLoc := (0, 0), hasMoved := false
      cached := none }
  overlayVisible := false
  overlayText := []
  overlayBuffer := none

/-- The size of the overlay on an output. -/
def overlaySize (mode : Mode) : Int32 × Int32 :=
  let osize := mode.getD (0, 0)
  (max osize.1 1, max osize.2 1)

/-- `OVERLAY_BG`. -/
def overlayBg : List UInt8 := [0, 0, 0, 153]

/-- `OVERLAY_FG`. -/
def overlayFg : Vector UInt8 4 := #v[220, 220, 220, 255]

/-- The bytes that a `Vec` can hold. -/
def maxCapacity : Nat := 9223372036854775807

/-- `rasterize_overlay`, from the size of the overlay. -/
def rasterizeOverlay (build : Build) (text : List Char) (size : Int32 × Int32) : Option Buffer := do
  let wu := size.1.toInt.toNat
  let hu := size.2.toInt.toNat
  let len ← Lib.Machine.unsigned build usize (wu * hu)
  let len ← Lib.Machine.unsigned build usize (len * 4)
  if maxCapacity < len then none
  else do
    let px := (List.replicate (len / 4) overlayBg).flatten
    let px ← blitStr ⟨build, UInt64.ofNat wu, UInt64.ofNat hu, overlayFg⟩ px 8 8 text
    return ⟨px, size.1, size.2⟩

/-- `build_overlay_element`. -/
def buildOverlayElement (build : Build) (env : Env) (mode : Mode) (b : DrmBackend) :
    Option (DrmBackend × List Element) := do
  let b ←
    if b.overlayBuffer.isNone then
      (rasterizeOverlay build b.overlayText (overlaySize mode)).map fun buffer =>
        { b with overlayBuffer := some buffer }
    else some b
  let buffer ← b.overlayBuffer
  return (b, if env.takesOverlay then [.overlay b.overlayText mode buffer] else [])

/-- The buffer and the hotspot of the image that `current_frame` selects. -/
def bake (build : Build) (theming : CursorTheming) (name : String) (elapsed : Duration) :
    Option ((Int32 × Int32) × Buffer) := do
  let frame ← currentFrame build (theming.loadNamed name) elapsed
  return ((frame.image.xhot.toInt32, frame.image.yhot.toInt32),
    ⟨frame.image.pixelsRgba, frame.image.width.toInt32, frame.image.height.toInt32⟩)

def CursorImageStatus.isSurface : CursorImageStatus → Bool
  | .surface _ => true
  | _ => false

/-- `cursor_elements`. -/
def cursorElements (build : Build) (env : Env) (c : CursorRenderState) :
    Option (CursorRenderState × List Element) :=
  if !c.hasMoved && !c.status.isSurface then some (c, [])
  else match c.status with
    | .hidden => some (c, [])
    | .named name => do
      let c ←
        if c.cached.all fun entry => entry.name ≠ name then
          (bake build c.theming name env.elapsed).map fun entry =>
            { c with cached := some ⟨name, entry.1, entry.2⟩ }
        else some c
      let cached ← c.cached
      return (c, if env.takesCursor then
        [.cursor name env.elapsed c.pointerLoc cached.hotspot cached.buffer] else [])
    | .surface surface => some (c, [.surface surface c.pointerLoc])

/-- `scene_elements`, without the elements of the clients and the wallpaper. There is no state after
a panic. -/
def sceneElements (build : Build) (env : Env) (mode : Mode) (b : DrmBackend) :
    Option DrmBackend × List Element :=
  match cursorElements build env b.cursor with
  | none => (none, [])
  | some (cursor, es) =>
    let b := { b with cursor := cursor }
    if env.wallpaper && b.overlayVisible then
      match buildOverlayElement build env mode b with
      | none => (none, es)
      | some (b, os) => (some b, es ++ os)
    else (some b, es)

/-- `set_overlay_text`. -/
def setOverlayText (text : List Char) (b : DrmBackend) : DrmBackend :=
  if b.overlayText ≠ text then { b with overlayText := text, overlayBuffer := none } else b

/-- `name_changed` of `set_cursor_status`. -/
def nameChanged : CursorImageStatus → CursorImageStatus → Bool
  | .named a, .named b => a ≠ b
  | _, _ => true

/-- `set_cursor_status`. -/
def setCursorStatus (status : CursorImageStatus) (c : CursorRenderState) : CursorRenderState :=
  { c with status := status, cached := if nameChanged c.status status then none else c.cached }

/-- The calls, one for each output that is rendered. -/
inductive Step where
  | setOverlayText (text : List Char)
  | setOverlayVisible (visible : Bool)
  | setCursorStatus (status : CursorImageStatus)
  | setPointerLocation (x y : Int32)
  | render (mode : Mode) (env : Env)
  deriving DecidableEq

/-- One step. -/
def step (build : Build) (b : Option DrmBackend) (i : Step) : Option DrmBackend × List Element :=
  match b with
  | none => (none, [])
  | some b =>
    match i with
    | .setOverlayText text => (some (setOverlayText text b), [])
    | .setOverlayVisible visible => (some { b with overlayVisible := visible }, [])
    | .setCursorStatus status => (some { b with cursor := setCursorStatus status b.cursor }, [])
    | .setPointerLocation x y =>
      (some { b with cursor := { b.cursor with pointerLoc := (x, y), hasMoved := true } }, [])
    | .render mode env => sceneElements build env mode b

/-- The calls of the rest of the program. -/
inductive Call where
  | set (i : Step) (h : ∀ mode env, i ≠ .render mode env)
  | renderAll (env : Nat → Env)
  | renderOutput (crtc : Nat) (env : Env)

/-- The outputs of `render_all`, up to the first that fails. -/
def untilFailed : List (Mode × Env) → List (Mode × Env)
  | [] => []
  | o :: os => o :: if o.2.wallpaper && o.2.queued then untilFailed os else []

/-- What a call comes to. -/
def steps (outputs : List Output) : Call → List Step
  | .set i _ => [i]
  | .renderAll env =>
    (untilFailed (outputs.zipIdx.map fun o => (o.1.mode, env o.2))).map fun o => .render o.1 o.2
  | .renderOutput crtc env =>
    (outputs.find? (·.crtc == crtc)).toList.map fun o => .render o.mode env

/-! ## What the buffers were made of -/

/-- What each buffer that is kept was made of: the text and the size, and the name and the time. -/
structure History where
  overlay : Option (List Char × (Int32 × Int32))
  cursor : Option (String × Duration)

/-- The name of the cursor that is shown. -/
def CursorRenderState.shown (c : CursorRenderState) : Option String :=
  match c.status with
  | .named name => if c.hasMoved then some name else none
  | _ => none

/-- What is to be remembered of a step. -/
def remember (h : History) (b : DrmBackend) : Step → History
  | .setOverlayText text => if b.overlayText ≠ text then { h with overlay := none } else h
  | .setOverlayVisible _ => h
  | .setCursorStatus status =>
    { h with cursor := if nameChanged b.cursor.status status then none else h.cursor }
  | .setPointerLocation _ _ => h
  | .render mode env =>
    { overlay :=
        if env.wallpaper && b.overlayVisible then
          some (origin h.overlay b.overlayText (overlaySize mode))
        else h.overlay
      cursor :=
        match b.cursor.shown with
        | some name => some (origin h.cursor name env.elapsed)
        | none => h.cursor }

/-- The steps, with what is remembered of them. -/
def remembering (build : Build) (p : Option DrmBackend × History) (i : Step) :
    (Option DrmBackend × History) × List Element :=
  (((step build p.1 i).1, p.1.elim p.2 fun b => remember p.2 b i), (step build p.1 i).2)

/-- **The element has the buffer that would be made for it now.** -/
def Fresh (build : Build) (theming : CursorTheming) : Element → Prop
  | .cursor name elapsed _ hotspot buffer =>
    bake build theming name elapsed = some (hotspot, buffer)
  | .surface _ _ => True
  | .overlay text mode buffer => rasterizeOverlay build text (overlaySize mode) = some buffer

instance (build : Build) (theming : CursorTheming) : ∀ e, Decidable (Fresh build theming e)
  | .cursor name elapsed _ hotspot buffer =>
    inferInstanceAs (Decidable (bake build theming name elapsed = some (hotspot, buffer)))
  | .surface _ _ => inferInstanceAs (Decidable True)
  | .overlay text mode buffer =>
    inferInstanceAs (Decidable (rasterizeOverlay build text (overlaySize mode) = some buffer))

/-- The image of the cursor is the one that was kept. -/
def SteadyCursor (build : Build) (env : Env) (c : CursorRenderState) (h : History) : Prop :=
  ∀ name, c.shown = some name → env.takesCursor = true → ∀ t, h.cursor = some (name, t) →
    bake build c.theming name t = bake build c.theming name env.elapsed

/-- The size of the overlay is the one that was kept. -/
def SteadyOverlay (env : Env) (mode : Mode) (b : DrmBackend) (h : History) : Prop :=
  (env.wallpaper && b.overlayVisible) = true → env.takesOverlay = true → ∀ size,
    h.overlay = some (b.overlayText, size) → size = overlaySize mode

/-- **No element takes a buffer that was made for another size or another image.** What panics
before the overlay has none. -/
def Steady (build : Build) (p : Option DrmBackend × History) : Step → Prop
  | .render mode env => ∀ b, p.1 = some b →
    SteadyCursor build env b.cursor p.2 ∧
      ((cursorElements build env b.cursor).isSome = true → SteadyOverlay env mode b p.2)
  | _ => True

/-- What is remembered is right. -/
structure Remembered (build : Build) (b : DrmBackend) (h : History) : Prop where
  overlay : Made (rasterizeOverlay build) (b.overlayBuffer.map (b.overlayText, ·)) h.overlay
  cursor : Made (bake build b.cursor.theming)
    (b.cursor.cached.map fun e => (e.name, (e.hotspot, e.buffer))) h.cursor

/-! ## The two caches -/

theorem rasterizeOverlay_size {build : Build} {text : List Char} {size : Int32 × Int32}
    {buffer : Buffer} (h : rasterizeOverlay build text size = some buffer) :
    (buffer.width, buffer.height) = size := by
  unfold rasterizeOverlay at h
  simp only [Option.bind_eq_bind, Option.bind_eq_some_iff] at h
  obtain ⟨_, -, _, -, h⟩ := h
  split at h
  · cases h
  · obtain ⟨_, -, h⟩ := Option.bind_eq_some_iff.mp h
    rw [← Option.some.inj h]

/-- The overlay is a cache by the text, as the text does not change without it being dropped. -/
theorem buildOverlayElement_fetch (build : Build) (env : Env) (mode : Mode) (b : DrmBackend) :
    buildOverlayElement build env mode b =
      (fetch (rasterizeOverlay build) (b.overlayBuffer.map (b.overlayText, ·)) b.overlayText
        (overlaySize mode)).map fun e => ({ b with overlayBuffer := some e.2 },
          if env.takesOverlay then [.overlay b.overlayText mode e.2] else []) := by
  obtain ⟨cursor, visible, text, cell⟩ := b
  unfold buildOverlayElement fetch
  cases cell with
  | none =>
    cases hr : rasterizeOverlay build text (overlaySize mode) with
    | none => simp
    | some buffer => simp
  | some buffer => simp

/-- A cursor that is not shown by its name does not touch the cache. -/
theorem cursorElements_of_not_shown (build : Build) (env : Env) {c : CursorRenderState}
    (h : c.shown = none) : ∃ es, cursorElements build env c = some (c, es) ∧
      ∀ theming, ∀ e ∈ es, Fresh build theming e := by
  obtain ⟨theming, status, loc, moved, cached⟩ := c
  cases status with
  | hidden => exact ⟨[], by simp [cursorElements], by simp⟩
  | named name =>
    have hmoved : moved = false := by simpa [CursorRenderState.shown] using h
    exact ⟨[], by simp [cursorElements, hmoved, CursorImageStatus.isSurface], by simp⟩
  | surface surface =>
    exact ⟨[.surface surface loc], by simp [cursorElements, CursorImageStatus.isSurface],
      by simp [Fresh]⟩

/-- The cursor is a cache by the name. -/
theorem cursorElements_fetch (build : Build) (env : Env) {c : CursorRenderState} {name : String}
    (h : c.shown = some name) : cursorElements build env c =
      (fetch (bake build c.theming) (c.cached.map fun e => (e.name, (e.hotspot, e.buffer))) name
        env.elapsed).map fun e => ({ c with cached := some ⟨e.1, e.2.1, e.2.2⟩ },
          if env.takesCursor then [.cursor name env.elapsed c.pointerLoc e.2.1 e.2.2] else []) := by
  obtain ⟨theming, status, loc, moved, cached⟩ := c
  cases status with
  | hidden => cases h
  | surface surface => cases h
  | named name' =>
    simp only [CursorRenderState.shown, Option.ite_none_right_eq_some, Option.some.injEq] at h
    obtain ⟨rfl, rfl⟩ := h
    unfold cursorElements fetch
    cases cached with
    | none =>
      cases hb : bake build theming name' env.elapsed with
      | none => simp [hb]
      | some entry => simp [hb]
    | some entry =>
      obtain ⟨old, hotspot, buffer⟩ := entry
      by_cases hname : old = name'
      · simp [hname]
      · cases hb : bake build theming name' env.elapsed with
        | none => simp [hb, hname]
        | some entry => simp [hb, hname]

/-! ## One step -/

variable {build : Build} {b : DrmBackend} {h : History}

/-- What `cursor_elements` leaves is remembered, and its element is fresh if it is steady. -/
theorem cursorElements_spec (hmade : Made (bake build b.cursor.theming)
      (b.cursor.cached.map fun e => (e.name, (e.hotspot, e.buffer))) h.cursor)
    (env : Env) :
    (cursorElements build env b.cursor = none ∧ SteadyCursor build env b.cursor h) ∨
    ∃ c es, cursorElements build env b.cursor = some (c, es) ∧
      c.theming = b.cursor.theming ∧
      Made (bake build c.theming) (c.cached.map fun e => (e.name, (e.hotspot, e.buffer)))
        (match b.cursor.shown with
          | some name => some (origin h.cursor name env.elapsed)
          | none => h.cursor) ∧
      ((∀ e ∈ es, Fresh build b.cursor.theming e) ↔ SteadyCursor build env b.cursor h) := by
  unfold SteadyCursor
  cases hshown : b.cursor.shown with
  | none =>
    obtain ⟨es, hes, hfresh⟩ := cursorElements_of_not_shown build env hshown
    exact .inr ⟨_, es, hes, rfl, hmade, iff_of_true (hfresh _) (by simp)⟩
  | some name =>
    rw [cursorElements_fetch build env hshown]
    cases hfetch : fetch (bake build b.cursor.theming)
        (b.cursor.cached.map fun e => (e.name, (e.hotspot, e.buffer))) name env.elapsed with
    | none =>
      refine .inl ⟨rfl, ?_⟩
      rintro name' heq - t ht
      obtain rfl := Option.some.inj heq
      exact absurd ht (fetch_none hmade hfetch t)
    | some e =>
      refine .inr ⟨_, _, rfl, rfl, fetch_made hmade hfetch, ?_⟩
      have hfresh := fetch_fresh_iff hmade hfetch
      cases env.takesCursor <;> simp [Fresh, hfresh]

/-- What `build_overlay_element` leaves is remembered, and its element is fresh if it is steady. -/
theorem buildOverlayElement_spec (hmade : Made (rasterizeOverlay build)
      (b.overlayBuffer.map (b.overlayText, ·)) h.overlay) (env : Env) (mode : Mode)
    (theming : CursorTheming) :
    (buildOverlayElement build env mode b = none ∧
      ∀ size, h.overlay = some (b.overlayText, size) → size = overlaySize mode) ∨
    ∃ buffer os, buildOverlayElement build env mode b
        = some ({ b with overlayBuffer := some buffer }, os) ∧
      Made (rasterizeOverlay build) (some (b.overlayText, buffer))
        (some (origin h.overlay b.overlayText (overlaySize mode))) ∧
      ((∀ e ∈ os, Fresh build theming e) ↔ (env.takesOverlay = true → ∀ size,
        h.overlay = some (b.overlayText, size) → size = overlaySize mode)) := by
  rw [buildOverlayElement_fetch]
  cases hfetch : fetch (rasterizeOverlay build) (b.overlayBuffer.map (b.overlayText, ·))
      b.overlayText (overlaySize mode) with
  | none => exact .inl ⟨rfl, fun size ht => absurd ht (fetch_none hmade hfetch size)⟩
  | some e =>
    obtain ⟨text, buffer⟩ := e
    obtain rfl := fetch_key hfetch
    refine .inr ⟨buffer, _, rfl, fetch_made hmade hfetch, ?_⟩
    have hfresh : rasterizeOverlay build b.overlayText (overlaySize mode) = some buffer ↔
        ∀ size, h.overlay = some (b.overlayText, size) → size = overlaySize mode := by
      rw [fetch_fresh_iff hmade hfetch]
      refine forall₂_congr fun size ht => ⟨fun heq => ?_, fun heq => by rw [heq]⟩
      rw [ht] at hmade
      obtain ⟨kept, hkept⟩ := hmade.exists_value
      rw [← rasterizeOverlay_size hkept]
      exact rasterizeOverlay_size (heq ▸ hkept)
    cases env.takesOverlay with
    | false => simp
    | true => simpa only [if_true, List.forall_mem_singleton, forall_const, Fresh] using hfresh

/-- A render remembers what it keeps, and its elements are fresh if it is steady. -/
theorem render_made {theming : CursorTheming} (htheming : b.cursor.theming = theming)
    (hmade : Remembered build b h) (mode : Mode) (env : Env) :
    (∀ b', (sceneElements build env mode b).1 = some b' →
      b'.cursor.theming = theming ∧ Remembered build b' (remember h b (.render mode env))) ∧
    ((∀ e ∈ (sceneElements build env mode b).2, Fresh build theming e) ↔
      Steady build (some b, h) (.render mode env)) := by
  subst htheming
  have hsteady : Steady build (some b, h) (.render mode env) ↔
      SteadyCursor build env b.cursor h ∧
        ((cursorElements build env b.cursor).isSome = true → SteadyOverlay env mode b h) := by
    simp [Steady]
  rw [hsteady]
  unfold sceneElements SteadyOverlay
  rcases cursorElements_spec hmade.cursor env with ⟨hnone, hcursor⟩ | ⟨c, es, hsome, hc, hkept, hes⟩
  · simp [hnone, hcursor]
  · rw [hsome]
    dsimp only
    cases hover : env.wallpaper && b.overlayVisible with
    | false =>
      rw [if_neg (by simp)]
      refine ⟨?_, by simp [hes]⟩
      rintro _ ⟨⟩
      refine ⟨hc, ⟨?_, hkept⟩⟩
      simpa [remember, hover] using hmade.overlay
    | true =>
      rw [if_pos rfl]
      rcases @buildOverlayElement_spec build { b with cursor := c } h hmade.overlay env mode
        b.cursor.theming with ⟨hnone, hsize⟩ | ⟨buffer, os, hsome, hkept', hos⟩
      · rw [hnone]
        refine ⟨by simp, ?_⟩
        simp only [hes, Option.isSome_some, forall_const]
        exact (and_iff_left_of_imp fun _ _ => hsize).symm
      · rw [hsome]
        refine ⟨?_, ?_⟩
        · rintro _ ⟨⟩
          refine ⟨hc, ⟨?_, hkept⟩⟩
          simpa [remember, hover] using hkept'
        · simp only [List.forall_mem_append, hes, hos, Option.isSome_some, forall_const]

/-- **What is remembered stays right, and the elements of a step are fresh exactly if it is
steady.** -/
theorem step_made {theming : CursorTheming} (htheming : b.cursor.theming = theming)
    (hmade : Remembered build b h) (i : Step) :
    (∀ b', (step build (some b) i).1 = some b' →
      b'.cursor.theming = theming ∧ Remembered build b' (remember h b i)) ∧
    ((∀ e ∈ (step build (some b) i).2, Fresh build theming e) ↔ Steady build (some b, h) i) := by
  cases i with
  | render mode env => exact render_made htheming hmade mode env
  | setOverlayText text =>
    refine ⟨?_, by simp [step, Steady]⟩
    rintro _ ⟨⟩
    unfold setOverlayText remember
    dsimp only
    split
    · exact ⟨htheming, .empty, hmade.cursor⟩
    · exact ⟨htheming, hmade⟩
  | setOverlayVisible visible =>
    refine ⟨?_, by simp [step, Steady]⟩
    rintro _ ⟨⟩
    exact ⟨htheming, hmade.overlay, hmade.cursor⟩
  | setPointerLocation x y =>
    refine ⟨?_, by simp [step, Steady]⟩
    rintro _ ⟨⟩
    exact ⟨htheming, hmade.overlay, hmade.cursor⟩
  | setCursorStatus status =>
    refine ⟨?_, by simp [step, Steady]⟩
    rintro _ ⟨⟩
    refine ⟨htheming, hmade.overlay, ?_⟩
    unfold setCursorStatus remember
    dsimp only
    split
    · exact .empty
    · exact hmade.cursor

/-! ## Runs -/

theorem run_remembering (build : Build) (is : List Step) : ∀ (b : Option DrmBackend) (h : History),
    (run (remembering build) (b, h) is).2 = (run (step build) b is).2 := by
  induction is with
  | nil => exact fun b h => rfl
  | cons i is ih =>
    intro b h
    simp only [run, remembering, ih]

/-- **Every element that is built is what would be made for it then, exactly if no step takes a
buffer that was made for another size or another image.** -/
theorem elements_fresh_iff (build : Build) (theming : CursorTheming) (outputs : List Output)
    (calls : List Call) :
    (∀ e ∈ (run (step build) (some (.new theming)) (calls.flatMap (steps outputs))).2,
      Fresh build theming e) ↔
    Along (remembering build) (Steady build) (some (.new theming), ⟨none, none⟩)
      (calls.flatMap (steps outputs)) := by
  rw [← run_remembering build _ _ ⟨none, none⟩, along_events_iff]
  refine along_congr (fun p => ∀ b, p.1 = some b →
    b.cursor.theming = theming ∧ Remembered build b p.2) ?_ ?_ _ _ ?_
  · rintro ⟨b, h⟩ i hinv
    cases b with
    | none => cases i <;> simp [remembering, step, Steady]
    | some b =>
      obtain ⟨htheming, hmade⟩ := hinv b rfl
      exact (step_made htheming hmade i).2
  · rintro ⟨b, h⟩ i hinv -
    cases b with
    | none => simp [remembering, step]
    | some b =>
      obtain ⟨htheming, hmade⟩ := hinv b rfl
      exact (step_made htheming hmade i).1
  · rintro _ ⟨⟩
    exact ⟨rfl, .empty, .empty⟩

/-- A theme with a cursor of two frames, of 100 milliseconds each. -/
def blinking : CursorTheming where
  theme := fun _ => some [⟨24, 1, 1, 0, 0, 100, [255, 255, 255, 255]⟩,
    ⟨24, 1, 1, 0, 0, 100, [0, 0, 0, 255]⟩]
  size := 24
  default := proceduralFallback 24

/-- A render at a time at which nothing fails. -/
def envAt (elapsed : Duration) : Env := ⟨elapsed, true, true, true, true⟩

/-- The overlay of the first output is used on the second, and the first frame of a cursor is shown
for ever. -/
theorem stale_buffers_are_used :
    (∀ build, ¬ ∀ e ∈ (run (step build) (some (.new blinking))
        ([.set (.setOverlayVisible true) (by simp),
          .renderAll fun _ => envAt ⟨0, 0, by decide⟩].flatMap
          (steps [⟨0, some (1, 1)⟩, ⟨1, some (2, 1)⟩]))).2, Fresh build blinking e) ∧
    ∀ build, ¬ ∀ e ∈ (run (step build) (some (.new blinking))
        ([.set (.setPointerLocation 0 0) (by simp),
          .renderOutput 0 (envAt ⟨0, 0, by decide⟩),
          .renderOutput 0 (envAt ⟨0, 150000000, by decide⟩)].flatMap
          (steps [⟨0, some (1, 1)⟩]))).2, Fresh build blinking e := by
  constructor
  · intro build
    cases build with
    | checked => decide
    | wrapping => decide
  · intro build
    cases build with
    | checked => decide
    | wrapping => decide

end Halmasuit.Drm.SceneCaches
