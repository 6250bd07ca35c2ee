import Mathlib.Data.List.Basic

/-!
# The wallpaper engine

`WallpaperEngine` (`halmasuit/src/wallpaper/mod.rs` 93–198), its backends, and the decoder of a
video wallpaper: `VideoBackend` (`video.rs` 156–240) and `DecoderRelay` (`decoder_relay.rs`
348–508). The engine is ticked by a timer and asked for an element in every frame; both drain the
decoder's socket.

* What the calls of a tick or of a frame find outside is in `Answers`. Times are in milliseconds.
* The frames themselves and their textures are left out.
* `DecoderCall` records the calls of `spawn_decoder_session`, which forks the decoder.

Headlines:
* `spawn_mem_tick`, `tick_quiet`, `renderElement_quiet`: which calls fork a decoder. All but the
  first tick of a video fork one only where one was forked before.
-/

namespace Halmasuit.Wallpaper

/-! ## The configuration -/

/-- `WallpaperConfig`. The paths and the uniforms are left out, but for the fallback. -/
inductive WallpaperConfig where
  | image
  | shader
  | video (fallback : Option String)
  deriving DecidableEq, Repr

/-- `WallpaperConfig::needs_tick`. -/
def WallpaperConfig.needsTick : WallpaperConfig → Bool
  | .image => false
  | .shader => true
  | .video _ => true

/-! ## The decoder -/

/-- A call of `spawn_decoder_session`, from `DecoderRelay::spawn` or from `respawn`. -/
inductive DecoderCall where
  | spawn
  | respawn
  deriving DecidableEq, Repr

/-- What `recv_one` gives. -/
inductive RecvOutcome where
  | drained
  | ready
  | frame
  | endOfFile
  | decoderError
  | closed
  | error
  deriving DecidableEq, Repr

/-- What the polls find: the messages of the decoder, the time of a failure, and whether
`spawn_decoder_session` succeeds. -/
structure Poll where
  recvs : List RecvOutcome
  now : Nat
  spawned : Bool
  deriving DecidableEq, Repr

/-- `DecoderRelay`. -/
structure DecoderRelay where
  restartHistory : List Nat
  dead : Bool
  ready : Bool
  deriving DecidableEq, Repr

/-- `MAX_RESTARTS_PER_WINDOW`. -/
def maxRestartsPerWindow : Nat := 3

/-- `RESTART_WINDOW_SECS`. -/
def restartWindowSecs : Nat := 10

namespace DecoderRelay

/-- The relay that `DecoderRelay::spawn` returns. -/
def new : DecoderRelay := ⟨[], false, false⟩

/-- `note_failure`: the relay respawns the decoder, and is dead if that fails or if it did so too
often. -/
def noteFailure (r : DecoderRelay) (now : Nat) (spawned : Bool) :
    DecoderRelay × List DecoderCall :=
  let hist := r.restartHistory.filter (fun t => (now - t) / 1000 < restartWindowSecs) ++ [now]
  if maxRestartsPerWindow < hist.length then
    ({ r with restartHistory := hist, dead := true }, [])
  else if spawned then ({ r with restartHistory := hist, ready := false }, [.respawn])
  else ({ r with restartHistory := hist, dead := true }, [.respawn])

/-- The loop of `poll_frames`. -/
def drain (now : Nat) (spawned : Bool) :
    DecoderRelay → List RecvOutcome → DecoderRelay × List DecoderCall
  | r, [] => (r, [])
  | r, .drained :: _ => (r, [])
  | r, .ready :: recvs => drain now spawned { r with ready := true } recvs
  | r, .frame :: recvs =>
    if r.ready then drain now spawned r recvs else r.noteFailure now spawned
  | r, .endOfFile :: recvs => drain now spawned r recvs
  | r, .decoderError :: _ => r.noteFailure now spawned
  | r, .closed :: _ => r.noteFailure now spawned
  | r, .error :: _ => r.noteFailure now spawned

/-- `poll_frames`. -/
def pollFrames (r : DecoderRelay) (a : Poll) : DecoderRelay × List DecoderCall :=
  if r.dead then (r, []) else drain a.now a.spawned r a.recvs

end DecoderRelay

/-! ## The backends -/

/-- `VideoBackend`. -/
structure VideoBackend where
  relay : Option DecoderRelay
  spawnAttempted : Bool
  fallback : Option String
  deriving DecidableEq, Repr

namespace VideoBackend

/-- `VideoBackend::new`. -/
def new (fallback : Option String) : VideoBackend := ⟨none, false, fallback⟩

/-- `ensure_relay_spawned`, with the outcome of `DecoderRelay::spawn`. -/
def ensureRelaySpawned (v : VideoBackend) (spawned : Bool) : VideoBackend × List DecoderCall :=
  if v.spawnAttempted then (v, [])
  else
    ({ v with spawnAttempted := true, relay := if spawned then some .new else v.relay }, [.spawn])

/-- The poll of a relay that is there and not dead. -/
def pollRelay (v : VideoBackend) (a : Poll) : VideoBackend × List DecoderCall :=
  match v.relay with
  | none => (v, [])
  | some r =>
    if r.dead then (v, []) else ({ v with relay := some (r.pollFrames a).1 }, (r.pollFrames a).2)

/-- `poll_pending`. -/
def pollPending (v : VideoBackend) (spawned : Bool) (a : Poll) : VideoBackend × List DecoderCall :=
  let e := v.ensureRelaySpawned spawned
  ((e.1.pollRelay a).1, e.2 ++ (e.1.pollRelay a).2)

/-- `requested_fallback`. -/
def requestedFallback (v : VideoBackend) : Option String :=
  if v.relay.any (·.dead) then v.fallback else none

end VideoBackend

/-- The backend of a `WallpaperEngine`. -/
inductive Backend where
  | image
  | shader
  | video (v : VideoBackend)
  deriving DecidableEq, Repr

/-- The backend that `setup_drm_backend` builds. -/
def WallpaperConfig.backend : WallpaperConfig → Backend
  | .image => .image
  | .shader => .shader
  | .video fallback => .video (.new fallback)

namespace Backend

/-- `requested_fallback`; only a video has one. -/
def requestedFallback : Backend → Option String
  | .video v => v.requestedFallback
  | _ => none

/-- `poll_pending`; only a video does anything. -/
def pollPending (spawned : Bool) (a : Poll) : Backend → Backend × List DecoderCall
  | .video v => (.video (v.pollPending spawned a).1, (v.pollPending spawned a).2)
  | b => (b, [])

/-- What `render_element` does with the decoder. -/
def render (a : Poll) : Backend → Backend × List DecoderCall
  | .video v => (.video (v.pollRelay a).1, (v.pollRelay a).2)
  | b => (b, [])

/-- `wants_continuous_render`. -/
def wantsContinuousRender : Backend → Bool
  | .image => false
  | .shader => true
  | .video _ => true

end Backend

/-! ## The engine -/

/-- What a tick or a frame finds: whether `DecoderRelay::spawn` and `ImageBackend::new` succeed, and
what the poll finds. -/
structure Answers where
  spawned : Bool
  fallbackBuilt : Bool
  poll : Poll
  deriving DecidableEq, Repr

/-- `WallpaperEngine`. -/
abbrev Engine := Option Backend

/-- `WallpaperTickAction`. -/
inductive WallpaperTickAction where
  | idle
  | renderContinuous
  | renderAndSwapped
  deriving DecidableEq, Repr

namespace Engine

/-- `maybe_swap_fallback`. -/
def maybeSwapFallback (e : Engine) (built : Bool) : Engine × Bool :=
  if (e.bind Backend.requestedFallback).isSome && built then (some .image, true) else (e, false)

/-- `WallpaperEngine::wants_continuous_render`. -/
def wantsContinuousRender (e : Engine) : Bool := e.any Backend.wantsContinuousRender

/-- `WallpaperEngine::tick`. -/
def tick (e : Engine) (a : Answers) : (Engine × Bool) × List DecoderCall :=
  match e with
  | none => ((none, false), [])
  | some b =>
    let p := b.pollPending a.spawned a.poll
    (maybeSwapFallback (some p.1) a.fallbackBuilt, p.2)

/-- `DrmBackend::tick_wallpaper`. -/
def tickWallpaper (e : Engine) (a : Answers) :
    (Engine × WallpaperTickAction) × List DecoderCall :=
  let t := tick e a
  ((t.1.1, if t.1.2 then .renderAndSwapped
    else if wantsContinuousRender t.1.1 then .renderContinuous else .idle), t.2)

/-- `WallpaperEngine::render_element`. -/
def renderElement (e : Engine) (a : Answers) : Engine × List DecoderCall :=
  match (maybeSwapFallback e a.fallbackBuilt).1 with
  | none => (none, [])
  | some b => (some (b.render a.poll).1, (b.render a.poll).2)

/-! ## The forks -/

/-- A decoder was forked, and its relay is still there. -/
def hasRelay : Engine → Bool
  | some (.video v) => v.relay.isSome
  | _ => false

/-- A video whose decoder was never forked. -/
def isUnspawned : Engine → Bool
  | some (.video v) => !v.spawnAttempted
  | _ => false

theorem maybeSwapFallback_cases (e : Engine) (built : Bool) :
    (maybeSwapFallback e built).1 = e ∨ (maybeSwapFallback e built).1 = some .image := by
  unfold maybeSwapFallback
  split_ifs
  · exact .inr rfl
  · exact .inl rfl

theorem hasRelay_maybeSwapFallback {e : Engine} (h : e.hasRelay = false) (built : Bool) :
    hasRelay (maybeSwapFallback e built).1 = false := by
  rcases maybeSwapFallback_cases e built with heq | heq
  · rw [heq]
    exact h
  · rw [heq]
    rfl

/-- The first tick of a video forks a decoder. -/
theorem spawn_mem_tick {e : Engine} (h : e.isUnspawned = true) (a : Answers) :
    DecoderCall.spawn ∈ (tick e a).2 := by
  obtain _ | _ | _ | v := e
  · cases h
  · cases h
  · cases h
  · have hv : v.spawnAttempted = false := by simpa [isUnspawned] using h
    simp [tick, Backend.pollPending, VideoBackend.pollPending, VideoBackend.ensureRelaySpawned, hv]

/-- Any other tick forks one only where one was forked before. -/
theorem tick_quiet {e : Engine} (hu : e.isUnspawned = false) (hr : e.hasRelay = false)
    (a : Answers) : (tick e a).2 = [] ∧ hasRelay (tick e a).1.1 = false := by
  obtain _ | _ | _ | v := e
  · exact ⟨rfl, rfl⟩
  · exact ⟨rfl, hasRelay_maybeSwapFallback hr a.fallbackBuilt⟩
  · exact ⟨rfl, hasRelay_maybeSwapFallback hr a.fallbackBuilt⟩
  · have hv : v.spawnAttempted = true := by simpa [isUnspawned] using hu
    have hrelay : v.relay = none := by simpa [hasRelay] using hr
    have hpoll : v.pollPending a.spawned a.poll = (v, []) := by
      simp [VideoBackend.pollPending, VideoBackend.ensureRelaySpawned, hv, VideoBackend.pollRelay,
        hrelay]
    simp only [tick, Backend.pollPending, hpoll]
    exact ⟨trivial, hasRelay_maybeSwapFallback hr a.fallbackBuilt⟩

/-- So does a frame. -/
theorem renderElement_quiet {e : Engine} (hr : e.hasRelay = false) (a : Answers) :
    (renderElement e a).2 = [] ∧ hasRelay (renderElement e a).1 = false := by
  have hswap := hasRelay_maybeSwapFallback hr a.fallbackBuilt
  unfold renderElement
  generalize (maybeSwapFallback e a.fallbackBuilt).1 = e' at hswap
  obtain _ | _ | _ | v := e'
  · exact ⟨rfl, rfl⟩
  · exact ⟨rfl, rfl⟩
  · exact ⟨rfl, rfl⟩
  · have hrelay : v.relay = none := by simpa [hasRelay] using hswap
    simp [Backend.render, VideoBackend.pollRelay, hrelay, hasRelay]

end Engine

end Halmasuit.Wallpaper
