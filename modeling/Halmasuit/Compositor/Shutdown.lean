import Halmasuit.Compositor.Login

/-!
# The shutdown latch

`graceful_shutdown` (`halmasuit/src/main.rs` 3638–3737) kills the greeter, drops the foreground
toplevel and latches `shutting_down`, after which the screen is meant to be the wallpaper's until
the kernel halts. Its own re-entry and the stop signals look at the latch; `apply_swap_action`,
`new_toplevel` and the pivot poll do not.

Headlines:
* `latch_step_iff`: which callbacks keep a latched scene wallpaper-only.
* `shutdown_latch_iff`: the same over whole runs.
-/

namespace Halmasuit.Compositor

open Halmasuit.Greetd (Request SpawnRequest readRequest)
open Halmasuit.SessionIpc
open Halmasuit.Lib

namespace HalmasuitState

/-- No greeter, no foreground toplevel, and the foreground the greeter's. -/
def WallpaperOnly (s : HalmasuitState) : Prop :=
  s.greeter = none ∧ s.foreground = .greeter ∧ s.foregroundToplevel = none

instance (s : HalmasuitState) : Decidable s.WallpaperOnly :=
  inferInstanceAs (Decidable (_ ∧ _ ∧ _))

/-- What a latched compositor promises of a callback: the scene after it is wallpaper-only, and a
compositor that was latched before is not told to exit. -/
def KeepsLatch (fromSlice : List UInt8 → Option Request) (s : HalmasuitState) (i : Input) : Prop :=
  (s.step fromSlice i).1.shuttingDown = true → (s.step fromSlice i).1.WallpaperOnly ∧
    (s.shuttingDown = true → (s.step fromSlice i).1.shouldExit = s.shouldExit)

/-- The callbacks that put something on the screen past the gate: a new toplevel, and the greeter of
the post-pivot setup. -/
def raises (s : HalmasuitState) : Input → Bool
  | .newToplevel t => decide (t.uid ∈ s.clients)
  | .postPivotSetup _ spawned _ => spawned.isSome && decide (Source.pivotPoll ∈ s.sources)
  | _ => false

/-- A callback that shows nothing: it does not complete the gate, it does not revert to a greeter
the broker spawns, and it raises nothing past the gate. -/
def Inert (s : HalmasuitState) (i : Input) : Prop :=
  (∀ c ∈ s.gateCall i, (s.swap.call c).1 ≠ .swap ∧
    ((s.swap.call c).1 = .revert → i.spawnGreeter = none)) ∧ s.raises i = false

section
variable {s : HalmasuitState} {i : Input} {sc : Scene} {es : List Event}

/-- A latched scene under a callback that neither calls the gate nor raises anything. -/
theorem Moves.latched (h : Moves s i sc es) (hc : s.gateCall i = none) (hd : s.shuttingDown = true)
    (hw : s.WallpaperOnly) (ht : ∀ t, i ≠ .newToplevel t)
    (hp : ∀ listener spawned dropped, i ≠ .postPivotSetup listener spawned dropped) :
    sc.shuttingDown = true ∧ sc.shouldExit = s.shouldExit ∧
      sc.greeter = none ∧ sc.foreground = .greeter ∧ sc.foregroundToplevel = none := by
  obtain ⟨hgreeter, hfg, htop⟩ := hw
  cases h.ungated hc with
  | newToplevel hcl => exact absurd rfl (ht _)
  | toplevelGone => exact ⟨hd, rfl, hgreeter, hfg, rfl⟩
  | latched hnd =>
    rw [hd] at hnd
    cases hnd
  | stopped hnd =>
    rw [hd] at hnd
    cases hnd
  | reaped => exact ⟨hd, rfl, rfl, hfg, htop⟩
  | setUp hsrc => exact absurd rfl (hp _ _ _)
  | _ => exact ⟨hd, rfl, hgreeter, hfg, htop⟩

/-- A latched scene under a callback that calls the gate. -/
theorem Moves.latched_gate (h : Moves s i sc es) {c : GateCall} (hc : s.gateCall i = some c)
    (hd : s.shuttingDown = true) (hw : s.WallpaperOnly) :
    sc.shuttingDown = true ∧ sc.shouldExit = s.shouldExit ∧
      ((sc.greeter = none ∧ sc.foreground = .greeter ∧ sc.foregroundToplevel = none) ↔
        (s.swap.call c).1 ≠ .swap ∧ ((s.swap.call c).1 = .revert → i.spawnGreeter = none)) := by
  obtain ⟨hgreeter, hfg, htop⟩ := hw
  obtain ⟨t, w, f, ht, hsp, rfl⟩ := h.gate_some hc
  have htop' : t.foregroundToplevel = none := by
    rcases ht.foregroundToplevel with h | h
    · rw [h, htop]
    · exact h
  rw [← ht.swap, ← hsp]
  cases ha : (t.swap.call c).1 with
  | none =>
    rw [Scene.feedGate_none t c w ha]
    simp [ht.shuttingDown, ht.shouldExit, ht.greeter, ht.foreground, hd, hgreeter, hfg, htop']
  | swap =>
    rw [Scene.feedGate_swap t c w ha]
    simp [ht.shuttingDown, ht.shouldExit, hd]
  | revert =>
    rw [Scene.feedGate_revert t c w ha]
    simp [ht.shuttingDown, ht.shouldExit, ht.greeter, hd, hgreeter, htop']

/-- Only `PrepareForShutdown` sets the latch, on a scene that is then wallpaper-only. -/
theorem Moves.sets_latch (h : Moves s i sc es) (hd : s.shuttingDown = false)
    (hd' : sc.shuttingDown = true) :
    sc.greeter = none ∧ sc.foreground = .greeter ∧ sc.foregroundToplevel = none := by
  cases hc : s.gateCall i with
  | some c =>
    obtain ⟨t, w, f, ht, -, rfl⟩ := h.gate_some hc
    have hkept : (t.feedGate c w).1.shuttingDown = t.shuttingDown := by
      cases ha : (t.swap.call c).1 with
      | none => rw [Scene.feedGate_none t c w ha]
      | swap => rw [Scene.feedGate_swap t c w ha]
      | revert => rw [Scene.feedGate_revert t c w ha]
    have hd'' : (t.feedGate c w).1.shuttingDown = true := hd'
    rw [hkept, ht.shuttingDown, hd] at hd''
    cases hd''
  | none =>
    cases h.ungated hc with
    | latched _ => exact ⟨rfl, rfl, rfl⟩
    | _ => exact absurd (hd.symm.trans hd') Bool.false_ne_true

end

section
variable (fromSlice : List UInt8 → Option Request)

/-- **One callback at a latched compositor.** -/
theorem latch_step_iff (s : HalmasuitState) (i : Input) (hd : s.shuttingDown = true)
    (hw : s.WallpaperOnly) :
    (s.step fromSlice i).1.shuttingDown = true ∧
      (s.step fromSlice i).1.shouldExit = s.shouldExit ∧
      ((s.step fromSlice i).1.WallpaperOnly ↔ Inert s i) := by
  have hm := s.step_moves fromSlice i
  cases hc : s.gateCall i with
  | some c =>
    obtain ⟨hd', hexit, hiff⟩ := hm.latched_gate hc hd hw
    refine ⟨hd', hexit, ?_⟩
    have hraise : s.raises i = false := by
      cases i with
      | newToplevel t => cases hc
      | postPivotSetup listener spawned dropped => cases hc
      | _ => rfl
    unfold Inert
    simp only [hc, Option.mem_some_iff, forall_eq', hraise, and_true]
    exact hiff
  | none =>
    unfold Inert
    simp only [hc, Option.not_mem_none, false_imp_iff, implies_true, true_and]
    obtain ⟨hgreeter, hfg, htop⟩ := hw
    cases i with
    | newToplevel t =>
      by_cases hcl : t.uid ∈ s.clients
      · simp [step, hcl, onScene, Scene.newToplevel, WallpaperOnly, raises, hd]
      · simp [step, hcl, WallpaperOnly, raises, hd, hgreeter, hfg, htop]
    | postPivotSetup listener spawned dropped =>
      by_cases hsrc : Source.pivotPoll ∈ s.sources
      · obtain ⟨gs, heq⟩ := s.postPivotSetup_scene listener spawned dropped
        simp only [step, hsrc, if_true]
        unfold WallpaperOnly
        rw [heq]
        simp [raises, hsrc, hd, hgreeter, hfg, htop]
      · simp [step, hsrc, WallpaperOnly, raises, hd, hgreeter, hfg, htop]
    | _ =>
      obtain ⟨hd', hexit, hw'⟩ := hm.latched hc hd ⟨hgreeter, hfg, htop⟩ (by simp) (by simp)
      exact ⟨hd', hexit, iff_of_true hw' rfl⟩

/-- **The shutdown latch.** Over every run of the compositor: from the callback that sets
`shutting_down` on, the scene stays wallpaper-only and no callback sets `should_exit`, if and only
if every callback after the latch is inert. -/
theorem shutdown_latch_iff (inInitramfs : Bool) (greeterUid : UInt32) (pamService : String)
    (greeter : Option UInt32) (is : List Input) :
    (∀ pre i post, is = pre ++ i :: post → KeepsLatch fromSlice
      (run (step fromSlice) (start inInitramfs greeterUid pamService greeter) pre).1 i) ↔
    Along (step fromSlice) (fun s i => s.shuttingDown = true → Inert s i)
      (start inInitramfs greeterUid pamService greeter) is := by
  rw [← along_iff_forall]
  refine along_congr (fun s => s.shuttingDown = true → s.WallpaperOnly) ?_ ?_ is _ ?_
  · intro s i hinv
    cases hd : s.shuttingDown with
    | false =>
      refine iff_of_true (fun hd' => ⟨(s.step_moves fromSlice i).sets_latch hd hd', ?_⟩) (by simp)
      rw [hd]
      simp
    | true =>
      obtain ⟨hd', hexit, hiff⟩ := s.latch_step_iff fromSlice i hd (hinv hd)
      simp only [KeepsLatch, hd', hexit, hiff, forall_const, implies_true, and_true]
  · intro s i _ hk hd'
    exact (hk hd').1
  · intro hd
    cases hd

/-- During a shutdown the session of `alice` ends, and the greeter is spawned again. -/
theorem session_end_respawns_greeter :
    let r := run (step readRequest) booted
      (login 0 "alice" 1000 ++ [.prepareForShutdown true calm])
    let ended := brokerSays 0 (.sessionEnded (.exited 0)) none
    r.1.shuttingDown = true ∧ r.1.WallpaperOnly ∧ ¬ KeepsLatch readRequest r.1 ended ∧
      (r.1.step readRequest ended).1.greeter = some 51 := by
  intro r ended
  have hd : (r.1.step readRequest ended).1.shuttingDown = true := by decide +kernel
  have hgreeter : (r.1.step readRequest ended).1.greeter = some 51 := by decide +kernel
  refine ⟨by decide +kernel, by decide +kernel, ?_, hgreeter⟩
  intro hk
  have hnone := (hk hd).1.1
  rw [hgreeter] at hnone
  cases hnone

end

end HalmasuitState

end Halmasuit.Compositor
