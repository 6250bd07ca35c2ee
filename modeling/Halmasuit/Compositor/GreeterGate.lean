import Halmasuit.Compositor.Stop

/-!
# The gate of a greeter

The wallpaper-to-greeter gate over runs with any number of greeters (`halmasuit/src/main.rs`
1133–1150, 1394–1415, 2820–2830, 5535–5541). A greeter that is spawned after a logout gets a gate of
its own. `seen_layer_roles`, whose growth turns the second key, is the compositor's: it is as old as
the compositor.

- The greeters of a run are counted as the broker spawns them. `owner` says which greeter a surface
  comes from, if it comes from one; the code does not ask.
- `Greeters` is told from the events and the commits, and never from the gate.

Results:

- `step_turns`: what a callback does to the gate, and what it says about the greeters;
- **`gate_follows_iff`**: the runs in which the gate shows each greeter from its first frame on;
- `never_visible_again`: once an Overlay buffer was seen, no greeter that is spawned later is shown.
-/

namespace Halmasuit.Compositor

open Halmasuit.Greetd (Request readRequest)
open Halmasuit.Lib

/-! ## The greeters of a run -/

/-- The greeters the compositor has had; the first one spawned is greeter 0. -/
structure Greeters where
  count : Nat
  /-- The greeter whose gate this is. A gate installed after a failed spawn has none. -/
  current : Option Nat
  /-- The greeters that have committed a non-empty Overlay buffer since they were spawned, while the
  foreground was Greeter. -/
  painted : List Nat
  deriving DecidableEq, Repr

namespace Greeters

/-- The greeter `main` spawned before the loop, if it spawned one. -/
def start (greeter : Option UInt32) : Greeters :=
  ⟨greeter.toList.length, greeter.map fun _ => 0, []⟩

/-- What an event says: a gate that reverts is replaced, a greeter that is spawned gets its own. -/
def hear (g : Greeters) : Event → Greeters
  | .gate _ .revert => { g with current := none }
  | .greeterSpawned _ => { g with count := g.count + 1, current := some g.count }
  | _ => g

def hearAll (g : Greeters) (es : List Event) : Greeters := es.foldl hear g

/-- An Overlay buffer, committed while the foreground is Greeter. -/
def paint (owner : Surface → Option Nat) (g : Greeters) (k : Scene.Commit) : Greeters :=
  match owner k.surface with
  | none => g
  | some n => if k.nonEmpty = true ∧ n < g.count then { g with painted := n :: g.painted } else g

end Greeters

/-- The commit gives an Overlay surface a buffer. -/
def Scene.Commit.overlays (k : Scene.Commit) : Bool :=
  !k.sync && k.hasBuffer && k.layer.any fun l => decide (l.1 = .overlay)

namespace HalmasuitState

/-- The Overlay buffer a callback commits, while the foreground is Greeter. -/
def overlayBuffer (s : HalmasuitState) : Input → Option Scene.Commit
  | .commit k _ =>
    if k.surface.uid ∈ s.clients ∧ k.overlays = true ∧ s.foreground = .greeter then some k else none
  | _ => none

/-- One callback, and the greeters after it. -/
def track (fromSlice : List UInt8 → Option Request) (owner : Surface → Option Nat)
    (p : HalmasuitState × Greeters) (i : Input) : (HalmasuitState × Greeters) × List Event :=
  let r := p.1.step fromSlice i
  let g := match p.1.overlayBuffer i with
    | none => p.2
    | some k => p.2.paint owner k
  ((r.1, g.hearAll r.2), r.2)

/-- The gate says of its greeter what the greeter has done. -/
def Follows (p : HalmasuitState × Greeters) : Prop :=
  p.1.greeterSwap.visibleForeground = .greeter ↔ ∃ n, p.2.current = some n ∧ n ∈ p.2.painted

/-- While a greeter is not visible yet, an Overlay buffer is its own, and not empty, exactly if no
Overlay buffer was committed before it. -/
def FirstOverlay (owner : Surface → Option Nat) (p : HalmasuitState × Greeters) (i : Input) :
    Prop :=
  ∀ k, p.1.overlayBuffer i = some k → p.1.greeterSwap.visibleForeground = .wallpaper →
    ∀ n, p.2.current = some n →
      ((owner k.surface = some n ∧ k.nonEmpty = true) ↔ .overlay ∉ p.1.seenLayerRoles)

end HalmasuitState

/-! ## What a callback does to the gate -/

/-- The gate after one greeter was spawned. -/
theorem greeterSpawned_new : GreeterSwapGate.new.greeterSpawned.2 = ⟨.arming true false⟩ := rfl

theorem Greeters.hearAll_append (g : Greeters) (es es' : List Event) :
    g.hearAll (es ++ es') = (g.hearAll es).hearAll es' := by
  simp [hearAll]

/-- Events without a revert and without a spawn say nothing about the greeters. -/
theorem Greeters.hearAll_quiet {es : List Event} (hr : ∀ c, .gate c .revert ∉ es)
    (hs : ∀ pid, .greeterSpawned pid ∉ es) (g : Greeters) : g.hearAll es = g := by
  induction es with
  | nil => rfl
  | cons e es ih =>
    have he : g.hear e = g := by
      cases e with
      | gate c a =>
        cases a with
        | revert => exact absurd List.mem_cons_self (hr c)
        | _ => rfl
      | greeterSpawned pid => exact absurd List.mem_cons_self (hs pid)
      | _ => rfl
    show (g.hear e).hearAll es = g
    rw [he]
    exact ih (fun c h => hr c (List.mem_cons_of_mem _ h))
      fun pid h => hs pid (List.mem_cons_of_mem _ h)

namespace Scene

variable (s : Scene) (w : Answers)

/-- Only `Revert` installs a new gate. -/
theorem feedGate_greeterSwap (c : GateCall) : (s.feedGate c w).1.greeterSwap
    = if (s.swap.call c).1 = .revert then
        if w.spawnGreeter.isSome then GreeterSwapGate.new.greeterSpawned.2 else .new
      else s.greeterSwap := by
  cases h : (s.swap.call c).1 with
  | none => rw [feedGate_none s c w h]; rfl
  | swap => rw [feedGate_swap s c w h]; rfl
  | revert => rw [feedGate_revert s c w h]; rfl

theorem feedGate_seenLayerRoles (c : GateCall) :
    (s.feedGate c w).1.seenLayerRoles = s.seenLayerRoles := by
  cases h : (s.swap.call c).1 with
  | none => rw [feedGate_none s c w h]
  | swap => rw [feedGate_swap s c w h]
  | revert => rw [feedGate_revert s c w h]

/-- What the callbacks that call neither gate leave alone. -/
structure SameLayers (s s' : Scene) : Prop where
  gate : s'.greeterSwap = s.greeterSwap
  roles : s'.seenLayerRoles = s.seenLayerRoles

theorem sameLayers_toplevelDestroyed {t : Surface} {live : Bool}
    (h : s.destroyedCall t live = none) : SameLayers s (s.toplevelDestroyed t live w).1 := by
  rcases (toplevelDestroyed_none s w h).2 with heq | ⟨-, heq⟩
  · rw [heq]
    exact ⟨rfl, rfl⟩
  · rw [heq]
    exact ⟨rfl, rfl⟩

theorem sameLayers_prepareForShutdown (arming : Bool) :
    SameLayers s (s.prepareForShutdown arming w).1 := by
  rcases s.prepareForShutdown_cases w arming with heq | ⟨-, heq⟩
  · rw [heq]
    exact ⟨rfl, rfl⟩
  · rw [heq]
    exact ⟨rfl, rfl⟩

theorem sameLayers_stopSignal : SameLayers s (s.stopSignal w).1 := by
  rcases s.stopSignal_cases w with heq | ⟨-, heq⟩
  · rw [heq]
    exact ⟨rfl, rfl⟩
  · rw [heq]
    exact ⟨rfl, rfl⟩

theorem sameLayers_reapZombieChild (reaped : Option UInt32) :
    SameLayers s (s.reapZombieChild reaped).1 := by
  rcases s.reapZombieChild_cases reaped with heq | heq
  · rw [heq]
    exact ⟨rfl, rfl⟩
  · rw [heq]
    exact ⟨rfl, rfl⟩

/-- A call that reverts ends the episode of the greeter, and begins that of the next one. -/
theorem hearAll_feedGate {c : GateCall} (h : (s.swap.call c).1 = .revert) (g : Greeters) :
    g.hearAll (s.feedGate c w).2
      = if w.spawnGreeter.isSome then { g with count := g.count + 1, current := some g.count }
        else { g with current := none } := by
  have hev : (s.feedGate c w).2 = .gate c .revert :: (applyRevert
      { s with swap := (s.swap.call c).2 } w).2 := by
    simp only [feedGate, h, applySwapAction]
  rw [hev]
  unfold applyRevert
  cases w.spawnGreeter with
  | none => rfl
  | some pid => rfl

/-- The session's first frame never reverts the gate. -/
theorem call_sessionFirstFrame (g : SwapGate) (uid : UInt32) :
    (g.call (.sessionFirstFrame uid)).1 ≠ .revert := by
  intro h
  cases (call_revert h).1

theorem maybeEmitSessionFirstFrame_greeterSwap (k : Commit) :
    (s.maybeEmitSessionFirstFrame k w).1.greeterSwap = s.greeterSwap ∧
    (s.maybeEmitSessionFirstFrame k w).1.seenLayerRoles = s.seenLayerRoles := by
  unfold maybeEmitSessionFirstFrame
  split_ifs
  · exact ⟨rfl, rfl⟩
  · exact ⟨rfl, rfl⟩
  · exact ⟨rfl, rfl⟩
  · rw [feedGate_greeterSwap, feedGate_seenLayerRoles, if_neg (call_sessionFirstFrame _ _)]
    exact ⟨rfl, rfl⟩

theorem handleLayerShellCommit_greeterSwap (k : Commit) (hsync : k.sync = false) :
    ((s.handleLayerShellCommit k).1.greeterSwap
      = if k.overlays = true ∧ s.foreground = .greeter ∧ .overlay ∉ s.seenLayerRoles then
          s.greeterSwap.greeterFirstFrame.2
        else s.greeterSwap) ∧
    (.overlay ∈ (s.handleLayerShellCommit k).1.seenLayerRoles ↔
      k.overlays = true ∨ .overlay ∈ s.seenLayerRoles) := by
  unfold handleLayerShellCommit Commit.overlays
  rw [hsync]
  cases hl : k.layer with
  | none => simp
  | some l =>
    obtain ⟨role, interactive⟩ := l
    cases hb : k.hasBuffer with
    | false => simp
    | true =>
      by_cases hrole : role = .overlay
      · subst hrole
        by_cases hseen : LayerRole.overlay ∈ s.seenLayerRoles
        · simp [hseen]
        · by_cases hfg : s.foreground = .greeter
          · simp [hseen, hfg]
          · simp [hseen, hfg]
      · by_cases hseen : role ∈ s.seenLayerRoles
        · simp [hrole, hseen]
        · simp [hrole, hseen, Ne.symm hrole]

/-- The gate and the roles after a commit. -/
theorem commit_greeterSwap (k : Commit) :
    ((s.commit k w).1.greeterSwap
      = if k.overlays = true ∧ s.foreground = .greeter ∧ .overlay ∉ s.seenLayerRoles then
          s.greeterSwap.greeterFirstFrame.2
        else s.greeterSwap) ∧
    (.overlay ∈ (s.commit k w).1.seenLayerRoles ↔
      k.overlays = true ∨ .overlay ∈ s.seenLayerRoles) := by
  unfold commit
  cases hsync : k.sync with
  | true => simp [Commit.overlays, hsync]
  | false =>
    obtain ⟨f, heq, -⟩ := ((s.handleLayerShellCommit k).1.maybeEmitSessionFirstFrame k
      w).1.maybeFocusForegroundToplevel_cases k
    obtain ⟨hgate, hseen⟩ :=
      (s.handleLayerShellCommit k).1.maybeEmitSessionFirstFrame_greeterSwap w k
    obtain ⟨hgate', hseen'⟩ := s.handleLayerShellCommit_greeterSwap k hsync
    rw [if_neg (by simp)]
    dsimp only
    rw [heq]
    dsimp only
    rw [hgate, hseen]
    exact ⟨hgate', hseen'⟩

end Scene

namespace HalmasuitState

section
variable {s : HalmasuitState} {i : Input} {sc : Scene} {es : List Event}

/-- What a callback does to the gate, and what its events say about the greeters. -/
inductive Turns (s : HalmasuitState) (i : Input) (gate : GreeterSwapGate) (es : List Event) : Prop
  | kept (hi : s.overlayBuffer i = none) (hg : gate = s.greeterSwap)
      (hes : ∀ g : Greeters, g.hearAll es = g)
  | framed {k} (hi : s.overlayBuffer i = some k)
      (hg : gate = if .overlay ∈ s.seenLayerRoles then s.greeterSwap
        else s.greeterSwap.greeterFirstFrame.2)
      (hes : ∀ g : Greeters, g.hearAll es = g)
  | dropped (hi : s.overlayBuffer i = none) (hg : gate = .new)
      (hes : ∀ g : Greeters, g.hearAll es = { g with current := none })
  | spawned (hi : s.overlayBuffer i = none) (hg : gate = ⟨.arming true false⟩)
      (hes : ∀ g : Greeters,
        g.hearAll es = { g with count := g.count + 1, current := some g.count })

/-- Where a greeter is spawned only on a `Revert`, events without one say nothing. -/
theorem hearAll_unreverted (hs : SpawnsOnRevert es) (hr : ∀ c, .gate c .revert ∉ es)
    (g : Greeters) : g.hearAll es = g := by
  refine Greeters.hearAll_quiet hr (fun pid hmem => ?_) g
  obtain ⟨c, hc⟩ := hs pid hmem
  exact hr c hc

theorem notMem_revert_of_gateCalls (h : Scene.gateCalls es = []) (c : GateCall) :
    .gate c .revert ∉ es := by
  intro hmem
  have hcall := Scene.mem_gateCalls.mpr hmem
  rw [h] at hcall
  cases hcall

/-- A call of the swap gate: `Revert` turns to the next greeter, the others leave the gate. -/
theorem turns_feedGate {t : Scene} {pre : List Event} (c : GateCall) (w : Answers)
    (hi : s.overlayBuffer i = none) (ht : t.greeterSwap = s.greeterSwap)
    (hpre : ∀ g : Greeters, g.hearAll pre = g) :
    Turns s i (t.feedGate c w).1.greeterSwap (pre ++ (t.feedGate c w).2) := by
  have hes : ∀ g : Greeters, g.hearAll (pre ++ (t.feedGate c w).2)
      = g.hearAll (t.feedGate c w).2 := by
    intro g
    rw [Greeters.hearAll_append, hpre]
  by_cases hr : (t.swap.call c).1 = .revert
  · by_cases hw : w.spawnGreeter.isSome = true
    · refine .spawned hi ?_ fun g => ?_
      · rw [Scene.feedGate_greeterSwap, if_pos hr, if_pos hw, greeterSpawned_new]
      · rw [hes, Scene.hearAll_feedGate t w hr, if_pos hw]
    · refine .dropped hi ?_ fun g => ?_
      · rw [Scene.feedGate_greeterSwap, if_pos hr, if_neg hw]
      · rw [hes, Scene.hearAll_feedGate t w hr, if_neg hw]
  · refine .kept hi ?_ fun g => ?_
    · rw [Scene.feedGate_greeterSwap, if_neg hr, ht]
    · rw [hes]
      refine hearAll_unreverted (spawnsOnRevert_feedGate t c w) (fun c' hmem => ?_) g
      have hcall := Scene.mem_gateCalls.mpr hmem
      rw [Scene.gateCalls_feedGate, List.mem_singleton] at hcall
      exact hr (Prod.mk.inj hcall).2.symm

/-- A commit calls the swap gate with a key alone. -/
theorem turns_commit {k : Scene.Commit} {w : Answers} (hcl : k.surface.uid ∈ s.clients) :
    Turns s (.commit k w) (s.toScene.commit k w).1.greeterSwap (s.toScene.commit k w).2 := by
  have hgate := (s.toScene.commit_greeterSwap w k).1
  have hes : ∀ g : Greeters, g.hearAll (s.toScene.commit k w).2 = g := by
    refine hearAll_unreverted (spawnsOnRevert_commit _ k w) fun c hmem => ?_
    have hcall := Scene.mem_gateCalls.mpr hmem
    cases hc : s.toScene.commitCall k with
    | none =>
      obtain ⟨_, _, _, -, -, hnil⟩ := Scene.commit_none _ w hc
      rw [hnil] at hcall
      cases hcall
    | some c' =>
      obtain ⟨_, _, _, -, -, hone⟩ := Scene.commit_some _ w hc
      rw [hone, List.mem_singleton] at hcall
      unfold Scene.commitCall at hc
      split_ifs at hc
      cases hc
      exact Scene.call_sessionFirstFrame _ _ (Prod.mk.inj hcall).2.symm
  by_cases hk : k.overlays = true ∧ s.foreground = .greeter
  · have hi : s.overlayBuffer (.commit k w) = some k := by simp [overlayBuffer, hcl, hk]
    refine .framed hi ?_ hes
    rw [hgate]
    by_cases hseen : LayerRole.overlay ∈ s.seenLayerRoles
    · rw [if_neg fun h => h.2.2 hseen, if_pos hseen]
    · rw [if_pos ⟨hk.1, hk.2, hseen⟩, if_neg hseen]
  · refine .kept (by simp [overlayBuffer, hcl, hk]) ?_ hes
    rw [hgate, if_neg fun h => hk ⟨h.1, h.2.1⟩]

/-- The `Setup` tick spawns the first greeter of a compositor that started in the initramfs. -/
theorem turns_postPivotSetup (listener : Option (UInt32 × String)) (spawned : Option UInt32)
    (dropped : Bool) : Turns s (.postPivotSetup listener spawned dropped)
      (s.toScene.postPivotSetup spawned dropped).1.greeterSwap
      (s.toScene.postPivotSetup spawned dropped).2 := by
  cases spawned with
  | none => exact .kept rfl rfl fun _ => rfl
  | some pid => exact .spawned rfl rfl fun _ => rfl

/-- Every other callback leaves the gate, or calls the swap gate once. -/
theorem Moves.turns (h : Moves s i sc es) (hs : SpawnsOnRevert es) (hi : i.isSetup = false)
    (hcommit : ∀ k w, i ≠ .commit k w) (hcalls : s.gateCall i = none → Scene.gateCalls es = []) :
    Turns s i sc.greeterSwap es := by
  have hno : s.overlayBuffer i = none := by
    cases i with
    | commit k w => exact absurd rfl (hcommit k w)
    | _ => rfl
  have hquiet : s.gateCall i = none → ∀ g : Greeters, g.hearAll es = g :=
    fun hc => hearAll_unreverted hs (notMem_revert_of_gateCalls (hcalls hc))
  cases h with
  | records hc hes =>
    rw [Scene.records_eq]
    exact .kept hno rfl (hquiet hc)
  | broker hc hes =>
    refine turns_feedGate _ _ hno rfl (Greeters.hearAll_quiet (fun c hmem => ?_) fun pid hmem => ?_)
    · obtain ⟨_, _, h⟩ := hes _ hmem
      cases h
    · obtain ⟨_, _, h⟩ := hes _ hmem
      cases h
  | leader hc => exact turns_feedGate _ _ hno rfl fun g => (rfl : g.hearAll [] = g)
  | commit hcl => exact absurd rfl (hcommit _ _)
  | newToplevel hcl => exact .kept hno rfl fun _ => rfl
  | toplevelDestroyed hcl =>
    rename_i t live w
    cases hc : s.toScene.destroyedCall t live with
    | none =>
      have hcall : s.gateCall (.toplevelDestroyed t live w) = none := by simp [gateCall, hcl, hc]
      exact .kept hno (Scene.sameLayers_toplevelDestroyed _ w hc).gate (hquiet hcall)
    | some c =>
      rw [(Scene.toplevelDestroyed_some _ w hc).2.2]
      let t' : Scene := { s.toScene with foregroundToplevel := none, focus := none }
      have hsame : t'.greeterSwap = s.greeterSwap := rfl
      exact turns_feedGate c w hno hsame fun g => (rfl : g.hearAll [] = g)
  | prepareForShutdown =>
    exact .kept hno (Scene.sameLayers_prepareForShutdown _ _ _).gate (hquiet rfl)
  | stopSignal => exact .kept hno (Scene.sameLayers_stopSignal _ _).gate (hquiet rfl)
  | childReaped => exact .kept hno (Scene.sameLayers_reapZombieChild _ _).gate (hquiet rfl)
  | postPivotSetup hsrc => cases hi

variable (fromSlice : List UInt8 → Option Request)

/-- **What a callback does to the gate of the greeter.** -/
theorem step_turns (s : HalmasuitState) (i : Input) :
    Turns s i (s.step fromSlice i).1.greeterSwap (s.step fromSlice i).2 := by
  by_cases hsetup : i.isSetup = true
  · cases i with
    | postPivotSetup listener spawned dropped =>
      by_cases hsrc : Source.pivotPoll ∈ s.sources
      · simp only [step, if_pos hsrc]
        cases listener with
        | none => exact turns_postPivotSetup none spawned dropped
        | some l => exact turns_postPivotSetup (some l) spawned dropped
      · simp only [step, if_neg hsrc]
        exact .kept rfl rfl fun _ => rfl
    | _ => cases hsetup
  · by_cases hcommit : ∃ k w, i = .commit k w
    · obtain ⟨k, w, rfl⟩ := hcommit
      by_cases hcl : k.surface.uid ∈ s.clients
      · simp only [step, if_pos hcl]
        exact turns_commit hcl
      · simp only [step, if_neg hcl]
        exact .kept (by simp [overlayBuffer, hcl]) rfl fun _ => rfl
    · have hm : Moves s i (s.step fromSlice i).1.toScene (s.step fromSlice i).2 :=
        s.step_moves fromSlice i
      refine hm.turns (spawnsOnRevert_step fromSlice s i fun h => absurd h hsetup)
        (by simpa using hsetup) (fun k w h => hcommit ⟨k, w, h⟩) fun hc => ?_
      rw [step_gateCalls, hc]
      rfl

/-! ## The gate over a run -/

/-- The gate fits the greeters: it has its first key if a greeter was spawned for it, and the second
one before that only if there is none. -/
structure Recorded (p : HalmasuitState × Greeters) : Prop where
  painted : ∀ n ∈ p.2.painted, n < p.2.count
  current : ∀ n, p.2.current = some n → n < p.2.count
  none : p.2.current = none → ∃ f, p.1.greeterSwap.phase = .arming false f
  some : ∀ n, p.2.current = some n →
    p.1.greeterSwap.phase = .arming true false ∨ p.1.greeterSwap.phase = .swapped

theorem recorded_start (inInitramfs : Bool) (greeterUid : UInt32) (pamService : String)
    (greeter : Option UInt32) :
    Recorded (.start inInitramfs greeterUid pamService greeter, .start greeter) := by
  cases greeter with
  | none => exact ⟨by simp [Greeters.start], by simp [Greeters.start], fun _ => ⟨_, rfl⟩, nofun⟩
  | some pid =>
    refine ⟨by simp [Greeters.start], fun n hn => ?_, nofun, fun _ _ => .inl rfl⟩
    obtain rfl : 0 = n := by simpa [Greeters.start] using hn
    exact Nat.one_pos

theorem follows_start (inInitramfs : Bool) (greeterUid : UInt32) (pamService : String)
    (greeter : Option UInt32) :
    Follows (.start inInitramfs greeterUid pamService greeter, .start greeter) := by
  cases greeter with
  | none => simp [Follows, Greeters.start, start, GreeterSwapGate.new,
      GreeterSwapGate.visibleForeground]
  | some pid => simp [Follows, Greeters.start, start, greeterSpawned_new,
      GreeterSwapGate.visibleForeground]

theorem visible_iff {g : GreeterSwapGate} :
    g.visibleForeground = .greeter ↔ g.phase = .swapped := by
  unfold GreeterSwapGate.visibleForeground
  split <;> simp_all

theorem wallpaper_iff {g : GreeterSwapGate} :
    g.visibleForeground = .wallpaper ↔ g.phase ≠ .swapped := by
  unfold GreeterSwapGate.visibleForeground
  split <;> simp_all

theorem follows_none {p : HalmasuitState × Greeters} (hn : p.2.current = none) :
    Follows p ↔ p.1.greeterSwap.phase ≠ .swapped := by
  unfold Follows
  rw [visible_iff, hn]
  simp

theorem follows_some {p : HalmasuitState × Greeters} {n : Nat} (hn : p.2.current = some n) :
    Follows p ↔ (p.1.greeterSwap.phase = .swapped ↔ n ∈ p.2.painted) := by
  unfold Follows
  rw [visible_iff, hn]
  simp

variable (owner : Surface → Option Nat)

theorem paint_current (g : Greeters) (k : Scene.Commit) :
    (g.paint owner k).count = g.count ∧ (g.paint owner k).current = g.current ∧
    ∀ n, n ∈ (g.paint owner k).painted ↔
      n ∈ g.painted ∨ (owner k.surface = some n ∧ k.nonEmpty = true ∧ n < g.count) := by
  unfold Greeters.paint
  cases ho : owner k.surface with
  | none => simp
  | some m =>
    dsimp only
    split_ifs with hk
    · refine ⟨rfl, rfl, fun n => ?_⟩
      rw [List.mem_cons]
      constructor
      · rintro (rfl | hn)
        · exact .inr ⟨rfl, hk⟩
        · exact .inl hn
      · rintro (hn | ⟨hn, -⟩)
        · exact .inr hn
        · exact .inl (Option.some.inj hn).symm
    · refine ⟨rfl, rfl, fun n => ⟨.inl, ?_⟩⟩
      rintro (hn | ⟨hn, hk'⟩)
      · exact hn
      · obtain rfl := Option.some.inj hn
        exact absurd hk' hk

/-- The second key completes a gate that has the first one, and is kept by one that has not. -/
theorem greeterFirstFrame_phase (g : GreeterSwapGate) :
    (∀ f, g.phase = .arming false f → g.greeterFirstFrame.2.phase = .arming false true) ∧
    (g.phase = .arming true false ∨ g.phase = .swapped →
      g.greeterFirstFrame.2.phase = .swapped) := by
  unfold GreeterSwapGate.greeterFirstFrame GreeterSwapGate.arm
  cases hg : g.phase with
  | swapped => simp [hg]
  | arming spawned firstFrame => cases spawned <;> cases firstFrame <;> simp

/-- The gate after an Overlay buffer. -/
theorem framed_phase (s : HalmasuitState) {gate : GreeterSwapGate}
    (hg : gate = if .overlay ∈ s.seenLayerRoles then s.greeterSwap
      else s.greeterSwap.greeterFirstFrame.2) :
    ((∃ f, s.greeterSwap.phase = .arming false f) → ∃ f, gate.phase = .arming false f) ∧
    (s.greeterSwap.phase = .arming true false ∨ s.greeterSwap.phase = .swapped →
      (gate.phase = .arming true false ∨ gate.phase = .swapped) ∧ (gate.phase = .swapped ↔
        s.greeterSwap.phase = .swapped ∨ .overlay ∉ s.seenLayerRoles)) := by
  obtain ⟨hnone, hsome⟩ := greeterFirstFrame_phase s.greeterSwap
  by_cases hseen : LayerRole.overlay ∈ s.seenLayerRoles
  · rw [hg, if_pos hseen]
    simp [hseen]
  · rw [hg, if_neg hseen]
    exact ⟨fun ⟨f, hf⟩ => ⟨true, hnone f hf⟩, fun h => by simp [hsome h, hseen]⟩

/-- An Overlay buffer, and the gate. -/
theorem follows_framed {s s' : HalmasuitState} {g : Greeters} {i : Input} {k : Scene.Commit}
    (hp : Recorded (s, g)) (hf : Follows (s, g)) (hi : s.overlayBuffer i = some k)
    (hg : s'.greeterSwap = if .overlay ∈ s.seenLayerRoles then s.greeterSwap
      else s.greeterSwap.greeterFirstFrame.2) :
    Recorded (s', g.paint owner k) ∧
    (Follows (s', g.paint owner k) ↔ FirstOverlay owner (s, g) i) := by
  obtain ⟨hpainted, hcurrent, hnone, hsome⟩ := hp
  dsimp only at hpainted hcurrent hnone hsome
  obtain ⟨hcount, hcur, hmem⟩ := paint_current owner g k
  obtain ⟨hidle, harmed⟩ := s.framed_phase hg
  have hrecorded : Recorded (s', g.paint owner k) := by
    refine ⟨fun n hn => ?_, fun n hn => ?_, fun hn => ?_, fun n hn => ?_⟩
    · rw [hcount]
      rcases (hmem n).mp hn with h | ⟨-, -, h⟩
      · exact hpainted n h
      · exact h
    · rw [hcount]
      exact hcurrent n (hcur.symm.trans hn)
    · exact hidle (hnone (hcur.symm.trans hn))
    · exact (harmed (hsome n (hcur.symm.trans hn))).1
  refine ⟨hrecorded, ?_⟩
  cases hc : g.current with
  | none =>
    refine iff_of_true ?_ fun _ _ _ n hn => ?_
    · obtain ⟨f, hf'⟩ := hrecorded.none (hcur.trans hc)
      rw [follows_none (hcur.trans hc)]
      intro h
      rw [h] at hf'
      cases hf'
    · exact nomatch hc.symm.trans hn
  | some n =>
    have hn : n < g.count := hcurrent n hc
    have hturn := (harmed (hsome n hc)).2
    have hbefore := (follows_some hc).mp hf
    dsimp only at hbefore
    have hfirst : FirstOverlay owner (s, g) i ↔ (s.greeterSwap.phase ≠ .swapped →
        ((owner k.surface = some n ∧ k.nonEmpty = true) ↔ .overlay ∉ s.seenLayerRoles)) := by
      unfold FirstOverlay
      simp only [hi, hc, Option.some.injEq, forall_eq', wallpaper_iff]
    rw [follows_some (hcur.trans hc), hfirst]
    dsimp only
    rw [hturn, hmem n, ← hbefore]
    by_cases hsw : s.greeterSwap.phase = .swapped
    · simp [hsw]
    · simp only [hsw, false_or, hn, and_true, ne_eq, not_false_eq_true, forall_const]
      exact Iff.comm

/-- A callback keeps the gate fitting, and it keeps following its greeter exactly if the Overlay
buffer it may commit is the one that turns it. -/
theorem follows_step (p : HalmasuitState × Greeters) (i : Input) (hp : Recorded p)
    (hf : Follows p) :
    Recorded (track fromSlice owner p i).1 ∧
    (Follows (track fromSlice owner p i).1 ↔ FirstOverlay owner p i) := by
  obtain ⟨s, g⟩ := p
  have hvacuous : s.overlayBuffer i = none → FirstOverlay owner (s, g) i := by
    intro hi k hk
    exact nomatch hi.symm.trans hk
  cases s.step_turns fromSlice i with
  | kept hi hg hes =>
    have htrack : (track fromSlice owner (s, g) i).1 = ((s.step fromSlice i).1, g) := by
      simp [track, hi, hes]
    rw [htrack]
    constructor
    · exact ⟨hp.painted, hp.current, by rw [hg]; exact hp.none, by rw [hg]; exact hp.some⟩
    · refine iff_of_true ?_ (hvacuous hi)
      unfold Follows at hf ⊢
      rw [hg]
      exact hf
  | framed hi hg hes =>
    rename_i k
    have htrack : (track fromSlice owner (s, g) i).1
        = ((s.step fromSlice i).1, g.paint owner k) := by
      simp [track, hi, hes]
    rw [htrack]
    exact follows_framed owner hp hf hi hg
  | dropped hi hg hes =>
    have htrack : (track fromSlice owner (s, g) i).1
        = ((s.step fromSlice i).1, { g with current := none }) := by
      simp [track, hi, hes]
    rw [htrack]
    constructor
    · exact ⟨hp.painted, nofun, fun _ => ⟨false, by rw [hg]; rfl⟩, nofun⟩
    · refine iff_of_true ?_ (hvacuous hi)
      rw [follows_none rfl, hg]
      exact nofun
  | spawned hi hg hes =>
    have htrack : (track fromSlice owner (s, g) i).1
        = ((s.step fromSlice i).1, { g with count := g.count + 1, current := some g.count }) := by
      simp [track, hi, hes]
    rw [htrack]
    constructor
    · refine ⟨fun n hn => Nat.lt_succ_of_lt (hp.painted n hn), fun n hn => ?_, nofun,
        fun _ _ => .inl (by rw [hg])⟩
      obtain rfl : g.count = n := Option.some.inj hn
      exact Nat.lt_succ_self _
    · refine iff_of_true ?_ (hvacuous hi)
      -- no greeter has the number of the one spawned just now
      have hnew : g.count ∉ g.painted := fun hn => Nat.lt_irrefl _ (hp.painted _ hn)
      rw [follows_some rfl, hg]
      exact iff_of_false nofun hnew

/-- **The gate of each greeter.** Over every run of the compositor, with any number of greeters: in
every state the gate shows its greeter if and only if that greeter has committed a non-empty Overlay
buffer since it was spawned, while the foreground was Greeter, exactly if every Overlay buffer
committed before a greeter is visible is the greeter's own if and only if it is the first one of the
run. -/
theorem gate_follows_iff (inInitramfs : Bool) (greeterUid : UInt32) (pamService : String)
    (greeter : Option UInt32) (is : List Input) :
    (∀ pre post, is = pre ++ post → Follows (run (track fromSlice owner)
      (.start inInitramfs greeterUid pamService greeter, .start greeter) pre).1) ↔
    Along (track fromSlice owner) (FirstOverlay owner)
      (.start inInitramfs greeterUid pamService greeter, .start greeter) is := by
  have hfollows := follows_start inInitramfs greeterUid pamService greeter
  rw [along_next_iff, and_iff_right hfollows]
  refine along_congr (fun p => Recorded p ∧ Follows p) ?_ ?_ is _ ⟨recorded_start _ _ _ _, hfollows⟩
  · exact fun p i hp => (follows_step fromSlice owner p i hp.1 hp.2).2
  · exact fun p i hp hnext => ⟨(follows_step fromSlice owner p i hp.1 hp.2).1, hnext⟩

/-! ## A greeter after the first one -/

/-- Only a commit writes the layer roles. -/
theorem Moves.seenLayerRoles {s : HalmasuitState} {i : Input} {sc : Scene} {es : List Event}
    (h : Moves s i sc es) (hcommit : ∀ k w, i ≠ .commit k w) :
    sc.seenLayerRoles = s.seenLayerRoles := by
  cases h with
  | records hc hes => rw [Scene.records_eq]
  | broker hc hes => exact Scene.feedGate_seenLayerRoles _ _ _
  | leader hc => exact Scene.feedGate_seenLayerRoles _ _ _
  | commit hcl => exact absurd rfl (hcommit _ _)
  | newToplevel hcl => rfl
  | toplevelDestroyed hcl =>
    rename_i t live w
    cases hc : s.toScene.destroyedCall t live with
    | none => exact (Scene.sameLayers_toplevelDestroyed _ w hc).roles
    | some c =>
      rw [(Scene.toplevelDestroyed_some _ w hc).2.2]
      exact Scene.feedGate_seenLayerRoles _ _ _
  | prepareForShutdown => exact (Scene.sameLayers_prepareForShutdown _ _ _).roles
  | stopSignal => exact (Scene.sameLayers_stopSignal _ _).roles
  | childReaped => exact (Scene.sameLayers_reapZombieChild _ _).roles
  | postPivotSetup hsrc =>
    rename_i listener spawned dropped
    obtain ⟨gs, heq⟩ := s.toScene.postPivotSetup_eq spawned dropped
    rw [heq]

/-- The Overlay role is seen from the first Overlay buffer on. -/
theorem step_overlay_seen (s : HalmasuitState) (i : Input) :
    .overlay ∈ (s.step fromSlice i).1.seenLayerRoles ↔ .overlay ∈ s.seenLayerRoles ∨
      ∃ k w, i = .commit k w ∧ k.surface.uid ∈ s.clients ∧ k.overlays = true := by
  by_cases hcommit : ∃ k w, i = .commit k w
  · obtain ⟨k, w, rfl⟩ := hcommit
    by_cases hcl : k.surface.uid ∈ s.clients
    · have hseen := (s.toScene.commit_greeterSwap w k).2
      simp only [step, if_pos hcl, onScene, hseen]
      constructor
      · rintro (hk | h)
        · exact .inr ⟨k, w, rfl, hcl, hk⟩
        · exact .inl h
      · rintro (h | ⟨k', w', heq, -, hk⟩)
        · exact .inr h
        · cases heq
          exact .inl hk
    · simp only [step, if_neg hcl]
      refine ⟨.inl, ?_⟩
      rintro (h | ⟨k', w', heq, hcl', -⟩)
      · exact h
      · cases heq
        exact absurd hcl' hcl
  · have hm : Moves s i (s.step fromSlice i).1.toScene (s.step fromSlice i).2 :=
      s.step_moves fromSlice i
    rw [hm.seenLayerRoles fun k w h => hcommit ⟨k, w, h⟩]
    refine ⟨.inl, ?_⟩
    rintro (h | ⟨k, w, heq, -, -⟩)
    · exact h
    · exact absurd ⟨k, w, heq⟩ hcommit

/-- An Overlay buffer was seen, and the gate does not have its second key. -/
def Unseen (s : HalmasuitState) : Prop :=
  .overlay ∈ s.seenLayerRoles ∧ ∃ spawned, s.greeterSwap.phase = .arming spawned false

theorem unseen_step (s : HalmasuitState) (i : Input) (h : Unseen s) :
    Unseen (s.step fromSlice i).1 := by
  obtain ⟨hseen, spawned, hg⟩ := h
  refine ⟨(step_overlay_seen fromSlice s i).mpr (.inl hseen), ?_⟩
  cases s.step_turns fromSlice i with
  | kept hi hgate hes => exact ⟨spawned, by rw [hgate, hg]⟩
  | framed hi hgate hes => exact ⟨spawned, by rw [hgate, if_pos hseen, hg]⟩
  | dropped hi hgate hes => exact ⟨false, by rw [hgate]; rfl⟩
  | spawned hi hgate hes => exact ⟨true, by rw [hgate]⟩

/-- **A respawned greeter stays behind the wallpaper.** Where an Overlay buffer was seen before a
gate got its second key, the gate says wallpaper in every later state, and so does every gate after
it. -/
theorem never_visible_again (s : HalmasuitState) (h : Unseen s) (is : List Input) :
    (run (step fromSlice) s is).1.greeterSwap.visibleForeground = .wallpaper := by
  obtain ⟨-, spawned, hg⟩ := run_invariant (fun s _ => Unseen s)
    (fun s _ i h => unseen_step fromSlice s i h) is s [] h
  rw [wallpaper_iff, hg]
  exact nofun

end

/-- The greeter of a surface, in a run with two of them. -/
def twoGreeters (t : Surface) : Option Nat :=
  if t.id = 9 then some 0 else if t.id = 10 then some 1 else none

/-- The first buffer of a greeter's Overlay surface. -/
def overlayFrame (id : Nat) : Scene.Commit :=
  ⟨⟨id, 990⟩, false, some (.overlay, true), true, some (1280, 800)⟩

/-- `alice` logs out; the greeter is spawned again and draws its first frame. The first greeter was
shown, this one is not. -/
theorem respawned_greeter_behind_wallpaper :
    let start := (booted, Greeters.start (some 50))
    let first := [Input.waylandConnect 990, .commit (overlayFrame 9) calm]
    let is := first ++ login 0 "alice" 1000 ++
      [.leaderPidfdReady 0 calm, .waylandConnect 990, .commit (overlayFrame 10) calm]
    let p := (run (track readRequest twoGreeters) start is).1
    (run (track readRequest twoGreeters) start first).1.1.greeterSwap.visibleForeground = .greeter ∧
      p.1.foreground = .greeter ∧ p.1.greeter = some 51 ∧ p.2.current = some 1 ∧
      1 ∈ p.2.painted ∧ p.1.greeterSwap.visibleForeground = .wallpaper ∧
      ¬ ∀ pre post, is = pre ++ post →
        Follows (run (track readRequest twoGreeters) start pre).1 := by
  intro start first is p
  have hcurrent : p.2.current = some 1 := by decide +kernel
  have hpainted : 1 ∈ p.2.painted := by decide +kernel
  have hvisible : p.1.greeterSwap.visibleForeground = .wallpaper := by decide +kernel
  refine ⟨by decide +kernel, by decide +kernel, by decide +kernel, hcurrent, hpainted, hvisible, ?_⟩
  intro h
  have hlast : Follows p := h is [] (by simp)
  rw [hlast.mpr ⟨1, hcurrent, hpainted⟩] at hvisible
  cases hvisible

end HalmasuitState

end Halmasuit.Compositor
