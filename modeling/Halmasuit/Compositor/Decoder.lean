import Halmasuit.Compositor.Pivot
import Halmasuit.Wallpaper.Engine

/-!
# The decoder's credentials

A video wallpaper is decoded in a process of its own, which inherits the credentials the compositor
has when it forks it. The wallpaper timer (`halmasuit/src/main.rs` 5660–5738) is registered before
the privilege drop and is dispatched by the main loop. On the root file system the drop (5763–5802)
comes before the main loop; in the initramfs it is the last tick of the pivot-poll timer.

`Painter` is the process with its wallpaper. The timer and every frame may come at any time.

Headlines:
* `deprivileged_step`: what a callback that drops the privileges leaves.
* `decoder_run_iff`: every decoder is forked after the drop exactly if the first tick of the
  wallpaper timer comes after it.
* `late_rootfs`: it always does on the root file system.
-/

namespace Halmasuit.Compositor

open Halmasuit.Greetd (Request readRequest)
open Halmasuit.Wallpaper (DecoderCall Engine WallpaperConfig)
open Halmasuit.Lib

/-- What the process does, in order. -/
inductive PainterEvent where
  | process (e : PivotEvent)
  /-- A call that forks a decoder, with the credentials it inherits. -/
  | forked (c : DecoderCall) (creds : Creds)
  deriving DecidableEq

/-- The process, with the wallpaper of its DRM backend. -/
structure Painter where
  process : Process
  /-- No engine also where there is no DRM backend. -/
  engine : Engine
  /-- The wallpaper timer is registered. -/
  wallpaperTick : Bool
  /-- `drop_privileges` has succeeded. -/
  dropped : Bool

/-- Where `main` starts, as root. -/
inductive Deployment where
  | rootfs (greeter : Option UInt32) (k : DropAnswers)
  | initramfs
  deriving DecidableEq, Repr

/-- A callback of the process, a tick of the wallpaper timer, or the wallpaper of a frame. -/
inductive PainterInput where
  | process (i : Process.ProcessInput)
  | wallpaperTick (a : Wallpaper.Answers)
  | render (a : Wallpaper.Answers)

/-- The drop of `main` on the root file system; `none` where `main` returns an error. -/
def rootfsDrop (env : Environment) (k : DropAnswers) (c : Creds) : Option (Creds × Bool) :=
  match compositorUidFromEnv env.uid with
  | .error _ => none
  | .ok (some uid) =>
    match (dropPrivileges env.gid k c uid).2 with
    | .error _ => none
    | .ok () => some ((dropPrivileges env.gid k c uid).1, true)
  | .ok none => if c.euid = 0 then none else some (c, false)

namespace Painter

/-- `main` up to the main loop, and the events of its drop. -/
def main (env : Environment) (greeterUid : UInt32) (pamService : String) (libinputToken : Bool)
    (config : Option WallpaperConfig) (drm : Bool) :
    Deployment → Option (Painter × List PainterEvent)
  | .rootfs greeter k =>
    (rootfsDrop env k .root).map fun (creds, dropped) =>
      ({ process := ⟨.start false greeterUid pamService greeter, creds, .awaiting, false,
            libinputToken⟩
         engine := if drm then config.map WallpaperConfig.backend else none
         wallpaperTick := config.any WallpaperConfig.needsTick
         dropped := dropped },
        if dropped then [.process .deprivileged] else [])
  | .initramfs =>
    some ({ process := .boot greeterUid pamService libinputToken
            engine := if drm then config.map WallpaperConfig.backend else none
            wallpaperTick := config.any WallpaperConfig.needsTick
            dropped := false }, [])

/-- One callback. -/
def step (env : Environment) (fromSlice : List UInt8 → Option Request) (p : Painter) :
    PainterInput → Painter × List PainterEvent
  | .process i =>
    let r := p.process.step env fromSlice i
    ({ p with process := r.1, dropped := p.dropped || decide (PivotEvent.deprivileged ∈ r.2) },
      r.2.map .process)
  | .wallpaperTick a =>
    if p.wallpaperTick then
      let r := Engine.tickWallpaper p.engine a
      ({ p with engine := r.1.1 }, r.2.map (.forked · p.process.creds))
    else (p, [])
  | .render a =>
    let r := Engine.renderElement p.engine a
    ({ p with engine := r.1 }, r.2.map (.forked · p.process.creds))

/-- A decoder is forked after the drop, and does not inherit root. -/
def Unprivileged (pre : List PainterEvent) (e : PainterEvent) : Prop :=
  ∀ c creds, e = .forked c creds → .process .deprivileged ∈ pre ∧ creds.ruid ≠ 0 ∧
    creds.euid ≠ 0 ∧ creds.suid ≠ 0

/-- What a step has to meet: the tick that finds a video whose decoder was never forked comes after
the drop, which was to a user other than root. -/
def Late (p : Painter) : PainterInput → Prop
  | .wallpaperTick _ => p.wallpaperTick = true → p.engine.isUnspawned = true →
    p.dropped = true ∧ p.process.creds.euid ≠ 0
  | _ => True

end Painter

/-! ## The drop -/

namespace Process

theorem deprivileged_notMem_compositor (es : List Event) :
    .deprivileged ∉ es.map PivotEvent.compositor := by
  intro h
  obtain ⟨_, -, heq⟩ := List.mem_map.mp h
  cases heq

/-- A setup that drops the privileges makes the three uids one. -/
theorem deprivileged_runPostPivotSetup {env : Environment} {p : Process} {a : SetupAnswers}
    (h : .deprivileged ∈ (p.runPostPivotSetup env a).1.2) :
    (p.runPostPivotSetup env a).1.1.creds.ruid = (p.runPostPivotSetup env a).1.1.creds.euid ∧
    (p.runPostPivotSetup env a).1.1.creds.suid = (p.runPostPivotSetup env a).1.1.creds.euid := by
  have hnot : ∀ creds, .deprivileged ∉ (p.setUp a creds false).2 := by
    intro creds hm
    simp only [setUp, Bool.false_eq_true, if_false, List.append_nil] at hm
    exact deprivileged_notMem_compositor _ hm
  unfold runPostPivotSetup at h ⊢
  cases hu : compositorUidFromEnv env.uid with
  | error e =>
    rw [hu] at h
    exact absurd h (hnot _)
  | ok o =>
    rw [hu] at h
    cases o with
    | none =>
      dsimp only at h
      split at h <;> exact absurd h (hnot _)
    | some u =>
      dsimp only at h ⊢
      cases hr : (dropPrivileges env.gid a.drop p.creds u).2 with
      | error e =>
        rw [hr] at h
        exact absurd h (hnot _)
      | ok r =>
        obtain ⟨hruid, heuid, hsuid⟩ := dropPrivileges_uids hr
        exact ⟨hruid.trans heuid.symm, hsuid.trans heuid.symm⟩

section
variable (env : Environment) (fromSlice : List UInt8 → Option Request)

/-- The callback that drops the privileges is the last tick of the timer, and makes the three uids
one. -/
theorem deprivileged_step {p : Process} {i : ProcessInput}
    (h : .deprivileged ∈ (p.step env fromSlice i).2) :
    Source.pivotPoll ∉ (p.step env fromSlice i).1.compositor.sources ∧
    (p.step env fromSlice i).1.creds.ruid = (p.step env fromSlice i).1.creds.euid ∧
    (p.step env fromSlice i).1.creds.suid = (p.step env fromSlice i).1.creds.euid := by
  cases i with
  | callback i =>
    unfold step at h
    dsimp only at h
    split_ifs at h
    · cases h
    · exact absurd h (deprivileged_notMem_compositor _)
  | tick t =>
    unfold step at h ⊢
    dsimp only at h ⊢
    split_ifs at h ⊢
    · rcases tick_cases env p t with ⟨-, phase, b, -, hev⟩ | ⟨-, heq, hres⟩
      · rcases hev _ h with hev | ⟨c, hev⟩ <;> cases hev
      · have hmem : .deprivileged ∈ (p.runPostPivotSetup env t.setup).1.2 := by
          rcases hres with ⟨-, hev⟩ | ⟨e, -, hev⟩
          · rwa [hev] at h
          · rw [hev] at h
            simpa using h
        obtain ⟨creds, dropped, hset⟩ := p.runPostPivotSetup_compositor env t.setup
        refine ⟨?_, ?_⟩
        · rw [heq, hset]
          exact (p.setUp_spec t.setup creds dropped).2.2.1
        · rw [heq]
          exact deprivileged_runPostPivotSetup hmem
    · cases h

end

end Process

namespace Painter

/-! ## The invariant -/

/-- The drop is recorded once it has happened; from then on the timer is gone and the process has
one uid; and a decoder was forked only after it, and not as root. -/
structure Guarded (p : Painter) (tr : List PainterEvent) : Prop where
  marked : p.dropped = true ↔ .process .deprivileged ∈ tr
  settled : p.dropped = true → Source.pivotPoll ∉ p.process.compositor.sources ∧
    p.process.creds.ruid = p.process.creds.euid ∧ p.process.creds.suid = p.process.creds.euid
  relay : p.engine.hasRelay = true → p.dropped = true ∧ p.process.creds.euid ≠ 0

section
variable (env : Environment) (fromSlice : List UInt8 → Option Request)

theorem process_notMem_forked (e : PivotEvent) (cs : List DecoderCall) (creds : Creds) :
    PainterEvent.process e ∉ cs.map (.forked · creds) := by
  simp

/-- Decoders that are forked after the drop, or none. -/
theorem Guarded.always_forked {p : Painter} {tr : List PainterEvent} (h : p.Guarded tr)
    (hq : Always Unprivileged tr) {cs : List DecoderCall}
    (hcs : cs ≠ [] → p.dropped = true ∧ p.process.creds.euid ≠ 0) :
    Always Unprivileged (tr ++ cs.map (.forked · p.process.creds)) := by
  by_cases hnil : cs = []
  · simpa [hnil] using hq
  · obtain ⟨hdropped, heuid⟩ := hcs hnil
    obtain ⟨-, hruid, hsuid⟩ := h.settled hdropped
    refine hq.append ?_
    rintro pre e post heq c creds rfl
    have hmem : PainterEvent.forked c creds ∈ cs.map (.forked · p.process.creds) := by simp [heq]
    obtain ⟨_, -, hforked⟩ := List.mem_map.mp hmem
    cases hforked
    refine ⟨List.mem_append_left _ (h.marked.mp hdropped), ?_, heuid, ?_⟩
    · rw [hruid]
      exact heuid
    · rw [hsuid]
      exact heuid

/-! ## Steps -/

/-- What the calls of a step need, where it meets the condition. -/
theorem Guarded.tick_forks {p : Painter} {tr : List PainterEvent} (h : p.Guarded tr)
    {a : Wallpaper.Answers} (ht : p.wallpaperTick = true) (hlate : p.Late (.wallpaperTick a)) :
    (p.dropped = true ∧ p.process.creds.euid ≠ 0) ∨
    ((Engine.tick p.engine a).2 = [] ∧ Engine.hasRelay (Engine.tick p.engine a).1.1 = false) := by
  by_cases hu : p.engine.isUnspawned = true
  · exact .inl (hlate ht hu)
  · by_cases hr : p.engine.hasRelay = true
    · exact .inl (h.relay hr)
    · exact .inr (Engine.tick_quiet (by simpa using hu) (by simpa using hr) a)

/-- **One step.** -/
theorem guarded_step {p : Painter} {tr : List PainterEvent} (h : p.Guarded tr) (i : PainterInput)
    (hi : p.Late i) : (p.step env fromSlice i).1.Guarded (tr ++ (p.step env fromSlice i).2) := by
  cases i with
  | process i =>
    have hkept : p.dropped = true → (p.process.step env fromSlice i).1.creds = p.process.creds ∧
        Source.pivotPoll ∉ (p.process.step env fromSlice i).1.compositor.sources := fun hd =>
      let hs := p.process.settled_step env fromSlice i (h.settled hd).1
      ⟨hs.1, hs.2.1⟩
    refine ⟨?_, fun hd => ?_, fun hr => ?_⟩
    · simp [step, h.marked]
    · by_cases hold : p.dropped = true
      · obtain ⟨hcreds, hpoll⟩ := hkept hold
        obtain ⟨-, hruid, hsuid⟩ := h.settled hold
        rw [← hcreds] at hruid hsuid
        exact ⟨hpoll, hruid, hsuid⟩
      · have hmem : .deprivileged ∈ (p.process.step env fromSlice i).2 := by
          simpa [step, hold] using hd
        exact Process.deprivileged_step env fromSlice hmem
    · obtain ⟨hold, heuid⟩ := h.relay hr
      refine ⟨by simp [step, hold], ?_⟩
      show (p.process.step env fromSlice i).1.creds.euid ≠ 0
      rw [(hkept hold).1]
      exact heuid
  | wallpaperTick a =>
    unfold step
    dsimp only
    split_ifs with ht
    · refine ⟨?_, h.settled, fun hr => ?_⟩
      · simp [h.marked]
      · rcases h.tick_forks ht hi with hok | ⟨-, hnone⟩
        · exact hok
        · exact absurd hr (by simp [Engine.tickWallpaper, hnone])
    · simpa using h
  | render a =>
    refine ⟨by simp [step, h.marked], h.settled, fun hr => ?_⟩
    by_cases hold : p.engine.hasRelay = true
    · exact h.relay hold
    · have hnone := (Engine.renderElement_quiet (by simpa using hold) a).2
      exact absurd hr (by simp [step, hnone])

/-- **One step, exactly.** -/
theorem unprivileged_step_iff {p : Painter} {tr : List PainterEvent} (h : p.Guarded tr)
    (hq : Always Unprivileged tr) (i : PainterInput) :
    Always Unprivileged (tr ++ (p.step env fromSlice i).2) ↔ p.Late i := by
  cases i with
  | process i =>
    refine iff_of_true (hq.append_of_forall ?_) trivial
    rintro e he pre c creds rfl
    simp [step] at he
  | wallpaperTick a =>
    by_cases ht : p.wallpaperTick = true
    · have hev : (p.step env fromSlice (.wallpaperTick a)).2
          = (Engine.tick p.engine a).2.map (.forked · p.process.creds) := by
        simp [step, ht, Engine.tickWallpaper]
      rw [hev]
      constructor
      · intro halways _ hu
        have hmem : PainterEvent.forked .spawn p.process.creds ∈
            (Engine.tick p.engine a).2.map (.forked · p.process.creds) :=
          List.mem_map_of_mem (Engine.spawn_mem_tick hu a)
        obtain ⟨pre, post, heq⟩ := List.append_of_mem hmem
        obtain ⟨hdep, -, heuid, -⟩ := halways (tr ++ pre) (.forked .spawn p.process.creds) post
          (by rw [heq, List.append_assoc]) _ _ rfl
        refine ⟨h.marked.mpr ?_, heuid⟩
        rcases List.mem_append.mp hdep with hdep | hdep
        · exact hdep
        · exact absurd (by rw [heq]; exact List.mem_append_left _ hdep)
            (process_notMem_forked .deprivileged (Engine.tick p.engine a).2 p.process.creds)
      · intro hlate
        refine h.always_forked hq fun hne => ?_
        exact (h.tick_forks ht hlate).resolve_right fun hquiet => hne hquiet.1
    · have hstep : p.step env fromSlice (.wallpaperTick a) = (p, []) := by simp [step, ht]
      rw [hstep, List.append_nil]
      exact iff_of_true hq fun ht' => absurd ht' ht
  | render a =>
    refine iff_of_true (h.always_forked hq fun hne => ?_) trivial
    by_contra hno
    have hold : p.engine.hasRelay = false := by
      by_contra hr
      exact hno (h.relay (by simpa using hr))
    exact hne (Engine.renderElement_quiet hold a).1

/-! ## Runs -/

theorem hasRelay_config (config : Option WallpaperConfig) (drm : Bool) :
    Engine.hasRelay (if drm then config.map WallpaperConfig.backend else none) = false := by
  obtain _ | _ | _ | fallback := config <;> cases drm <;> rfl

theorem rootfsDrop_root {env : Environment} {k : DropAnswers} {creds : Creds} {dropped : Bool}
    (h : rootfsDrop env k .root = some (creds, dropped)) :
    dropped = true ∧ ∃ u, compositorUidFromEnv env.uid = .ok (some u) ∧ creds.ruid = u ∧
      creds.euid = u ∧ creds.suid = u := by
  unfold rootfsDrop at h
  split at h
  · cases h
  · rename_i u hu
    split at h
    · cases h
    · rename_i hr
      cases h
      exact ⟨rfl, u, hu, dropPrivileges_uids hr⟩
  · cases h

/-- The process when the main loop begins. -/
theorem guarded_main {greeterUid : UInt32} {pamService : String} {libinputToken : Bool}
    {config : Option WallpaperConfig} {drm : Bool} {d : Deployment} {p : Painter}
    {tr : List PainterEvent}
    (h : main env greeterUid pamService libinputToken config drm d = some (p, tr)) :
    p.Guarded tr ∧ Always Unprivileged tr := by
  cases d with
  | rootfs greeter k =>
    obtain ⟨⟨creds, dropped⟩, hdrop, heq⟩ := Option.map_eq_some_iff.mp h
    obtain ⟨hdropped, u, -, hruid, heuid, hsuid⟩ := rootfsDrop_root hdrop
    cases heq
    subst hdropped
    refine ⟨⟨by simp, fun _ => ⟨by simp [HalmasuitState.start], hruid.trans heuid.symm,
      hsuid.trans heuid.symm⟩, fun hr => ?_⟩, ?_⟩
    · exact absurd hr (by simp [hasRelay_config])
    · rw [if_pos rfl, always_singleton]
      rintro c creds' heq
      cases heq
  | initramfs =>
    cases h
    refine ⟨⟨by simp, fun hd => absurd hd (by simp), fun hr => ?_⟩, always_nil _⟩
    exact absurd hr (by simp [hasRelay_config])

/-- **The decoder's credentials.** In every run of either deployment, every decoder is forked after
the drop and as a user other than root, if and only if no tick of the wallpaper timer before the
drop, or after a drop to root, finds a video whose decoder was never forked. -/
theorem decoder_run_iff (greeterUid : UInt32) (pamService : String) (libinputToken : Bool)
    (config : Option WallpaperConfig) (drm : Bool) (d : Deployment) {p : Painter}
    {tr : List PainterEvent}
    (h : main env greeterUid pamService libinputToken config drm d = some (p, tr))
    (is : List PainterInput) :
    Always Unprivileged (tr ++ (run (step env fromSlice) p is).2) ↔
      Along (step env fromSlice) Late p is := by
  obtain ⟨hguarded, hq⟩ := guarded_main env h
  refine run_always_iff Guarded ?_ ?_ is p tr hguarded hq
  · exact fun p tr i hp hq => unprivileged_step_iff env fromSlice hp hq i
  · exact fun p tr i hp hi => guarded_step env fromSlice hp i hi

/-- The drop is over, and it was to a user other than root. -/
structure Settled (p : Painter) : Prop where
  dropped : p.dropped = true
  poll : Source.pivotPoll ∉ p.process.compositor.sources
  euid : p.process.creds.euid ≠ 0

theorem settled_step {p : Painter} (h : p.Settled) (i : PainterInput) :
    (p.step env fromSlice i).1.Settled := by
  cases i with
  | process i =>
    obtain ⟨hcreds, hpoll, -⟩ := p.process.settled_step env fromSlice i h.poll
    refine ⟨by simp [step, h.dropped], hpoll, ?_⟩
    show (p.process.step env fromSlice i).1.creds.euid ≠ 0
    rw [hcreds]
    exact h.euid
  | wallpaperTick a =>
    unfold step
    dsimp only
    split_ifs
    · exact ⟨h.dropped, h.poll, h.euid⟩
    · exact h
  | render a => exact ⟨h.dropped, h.poll, h.euid⟩

/-- On the root file system a run meets the condition whenever the configured user is not root. -/
theorem late_rootfs {greeterUid : UInt32} {pamService : String} {libinputToken : Bool}
    {config : Option WallpaperConfig} {drm : Bool} {greeter : Option UInt32} {k : DropAnswers}
    {p : Painter} {tr : List PainterEvent}
    (h : main env greeterUid pamService libinputToken config drm (.rootfs greeter k) = some (p, tr))
    (hu : compositorUidFromEnv env.uid ≠ .ok (some 0)) (is : List PainterInput) :
    Along (step env fromSlice) Late p is := by
  have hp : p.Settled := by
    obtain ⟨⟨creds, dropped⟩, hdrop, heq⟩ := Option.map_eq_some_iff.mp h
    obtain ⟨hdropped, u, hu', -, heuid, -⟩ := rootfsDrop_root hdrop
    cases heq
    refine ⟨hdropped, by simp [HalmasuitState.start], fun h0 => hu ?_⟩
    rw [hu', ← heuid, show creds.euid = 0 from h0]
  rw [along_iff_forall]
  intro pre i post _
  have hpre : (run (step env fromSlice) p pre).1.Settled :=
    run_invariant (fun q _ => Settled q)
      (fun q _ i hq => settled_step env fromSlice hq i) pre p [] hp
  cases i with
  | wallpaperTick a => exact fun _ _ => ⟨hpre.dropped, hpre.euid⟩
  | _ => trivial

end

/-- The decoder is forked, and says it is ready. -/
def decoderReady : Wallpaper.Answers := ⟨true, true, [.ready], 0, true⟩

/-- A boot in which the wallpaper timer is first dispatched after the drop. -/
theorem late_tick_unprivileged :
    let p : Painter := ⟨.boot 0 "halmasuit" false, some (.video (.new none)), true, false⟩
    let setup : Process.ProcessInput := .tick (Process.goodTick ⟨true, true, true, true, true⟩)
    let r := run (step Process.configured readRequest) p
      ((Process.migration ++ [setup]).map .process ++ [.wallpaperTick decoderReady])
    .forked .spawn ⟨998, 998, 998, 997, 997, 997⟩ ∈ r.2 ∧ Always Unprivileged r.2 := by
  intro p setup r
  have hlate : Along (step Process.configured readRequest) Late p
      ((Process.migration ++ [setup]).map .process ++ [.wallpaperTick decoderReady]) :=
    ⟨trivial, trivial, trivial, trivial, fun _ _ => ⟨by decide +kernel, by decide +kernel⟩, trivial⟩
  refine ⟨by decide +kernel, ?_⟩
  exact (decoder_run_iff Process.configured readRequest 0 "halmasuit" false
    (some (.video none)) true
    .initramfs rfl _).mpr hlate

/-- The wallpaper timer is dispatched in the initramfs: the decoder is forked as root, and when it
closes its socket it is forked as root again. -/
theorem initramfs_decoder_root :
    let p : Painter := ⟨.boot 0 "halmasuit" false, some (.video (.new none)), true, false⟩
    let r := run (step Process.configured readRequest) p
      [.wallpaperTick decoderReady, .render ⟨true, true, [.closed], 500, true⟩]
    main Process.configured 0 "halmasuit" false (some (.video none)) true .initramfs
      = some (p, []) ∧
      r.2 = [.forked .spawn .root, .forked .respawn .root] ∧ ¬ Always Unprivileged r.2 := by
  intro p r
  have hr : r.2 = [.forked .spawn .root, .forked .respawn .root] := by decide +kernel
  refine ⟨rfl, hr, fun h => ?_⟩
  obtain ⟨hdep, -⟩ := h [] _ _ (by rw [hr]; rfl) _ _ rfl
  cases hdep

end Painter

end Halmasuit.Compositor
