import Halmasuit.Compositor.Login

/-!
# The windows of the session

A client can have any number of toplevels, and `foreground_toplevel` (`halmasuit/src/main.rs` 310)
holds one. `new_toplevel` (1701–1751) overwrites it, `toplevel_destroyed` (1753–1804) clears it when
the toplevel that goes is the one it holds, and takes that as the session's client being gone;
nothing looks for another toplevel of the session. `SwapGate::session_client_gone` (`swap_gate.rs`
117–127) is for the client whose last surface went away.

Headlines:
* `windows_step_iff`: which callbacks keep a session with a window on the screen.
* `windows_run_iff`: the same over whole runs.
-/

namespace Halmasuit.Compositor

open Halmasuit.Greetd (Request SpawnRequest readRequest)
open Halmasuit.SessionIpc
open Halmasuit.Lib

/-- One of the toplevels is the session's. -/
def HasWindow (sessionUid : Option UInt32) (ts : List Surface) : Prop :=
  ∃ t ∈ ts, sessionUid = some t.uid

instance (sessionUid : Option UInt32) (ts : List Surface) : Decidable (HasWindow sessionUid ts) :=
  inferInstanceAs (Decidable (∃ t ∈ ts, _))

/-- The compositor, with `xdg_shell_state.toplevel_surfaces()`: the toplevels there are, the newest
first. -/
structure Windows where
  state : HalmasuitState
  toplevels : List Surface

namespace Windows

/-- The toplevels after a callback. A toplevel is out of the list when `toplevel_destroyed` is
called. -/
def toplevelsAfter (p : Windows) : HalmasuitState.Input → List Surface
  | .newToplevel t => if t.uid ∈ p.state.clients then t :: p.toplevels else p.toplevels
  | .toplevelDestroyed t _ _ =>
    if t.uid ∈ p.state.clients then p.toplevels.filter (· ≠ t) else p.toplevels
  | _ => p.toplevels

/-- One callback. -/
def step (fromSlice : List UInt8 → Option Request) (p : Windows) (i : HalmasuitState.Input) :
    Windows × List Event :=
  (⟨(p.state.step fromSlice i).1, p.toplevelsAfter i⟩, (p.state.step fromSlice i).2)

/-- The foreground toplevel is the session's. -/
def Fronted (p : Windows) : Prop :=
  ∃ t ∈ p.toplevels, p.state.foregroundToplevel = some t ∧ p.state.sessionUid = some t.uid

/-- A session that has the foreground and a window has it in front. -/
def Shows (p : Windows) : Prop :=
  p.state.foreground = .session → HasWindow p.state.sessionUid p.toplevels → p.Fronted

/-- What a callback is to give: the gate hears of a destroyed toplevel only when the session has no
window left, and a session with a window has one in front. -/
structure Keeps (fromSlice : List UInt8 → Option Request) (p : Windows) (i : HalmasuitState.Input) :
    Prop where
  gone : ∀ u a, .gate (.toplevelGone u) a ∈ (p.step fromSlice i).2 →
    ¬ HasWindow p.state.sessionUid (p.step fromSlice i).1.toplevels
  shows : (p.step fromSlice i).1.Shows

/-- What a callback has to meet: the toplevel in front is destroyed after the session's other ones;
no other client maps a toplevel over the session's; and at `Swap` a session with a window has it in
front. -/
structure Orderly (p : Windows) (i : HalmasuitState.Input) : Prop where
  created : ∀ t, i = .newToplevel t → t.uid ∈ p.state.clients → p.state.foreground = .session →
    p.state.sessionUid ≠ some t.uid → ¬ HasWindow p.state.sessionUid p.toplevels
  destroyed : ∀ t live w, i = .toplevelDestroyed t live w → t.uid ∈ p.state.clients →
    p.state.foregroundToplevel = some t →
    p.state.foreground = .session ∨
      (p.state.wasSession t live = true ∧ p.state.shouldExit = false) →
    ¬ HasWindow p.state.sessionUid (p.toplevels.filter (· ≠ t))
  swap : ∀ c ∈ p.state.gateCall i, (p.state.swap.call c).1 = .swap →
    HasWindow p.state.sessionUid p.toplevels → p.Fronted

end Windows

namespace HalmasuitState

section
variable {s : HalmasuitState} {i : Input} {sc : Scene} {es : List Event}

/-- Only the end of a toplevel tells the gate that one is gone. -/
theorem gateCall_toplevelGone {u : UInt32} (hc : s.gateCall i = some (.toplevelGone u)) :
    ∃ t live w, i = .toplevelDestroyed t live w ∧ t.uid ∈ s.clients ∧
      s.toScene.destroyedCall t live = some (.toplevelGone u) := by
  cases i with
  | brokerReady id readable env recv w =>
    unfold gateCall at hc
    dsimp only at hc
    split_ifs at hc
    split at hc <;> cases hc
  | leaderPidfdReady id w =>
    unfold gateCall at hc
    dsimp only at hc
    split_ifs at hc
    cases hc
  | commit c w =>
    unfold gateCall Scene.commitCall at hc
    dsimp only at hc
    split_ifs at hc
    cases hc
  | toplevelDestroyed t live w =>
    unfold gateCall at hc
    dsimp only at hc
    split_ifs at hc with hcl
    exact ⟨t, live, w, rfl, hcl, hc⟩
  | _ => cases hc

/-- A callback that calls the gate leaves the foreground toplevel, unless it is the end of one. -/
theorem Moves.gate_foregroundToplevel (h : Moves s i sc es) {c : GateCall}
    (hc : s.gateCall i = some c) (hd : ∀ t live w, i ≠ .toplevelDestroyed t live w) :
    sc.foregroundToplevel = s.foregroundToplevel := by
  obtain ⟨t, w, f, -, -, rfl, -, htop | ⟨⟨t', live, w', rfl⟩, -⟩⟩ := h.gated hc
  · exact (Scene.feedGate_foregroundToplevel t c w).trans htop.1
  · exact absurd rfl (hd t' live w')

/-- A callback that neither maps nor destroys a toplevel and does not complete the gate: the front
stays as it is, or the foreground is the greeter's after it, or no session was recorded before
it. -/
theorem Moves.front (h : Moves s i sc es) (hn : ∀ t, i ≠ .newToplevel t)
    (hd : ∀ t live w, i ≠ .toplevelDestroyed t live w)
    (hswap : ∀ c ∈ s.gateCall i, (s.swap.call c).1 ≠ .swap) :
    (sc.foreground = s.foreground ∧ sc.foregroundToplevel = s.foregroundToplevel ∧
      sc.sessionUid = s.sessionUid) ∨
    sc.foreground = .greeter ∨ (sc.foreground = s.foreground ∧ s.sessionUid = none) := by
  cases hc : s.gateCall i with
  | none =>
    cases h.ungated hc with
    | recorded hnone hsp => exact .inr (.inr ⟨rfl, hnone⟩)
    | newToplevel hcl => exact absurd rfl (hn _)
    | toplevelGone => exact absurd rfl (hd _ _ _)
    | latched _ => exact .inr (.inl rfl)
    | _ => exact .inl ⟨rfl, rfl, rfl⟩
  | some c =>
    have htop := h.gate_foregroundToplevel hc hd
    obtain ⟨t, w, f, ht, -, rfl⟩ := h.gate_some hc
    have hne := hswap c hc
    rw [← ht.swap] at hne
    cases ha : (t.swap.call c).1 with
    | none =>
      rw [Scene.feedGate_none t c w ha] at htop ⊢
      exact .inl ⟨ht.foreground, htop, ht.sessionUid⟩
    | swap => exact absurd ha hne
    | revert =>
      rw [Scene.feedGate_revert t c w ha]
      exact .inr (.inl rfl)

/-- A callback that completes the gate. -/
theorem Moves.swap_front (h : Moves s i sc es) {c : GateCall} (hc : s.gateCall i = some c)
    (ha : (s.swap.call c).1 = .swap) : sc.foreground = .session ∧
      sc.foregroundToplevel = s.foregroundToplevel ∧ sc.sessionUid = s.sessionUid := by
  have hd : ∀ t live w, i ≠ .toplevelDestroyed t live w := by
    rintro t live w rfl
    have hcl : t.uid ∈ s.clients := by
      by_contra hcl
      simp [gateCall, hcl] at hc
    have hcall : s.toScene.destroyedCall t live = some c := by simpa [gateCall, hcl] using hc
    obtain ⟨-, rfl, -⟩ := Scene.toplevelDestroyed_some _ calm hcall
    cases (Scene.call_swap ha).1
  have htop := h.gate_foregroundToplevel hc hd
  obtain ⟨t, w, f, ht, -, rfl⟩ := h.gate_some hc
  rw [← ht.swap] at ha
  rw [Scene.feedGate_swap t c w ha] at htop ⊢
  exact ⟨rfl, htop, ht.sessionUid⟩

variable (fromSlice : List UInt8 → Option Request)

/-- A call of the gate among the events of a callback. -/
theorem gate_mem_step (s : HalmasuitState) (i : Input) (c : GateCall) (a : SwapAction) :
    .gate c a ∈ (s.step fromSlice i).2 ↔ s.gateCall i = some c ∧ (s.swap.call c).1 = a := by
  rw [← Scene.mem_gateCalls, step_gateCalls]
  cases s.gateCall i with
  | none => simp
  | some c' =>
    simp only [Option.toList_some, List.map_cons, List.map_nil, List.mem_singleton, Prod.mk.injEq,
      Option.some.injEq]
    constructor
    · rintro ⟨rfl, rfl⟩
      exact ⟨rfl, rfl⟩
    · rintro ⟨rfl, rfl⟩
      exact ⟨rfl, rfl⟩

end

end HalmasuitState

namespace Windows

open HalmasuitState

section
variable {fromSlice : List UInt8 → Option Request} {p : Windows} {i : Input}

/-- A callback that is not the end of a toplevel says nothing of one to the gate. -/
theorem gone_of_ne (hd : ∀ t live w, i ≠ .toplevelDestroyed t live w) (u : UInt32)
    (a : SwapAction) :
    .gate (.toplevelGone u) a ∉ (p.step fromSlice i).2 := by
  intro hmem
  obtain ⟨hc, -⟩ := (gate_mem_step fromSlice p.state i _ a).mp hmem
  obtain ⟨t, live, w, hi, -⟩ := gateCall_toplevelGone hc
  exact hd t live w hi

/-- A new toplevel. -/
theorem newToplevel_iff {t : Surface} (hs : p.Shows) :
    p.Keeps fromSlice (.newToplevel t) ↔ p.Orderly (.newToplevel t) := by
  have hgone := @gone_of_ne fromSlice p (.newToplevel t) (by simp)
  by_cases hcl : t.uid ∈ p.state.clients
  · have hstep : (p.step fromSlice (.newToplevel t)).1
        = ⟨{ p.state with toScene := p.state.toScene.newToplevel t }, t :: p.toplevels⟩ := by
      simp [step, toplevelsAfter, HalmasuitState.step, onScene, hcl]
    constructor
    · rintro ⟨-, hshows⟩
      refine ⟨fun t' heq _ hfg hne hw => ?_, by simp, by simp [gateCall]⟩
      obtain rfl : t = t' := by simpa using heq
      rw [hstep] at hshows
      obtain ⟨t', ht', hu⟩ := hw
      obtain ⟨t'', -, hfront, hu'⟩ := hshows hfg ⟨t', List.mem_cons_of_mem _ ht', hu⟩
      obtain rfl : t = t'' := Option.some.inj hfront
      exact hne hu'
    · rintro ⟨hc, -, -⟩
      refine ⟨fun u a hmem => absurd hmem (hgone u a), ?_⟩
      rw [hstep]
      rintro hfg ⟨t', ht', hu⟩
      by_cases hown : p.state.sessionUid = some t.uid
      · exact ⟨t, List.mem_cons_self, rfl, hown⟩
      · refine absurd ?_ (hc t rfl hcl hfg hown)
        rcases List.mem_cons.mp ht' with rfl | ht'
        · exact absurd hu hown
        · exact ⟨t', ht', hu⟩
  · have hstep : (p.step fromSlice (.newToplevel t)).1 = p := by
      simp [step, toplevelsAfter, HalmasuitState.step, hcl]
    refine iff_of_true ⟨fun u a hmem => absurd hmem (hgone u a), by rwa [hstep]⟩ ?_
    refine ⟨fun t' heq hcl' => ?_, by simp, by simp [gateCall]⟩
    obtain rfl : t = t' := by simpa using heq
    exact absurd hcl' hcl

/-- The end of a toplevel that is not in front. -/
theorem toplevelDestroyed_behind {t : Surface} {live : Bool} {w : Answers} (hs : p.Shows)
    (hfg : ¬ (t.uid ∈ p.state.clients ∧ p.state.foregroundToplevel = some t)) :
    p.Keeps fromSlice (.toplevelDestroyed t live w) ∧ p.Orderly (.toplevelDestroyed t live w) := by
  have hnone : p.state.gateCall (.toplevelDestroyed t live w) = none := by
    by_cases hcl : t.uid ∈ p.state.clients
    · simp [gateCall, Scene.destroyedCall, show p.state.foregroundToplevel ≠ some t from
        fun h => hfg ⟨hcl, h⟩]
    · simp [gateCall, hcl]
  have hstate : (p.state.step fromSlice (.toplevelDestroyed t live w)).1 = p.state := by
    by_cases hcl : t.uid ∈ p.state.clients
    · have hne : p.state.foregroundToplevel ≠ some t := fun h => hfg ⟨hcl, h⟩
      simp [HalmasuitState.step, hcl, onScene, Scene.toplevelDestroyed, hne]
    · simp [HalmasuitState.step, hcl]
  refine ⟨⟨fun u a hmem => ?_, ?_⟩, ⟨by simp, ?_, by simp [hnone]⟩⟩
  · obtain ⟨hc, -⟩ := (gate_mem_step fromSlice p.state _ _ a).mp hmem
    rw [hnone] at hc
    cases hc
  · -- The toplevel in front stays, and is still among the toplevels.
    unfold Shows Fronted
    simp only [step, hstate, toplevelsAfter]
    intro hsession hw
    have hw' : HasWindow p.state.sessionUid p.toplevels := by
      obtain ⟨t', ht', hu⟩ := hw
      split at ht'
      · exact ⟨t', List.mem_of_mem_filter ht', hu⟩
      · exact ⟨t', ht', hu⟩
    obtain ⟨t', ht', hfront, hu⟩ := hs hsession hw'
    refine ⟨t', ?_, hfront, hu⟩
    split
    · rename_i hcl
      refine List.mem_filter.mpr ⟨ht', ?_⟩
      have hne : t' ≠ t := by
        rintro rfl
        exact hfg ⟨hcl, hfront⟩
      simpa using hne
    · exact ht'
  · rintro t' live' w' heq hcl hfront
    cases heq
    exact absurd ⟨hcl, hfront⟩ hfg

/-- The end of the toplevel in front. -/
theorem toplevelDestroyed_front {t : Surface} {live : Bool} {w : Answers}
    (hcl : t.uid ∈ p.state.clients) (hfront : p.state.foregroundToplevel = some t) :
    p.Keeps fromSlice (.toplevelDestroyed t live w) ↔ p.Orderly (.toplevelDestroyed t live w) := by
  have hrest : (p.step fromSlice (.toplevelDestroyed t live w)).1.toplevels
      = p.toplevels.filter (· ≠ t) := if_pos hcl
  have hscene : (p.step fromSlice (.toplevelDestroyed t live w)).1.state.toScene
      = (p.state.toScene.toplevelDestroyed t live w).1 := by
    simp [step, HalmasuitState.step, hcl, onScene]
  have hcall : p.state.gateCall (.toplevelDestroyed t live w)
      = p.state.toScene.destroyedCall t live := if_pos hcl
  have hnoswap : ∀ c ∈ p.state.gateCall (.toplevelDestroyed t live w),
      (p.state.swap.call c).1 ≠ .swap := by
    intro c hc ha
    rw [hcall] at hc
    obtain ⟨-, rfl, -⟩ := Scene.toplevelDestroyed_some _ w hc
    cases (Scene.call_swap ha).1
  have horderly : p.Orderly (.toplevelDestroyed t live w) ↔
      (p.state.foreground = .session ∨
        (p.state.wasSession t live = true ∧ p.state.shouldExit = false) →
        ¬ HasWindow p.state.sessionUid (p.toplevels.filter (· ≠ t))) := by
    constructor
    · intro h
      exact h.destroyed t live w rfl hcl hfront
    · intro h
      refine ⟨by simp, ?_, fun c hc ha => absurd ha (hnoswap c hc)⟩
      intro t' live' w' heq _ _
      cases heq
      exact h
  rw [horderly]
  by_cases hwas : p.state.wasSession t live = true ∧ p.state.shouldExit = false
  · have hd : p.state.toScene.destroyedCall t live = some (.toplevelGone t.uid) := by
      rw [Scene.destroyedCall_front _ live hfront, if_pos (by simpa using hwas)]
    obtain ⟨-, -, heq⟩ := Scene.toplevelDestroyed_some _ w hd
    constructor
    · rintro ⟨hgone, -⟩ -
      rw [hrest] at hgone
      exact hgone t.uid _ ((gate_mem_step fromSlice p.state _ _ _).mpr ⟨hcall.trans hd, rfl⟩)
    · intro h
      have hempty := h (.inr hwas)
      refine ⟨fun u a _ => by rwa [hrest], fun _ hw => ?_⟩
      -- The gate either leaves the session's uid or clears it; no window is its own then.
      rw [hrest, hscene, heq, Scene.feedGate_sessionUid] at hw
      split at hw
      · obtain ⟨_, -, hu⟩ := hw
        cases hu
      · exact absurd hw hempty
  · have hcond : (p.state.wasSession t live && !p.state.shouldExit) = false := by
      by_contra hc
      exact hwas (by simpa using hc)
    have hleft : (p.state.toScene.toplevelDestroyed t live w).1
        = { p.state.toScene with foregroundToplevel := none, focus := none } := by
      simp [Scene.toplevelDestroyed, hfront, hcond]
    rw [hleft] at hscene
    constructor
    · rintro ⟨-, hshows⟩ (hsession | hwas') hw
      · have hfronted : (p.step fromSlice (.toplevelDestroyed t live w)).1.Fronted := by
          refine hshows ?_ ?_
          · rw [hscene]
            exact hsession
          · rw [hrest, hscene]
            exact hw
        obtain ⟨t', -, htop, -⟩ := hfronted
        rw [hscene] at htop
        cases htop
      · exact hwas hwas'
    · intro h
      refine ⟨fun u a hmem => ?_, ?_⟩
      · obtain ⟨hc, -⟩ := (gate_mem_step fromSlice p.state _ _ a).mp hmem
        rw [hcall, Scene.destroyedCall_front _ live hfront, hcond] at hc
        cases hc
      · intro hsession hw
        rw [hscene] at hsession
        rw [hrest, hscene] at hw
        exact absurd hw (h (.inl hsession))

/-- A callback that neither maps nor destroys a toplevel. -/
theorem other_iff (hk : Keyed p.state) (hs : p.Shows) (hn : ∀ t, i ≠ .newToplevel t)
    (hd : ∀ t live w, i ≠ .toplevelDestroyed t live w) :
    p.Keeps fromSlice i ↔ p.Orderly i := by
  have hm := p.state.step_moves fromSlice i
  have hsame : (p.step fromSlice i).1.toplevels = p.toplevels := by
    cases i with
    | newToplevel t => exact absurd rfl (hn t)
    | toplevelDestroyed t live w => exact absurd rfl (hd t live w)
    | _ => rfl
  have hkeeps : p.Keeps fromSlice i ↔ (p.step fromSlice i).1.Shows := by
    constructor
    · exact fun h => h.shows
    · exact fun h => ⟨fun u a hmem => absurd hmem (gone_of_ne hd u a), h⟩
  have horderly : p.Orderly i ↔ ∀ c ∈ p.state.gateCall i, (p.state.swap.call c).1 = .swap →
      HasWindow p.state.sessionUid p.toplevels → p.Fronted := by
    constructor
    · exact fun h => h.swap
    · exact fun h => ⟨fun t heq => absurd heq (hn t),
        fun t live w heq => absurd heq (hd t live w), h⟩
  rw [hkeeps, horderly]
  unfold Shows Fronted
  rw [hsame]
  by_cases hswap : ∃ c ∈ p.state.gateCall i, (p.state.swap.call c).1 = .swap
  · obtain ⟨c, hc, ha⟩ := hswap
    obtain ⟨hfg, htop, hu⟩ := hm.swap_front hc ha
    simp only [step, hfg, htop, hu, forall_const]
    constructor
    · exact fun h _ _ _ => h
    · exact fun h => h c hc ha
  · have hne : ∀ c ∈ p.state.gateCall i, (p.state.swap.call c).1 ≠ .swap :=
      fun c hc ha => hswap ⟨c, hc, ha⟩
    refine iff_of_true ?_ (fun c hc ha => absurd ha (hne c hc))
    simp only [step]
    rcases hm.front hn hd hne with ⟨hfg, htop, hu⟩ | hfg | ⟨hfg, hnone⟩
    · rw [hfg, htop, hu]
      exact hs
    · rw [hfg]
      simp
    · -- No session is recorded, so none is on the screen.
      rw [hfg]
      intro hsession
      exact absurd (hk.foreground hsession) (hk.unkeyed hnone).1

/-- **One callback, where a session with a window has one in front.** -/
theorem windows_step_iff (fromSlice : List UInt8 → Option Request) (p : Windows) (i : Input)
    (hk : Keyed p.state) (hs : p.Shows) : p.Keeps fromSlice i ↔ p.Orderly i := by
  cases i with
  | newToplevel t => exact newToplevel_iff hs
  | toplevelDestroyed t live w =>
    by_cases hfront : t.uid ∈ p.state.clients ∧ p.state.foregroundToplevel = some t
    · exact toplevelDestroyed_front hfront.1 hfront.2
    · obtain ⟨h1, h2⟩ := @toplevelDestroyed_behind fromSlice p t live w hs hfront
      exact iff_of_true h1 h2
  | _ => exact other_iff hk hs (by simp) (by simp)

/-- **The windows of the session.** Over every run of the compositor: the gate hears of a destroyed
toplevel only when the session has no window left, and a session that has the foreground and a
window has one in front, if and only if every callback is orderly. -/
theorem windows_run_iff (fromSlice : List UInt8 → Option Request) (inInitramfs : Bool)
    (greeterUid : UInt32) (pamService : String) (greeter : Option UInt32) (is : List Input) :
    (∀ pre i post, is = pre ++ i :: post → Keeps fromSlice (run (step fromSlice)
      ⟨.start inInitramfs greeterUid pamService greeter, []⟩ pre).1 i) ↔
    Along (step fromSlice) Orderly ⟨.start inInitramfs greeterUid pamService greeter, []⟩ is := by
  rw [← along_iff_forall]
  refine along_congr (fun p => Keyed p.state ∧ p.Shows) ?_ ?_ is _ ?_
  · rintro p i ⟨hk, hs⟩
    exact windows_step_iff fromSlice p i hk hs
  · rintro p i ⟨hk, -⟩ hkeeps
    exact ⟨p.state.keyed_step fromSlice i hk, hkeeps.shows⟩
  · refine ⟨keyed_start _ _ _ _, ?_⟩
    rintro - ⟨t, ht, -⟩
    cases ht

/-- `alice` opens a second window and closes it again: her first window is still there, and the
greeter is back on the screen. -/
theorem closed_window_reverts :
    let p := (run (step readRequest) ⟨booted, []⟩
      (login 0 "alice" 1000 ++ [.newToplevel ⟨1, 1000⟩])).1
    let p' := (p.step readRequest (.toplevelDestroyed ⟨1, 1000⟩ true calm)).1
    p.state.foreground = .session ∧ p.state.sessionUid = some 1000 ∧ p'.toplevels = [⟨0, 1000⟩] ∧
      p'.state.foreground = .greeter ∧ p'.state.greeter = some 51 ∧
      ¬ p.Keeps readRequest (.toplevelDestroyed ⟨1, 1000⟩ true calm) := by
  intro p p'
  have hu : p.state.sessionUid = some 1000 := by decide +kernel
  have hleft : p'.toplevels = [⟨0, 1000⟩] := by decide +kernel
  have hcall : p.state.gateCall (.toplevelDestroyed ⟨1, 1000⟩ true calm)
      = some (.toplevelGone 1000) := by decide +kernel
  refine ⟨by decide +kernel, hu, hleft, by decide +kernel, by decide +kernel, fun hk => ?_⟩
  refine hk.gone 1000 _ ((gate_mem_step readRequest p.state _ _ _).mpr ⟨hcall, rfl⟩) ?_
  rw [hu]
  exact ⟨⟨0, 1000⟩, by rw [show (p.step readRequest _).1.toplevels = _ from hleft]; simp, rfl⟩

end

end Windows

end Halmasuit.Compositor
