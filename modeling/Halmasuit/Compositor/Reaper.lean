import Halmasuit.Compositor.Login

/-!
# The greeter's process

`state.greeter` holds the pid number and the pidfd of the greeter (`halmasuit/src/main.rs` 486). The
broker forks it (`broker_spawn_greeter`, 3492–3544) and reaps it; the compositor learns of deaths
from SIGCHLD and `waitpid` alone (`reap_zombie_children`, 4130–4165), which see its own children:
the decoder and `journalctl`. Nothing watches the pidfd.

`Processes` is the compositor among these processes. The kernel gives a new process no pid number
that is in use: a step that would is left out.

Headlines:
* `drained_eq`: what the pending SIGCHLDs leave.
* `follows_step_iff`, `follows_run_iff`: the handle follows the greeter exactly as long as no
  greeter dies that the compositor holds, and none dies before a session is launched.
-/

namespace Halmasuit.Compositor

open Halmasuit.Greetd (Request SpawnRequest readRequest)
open Halmasuit.SessionIpc
open Halmasuit.Lib

/-! ## The greeters the broker forks -/

namespace HalmasuitState

/-- The greeter the broker forks in a callback. -/
def forks (s : HalmasuitState) : Input → Option UInt32
  | .postPivotSetup _ spawned _ => if Source.pivotPoll ∈ s.sources then spawned else none
  | i => if (s.gateCall i).any fun c => decide ((s.swap.call c).1 = .revert) then i.spawnGreeter
    else none

/-- The `waitpid` loop of SIGCHLD. -/
def Input.isReap : Input → Bool
  | .childReaped _ => true
  | _ => false

/-- Only a callback that spawns a greeter makes a new handle. -/
theorem Moves.greeter {s : HalmasuitState} {i : Input} {sc : Scene} {es : List Event}
    (h : Moves s i sc es) (hc : s.gateCall i = none)
    (hi : ∀ listener spawned dropped, i ≠ .postPivotSetup listener spawned dropped) :
    sc.greeter = s.greeter ∨ sc.greeter = none := by
  cases h.ungated hc with
  | latched _ => exact .inr rfl
  | reaped => exact .inr rfl
  | setUp _ => exact absurd rfl (hi _ _ _)
  | _ => exact .inl rfl

/-- The handle after a callback: of a new greeter, the one that was there, or none. -/
theorem step_greeter (fromSlice : List UInt8 → Option Request) (s : HalmasuitState) (i : Input) :
    (∃ pid, s.forks i = some pid ∧ (s.step fromSlice i).1.greeter = some pid) ∨
    (s.forks i = none ∧ ((s.step fromSlice i).1.greeter = s.greeter ∨
      (s.step fromSlice i).1.greeter = none)) := by
  have hm := s.step_moves fromSlice i
  cases hc : s.gateCall i with
  | some c =>
    have hforks : s.forks i = if (s.swap.call c).1 = .revert then i.spawnGreeter else none := by
      cases i with
      | postPivotSetup listener spawned dropped => cases hc
      | _ => simp [forks, hc]
    obtain ⟨t, w, f, ht, hspawn, heq⟩ := hm.gate_some hc
    rw [hforks, heq, ← ht.swap]
    cases ha : (t.swap.call c).1 with
    | none =>
      rw [Scene.feedGate_none t c w ha]
      exact .inr ⟨rfl, .inl ht.greeter⟩
    | swap =>
      rw [Scene.feedGate_swap t c w ha]
      exact .inr ⟨rfl, .inr rfl⟩
    | revert =>
      rw [Scene.feedGate_revert t c w ha, ← hspawn]
      cases hw : w.spawnGreeter with
      | none => exact .inr ⟨rfl, .inl ht.greeter⟩
      | some pid => exact .inl ⟨pid, rfl, rfl⟩
  | none =>
    cases i with
    | postPivotSetup listener spawned dropped =>
      by_cases hsrc : Source.pivotPoll ∈ s.sources
      · obtain ⟨gs, heq⟩ := s.postPivotSetup_scene listener spawned dropped
        simp only [step, forks, hsrc, if_true]
        rw [heq]
        cases spawned with
        | none => exact .inr ⟨rfl, .inl rfl⟩
        | some pid => exact .inl ⟨pid, rfl, rfl⟩
      · exact .inr ⟨by simp [forks, hsrc], .inl (by simp [step, hsrc])⟩
    | _ => exact .inr ⟨by simp [forks, hc], hm.greeter hc (by simp)⟩

end HalmasuitState

/-! ## The processes -/

/-- A greeter the broker forked. -/
structure GreeterProcess where
  pid : UInt32
  alive : Bool
  deriving DecidableEq, Repr

/-- The compositor among its processes. -/
structure Processes where
  state : HalmasuitState
  /-- The greeters so far, the newest first; `state.greeter` is a handle of the newest. -/
  greeters : List GreeterProcess
  /-- The compositor's own children: running, and exited but not waited for. -/
  children : List UInt32
  zombies : List UInt32
  /-- The pids of the `GreeterDiedPreAuth` events. -/
  reported : List UInt32
  /-- The pids of the greeters that died with no session launched. -/
  died : List UInt32

/-- A callback, or what happens to a process. -/
inductive ProcessesInput where
  | callback (i : HalmasuitState.Input)
  | greeterDies (k : Nat)
  | childSpawned (pid : UInt32)
  | childDies (pid : UInt32)
  /-- One turn of `reap_zombie_children`. -/
  | reap

/-- The pids an event reports as dead greeters. -/
def Event.diedPreAuth : Event → Option UInt32
  | .greeterDiedPreAuth pid => some pid
  | _ => none

namespace Processes

open HalmasuitState

/-- A process has the pid number. -/
def inUse (p : Processes) (pid : UInt32) : Bool :=
  (p.greeters.any fun g => g.alive && decide (g.pid = pid)) || decide (pid ∈ p.children) ||
    decide (pid ∈ p.zombies)

/-- The start of the compositor, with the greeter it may have spawned. -/
def start (inInitramfs : Bool) (greeterUid : UInt32) (pamService : String)
    (greeter : Option UInt32) : Processes where
  state := .start inInitramfs greeterUid pamService greeter
  greeters := greeter.toList.map (⟨·, true⟩)
  children := []
  zombies := []
  reported := []
  died := []

/-- One step. A greeter that dies is reaped by the broker, and no SIGCHLD reaches the compositor. -/
def step (fromSlice : List UInt8 → Option Request) (p : Processes) :
    ProcessesInput → Processes × List Event
  | .callback i =>
    if i.isReap || (p.state.forks i).any p.inUse then (p, [])
    else
      ({ p with
          state := (p.state.step fromSlice i).1
          greeters := (p.state.forks i).toList.map (⟨·, true⟩) ++ p.greeters },
        (p.state.step fromSlice i).2)
  | .greeterDies k =>
    match p.greeters[k]? with
    | some ⟨pid, true⟩ =>
      ({ p with
          greeters := p.greeters.set k ⟨pid, false⟩
          died := if p.state.sessionUid = none then p.died ++ [pid] else p.died }, [])
    | _ => (p, [])
  | .childSpawned pid =>
    if p.inUse pid then (p, []) else ({ p with children := pid :: p.children }, [])
  | .childDies pid =>
    if pid ∈ p.children then
      ({ p with children := p.children.erase pid, zombies := p.zombies ++ [pid] }, [])
    else (p, [])
  | .reap =>
    match p.zombies with
    | [] => (p, [])
    | pid :: zombies =>
      let r := p.state.step fromSlice (.childReaped (some pid))
      ({ p with
          state := r.1
          zombies := zombies
          reported := p.reported ++ r.2.filterMap Event.diedPreAuth }, r.2)

/-- The processes once the pending SIGCHLDs are handled. -/
def drained (fromSlice : List UInt8 → Option Request) (p : Processes) : Processes :=
  (run (step fromSlice) p (List.replicate p.zombies.length .reap)).1

/-- Once the pending events are handled: no other process's death has cleared the handle, the
greeter it is of is alive, and every greeter that died with no session launched was reported
once. -/
structure Follows (fromSlice : List UInt8 → Option Request) (p : Processes) : Prop where
  others : (p.drained fromSlice).state.greeter = p.state.greeter
  alive : ∀ pid, (p.drained fromSlice).state.greeter = some pid →
    (p.drained fromSlice).greeters.head? = some ⟨pid, true⟩
  announced : (p.drained fromSlice).reported.Perm (p.drained fromSlice).died

/-- What a step has to meet: a greeter that dies is not the one the compositor holds, and a session
was launched. -/
def Spares (p : Processes) : ProcessesInput → Prop
  | .greeterDies k => ∀ pid, p.greeters[k]? = some ⟨pid, true⟩ →
    (k = 0 → p.state.greeter = none) ∧ p.state.sessionUid ≠ none
  | _ => True

/-! ## What the pending SIGCHLDs leave -/

section
variable (fromSlice : List UInt8 → Option Request)

/-- A reaped child whose pid is not the handle's changes nothing. -/
theorem reap_other {s : HalmasuitState} {pid : UInt32} (h : s.greeter ≠ some pid) :
    s.step fromSlice (.childReaped (some pid)) = (s, []) := by
  have hclass : Scene.classifyReapedChild pid s.greeter s.sessionUid = .other := by
    simp [Scene.classifyReapedChild, h]
  show s.onScene (s.toScene.reapZombieChild (some pid)) = _
  simp [Scene.reapZombieChild, hclass, onScene]

/-- Where no child that waits to be reaped has the pid of the handle, reaping them all does
nothing. -/
theorem drained_eq (p : Processes) (h : ∀ pid ∈ p.zombies, p.state.greeter ≠ some pid) :
    p.drained fromSlice = { p with zombies := [] } := by
  obtain ⟨s, greeters, children, zombies, reported, died⟩ := p
  unfold drained
  induction zombies with
  | nil => rfl
  | cons pid zombies ih =>
    have hstep : (Processes.step fromSlice ⟨s, greeters, children, pid :: zombies, reported, died⟩
        .reap).1 = ⟨s, greeters, children, zombies, reported, died⟩ := by
      simp [step, reap_other fromSlice (h pid (by simp))]
    simp only [List.length_cons, List.replicate_succ, run, hstep]
    exact ih fun pid' hpid' => h pid' (List.mem_cons_of_mem _ hpid')

/-! ## The invariant -/

/-- The handle is of the newest greeter, which is alive; a living greeter shares its pid number with
no child; and nothing was reported or had to be. -/
structure Tracks (p : Processes) : Prop where
  held : ∀ pid, p.state.greeter = some pid → p.greeters.head? = some ⟨pid, true⟩
  apart : ∀ pid, ⟨pid, true⟩ ∈ p.greeters → pid ∉ p.children ∧ pid ∉ p.zombies
  reported : p.reported = []
  died : p.died = []

theorem Tracks.notMem_zombies {p : Processes} (h : p.Tracks) :
    ∀ pid ∈ p.zombies, p.state.greeter ≠ some pid :=
  fun pid hz hg => (h.apart pid (List.mem_of_mem_head? (h.held pid hg))).2 hz

theorem Tracks.follows {p : Processes} (h : p.Tracks) : p.Follows fromSlice := by
  have hdrained := drained_eq fromSlice p h.notMem_zombies
  refine ⟨by rw [hdrained], ?_, ?_⟩
  · rw [hdrained]
    exact h.held
  · rw [hdrained]
    show p.reported.Perm p.died
    rw [h.reported, h.died]

theorem not_inUse {p : Processes} {pid : UInt32} (h : p.inUse pid = false) :
    ⟨pid, true⟩ ∉ p.greeters ∧ pid ∉ p.children ∧ pid ∉ p.zombies := by
  simp only [inUse, Bool.or_eq_false_iff, decide_eq_false_iff_not] at h
  obtain ⟨⟨hg, hc⟩, hz⟩ := h
  refine ⟨fun hmem => ?_, hc, hz⟩
  rw [List.any_eq_false] at hg
  exact hg _ hmem (by simp)

/-! ## Steps -/

theorem tracks_callback {p : Processes} (h : p.Tracks) (i : Input)
    (hfree : (p.state.forks i).any p.inUse = false) : Tracks { p with
      state := (p.state.step fromSlice i).1
      greeters := (p.state.forks i).toList.map (⟨·, true⟩) ++ p.greeters } := by
  rcases p.state.step_greeter fromSlice i with ⟨pid, hforks, hgreeter⟩ | ⟨hforks, hgreeter⟩
  · rw [hforks] at hfree ⊢
    have hpid : p.inUse pid = false := by simpa using hfree
    obtain ⟨-, hc, hz⟩ := not_inUse hpid
    refine ⟨?_, ?_, h.reported, h.died⟩
    · rintro pid' hpid'
      rw [hgreeter] at hpid'
      cases hpid'
      rfl
    · intro pid' hmem
      rcases List.mem_cons.mp hmem with heq | hmem
      · cases heq
        exact ⟨hc, hz⟩
      · exact h.apart pid' hmem
  · rw [hforks]
    refine ⟨fun pid hpid => ?_, h.apart, h.reported, h.died⟩
    rcases hgreeter with heq | heq
    · exact h.held pid (heq ▸ hpid)
    · rw [heq] at hpid
      cases hpid

theorem head?_set {l : List GreeterProcess} {k : Nat} {g g' : GreeterProcess}
    (hk : k ≠ 0) (h : l.head? = some g) : (l.set k g').head? = some g := by
  obtain ⟨k, rfl⟩ := Nat.exists_eq_succ_of_ne_zero hk
  cases l with
  | nil => cases h
  | cons _ _ => exact h

/-- **One step.** -/
theorem tracks_step {p : Processes} (h : p.Tracks) (m : ProcessesInput) (hm : p.Spares m) :
    (p.step fromSlice m).1.Tracks := by
  cases m with
  | callback i =>
    unfold step
    dsimp only
    split_ifs with hfree
    · exact h
    · simp only [Bool.or_eq_true, not_or, Bool.not_eq_true] at hfree
      exact tracks_callback fromSlice h i hfree.2
  | greeterDies k =>
    unfold step
    dsimp only
    split
    · rename_i pid hk
      obtain ⟨hfirst, hsession⟩ := hm pid hk
      refine ⟨fun pid' hpid' => ?_, fun pid' hmem => ?_, h.reported, ?_⟩
      · refine head?_set (fun h0 => ?_) (h.held pid' hpid')
        rw [hfirst h0] at hpid'
        cases hpid'
      · rcases List.mem_or_eq_of_mem_set hmem with hmem | heq
        · exact h.apart pid' hmem
        · cases heq
      · simp [hsession, h.died]
    · exact h
  | childSpawned pid =>
    unfold step
    dsimp only
    split_ifs with hfree
    · exact h
    · obtain ⟨hg, -, -⟩ := not_inUse (by simpa using hfree)
      refine ⟨h.held, fun pid' hmem => ⟨?_, (h.apart pid' hmem).2⟩, h.reported, h.died⟩
      intro hc
      rcases List.mem_cons.mp hc with rfl | hc
      · exact hg hmem
      · exact (h.apart pid' hmem).1 hc
  | childDies pid =>
    unfold step
    dsimp only
    split_ifs with hc
    · refine ⟨h.held, fun pid' hmem => ?_, h.reported, h.died⟩
      obtain ⟨hc', hz'⟩ := h.apart pid' hmem
      refine ⟨fun hmem' => hc' (List.mem_of_mem_erase hmem'), fun hmem' => ?_⟩
      rcases List.mem_append.mp hmem' with hmem' | hmem'
      · exact hz' hmem'
      · rw [List.mem_singleton] at hmem'
        exact hc' (hmem' ▸ hc)
    · exact h
  | reap =>
    unfold step
    dsimp only
    split
    · exact h
    · rename_i pid zombies hz
      have hne : p.state.greeter ≠ some pid := h.notMem_zombies pid (by simp [hz])
      rw [reap_other fromSlice hne]
      refine ⟨h.held, fun pid' hmem => ?_, by simp [h.reported], h.died⟩
      obtain ⟨hc', hz'⟩ := h.apart pid' hmem
      rw [hz] at hz'
      exact ⟨hc', fun hmem' => hz' (List.mem_cons_of_mem _ hmem')⟩

/-- **One step, exactly.** -/
theorem follows_step_iff {p : Processes} (h : p.Tracks) (m : ProcessesInput) :
    (p.step fromSlice m).1.Follows fromSlice ↔ p.Spares m := by
  refine ⟨fun hf => ?_, fun hm => (tracks_step fromSlice h m hm).follows fromSlice⟩
  cases m with
  | greeterDies k =>
    intro pid hk
    -- The death reaches nothing but the two lists: what is pending is what was pending before.
    have hstep : (p.step fromSlice (.greeterDies k)).1 = { p with
        greeters := p.greeters.set k ⟨pid, false⟩
        died := if p.state.sessionUid = none then p.died ++ [pid] else p.died } := by
      simp [step, hk]
    rw [hstep] at hf
    have hdrained := drained_eq fromSlice { p with
        greeters := p.greeters.set k ⟨pid, false⟩
        died := if p.state.sessionUid = none then p.died ++ [pid] else p.died } h.notMem_zombies
    have halive := hf.alive
    have hannounced := hf.announced
    rw [hdrained] at halive hannounced
    constructor
    · rintro rfl
      cases hg : p.state.greeter with
      | none => rfl
      | some pid' =>
        have hhead := halive pid' hg
        have hlt : 0 < p.greeters.length := (List.getElem?_eq_some_iff.mp hk).1
        rw [List.head?_eq_getElem?, List.getElem?_set_self hlt] at hhead
        cases hhead
    · intro hn
      have hperm : p.reported.Perm (p.died ++ [pid]) := by simpa [hn] using hannounced
      rw [h.reported, h.died] at hperm
      simpa using hperm.length_eq
  | _ => trivial

theorem tracks_start (inInitramfs : Bool) (greeterUid : UInt32) (pamService : String)
    (greeter : Option UInt32) : (start inInitramfs greeterUid pamService greeter).Tracks := by
  refine ⟨fun pid hpid => ?_, fun pid _ => ⟨by simp [start], by simp [start]⟩, rfl, rfl⟩
  have hg : greeter = some pid := hpid
  simp [start, hg]

/-- **The greeter's handle.** In every state of a run, once what is pending is handled, the handle
is of a living greeter, no other process's death has cleared it and every greeter that died with no
session launched was reported once, if and only if no greeter died that the compositor held, and
none with no session launched. -/
theorem follows_run_iff (inInitramfs : Bool) (greeterUid : UInt32) (pamService : String)
    (greeter : Option UInt32) (ms : List ProcessesInput) :
    (∀ pre post, ms = pre ++ post → Follows fromSlice
      (run (step fromSlice) (start inInitramfs greeterUid pamService greeter) pre).1) ↔
    Along (step fromSlice) Spares (start inInitramfs greeterUid pamService greeter) ms := by
  have hstart := tracks_start inInitramfs greeterUid pamService greeter
  rw [along_next_iff, and_iff_right (hstart.follows fromSlice)]
  refine along_congr Tracks ?_ ?_ ms _ hstart
  · exact fun p m hp => follows_step_iff fromSlice hp m
  · exact fun p m hp hf => tracks_step fromSlice hp m ((follows_step_iff fromSlice hp m).mp hf)

/-- The greeter dies before anyone has logged in: it is not reported, and the handle stays. A
decoder that is given its pid number and dies is then taken for it. -/
theorem greeter_death_unseen :
    let p := start false 997 "halmasuit" (some 50)
    let dead := (run (step readRequest) p [.greeterDies 0]).1
    let child := (run (step readRequest) dead [.childSpawned 50, .childDies 50]).1
    p.state.greeter = some 50 ∧ dead.greeters = [⟨50, false⟩] ∧
      (dead.drained readRequest).state.greeter = some 50 ∧
      (dead.drained readRequest).reported = [] ∧
      (child.drained readRequest).state.greeter = none ∧
      (child.drained readRequest).reported = [50] ∧
      ¬ dead.Follows readRequest ∧ ¬ child.Follows readRequest := by
  intro p dead child
  have hdead : (dead.drained readRequest).reported = [] := by decide +kernel
  refine ⟨by decide +kernel, by decide +kernel, by decide +kernel, hdead, by decide +kernel,
    by decide +kernel, fun h => ?_, fun h => ?_⟩
  · have hperm := h.announced
    rw [hdead, show (dead.drained readRequest).died = [50] by decide +kernel] at hperm
    simpa using hperm.length_eq
  · have hsame := h.others
    rw [show (child.drained readRequest).state.greeter = none by decide +kernel,
      show child.state.greeter = some 50 by decide +kernel] at hsame
    cases hsame

end

end Processes

end Halmasuit.Compositor
