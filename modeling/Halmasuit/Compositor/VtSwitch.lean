import Halmasuit.Lib.Run
import Halmasuit.Lib.Vt

/-!
# The compositor's virtual terminal

The compositor owns its terminal (`halmasuit/src/vt_switch.rs`): a switch away from it waits until
the compositor has dropped DRM master and says so, and after a switch back it takes master again
(`handle_vt_relsig`, `handle_vt_acqsig` of `main.rs` 791–828). The kernel's two signals are read from
a descriptor until there is none left (`read_vt_signals`) and then handled one after the other
(`main.rs` 5230–5246). A switch may be asked for at any time, by a chord or by anyone else.

* The compositor has a terminal: without one, the handlers do nothing. A read fails only when there
  is nothing to read.
* `SIGRTMIN+4` asks for the release, and is read before `SIGRTMIN+5`.

Results, for every run:
* `vt_master_agrees`: when no signal is left to be handled, the compositor is DRM master exactly if
  its terminal is the active one, provided that no switch away was asked for while an acquire was
  still unread. Where one was, the release is handled first, though it came last.
* `vt_released_first`: a switch away is never completed while the compositor is master, provided that
  none was asked for while an acquire was still to be handled. Where one was, the acquire's handler
  completes it.
-/

namespace Halmasuit.Compositor.VtSwitch

open Halmasuit.Lib
open Halmasuit.Lib.Vt

/-! ## The compositor -/

/-- The argument of `vt_reldisp`: `VT_RELDISP_RELEASE` or `VT_RELDISP_ACKACQ`. -/
def reldispArg : Signal → Nat
  | .release => 1
  | .acquire => 2

/-- Where the callback of the signals is. -/
inductive Stage where
  /-- In `read_vt_signals`, with the signals so far. -/
  | reading (got : List Signal)
  /-- In the loop over them, or outside of the callback if there are none. -/
  | handling (todo : List Signal)
  /-- In a handler, before `vt_reldisp`. -/
  | midway (sig : Signal) (todo : List Signal)
  deriving DecidableEq, Repr

/-- The kernel and the compositor. -/
structure Home where
  terminals : Terminals
  stage : Stage
  master : Bool
  /-- There is a DRM backend, with an output. -/
  hasOutputs : Bool
  deriving DecidableEq, Repr

/-- A step. -/
inductive Act where
  /-- Someone asks for a switch. -/
  | change (v : Nat)
  /-- A `read` of the signals. -/
  | read
  /-- `pause` or `resume`, with the outcome of its `ioctl`. -/
  | drm (ok : Bool)
  | reldisp
  deriving DecidableEq, Repr

/-- A switch away that was completed, and whether the compositor was master then. -/
structure Away where
  vt : Nat
  master : Bool
  deriving DecidableEq, Repr

/-- `pause` and `resume`. -/
def drmAfter (ok hasOutputs master : Bool) : Signal → Bool
  | .release => master && !(ok && hasOutputs)
  | .acquire => master || (ok && hasOutputs)

namespace Home

def start (home active : Nat) (hasOutputs : Bool) : Home where
  -- `open_home_vt` asks for the terminal at once
  terminals := Terminals.change ⟨home, active, none, 0, 0⟩ home
  stage := .handling []
  master := true
  hasOutputs := hasOutputs

/-- One `read`, after those before. -/
def readSignal (s : Home) (got : List Signal) : Home :=
  match s.terminals.dequeue with
  | some (sig, k) => { s with terminals := k, stage := .reading (got ++ [sig]) }
  | none => { s with stage := .handling got }

def step (s : Home) : Act → Home × List Away
  | .change v => ({ s with terminals := s.terminals.change v }, [])
  | .read =>
    match s.stage with
    | .reading got => (s.readSignal got, [])
    | .handling [] => (s.readSignal [], [])
    | _ => (s, [])
  | .drm ok =>
    match s.stage with
    | .handling (sig :: todo) =>
      ({ s with master := drmAfter ok s.hasOutputs s.master sig, stage := .midway sig todo }, [])
    | _ => (s, [])
  | .reldisp =>
    match s.stage with
    | .midway sig todo =>
      let k := s.terminals.reldisp (reldispArg sig)
      ({ s with terminals := k, stage := .handling todo },
        if k.active = s.terminals.active then [] else [⟨k.active, s.master⟩])
    | _ => (s, [])

end Home

/-! ## What is still to be handled -/

def Stage.signals : Stage → List Signal
  | .reading got => got
  | .handling todo => todo
  | .midway sig todo => sig :: todo

/-- The signals that are not handled yet, in the order in which they will be. -/
def Home.outstanding (s : Home) : List Signal := s.stage.signals ++ s.terminals.queued

/-- The step is no switch away, or meets `P`; and the `ioctl`s of the device succeed. -/
def Provided (P : Home → Prop) (s : Home) : Act → Prop
  | .change v => s.terminals.active = s.terminals.home → v ≠ s.terminals.home → P s
  | .drm ok => ok = true ∧ s.hasOutputs = true
  | _ => True

instance {P : Home → Prop} [DecidablePred P] (s : Home) : ∀ a, Decidable (Provided P s a)
  | .change _ => inferInstanceAs (Decidable (_ → _ → _))
  | .drm _ => inferInstanceAs (Decidable (_ ∧ _))
  | .read | .reldisp => inferInstanceAs (Decidable True)

/-- No acquire is unread. -/
def Read (s : Home) : Prop := s.terminals.acquires = 0

/-- No acquire is to be handled. -/
def Acquired (s : Home) : Prop := .acquire ∉ s.outstanding

instance : DecidablePred Read := fun s => inferInstanceAs (Decidable (s.terminals.acquires = 0))
instance : DecidablePred Acquired := fun s => inferInstanceAs (Decidable (_ ∉ s.outstanding))

/-- The last signal to be handled leaves the compositor where it is to be; and with none, it is
there. -/
structure Agrees (s : Home) : Prop where
  wellFormed : s.terminals.WellFormed
  quiet : s.outstanding = [] →
    s.terminals.newvt = none ∧ (s.master = true ↔ s.terminals.active = s.terminals.home)
  last : ∀ sig, s.outstanding.getLast? = some sig → (sig = .acquire ↔ s.terminals.AtHome)
  midway : ∀ sig todo, s.stage = .midway sig todo → (s.master = true ↔ sig = .acquire)

theorem start_agrees (home active : Nat) (hasOutputs : Bool) :
    Agrees (Home.start home active hasOutputs) := by
  have hwf : Terminals.WellFormed ⟨home, active, none, 0, 0⟩ := by
    intro v hv
    cases hv
  refine ⟨hwf.change home, ?_, ?_, fun sig todo h => by cases h⟩
  · by_cases h : home = active
    · simp [Home.start, Terminals.change, h]
    · simp [Home.start, Terminals.change, Terminals.complete, Home.outstanding, Stage.signals,
        Terminals.queued, h, Ne.symm h]
  · by_cases h : home = active
    · simp [Home.start, Terminals.change, Home.outstanding, Stage.signals, Terminals.queued, h]
    · simp [Home.start, Terminals.change, Terminals.complete, Terminals.AtHome, Home.outstanding,
        Stage.signals, Terminals.queued, h, Ne.symm h]

/-! ## One step -/

/-- A step is a request, a read, half of a handler, or nothing. -/
theorem step_cases (s : Home) (a : Act) :
    (∃ v, a = .change v) ∨ (s.step a = (s, [])) ∨
    (s.step a = (s.readSignal s.stage.signals, [])) ∨
    (∃ ok sig todo, a = .drm ok ∧ s.stage = .handling (sig :: todo) ∧
      s.step a = ({ s with
        master := drmAfter ok s.hasOutputs s.master sig, stage := .midway sig todo }, [])) ∨
    ∃ sig todo, a = .reldisp ∧ s.stage = .midway sig todo := by
  cases a with
  | change v => exact .inl ⟨v, rfl⟩
  | read =>
    match hstage : s.stage with
    | .reading got => exact .inr (.inr (.inl (by simp only [Home.step, hstage, Stage.signals])))
    | .handling [] => exact .inr (.inr (.inl (by simp only [Home.step, hstage, Stage.signals])))
    | .handling (sig :: todo) => exact .inr (.inl (by simp only [Home.step, hstage]))
    | .midway sig todo => exact .inr (.inl (by simp only [Home.step, hstage]))
  | drm ok =>
    match hstage : s.stage with
    | .handling (sig :: todo) =>
      exact .inr (.inr (.inr (.inl ⟨ok, sig, todo, rfl, rfl, by simp only [Home.step, hstage]⟩)))
    | .reading got => exact .inr (.inl (by simp only [Home.step, hstage]))
    | .handling [] => exact .inr (.inl (by simp only [Home.step, hstage]))
    | .midway sig todo => exact .inr (.inl (by simp only [Home.step, hstage]))
  | reldisp =>
    match hstage : s.stage with
    | .midway sig todo => exact .inr (.inr (.inr (.inr ⟨sig, todo, rfl, rfl⟩)))
    | .reading got => exact .inr (.inl (by simp only [Home.step, hstage]))
    | .handling todo => exact .inr (.inl (by simp only [Home.step, hstage]))

/-- A request is for the terminal that is active, or it asks the compositor, or takes place. -/
theorem outstanding_change (s : Home) (v : Nat) :
    let s' := (s.step (.change v)).1
    (s' = s) ∨
    (s.terminals.active = s.terminals.home ∧ v ≠ s.terminals.home ∧
      s'.terminals.newvt = some v ∧ (Read s → s'.outstanding = s.outstanding ++ [Signal.release]) ∧
      ∀ sig ∈ s'.outstanding, sig = .release ∨ sig ∈ s.outstanding) ∨
    (s.terminals.active ≠ s.terminals.home ∧ s'.terminals.newvt = s.terminals.newvt ∧
      s'.terminals.home = s.terminals.home ∧ s'.terminals.active = v ∧
      s'.outstanding = s.outstanding ++ if v = s.terminals.home then [Signal.acquire] else []) := by
  intro s'
  rcases s.terminals.change_cases v with heq | ⟨hhome, hv, heq⟩ | ⟨hhome, -, heq⟩
  · refine .inl ?_
    show { s with terminals := s.terminals.change v } = s
    rw [heq]
  · refine .inr (.inl ⟨hhome, hv, ?_, fun hread => ?_, fun sig hsig => ?_⟩)
    · show (s.terminals.change v).newvt = some v
      rw [heq]
    · show s.stage.signals ++ (s.terminals.change v).queued = _
      unfold Read at hread
      rw [heq]
      simp [Home.outstanding, Terminals.queued, hread, List.replicate_succ']
    · have hsig : sig ∈ s.stage.signals ++ (s.terminals.change v).queued := hsig
      rw [heq] at hsig
      simp only [Terminals.queued, List.mem_append, List.mem_replicate] at hsig
      simp only [Home.outstanding, Terminals.queued, List.mem_append, List.mem_replicate]
      rcases hsig with h | ⟨-, h⟩ | h
      · exact .inr (.inl h)
      · exact .inl h
      · exact .inr (.inr (.inr h))
  · refine .inr (.inr ⟨hhome, ?_, ?_, ?_, ?_⟩)
    · show (s.terminals.change v).newvt = _
      rw [heq]
      rfl
    · show (s.terminals.change v).home = _
      rw [heq]
      rfl
    · show (s.terminals.change v).active = v
      rw [heq]
      rfl
    · show s.stage.signals ++ (s.terminals.change v).queued = _
      rw [heq]
      by_cases hv : v = s.terminals.home
      · simp [Home.outstanding, Terminals.queued, Terminals.complete, hv, List.replicate_succ']
      · simp [Home.outstanding, Terminals.queued, Terminals.complete, hv]

/-- A read moves a signal, and changes nothing else. -/
theorem readSignal_spec (s : Home) :
    let s' := s.readSignal s.stage.signals
    s'.outstanding = s.outstanding ∧ s'.terminals.home = s.terminals.home ∧
      s'.terminals.active = s.terminals.active ∧ s'.terminals.newvt = s.terminals.newvt ∧
      s'.master = s.master ∧ ∀ sig todo, s'.stage ≠ .midway sig todo := by
  unfold Home.readSignal
  cases hd : s.terminals.dequeue with
  | none =>
    refine ⟨?_, rfl, rfl, rfl, rfl, fun _ _ h => by cases h⟩
    rfl
  | some r =>
    obtain ⟨sig, k⟩ := r
    obtain ⟨hq, hhome, hactive, hnew⟩ := Terminals.dequeue_queued hd
    refine ⟨?_, hhome, hactive, hnew, rfl, fun _ _ h => by cases h⟩
    rw [Home.outstanding, Home.outstanding, hq]
    exact List.append_assoc s.stage.signals [sig] k.queued

theorem getLast?_cons_tail {sig : Signal} {l : List Signal} (h : l ≠ []) :
    (sig :: l).getLast? = l.getLast? := by
  obtain ⟨b, l, rfl⟩ := List.exists_cons_of_ne_nil h
  exact List.getLast?_cons_cons

/-- What `vt_reldisp` does in a handler. -/
theorem outstanding_reldisp {s : Home} (hwf : s.terminals.WellFormed) {sig : Signal}
    {todo : List Signal} (hstage : s.stage = .midway sig todo) :
    let r := s.step .reldisp
    s.outstanding = sig :: r.1.outstanding ∧ r.1.master = s.master ∧
      r.1.stage = .handling todo ∧ r.1.terminals.home = s.terminals.home ∧
      r.1.terminals.newvt = none ∧
      ((s.terminals.newvt = none ∧ r.1.terminals.active = s.terminals.active ∧ r.2 = []) ∨
        ∃ v, s.terminals.newvt = some v ∧ v ≠ s.terminals.home ∧ r.1.terminals.active = v ∧
          r.2 = [⟨v, s.master⟩]) := by
  have harg : reldispArg sig ≠ 0 := by cases sig <;> decide
  have hstep : s.step .reldisp =
      ({ s with terminals := s.terminals.reldisp (reldispArg sig), stage := .handling todo },
        if (s.terminals.reldisp (reldispArg sig)).active = s.terminals.active then []
        else [⟨(s.terminals.reldisp (reldispArg sig)).active, s.master⟩]) := by
    simp only [Home.step, hstage]
  intro r
  have hr : r = s.step .reldisp := rfl
  rw [hr, hstep]
  rcases Terminals.reldisp_cases hwf harg with ⟨hnew, heq⟩ | ⟨v, hnew, hactive, hv, heq⟩
  · rw [heq]
    refine ⟨?_, rfl, rfl, rfl, hnew, .inl ⟨hnew, rfl, if_pos rfl⟩⟩
    rw [Home.outstanding, hstage]
    rfl
  · rw [heq]
    have hne : v ≠ s.terminals.active := hactive ▸ hv
    refine ⟨?_, rfl, rfl, rfl, rfl, .inr ⟨v, hnew, hv, rfl, if_neg hne⟩⟩
    rw [Home.outstanding, hstage]
    rfl

/-- The outcome of a handler's `ioctl`, where it succeeds. -/
theorem drmAfter_ok (master : Bool) (sig : Signal) :
    drmAfter true true master sig = true ↔ sig = .acquire := by
  cases sig <;> cases master <;> decide

theorem Agrees.change {s : Home} (h : Agrees s) {v : Nat} (hp : Provided Read s (.change v)) :
    Agrees (s.step (.change v)).1 := by
  have hwf : (s.step (.change v)).1.terminals.WellFormed := h.wellFormed.change v
  have hnotnew : s.terminals.active ≠ s.terminals.home → s.terminals.newvt = none := by
    intro hne
    cases hn : s.terminals.newvt with
    | none => rfl
    | some v' => exact absurd (h.wellFormed v' hn).1 hne
  rcases outstanding_change s v with heq | ⟨hhome, hv, hnew, hout, -⟩ |
    ⟨hhome, hnew, hsame, hactive, hout⟩
  · rw [heq]
    exact h
  · have hout := hout (hp hhome hv)
    refine ⟨hwf, fun hnil => ?_, fun sig hsig => ?_, h.midway⟩
    · rw [hout] at hnil
      simp at hnil
    · rw [hout, List.getLast?_concat] at hsig
      cases hsig
      simp [Terminals.AtHome, hnew]
  · by_cases hv : v = s.terminals.home
    · rw [if_pos hv] at hout
      refine ⟨hwf, fun hnil => ?_, fun sig hsig => ?_, h.midway⟩
      · rw [hout] at hnil
        simp at hnil
      · rw [hout, List.getLast?_concat] at hsig
        obtain rfl := Option.some.inj hsig
        have hathome : (s.step (.change v)).1.terminals.AtHome :=
          ⟨by rw [hactive, hsame, hv], hnew.trans (hnotnew hhome)⟩
        exact iff_of_true rfl hathome
    · rw [if_neg hv, List.append_nil] at hout
      refine ⟨hwf, fun hnil => ?_, fun sig hsig => ?_, h.midway⟩
      · rw [hout] at hnil
        obtain ⟨-, hmaster⟩ := h.quiet hnil
        refine ⟨hnew.trans (hnotnew hhome), ?_⟩
        rw [hsame, hactive]
        exact ⟨fun hm => absurd (hmaster.mp hm) hhome, fun heq => absurd heq hv⟩
      · rw [hout] at hsig
        rw [h.last sig hsig]
        simp [Terminals.AtHome, hhome, hactive, hsame, hv]

theorem Agrees.read {s : Home} (h : Agrees s) : Agrees (s.readSignal s.stage.signals) := by
  obtain ⟨hout, hhome, hactive, hnew, hmaster, hstage⟩ := readSignal_spec s
  refine ⟨fun v hv => ?_, ?_, fun sig hsig => ?_, fun sig todo hs => absurd hs (hstage sig todo)⟩
  · rw [hnew] at hv
    rw [hactive, hhome]
    exact h.wellFormed v hv
  · rw [hout, hnew, hmaster, hactive, hhome]
    exact h.quiet
  · rw [hout] at hsig
    rw [Terminals.AtHome, hactive, hhome, hnew]
    exact h.last sig hsig

theorem Agrees.reldisp {s : Home} (h : Agrees s) {sig : Signal} {todo : List Signal}
    (hstage : s.stage = .midway sig todo) : Agrees (s.step .reldisp).1 := by
  have hmaster := h.midway sig todo hstage
  obtain ⟨hout, hm, hst, hhome, hnew, hcases⟩ := outstanding_reldisp h.wellFormed hstage
  have hathome : (s.step .reldisp).1.terminals.AtHome ↔ s.terminals.AtHome := by
    unfold Terminals.AtHome
    rcases hcases with ⟨hnone, hactive, -⟩ | ⟨v, hsome, hv, hactive, -⟩
    · rw [hnew, hactive, hhome, hnone]
    · simp [hactive, hhome, hv, hsome]
  refine ⟨fun v hv => ?_, fun hnil => ⟨hnew, ?_⟩, fun sig' hsig => ?_, fun sig' todo' hs => ?_⟩
  · rw [hnew] at hv
    cases hv
  · -- the signal was the last one
    have hlast := h.last sig (by rw [hout, hnil]; rfl)
    rw [hm, hmaster, hlast, ← hathome, Terminals.AtHome, hnew]
    simp
  · rw [hathome]
    refine h.last sig' ?_
    rw [hout, getLast?_cons_tail (fun hnil => ?_), hsig]
    rw [hnil] at hsig
    cases hsig
  · rw [hst] at hs
    cases hs

theorem Agrees.step {s : Home} (h : Agrees s) {a : Act} (hp : Provided Read s a) :
    Agrees (s.step a).1 := by
  rcases step_cases s a with ⟨v, rfl⟩ | heq | heq | ⟨ok, sig, todo, rfl, hstage, heq⟩ |
    ⟨sig, todo, rfl, hstage⟩
  · exact h.change hp
  · rw [heq]
    exact h
  · rw [heq]
    exact h.read
  · obtain ⟨rfl, houtputs⟩ := hp
    have hout : s.outstanding = sig :: todo ++ s.terminals.queued := by
      rw [Home.outstanding, hstage]
      rfl
    rw [heq]
    refine ⟨h.wellFormed, fun hnil => ?_, fun sig' hsig => h.last sig' (hout ▸ hsig),
      fun sig' todo' hs => ?_⟩
    · simp [Home.outstanding, Stage.signals] at hnil
    · cases hs
      rw [houtputs]
      exact drmAfter_ok s.master sig
  · exact h.reldisp hstage

/-! ## Every run -/

/-- **Master is where the terminal is.** On every run on which no switch is asked for while an acquire
is unread, and the device obeys: whenever no signal is left to be handled, no switch is under way,
and the compositor is master exactly if its terminal is active. -/
theorem vt_master_agrees (home active : Nat) (hasOutputs : Bool) (acts : List Act)
    (h : Along Home.step (Provided Read) (Home.start home active hasOutputs) acts) :
    let s := (run Home.step (Home.start home active hasOutputs) acts).1
    s.outstanding = [] →
      s.terminals.newvt = none ∧ (s.master = true ↔ s.terminals.active = s.terminals.home) :=
  (run_invariant_along (fun s _ => Agrees s) (fun _ _ _ hp hs => hs.step hp) acts _ [] h
    (start_agrees home active hasOutputs)).quiet

/-- Away from terminal 1 and back: everything is handled, and the compositor is master. -/
theorem vt_master_agrees_back :
    let acts := [.read, .read, .drm true, .reldisp, .change 2, .read, .read, .drm true, .reldisp,
      .change 1, .read, .read, .drm true, .reldisp]
    let s := (run Home.step (Home.start 1 3 true) acts).1
    s.outstanding = [] ∧ s.terminals.newvt = none ∧
      (s.master = true ↔ s.terminals.active = s.terminals.home) := by
  intro acts s
  have hnone : s.outstanding = [] := by decide
  exact ⟨hnone, vt_master_agrees 1 3 true acts (by decide) hnone⟩

/-- The next switch away comes before the one back is read: its release is handled first, and the
compositor ends as master, on a terminal that is not active. -/
example :
    let acts := [.change 2, .read, .read, .drm true, .reldisp, .change 1, .change 2, .read, .read,
      .read, .drm true, .reldisp, .drm true, .reldisp]
    let s := (run Home.step (Home.start 1 1 true) acts).1
    s.outstanding = [] ∧ s.master = true ∧ s.terminals.active = 2 := by
  decide

/-! ## The release comes first -/

/-- While a switch away is under way, there is no acquire to be handled; and a handler has done what
its signal says. -/
structure Releases (s : Home) : Prop where
  wellFormed : s.terminals.WellFormed
  pending : ∀ v, s.terminals.newvt = some v → Acquired s
  midway : ∀ sig todo, s.stage = .midway sig todo → (s.master = true ↔ sig = .acquire)

theorem start_releases (home active : Nat) (hasOutputs : Bool) :
    Releases (Home.start home active hasOutputs) := by
  have hagrees := start_agrees home active hasOutputs
  refine ⟨hagrees.wellFormed, fun v hv => ?_, hagrees.midway⟩
  have hnew : (Home.start home active hasOutputs).terminals.newvt = none := by
    by_cases h : home = active
    · simp [Home.start, Terminals.change, h]
    · simp [Home.start, Terminals.change, Terminals.complete, h, Ne.symm h]
  rw [hnew] at hv
  cases hv

theorem Releases.change {s : Home} (h : Releases s) {v : Nat}
    (hp : Provided Acquired s (.change v)) : Releases (s.step (.change v)).1 := by
  rcases outstanding_change s v with heq | ⟨hhome, hv, -, -, hout⟩ | ⟨hhome, hnew, -, -, -⟩
  · rw [heq]
    exact h
  · refine ⟨h.wellFormed.change v, fun v' _ hmem => ?_, h.midway⟩
    rcases hout _ hmem with hsig | hsig
    · cases hsig
    · exact hp hhome hv hsig
  · refine ⟨h.wellFormed.change v, fun v' hv' => ?_, h.midway⟩
    -- no switch away is under way while `home` is not active
    exact absurd (h.wellFormed v' (hnew ▸ hv')).1 hhome

theorem Releases.read {s : Home} (h : Releases s) : Releases (s.readSignal s.stage.signals) := by
  obtain ⟨hout, hhome, hactive, hnew, -, hstage⟩ := readSignal_spec s
  refine ⟨fun v hv => ?_, fun v hv => ?_, fun sig todo hs => absurd hs (hstage sig todo)⟩
  · rw [hactive, hhome]
    exact h.wellFormed v (hnew ▸ hv)
  · rw [Acquired, hout]
    exact h.pending v (hnew ▸ hv)

/-- The signal that a switch away is completed for is a release, and master was dropped for it. -/
theorem Releases.reldisp {s : Home} (h : Releases s) {sig : Signal} {todo : List Signal}
    (hstage : s.stage = .midway sig todo) :
    Releases (s.step .reldisp).1 ∧ ∀ away ∈ (s.step .reldisp).2, away.master = false := by
  obtain ⟨hout, -, hst, -, hnew, hcases⟩ := outstanding_reldisp h.wellFormed hstage
  refine ⟨⟨fun v hv => ?_, fun v hv => ?_, fun sig' todo' hs => ?_⟩, fun away hmem => ?_⟩
  · rw [hnew] at hv
    cases hv
  · rw [hnew] at hv
    cases hv
  · rw [hst] at hs
    cases hs
  · rcases hcases with ⟨-, -, hnil⟩ | ⟨v, hsome, -, -, haway⟩
    · rw [hnil] at hmem
      cases hmem
    · rw [haway, List.mem_singleton] at hmem
      subst hmem
      have hnot : Signal.acquire ∉ s.outstanding := h.pending v hsome
      rw [hout] at hnot
      exact Bool.eq_false_iff.mpr fun hm =>
        hnot ((h.midway sig todo hstage).mp hm ▸ List.mem_cons_self)

theorem Releases.step {s : Home} (h : Releases s) {a : Act} (hp : Provided Acquired s a) :
    Releases (s.step a).1 ∧ ∀ away ∈ (s.step a).2, away.master = false := by
  rcases step_cases s a with ⟨v, rfl⟩ | heq | heq | ⟨ok, sig, todo, rfl, hstage, heq⟩ |
    ⟨sig, todo, rfl, hstage⟩
  · exact ⟨h.change hp, fun _ hmem => by cases hmem⟩
  · rw [heq]
    exact ⟨h, fun _ hmem => by cases hmem⟩
  · rw [heq]
    exact ⟨h.read, fun _ hmem => by cases hmem⟩
  · obtain ⟨rfl, houtputs⟩ := hp
    have hout : s.outstanding = sig :: todo ++ s.terminals.queued := by
      rw [Home.outstanding, hstage]
      rfl
    rw [heq]
    refine ⟨⟨h.wellFormed, fun v hv hmem => h.pending v hv (hout ▸ hmem), fun sig' todo' hs => ?_⟩,
      fun _ hmem => by cases hmem⟩
    cases hs
    rw [houtputs]
    exact drmAfter_ok s.master sig
  · exact h.reldisp hstage

/-- **Master is dropped before the screen is.** On every run on which no switch is asked for while an
acquire is to be handled, and the device obeys: no switch away is completed while the compositor is
master. -/
theorem vt_released_first (home active : Nat) (hasOutputs : Bool) (acts : List Act)
    (h : Along Home.step (Provided Acquired) (Home.start home active hasOutputs) acts) :
    ∀ away ∈ (run Home.step (Home.start home active hasOutputs) acts).2, away.master = false := by
  refine (run_invariant_along
    (fun s tr => Releases s ∧ ∀ away ∈ tr, away.master = false)
    (fun s tr a hp hs => ?_) acts _ [] h
    ⟨start_releases home active hasOutputs, fun _ hmem => by cases hmem⟩).2
  obtain ⟨hrel, haway⟩ := hs.1.step hp
  refine ⟨hrel, fun away hmem => ?_⟩
  rcases List.mem_append.mp hmem with hmem | hmem
  · exact hs.2 away hmem
  · exact haway away hmem

theorem vt_released_first_once :
    let acts := [.change 2, .read, .read, .drm true, .reldisp]
    let r := run Home.step (Home.start 1 1 true) acts
    r.2 = [⟨2, false⟩] ∧ ∀ away ∈ r.2, away.master = false :=
  ⟨by decide, vt_released_first 1 1 true _ (by decide)⟩

/-- The switch away is asked for while the acquire is read and not handled yet: its handler completes
it, as master. -/
example :
    let acts := [.change 2, .read, .read, .drm true, .reldisp, .change 1, .read, .read, .change 2,
      .drm true, .reldisp]
    (run Home.step (Home.start 1 1 true) acts).2 = [⟨2, false⟩, ⟨2, true⟩] := by
  decide

end Halmasuit.Compositor.VtSwitch
