import Halmasuit.Compositor.Screen

/-!
# Page flips

`handle_drm_event` (`halmasuit/src/main.rs` 4459–4618) acknowledges a completed flip with
`frame_submitted` (`halmasuit/src/drm.rs` 2044–2053), and returns at once where the compositor shuts
down. The keepalive timer goes on rendering.

Headlines:
* `output_step`: what a callback does to the frames of an output.
* `behind_run`: how many VBlanks a frame waits for.
* `flips_run_iff`: the frames go on exactly if no VBlank comes while the compositor shuts down.
-/

namespace Halmasuit.Compositor

open Halmasuit.Greetd (Request readRequest)
open Halmasuit.Wallpaper (Engine WallpaperConfig)
open Halmasuit.Lib

namespace Screen

open HalmasuitState

/-- A VBlank that is delivered is acknowledged. -/
def Acks (fromSlice : List UInt8 → Option Request) (p : Screen) (m : ScreenInput) : Prop :=
  ∀ crtc, .vblank crtc ∈ (p.step fromSlice m).2 → .submitted crtc ∈ (p.step fromSlice m).2

/-- A frame that is on its way has a flip to complete: a VBlank is to come. -/
def Flows (p : Screen) : Prop :=
  ∀ crtc q, DrmOutput.flips? crtc p.outputs = some q → q.pending.isSome = true → q.inFlight = true

/-- In a run: every VBlank is acknowledged, a frame on its way has a flip to complete, and the
newest frame of an output, or a newer one, is on the screen after two more VBlanks of the output. -/
structure KeepsFlipping (fromSlice : List UInt8 → Option Request) (p : Screen)
    (ms : List ScreenInput) : Prop where
  acks : ∀ pre m post, ms = pre ++ m :: post → Acks fromSlice (run (step fromSlice) p pre).1 m
  flows : ∀ pre post, ms = pre ++ post → (run (step fromSlice) p pre).1.Flows
  reaches : ∀ pre post, ms = pre ++ post →
    let r := (run (step fromSlice) p pre).1
    let r' := run (step fromSlice) r post
    ∀ crtc q, DrmOutput.flips? crtc r.outputs = some q → 2 ≤ r'.2.count (.vblank crtc) →
      ∃ q', DrmOutput.flips? crtc r'.1.outputs = some q' ∧ q.newest ≤ q'.shown

/-- What a callback has to meet: no VBlank is delivered while the compositor shuts down. -/
def Unlatched (p : Screen) : ScreenInput → Prop
  | .vblank crtc _ _ => (DrmOutput.flips? crtc p.outputs).any (·.inFlight) = true →
    p.state.shuttingDown = false
  | _ => True

/-! ## The outputs -/

theorem flips?_update_self (crtc : Nat) (f : FlipQueue → FlipQueue) (os : List DrmOutput) :
    DrmOutput.flips? crtc (DrmOutput.update crtc f os) = (DrmOutput.flips? crtc os).map f := by
  induction os with
  | nil => rfl
  | cons o os ih =>
    by_cases h : o.crtc = crtc
    · simp [DrmOutput.update, DrmOutput.flips?, h]
    · simp [DrmOutput.update, DrmOutput.flips?, h, ih]

theorem flips?_update_ne {crtc crtc' : Nat} (hne : crtc' ≠ crtc) (f : FlipQueue → FlipQueue)
    (os : List DrmOutput) :
    DrmOutput.flips? crtc' (DrmOutput.update crtc f os) = DrmOutput.flips? crtc' os := by
  induction os with
  | nil => rfl
  | cons o os ih =>
    by_cases h : o.crtc = crtc
    · simp [DrmOutput.update, DrmOutput.flips?, h, hne.symm]
    · by_cases h' : o.crtc = crtc'
      · simp only [DrmOutput.update, if_neg h, DrmOutput.flips?, if_pos h']
      · simp [DrmOutput.update, DrmOutput.flips?, h, h', ih]

/-- Between two lists of outputs, the frames of an output were queued with numbers from `b` to
`b'`. -/
def LaterOn (crtc b b' : Nat) (os os' : List DrmOutput) : Prop :=
  Option.Rel (fun q q' => FlipQueue.Later q b q' b') (DrmOutput.flips? crtc os)
    (DrmOutput.flips? crtc os')

theorem LaterOn.refl (crtc b : Nat) (os : List DrmOutput) : LaterOn crtc b b os os := by
  unfold LaterOn
  cases DrmOutput.flips? crtc os with
  | none => exact .none
  | some q => exact .some .refl

theorem LaterOn.trans {crtc b b' b'' : Nat} {os os' os'' : List DrmOutput}
    (h : LaterOn crtc b b' os os') (h' : LaterOn crtc b' b'' os' os'') :
    LaterOn crtc b b'' os os'' := by
  unfold LaterOn at *
  revert h h'
  generalize DrmOutput.flips? crtc os = x
  generalize DrmOutput.flips? crtc os' = y
  generalize DrmOutput.flips? crtc os'' = z
  intro h h'
  cases h with
  | none =>
    cases h'
    exact .none
  | some h =>
    cases h' with
    | some h' => exact .some (h.trans h')

theorem laterOn_renderAll (w : Nat → Composite) (n crtc : Nat) (os : List DrmOutput) :
    ∀ e : Engine, LaterOn crtc n (n + 1) os (DrmOutput.renderAll w (n + 1) e os).2 := by
  have hskip : ∀ os : List DrmOutput, LaterOn crtc n (n + 1) os os := by
    intro os
    unfold LaterOn
    cases DrmOutput.flips? crtc os with
    | none => exact .none
    | some q => exact .some (FlipQueue.Later.refl.skip)
  induction os with
  | nil => exact fun e => .none
  | cons o os ih =>
    intro e
    unfold DrmOutput.renderAll
    dsimp only
    split
    · by_cases h : o.crtc = crtc
      · simp only [LaterOn, DrmOutput.flips?, h, if_true]
        exact .some FlipQueue.Later.refl.queue
      · simp only [LaterOn, DrmOutput.flips?, h, if_false]
        exact ih _
    · by_cases h : o.crtc = crtc
      · simp only [LaterOn, DrmOutput.flips?, h, if_true]
        exact .some FlipQueue.Later.refl.skip
      · simp only [LaterOn, DrmOutput.flips?, h, if_false]
        exact ih _
    · exact hskip _

theorem laterOn_composite (p : Screen) (f : Frame) (w : World) (crtc : Nat) :
    LaterOn crtc p.frames (p.composite f w).1.frames p.outputs (p.composite f w).1.outputs := by
  unfold composite
  split_ifs
  · exact .refl _ _ _
  · exact laterOn_renderAll _ _ _ _ _

theorem laterOn_compositeAll (w : World) (crtc : Nat) (fs : List Frame) : ∀ p : Screen,
    LaterOn crtc p.frames (compositeAll w p fs).1.frames p.outputs
      (compositeAll w p fs).1.outputs := by
  induction fs with
  | nil => exact fun p => .refl _ _ _
  | cons f fs ih => exact fun p => (p.laterOn_composite f w crtc).trans (ih _)

theorem laterOn_renderOutput (p : Screen) (crtc crtc' : Nat) (c : Composite) :
    LaterOn crtc' p.frames (p.renderOutput crtc c).frames p.outputs
      (p.renderOutput crtc c).outputs := by
  unfold renderOutput LaterOn
  dsimp only
  split_ifs
  · by_cases h : crtc' = crtc
    · subst h
      rw [flips?_update_self]
      cases DrmOutput.flips? crtc' p.outputs with
      | none => exact .none
      | some q => exact .some FlipQueue.Later.refl.queue
    · rw [flips?_update_ne h]
      cases DrmOutput.flips? crtc' p.outputs with
      | none => exact .none
      | some q => exact .some FlipQueue.Later.refl.skip
  · cases DrmOutput.flips? crtc' p.outputs with
    | none => exact .none
    | some q => exact .some FlipQueue.Later.refl.skip

/-! ## Steps -/

theorem count_vblank_composite (p : Screen) (f : Frame) (w : World) (crtc : Nat) :
    (p.composite f w).2.count (.vblank crtc) = 0 := by
  rw [composite_events, List.count_eq_zero]
  split_ifs <;> simp

section
variable (fromSlice : List UInt8 → Option Request)

/-- A VBlank that is delivered while the compositor does not shut down. -/
theorem deliver_unlatched {p : Screen} {crtc : Nat}
    (hf : (DrmOutput.flips? crtc p.outputs).any (·.inFlight) = true)
    (hd : p.state.shuttingDown = false) (now : Nat) (w : World) :
    ∃ es, (p.deliver crtc now w).2 = .vblank crtc :: .submitted crtc :: es ∧
      (∀ e ∈ es, ∃ f, e = .frame f) ∧ ∀ crtc',
      LaterOn crtc' p.frames (p.deliver crtc now w).1.frames
        (DrmOutput.update crtc FlipQueue.submitted
          (DrmOutput.update crtc FlipQueue.complete p.outputs))
        (p.deliver crtc now w).1.outputs := by
  unfold deliver
  rw [if_pos hf]
  unfold handleDrmEvent
  dsimp only
  rw [hd, if_neg Bool.false_ne_true]
  split_ifs
  · refine ⟨_, rfl, by simp, fun crtc' => ?_⟩
    exact laterOn_renderOutput { p with
        outputs := DrmOutput.update crtc FlipQueue.submitted
          (DrmOutput.update crtc FlipQueue.complete p.outputs)
        lastVblank := some now } crtc crtc' _
  · exact ⟨[], rfl, by simp, fun crtc' => .refl _ _ _⟩

/-- A VBlank, on an output: it is the output's own or that of another one, or there is no flip. -/
theorem output_deliver {p : Screen} {crtc' now : Nat} {w : World}
    (hm : p.Unlatched (.vblank crtc' now w)) (crtc : Nat) :
    ((p.deliver crtc' now w).2.count (.vblank crtc) = 0 ∧
      LaterOn crtc p.frames (p.deliver crtc' now w).1.frames p.outputs
        (p.deliver crtc' now w).1.outputs) ∨
    ((∃ now₁ w₁, ScreenInput.vblank crtc' now w = .vblank crtc now₁ w₁) ∧
      (p.deliver crtc' now w).2.count (.vblank crtc) = 1 ∧
      (DrmOutput.flips? crtc p.outputs).any (·.inFlight) = true ∧
      LaterOn crtc p.frames (p.deliver crtc' now w).1.frames
        (DrmOutput.update crtc FlipQueue.submitted
          (DrmOutput.update crtc FlipQueue.complete p.outputs))
        (p.deliver crtc' now w).1.outputs) := by
  by_cases hf : (DrmOutput.flips? crtc' p.outputs).any (·.inFlight) = true
  · obtain ⟨es, hev, hes, hlater⟩ := deliver_unlatched hf (hm hf) now w
    have hframes : es.count (.vblank crtc) = 0 := by
      rw [List.count_eq_zero]
      intro hmem
      obtain ⟨f, heq⟩ := hes _ hmem
      cases heq
    have hcount :
        (p.deliver crtc' now w).2.count (.vblank crtc) = if crtc' = crtc then 1 else 0 := by
      rw [hev, List.count_cons, List.count_cons, hframes]
      simp
    by_cases h : crtc = crtc'
    · subst h
      exact .inr ⟨⟨now, w, rfl⟩, by simpa using hcount, hf, hlater crtc⟩
    · refine .inl ⟨by simpa [Ne.symm h] using hcount, ?_⟩
      have hl := hlater crtc
      unfold LaterOn at hl
      rw [flips?_update_ne h, flips?_update_ne h] at hl
      exact hl
  · have hnot : p.deliver crtc' now w = (p, []) := if_neg hf
    rw [hnot]
    exact .inl ⟨rfl, .refl _ _ _⟩

/-- **One step, on an output.** No VBlank of the output is delivered and frames are queued; or one
is, its flip is acknowledged, and frames are queued. -/
theorem output_step {p : Screen} {m : ScreenInput} (hm : p.Unlatched m) (crtc : Nat) :
    ((p.step fromSlice m).2.count (.vblank crtc) = 0 ∧
      LaterOn crtc p.frames (p.step fromSlice m).1.frames p.outputs
        (p.step fromSlice m).1.outputs) ∨
    ((∃ now w, m = .vblank crtc now w) ∧ (p.step fromSlice m).2.count (.vblank crtc) = 1 ∧
      (DrmOutput.flips? crtc p.outputs).any (·.inFlight) = true ∧
      LaterOn crtc p.frames (p.step fromSlice m).1.frames
        (DrmOutput.update crtc FlipQueue.submitted
          (DrmOutput.update crtc FlipQueue.complete p.outputs))
        (p.step fromSlice m).1.outputs) := by
  have hnone : ∀ (p' : Screen) (f : Frame) (w : World), p'.frames = p.frames →
      p'.outputs = p.outputs → (p'.composite f w).2.count (.vblank crtc) = 0 ∧
        LaterOn crtc p.frames (p'.composite f w).1.frames p.outputs
          (p'.composite f w).1.outputs := by
    intro p' f w hframes houts
    have h := p'.laterOn_composite f w crtc
    rw [hframes, houts] at h
    exact ⟨count_vblank_composite p' f w crtc, h⟩
  have hstay : ∀ p' : Screen, p'.frames = p.frames → p'.outputs = p.outputs →
      LaterOn crtc p.frames p'.frames p.outputs p'.outputs := by
    intro p' hframes houts
    rw [hframes, houts]
    exact .refl _ _ _
  cases m with
  | callback i input w =>
    left
    refine ⟨?_, ?_⟩
    · simp only [step, List.count_append, compositeAll_events]
      have hplain : ((p.state.step fromSlice i).2.map ScreenEvent.compositor).count (.vblank crtc)
          = 0 := by
        rw [List.count_eq_zero]
        simp
      rw [hplain, Nat.zero_add, List.count_eq_zero]
      split_ifs <;> simp
    · exact laterOn_compositeAll w crtc _ { p with
        state := (p.state.step fromSlice i).1
        framePending := p.framePending || commits p.state i
        libinput := p.libinputAfter i (p.state.step fromSlice i).1 input }
  | layerDestroyed w => exact .inl (hnone p _ w rfl rfl)
  | overlayToggle w =>
    unfold step
    dsimp only
    split_ifs
    · exact .inl (hnone _ _ w rfl rfl)
    · exact .inl ⟨rfl, .refl _ _ _⟩
  | overlayDismiss w =>
    unfold step
    dsimp only
    split_ifs
    · exact .inl (hnone _ _ w rfl rfl)
    · exact .inl ⟨rfl, .refl _ _ _⟩
  | overlayJournal w =>
    unfold step
    dsimp only
    split_ifs
    · exact .inl (hnone _ _ w rfl rfl)
    · exact .inl ⟨rfl, .refl _ _ _⟩
  | wallpaperTick a now w =>
    unfold step
    dsimp only
    split_ifs
    · exact .inl (hnone _ _ w rfl rfl)
    · exact .inl ⟨rfl, hstay _ rfl rfl⟩
    · exact .inl ⟨rfl, .refl _ _ _⟩
  | turn w =>
    unfold step
    dsimp only
    split_ifs
    · exact .inl (hnone _ _ w rfl rfl)
    · exact .inl ⟨rfl, .refl _ _ _⟩
  | vblank crtc' now w => exact output_deliver hm crtc

/-! ## The invariant -/

/-- The frames of every output are sound. -/
def SoundAll (p : Screen) : Prop :=
  ∀ crtc q, DrmOutput.flips? crtc p.outputs = some q → q.Sound p.frames

theorem SoundAll.flows {p : Screen} (h : p.SoundAll) : p.Flows := by
  intro crtc q hq hp
  rw [(h crtc q hq).inFlight]
  exact hp

theorem LaterOn.sound {crtc b b' : Nat} {os os' : List DrmOutput} (h : LaterOn crtc b b' os os')
    (hs : ∀ q, DrmOutput.flips? crtc os = some q → q.Sound b) :
    ∀ q, DrmOutput.flips? crtc os' = some q → q.Sound b' := by
  intro q' hq'
  unfold LaterOn at h
  rw [hq'] at h
  cases hq : DrmOutput.flips? crtc os with
  | none =>
    rw [hq] at h
    cases h
  | some q =>
    rw [hq] at h
    cases h with
    | some h => exact h.sound (hs q hq)

theorem soundAll_step {p : Screen} {m : ScreenInput} (hp : p.SoundAll) (hm : p.Unlatched m) :
    (p.step fromSlice m).1.SoundAll := by
  intro crtc
  rcases output_step fromSlice hm crtc with ⟨-, hlater⟩ | ⟨-, -, -, hlater⟩
  · exact hlater.sound (hp crtc)
  · refine hlater.sound ?_
    intro q hq
    rw [flips?_update_self, flips?_update_self, Option.map_map] at hq
    obtain ⟨q₀, hq₀, rfl⟩ := Option.map_eq_some_iff.mp hq
    exact FlipQueue.sound_flip (hp crtc q₀ hq₀)

/-! ## Runs -/

/-- A frame waits for two VBlanks, less those that came. -/
structure Waits (crtc k : Nat) (p : Screen) (tr : List ScreenEvent) : Prop where
  sound : p.SoundAll
  behind : ∃ q, DrmOutput.flips? crtc p.outputs = some q ∧ k ≤ q.newest ∧
    q.behind k ≤ 2 - tr.count (.vblank crtc)

theorem LaterOn.behind {crtc k b b' : Nat} {os os' : List DrmOutput} (h : LaterOn crtc b b' os os')
    {q : FlipQueue} (hq : DrmOutput.flips? crtc os = some q) (hs : q.Sound b) (hk : k ≤ q.newest) :
    ∃ q', DrmOutput.flips? crtc os' = some q' ∧ k ≤ q'.newest ∧ q'.behind k ≤ q.behind k := by
  unfold LaterOn at h
  rw [hq] at h
  cases hq' : DrmOutput.flips? crtc os' with
  | none =>
    rw [hq'] at h
    cases h
  | some q' =>
    rw [hq'] at h
    cases h with
    | some h => exact ⟨q', rfl, h.behind hs hk⟩

theorem waits_step {crtc k : Nat} {p : Screen} {tr : List ScreenEvent} {m : ScreenInput}
    (h : Waits crtc k p tr) (hm : p.Unlatched m) :
    Waits crtc k (p.step fromSlice m).1 (tr ++ (p.step fromSlice m).2) := by
  refine ⟨soundAll_step fromSlice h.sound hm, ?_⟩
  obtain ⟨q, hq, hk, hle⟩ := h.behind
  have hsound : q.Sound p.frames := h.sound crtc q hq
  rw [List.count_append]
  rcases output_step fromSlice hm crtc with ⟨hcount, hlater⟩ | ⟨-, hcount, hf, hlater⟩
  · obtain ⟨q', hq', hk', hle'⟩ := hlater.behind hq hsound hk
    exact ⟨q', hq', hk', by omega⟩
  · rw [hq] at hf
    have hflip : DrmOutput.flips? crtc (DrmOutput.update crtc FlipQueue.submitted
        (DrmOutput.update crtc FlipQueue.complete p.outputs)) = some q.complete.submitted := by
      rw [flips?_update_self, flips?_update_self, hq]
      rfl
    have hkf : k ≤ q.complete.submitted.newest := by
      rw [FlipQueue.newest_flip]
      exact hk
    obtain ⟨q', hq', hk', hle'⟩ := hlater.behind hflip (FlipQueue.sound_flip hsound) hkf
    have hone := FlipQueue.behind_flip hsound hk (by simpa using hf)
    exact ⟨q', hq', hk', by omega⟩

/-- **How long a frame waits.** In a run in which no VBlank comes while the compositor shuts down,
two VBlanks bring the newest frame of their output to the screen, or a newer one. -/
theorem behind_run {p : Screen} (hp : p.SoundAll) {ms : List ScreenInput}
    (hms : Along (step fromSlice) Unlatched p ms) {crtc : Nat} {q : FlipQueue}
    (hq : DrmOutput.flips? crtc p.outputs = some q)
    (h2 : 2 ≤ (run (step fromSlice) p ms).2.count (.vblank crtc)) :
    ∃ q', DrmOutput.flips? crtc (run (step fromSlice) p ms).1.outputs = some q' ∧
      q.newest ≤ q'.shown := by
  have hrun := @run_invariant_along _ _ _ (Waits crtc q.newest) (step fromSlice) Unlatched
    (fun p tr m hm h => waits_step fromSlice h hm) ms p [] hms
    ⟨hp, q, hq, Nat.le_refl _, FlipQueue.behind_le _ _⟩
  obtain ⟨q', hq', -, hle⟩ := hrun.behind
  rw [List.nil_append] at hle
  exact ⟨q', hq', FlipQueue.shown_of_behind (by omega)⟩

theorem acks_iff (p : Screen) (m : ScreenInput) : Acks fromSlice p m ↔ p.Unlatched m := by
  constructor
  · intro h
    cases m with
    | vblank crtc now w =>
      intro hf
      by_contra hd
      have hd' : p.state.shuttingDown = true := by simpa using hd
      have hev : (p.step fromSlice (.vblank crtc now w)).2 = [.vblank crtc] := by
        simp [step, deliver, hf, handleDrmEvent, hd']
      have hmem := h crtc (by rw [hev]; simp)
      rw [hev] at hmem
      simp at hmem
    | _ => trivial
  · intro hm crtc hmem
    cases m with
    | vblank crtc' now w =>
      by_cases hf : (DrmOutput.flips? crtc' p.outputs).any (·.inFlight) = true
      · obtain ⟨es, hev, hes, -⟩ := deliver_unlatched hf (hm hf) now w
        have hstep : p.step fromSlice (.vblank crtc' now w) = p.deliver crtc' now w := rfl
        rw [hstep, hev] at hmem ⊢
        have heq : crtc = crtc' := by
          rcases List.mem_cons.mp hmem with heq | hmem
          · exact ScreenEvent.vblank.inj heq
          · rcases List.mem_cons.mp hmem with heq | hmem
            · cases heq
            · obtain ⟨f, heq⟩ := hes _ hmem
              cases heq
        simp [heq]
      · have hnot : p.step fromSlice (.vblank crtc' now w) = (p, []) := if_neg hf
        rw [hnot] at hmem
        cases hmem
    | _ =>
      exfalso
      rcases output_step fromSlice hm crtc with ⟨hcount, -⟩ | ⟨⟨_, _, heq⟩, -⟩
      · exact List.count_eq_zero.mp hcount hmem
      · cases heq

theorem soundAll_start (inInitramfs : Bool) (greeterUid : UInt32) (pamService : String)
    (greeter : Option UInt32) (crtcs : List Nat) (config : Option WallpaperConfig) (libinput : Bool)
    (w : World) :
    (start inInitramfs greeterUid pamService greeter crtcs config libinput w).SoundAll := by
  have hidle : ∀ crtc q, DrmOutput.flips? crtc (crtcs.map (⟨·, 0, none, none, false⟩)) = some q →
      q.Sound 0 := by
    intro crtc q hq
    have hq0 : q = ⟨0, none, none, false⟩ := by
      induction crtcs with
      | nil => cases hq
      | cons c cs ih =>
        simp only [List.map_cons, DrmOutput.flips?] at hq
        split_ifs at hq
        · exact (Option.some.inj hq).symm
        · exact ih hq
    subst hq0
    exact ⟨rfl, by simp, by simp, Nat.le_refl _⟩
  exact fun crtc => (laterOn_renderAll (w .frameZero) 0 crtc _ _).sound (hidle crtc)

/-- **Page flips.** In every run of the compositor, every VBlank is acknowledged, a frame on its way
has a flip to complete, and two VBlanks bring the newest frame of their output to the screen, if and
only if no VBlank is delivered while the compositor shuts down. -/
theorem flips_run_iff (inInitramfs : Bool) (greeterUid : UInt32) (pamService : String)
    (greeter : Option UInt32) (crtcs : List Nat) (config : Option WallpaperConfig) (libinput : Bool)
    (w : World) (ms : List ScreenInput) :
    KeepsFlipping fromSlice
      (start inInitramfs greeterUid pamService greeter crtcs config libinput w) ms ↔
    Along (step fromSlice) Unlatched
      (start inInitramfs greeterUid pamService greeter crtcs config libinput w) ms := by
  have hstart := soundAll_start inInitramfs greeterUid pamService greeter crtcs config libinput w
  generalize start inInitramfs greeterUid pamService greeter crtcs config libinput w = p at hstart ⊢
  constructor
  · intro h
    rw [along_iff_forall]
    exact fun pre m post heq => (acks_iff fromSlice _ m).mp (h.acks pre m post heq)
  · intro h
    have hsound : ∀ pre post, ms = pre ++ post → (run (step fromSlice) p pre).1.SoundAll ∧
        Along (step fromSlice) Unlatched (run (step fromSlice) p pre).1 post := by
      rintro pre post rfl
      obtain ⟨hpre, hpost⟩ := (along_append pre post p).mp h
      exact ⟨run_invariant_along (fun p _ => SoundAll p)
        (fun p _ m hm hp => soundAll_step fromSlice hp hm) pre p [] hpre hstart, hpost⟩
    refine ⟨fun pre m post heq => ?_, fun pre post heq => (hsound pre post heq).1.flows,
      fun pre post heq => ?_⟩
    · exact (acks_iff fromSlice _ m).mpr ((along_iff_forall ms p).mp h pre m post heq)
    · obtain ⟨hp, hpost⟩ := hsound pre post heq
      exact fun crtc q hq h2 => behind_run fromSlice hp hpost hq h2

/-- The compositor shuts down with a frame on its way: its VBlank is not acknowledged, and the
frames that the keepalive timer renders from then on stay behind it. -/
theorem shutdown_stops_flips :
    let w : World := fun _ _ => ⟨.queued, true, true, [], 0, true⟩
    let p := start false 990 "halmasuit" (some 50) [0] (some .shader) true w
    let r := run (step readRequest) p [.callback (.prepareForShutdown true calm) false w,
      .vblank 0 16 w, .wallpaperTick ⟨true, true, [], 0, true⟩ 300 w, .vblank 0 316 w,
      .wallpaperTick ⟨true, true, [], 0, true⟩ 400 w]
    r.1.state.shuttingDown = true ∧ .vblank 0 ∈ r.2 ∧ .submitted 0 ∉ r.2 ∧
      r.1.outputs = [⟨0, 0, some 1, some 4, false⟩] ∧ ¬ r.1.Flows ∧
      ¬ KeepsFlipping readRequest p [.callback (.prepareForShutdown true calm) false w,
        .vblank 0 16 w, .wallpaperTick ⟨true, true, [], 0, true⟩ 300 w, .vblank 0 316 w,
        .wallpaperTick ⟨true, true, [], 0, true⟩ 400 w] := by
  intro w p r
  have houts : r.1.outputs = [⟨0, 0, some 1, some 4, false⟩] := by decide +kernel
  have hstuck : ¬ r.1.Flows := by
    intro h
    cases h 0 ⟨0, some 1, some 4, false⟩ (by rw [houts]; rfl) rfl
  refine ⟨by decide +kernel, by decide +kernel, by decide +kernel, houts, hstuck, fun h => ?_⟩
  exact hstuck (h.flows _ [] (List.append_nil _).symm)

end

end Screen

end Halmasuit.Compositor
