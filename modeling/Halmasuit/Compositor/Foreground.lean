import Halmasuit.Compositor.Login

/-!
# Who has the foreground

`foreground`, `foreground_toplevel` and the seat's focus (`halmasuit/src/main.rs` 305–320) are three
fields. `new_toplevel` (1701–1751) takes any client's toplevel as the foreground one and
`maybe_focus_foreground_toplevel` (1471–1507) gives it the keyboard; neither looks at `foreground`
or at the client's uid, and `Swap` and `Revert` (1084–1180) leave the toplevel that is there.
`Owned` says what the lifecycle is meant to give: after `Swap` the session's surfaces, before it
none of its toplevels.

Headlines:
* `owned_step_iff`: which callbacks keep a scene owned.
* `owned_run_iff`: the same over whole runs.
-/

namespace Halmasuit.Compositor

open Halmasuit.Greetd (Request SpawnRequest readRequest)
open Halmasuit.SessionIpc
open Halmasuit.Lib

/-- While the session has the foreground, the foreground toplevel and the focus are its own; before
the gate has returned `Swap`, no toplevel of its uid is either. -/
structure Owned (s : Scene) : Prop where
  shown : s.foreground = .session → (∀ t ∈ s.foregroundToplevel, s.sessionUid = some t.uid) ∧
    ∀ f ∈ s.focus, s.sessionUid = some f.uid
  hidden : s.swap.phase ≠ .swapped → (∀ t ∈ s.foregroundToplevel, s.sessionUid ≠ some t.uid) ∧
    ∀ t, s.focus = some (.toplevel t) → s.sessionUid ≠ some t.uid

section
variable {s sc : Scene}

/-- A scene stays owned where nothing of it moves but the focus: away from every surface, to a layer
of the greeter's time, or to the foreground toplevel. -/
theorem Owned.keep (ho : Owned s) (hfg : sc.foreground = s.foreground)
    (hu : sc.sessionUid = s.sessionUid) (hp : sc.swap.phase ≠ .swapped → s.swap.phase ≠ .swapped)
    (hsub : ∀ t ∈ sc.foregroundToplevel, t ∈ s.foregroundToplevel)
    (hf : sc.focus = s.focus ∨ sc.focus = none ∨
      (s.foreground = .greeter ∧ ∃ t, sc.focus = some (.layer t)) ∨
      ∃ t, s.foregroundToplevel = some t ∧ sc.focus = some (.toplevel t)) : Owned sc := by
  constructor
  · intro hs
    rw [hfg] at hs
    obtain ⟨htop, hfocus⟩ := ho.shown hs
    rw [hu]
    refine ⟨fun t ht => htop t (hsub t ht), ?_⟩
    rcases hf with hf | hf | ⟨hg, -⟩ | ⟨t, ht, hf⟩
    · rw [hf]
      exact hfocus
    · simp [hf]
    · rw [hg] at hs
      cases hs
    · intro f hm
      obtain rfl : .toplevel t = f := Option.some.inj (hf.symm.trans hm)
      exact htop t ht
  · intro hs
    obtain ⟨htop, hfocus⟩ := ho.hidden (hp hs)
    rw [hu]
    refine ⟨fun t ht => htop t (hsub t ht), ?_⟩
    rcases hf with hf | hf | ⟨-, t, hf⟩ | ⟨t, ht, hf⟩
    · rw [hf]
      exact hfocus
    · simp [hf]
    · simp [hf]
    · intro t' hm
      obtain rfl : t = t' := by simpa [hf] using hm
      exact htop t ht

/-- A scene that was owned before `Swap` is owned after it only if there was no foreground toplevel:
one that is there is another client's. -/
theorem Owned.swap_iff (ho : Owned s) (hp : s.swap.phase ≠ .swapped) {focus : Option Focus}
    (hfg : sc.foreground = .session) (hp' : sc.swap.phase = .swapped)
    (hu : sc.sessionUid = s.sessionUid) (htop : sc.foregroundToplevel = s.foregroundToplevel)
    (hf : sc.focus = (s.foregroundToplevel.map .toplevel).or focus ∨
      ∃ t, s.foregroundToplevel = some t ∧ sc.focus = some (.toplevel t)) :
    Owned sc ↔ s.foregroundToplevel = none ∧ ∀ f ∈ focus, s.sessionUid = some f.uid := by
  have hfocus : s.foregroundToplevel = none → sc.focus = focus := by
    intro hn
    rcases hf with hf | ⟨t, ht, -⟩
    · rw [hf, hn]
      rfl
    · rw [hn] at ht
      cases ht
  constructor
  · intro h
    obtain ⟨htop', hfocus'⟩ := h.shown hfg
    rw [hu, htop] at htop'
    have hnone : s.foregroundToplevel = none := by
      by_contra hne
      obtain ⟨t, ht⟩ := Option.ne_none_iff_exists'.mp hne
      exact (ho.hidden hp).1 t ht (htop' t ht)
    rw [hu, hfocus hnone] at hfocus'
    exact ⟨hnone, hfocus'⟩
  · rintro ⟨hnone, hall⟩
    constructor
    · intro _
      rw [hu, htop, hnone, hfocus hnone]
      exact ⟨by simp, hall⟩
    · intro hne
      exact absurd hp' hne

/-- A new toplevel of an owned scene. -/
theorem Owned.newToplevel_iff (ho : Owned s) (t : Surface) :
    Owned (s.newToplevel t) ↔ (s.foreground = .session → s.sessionUid = some t.uid) ∧
      (s.swap.phase ≠ .swapped → s.sessionUid ≠ some t.uid) := by
  constructor
  · intro h
    exact ⟨fun hfg => (h.shown hfg).1 t rfl, fun hp => (h.hidden hp).1 t rfl⟩
  · rintro ⟨hshown, hhidden⟩
    constructor
    · intro hfg
      refine ⟨fun t' ht' => ?_, (ho.shown hfg).2⟩
      obtain rfl : t = t' := Option.some.inj ht'
      exact hshown hfg
    · intro hp
      refine ⟨fun t' ht' => ?_, (ho.hidden hp).2⟩
      obtain rfl : t = t' := Option.some.inj ht'
      exact hhidden hp

/-- The record of a session, before anything of it is shown. -/
theorem owned_recorded_iff (hfg : s.foreground ≠ .session) (hp : s.swap.phase ≠ .swapped)
    (u : UInt32) : Owned { s with sessionUid := some u } ↔
      (∀ t ∈ s.foregroundToplevel, t.uid ≠ u) ∧ ∀ t, s.focus = some (.toplevel t) → t.uid ≠ u := by
  constructor
  · intro h
    obtain ⟨htop, hfocus⟩ := h.hidden hp
    refine ⟨fun t ht heq => htop t ht ?_, fun t ht heq => hfocus t ht ?_⟩
    · rw [heq]
    · rw [heq]
  · rintro ⟨htop, hfocus⟩
    constructor
    · intro hs
      exact absurd hs hfg
    · intro _
      refine ⟨fun t ht heq => htop t ht ?_, fun t ht heq => hfocus t ht ?_⟩
      · exact (Option.some.inj heq).symm
      · exact (Option.some.inj heq).symm

end

namespace HalmasuitState

/-- A callback that leaves the scene owned: a session is recorded while no toplevel of its uid is in
the foreground or has the focus; a toplevel is the session's if and only if the session is shown;
and `Swap` comes while there is no foreground toplevel and no other client has the focus. -/
structure Tidy (fromSlice : List UInt8 → Option Request) (s : HalmasuitState)
    (i : Input) : Prop where
  recorded : ∀ spawn ∈ (s.reports fromSlice i).head?, s.sessionUid = none →
    (∀ t ∈ s.foregroundToplevel, t.uid ≠ spawn.uid) ∧
      ∀ t, s.focus = some (.toplevel t) → t.uid ≠ spawn.uid
  newToplevel : ∀ t, i = .newToplevel t → t.uid ∈ s.clients →
    (s.foreground = .session → s.sessionUid = some t.uid) ∧
      (s.swap.phase ≠ .swapped → s.sessionUid ≠ some t.uid)
  swap : ∀ c ∈ s.gateCall i, (s.swap.call c).1 = .swap → s.foregroundToplevel = none ∧
    ∀ f ∈ s.focusBefore i, s.sessionUid = some f.uid

section
variable {s : HalmasuitState} {i : Input} {sc : Scene} {es : List Event}

/-- What a layer commit makes of the focus before the gate is called. -/
theorem focusBefore_cases (s : HalmasuitState) (i : Input) :
    s.focusBefore i = s.focus ∨
      (s.foreground = .greeter ∧ ∃ t, s.focusBefore i = some (.layer t)) := by
  cases i with
  | commit k w =>
    rcases (s.toScene.handleLayerShellCommit_cases k).2.1 with h | ⟨hfg, h⟩
    · exact .inl h
    · exact .inr ⟨hfg, _, h⟩
  | _ => exact .inl rfl

/-- An owned scene under a callback that neither calls the gate, nor records, nor maps a
toplevel. -/
theorem Moves.owned (h : Moves s i sc es) (hc : s.gateCall i = none) (ho : Owned s.toScene)
    (hr : s.sessionUid = none → (Scene.spawns es).head? = none)
    (ht : ∀ t, i = .newToplevel t → t.uid ∉ s.clients) : Owned sc := by
  cases h.ungated hc with
  | recorded hn hsp =>
    rw [hr hn] at hsp
    cases hsp
  | committed hf =>
    refine ho.keep rfl rfl id (fun _ h => h) ?_
    rcases hf with hf | ⟨hg, hf⟩ | hf
    · exact .inl hf
    · exact .inr (.inr (.inl ⟨hg, _, hf⟩))
    · exact .inr (.inr (.inr hf))
  | newToplevel hcl => exact absurd hcl (ht _ rfl)
  | toplevelGone => exact ho.keep rfl rfl id (by simp) (.inr (.inl rfl))
  | latched hd =>
    exact ⟨by simp [Scene.latched], fun hp => ⟨by simp [Scene.latched], (ho.hidden hp).2⟩⟩
  | _ => exact ⟨ho.shown, ho.hidden⟩

/-- An owned scene under a callback that calls the gate: only `Swap` can end it. -/
theorem Moves.owned_gate (h : Moves s i sc es) {c : GateCall} (hc : s.gateCall i = some c)
    (ho : Owned s.toScene) :
    Owned sc ↔ ((s.swap.call c).1 = .swap → s.foregroundToplevel = none ∧
      ∀ f ∈ s.focusBefore i, s.sessionUid = some f.uid) := by
  obtain ⟨t, w, f, ht, -, rfl, hf, htop⟩ := h.gated hc
  rw [← ht.swap]
  cases ha : (t.swap.call c).1 with
  | none =>
    refine iff_of_true ?_ (by simp)
    rw [Scene.feedGate_none t c w ha] at hf htop ⊢
    refine ho.keep ht.foreground ht.sessionUid ?_ ?_ ?_
    · intro hp hs
      rw [← ht.swap] at hs
      rcases Scene.call_cases t.swap c with
        ⟨-, -, heq⟩ | ⟨-, _, _, hg, -⟩ | ⟨-, -, heq⟩ | ⟨-, -, heq⟩ | ⟨-, hg, -⟩
      · rw [heq] at ha
        cases ha
      · rw [hg] at hs
        cases hs
      · rw [heq] at hp
        exact hp hs
      · rw [heq] at ha
        cases ha
      · exact hg hs
    · intro t' ht'
      rcases ht.foregroundToplevel with heq | heq
      · exact heq ▸ ht'
      · exact absurd (heq.symm.trans ht') (by simp)
    · rcases htop with ⟨-, hb⟩ | ⟨-, -, -, hn, hf⟩
      · rcases hf with hf | hf
        · rcases focusBefore_cases s i with h | ⟨hg, t', h⟩
          · exact .inl (hf.trans (hb.trans h))
          · exact .inr (.inr (.inl ⟨hg, t', hf.trans (hb.trans h)⟩))
        · exact .inr (.inr (.inr hf))
      · exact .inr (.inl (hf.trans hn))
  | swap =>
    obtain ⟨htrigger, ⟨o, k, hg, -⟩, -⟩ := Scene.call_swap ha
    have htop' : t.foregroundToplevel = s.foregroundToplevel ∧ t.focus = s.focusBefore i := by
      rcases htop with h | ⟨-, htrigger', -⟩
      · exact h
      · rw [htrigger] at htrigger'
        cases htrigger'
    rw [Scene.feedGate_swap t c w ha] at hf ⊢
    simp only [htop'.1, htop'.2] at hf
    rw [forall_prop_of_true rfl]
    refine ho.swap_iff ?_ rfl rfl ht.sessionUid htop'.1 hf
    rw [← ht.swap, hg]
    simp
  | revert =>
    refine iff_of_true ?_ (by simp)
    rw [Scene.feedGate_revert t c w ha]
    exact ⟨by simp, fun _ => ⟨by simp, by simp⟩⟩

end

section
variable (fromSlice : List UInt8 → Option Request)

/-- **One callback at an owned scene.** -/
theorem owned_step_iff (s : HalmasuitState) (i : Input) (hk : Keyed s) (ho : Owned s.toScene) :
    Owned (s.step fromSlice i).1.toScene ↔ Tidy fromSlice s i := by
  have hm := s.step_moves fromSlice i
  cases hc : s.gateCall i with
  | some c =>
    rw [hm.owned_gate hc ho]
    have hr : s.reports fromSlice i = [] := reports_of_gateCall fromSlice hc
    constructor
    · intro h
      refine ⟨by simp [hr], ?_, ?_⟩
      · rintro t rfl
        cases hc
      · intro c' hc'
        obtain rfl : c = c' := Option.some.inj (hc.symm.trans hc')
        exact h
    · intro h
      exact h.swap c hc
  | none =>
    have hswap : ∀ c ∈ s.gateCall i, (s.swap.call c).1 = .swap → s.foregroundToplevel = none ∧
        ∀ f ∈ s.focusBefore i, s.sessionUid = some f.uid := by simp [hc]
    by_cases hr : s.sessionUid = none ∧ (s.reports fromSlice i).head? ≠ none
    · obtain ⟨hn, hne⟩ := hr
      obtain ⟨spawn, hsp⟩ := Option.ne_none_iff_exists'.mp hne
      have hp := (hk.unkeyed hn).1
      rw [s.step_recorded fromSlice hsp, hn, Option.none_or,
        owned_recorded_iff (fun hfg => hp (hk.foreground hfg)) hp]
      constructor
      · intro h
        refine ⟨?_, ?_, hswap⟩
        · intro spawn' hsp' _
          obtain rfl : spawn = spawn' := Option.some.inj (hsp.symm.trans hsp')
          exact h
        · rintro t rfl
          cases hsp
      · intro h
        exact h.recorded spawn hsp hn
    · have hrec : ∀ spawn ∈ (s.reports fromSlice i).head?, s.sessionUid = none →
          (∀ t ∈ s.foregroundToplevel, t.uid ≠ spawn.uid) ∧
            ∀ t, s.focus = some (.toplevel t) → t.uid ≠ spawn.uid := by
        intro spawn hsp hn
        exact absurd ⟨hn, by rw [hsp]; simp⟩ hr
      by_cases ht : ∃ t, i = .newToplevel t ∧ t.uid ∈ s.clients
      · obtain ⟨t, rfl, hcl⟩ := ht
        have hscene : (s.step fromSlice (.newToplevel t)).1.toScene = s.toScene.newToplevel t := by
          simp [step, hcl, onScene]
        rw [hscene, ho.newToplevel_iff]
        constructor
        · intro h
          refine ⟨hrec, fun t' heq _ => ?_, hswap⟩
          obtain rfl : t = t' := by simpa using heq
          exact h
        · intro h
          exact h.newToplevel t rfl hcl
      · have hno : ∀ t, i = .newToplevel t → t.uid ∉ s.clients := by
          intro t heq hcl
          exact ht ⟨t, heq, hcl⟩
        refine iff_of_true (hm.owned hc ho ?_ hno)
          ⟨hrec, fun t heq hcl => absurd hcl (hno t heq), hswap⟩
        intro hn
        rw [step_spawns]
        by_contra hne
        exact hr ⟨hn, hne⟩

/-- **Foreground ownership.** Over every run of the compositor: the scene is owned after every
callback if and only if every callback is tidy. -/
theorem owned_run_iff (inInitramfs : Bool) (greeterUid : UInt32) (pamService : String)
    (greeter : Option UInt32) (is : List Input) :
    (∀ pre i post, is = pre ++ i :: post → Owned ((run (step fromSlice)
      (start inInitramfs greeterUid pamService greeter) pre).1.step fromSlice i).1.toScene) ↔
    Along (step fromSlice) (Tidy fromSlice)
      (start inInitramfs greeterUid pamService greeter) is := by
  have hall : Along (step fromSlice) (fun s i => Owned (s.step fromSlice i).1.toScene)
      (start inInitramfs greeterUid pamService greeter) is ↔ _ := along_iff_forall is _
  rw [← hall]
  refine along_congr (fun s => Keyed s ∧ Owned s.toScene) ?_ ?_ is _ ?_
  · rintro s i ⟨hk, ho⟩
    exact s.owned_step_iff fromSlice i hk ho
  · rintro s i ⟨hk, -⟩ ho
    exact ⟨s.keyed_step fromSlice i hk, ho⟩
  · exact ⟨keyed_start _ _ _ _, ⟨by simp [start], fun _ => ⟨by simp [start], by simp [start]⟩⟩⟩

/-- The client of `alice` maps its toplevel and paints before the broker has opened her session: it
is in the foreground and has the keyboard, and the gate has not returned `Swap`. A greeter that is
still connected takes both back after `Swap`. -/
theorem toplevels_ignore_the_gate :
    let early := (run (step readRequest) booted (authenticate 0 "alice" 1000 ++
      [.waylandConnect 1000, .newToplevel ⟨0, 1000⟩, .commit (paint ⟨0, 1000⟩) calm])).1
    let late := (run (step readRequest) booted (.waylandConnect 990 :: login 0 "alice" 1000 ++
      [.newToplevel ⟨1, 990⟩, .commit (paint ⟨1, 990⟩) calm])).1
    (early.sessionUid = some 1000 ∧ early.swap.phase = .arming false true ∧
      early.foregroundToplevel = some ⟨0, 1000⟩ ∧ early.focus = some (.toplevel ⟨0, 1000⟩) ∧
      ¬ Owned early.toScene) ∧
    late.sessionUid = some 1000 ∧ late.foreground = .session ∧
      late.foregroundToplevel = some ⟨1, 990⟩ ∧ late.focus = some (.toplevel ⟨1, 990⟩) ∧
      ¬ Owned late.toScene := by
  intro early late
  have hearly : early.sessionUid = some 1000 ∧ early.swap.phase = .arming false true ∧
      early.foregroundToplevel = some ⟨0, 1000⟩ ∧ early.focus = some (.toplevel ⟨0, 1000⟩) := by
    decide +kernel
  have hlate : late.sessionUid = some 1000 ∧ late.foreground = .session ∧
      late.foregroundToplevel = some ⟨1, 990⟩ ∧ late.focus = some (.toplevel ⟨1, 990⟩) := by
    decide +kernel
  refine ⟨⟨hearly.1, hearly.2.1, hearly.2.2.1, hearly.2.2.2, ?_⟩,
    hlate.1, hlate.2.1, hlate.2.2.1, hlate.2.2.2, ?_⟩
  · intro h
    exact (h.hidden (by rw [hearly.2.1]; simp)).1 _ hearly.2.2.1 hearly.1
  · intro h
    have hu := (h.shown hlate.2.1).1 _ hlate.2.2.1
    rw [hlate.1] at hu
    exact absurd hu (by decide)

end

end HalmasuitState

end Halmasuit.Compositor
