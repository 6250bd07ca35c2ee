import Halmasuit.Compositor.Handoff

/-!
# Whose session it is

`session_uid` (`halmasuit/src/main.rs`) says who may connect to the Wayland socket besides the
greeter (`wayland_peer_authorized`, 4355–4357). `record_session_started` (2744–2753) writes it where
it is `None`, and the `Revert` arm of `apply_swap_action` (1119–1160) clears it; an episode can end
on other paths, and then the uid stays, lets its user in and keeps the next one out.

Headlines:
* `Tracks`: the recorded uid is that of a live episode, and of the one that has just reported.
* `tracks_step_iff`: which callbacks keep it.
* `tracks_run_iff`: the same over whole runs.
-/

namespace Halmasuit.Compositor

open Halmasuit.Greetd
open Halmasuit.SessionIpc
open Halmasuit.Lib

/-- The uid of the session an episode has started. -/
def ConnState.startedFor (cs : ConnState) : Option UInt32 :=
  match cs.episode.conn.state with
  | .spawning _ u _ _ _ => some u
  | _ => none

theorem Handed.startedFor {u : UInt32} {cs : ConnState} (h : Handed u cs.episode) :
    cs.startedFor = some u := by
  obtain ⟨n, g, cmd, env, hst⟩ := h.spawning
  simp [ConnState.startedFor, hst]

namespace HalmasuitState

/-- A login episode that started a session for `u` is live on the connection `id`: it is not over,
and its broker channel is registered. -/
def Live (s : HalmasuitState) (id : Nat) (u : UInt32) : Prop :=
  ∃ cs, s.connections.lookup id = some cs ∧ cs.spawned = true ∧ cs.terminate = false ∧
    cs.startedFor = some u ∧ Source.broker id ∈ s.sources

/-- The recorded uid, after a callback and its events: it is that of a live episode, it is that of
the episode that has just reported `spawned`, and the Wayland socket admits it and the greeter
alone. -/
structure Tracks (s : HalmasuitState) (es : List Event) : Prop where
  live : ∀ u, s.sessionUid = some u → ∃ id, s.Live id u
  recorded : ∀ id spawn left gate, .spawned id spawn left gate ∈ es → s.sessionUid = some spawn.uid
  admits : ∀ p, waylandPeerAuthorized p s.greeterUid s.sessionUid = true ↔
    p = s.greeterUid ∨ (s.sessionUid = some p ∧ ∃ id, s.Live id p)

section
variable (fromSlice : List UInt8 → Option Request)

/-- A callback that ends the started session of a connection, and that the gate does not answer with
`Revert`. -/
inductive Ends (s : HalmasuitState) (id : Nat) : Input → Prop
  /-- The greeter speaks after the hand-off, or was gone before it. -/
  | greeter {i} (hi : i.conn = some id) (h : silent fromSlice s i = false) : Ends s id i
  /-- The channel fails, or brings a frame that the relay refuses, or `SessionEnded` before `Swap`.
  -/
  | broker {env recv w cs} (hlook : s.connections.lookup id = some cs)
      (hsrc : Source.broker id ∈ s.sources) (hs : cs.spawned = true) (hrecv : recv ≠ .ok none)
      (hopen : cs.episode.event recv ≠ some .sessionOpened)
      (hend : ∀ outcome, cs.episode.event recv = some (.sessionEnded outcome) →
        s.swap.phase ≠ .swapped) : Ends s id (.brokerReady id true env recv w)

/-- A callback that accounts for the recorded uid: a spawn is reported while no other uid is
recorded, and an episode of the uid ends while another one is live, or with the `SessionEnded` that
reverts. -/
structure Accounted (s : HalmasuitState) (i : Input) : Prop where
  recorded : ∀ spawn ∈ s.reports fromSlice i, s.sessionUid = none ∨ s.sessionUid = some spawn.uid
  ended : ∀ id u, Ends fromSlice s id i →
    s.sessionUid.or ((s.reports fromSlice i).head?.map SpawnRequest.uid) = some u →
    ∃ id', id' ≠ id ∧ s.Live id' u

theorem live_iff {s : HalmasuitState} (hw : Wired s) {id : Nat} {u : UInt32} :
    s.Live id u ↔ ∃ cs, s.connections.lookup id = some cs ∧ cs.spawned = true ∧
      cs.terminate = false ∧ cs.startedFor = some u := by
  constructor
  · rintro ⟨cs, hlook, hs, hlive, hu, -⟩
    exact ⟨cs, hlook, hs, hlive, hu⟩
  · rintro ⟨cs, hlook, hs, hlive, hu⟩
    exact ⟨cs, hlook, hs, hlive, hu, hw.wired id cs hlook hlive⟩

theorem Ends.conn {s : HalmasuitState} {id : Nat} {i : Input} (h : Ends fromSlice s id i) :
    i.conn = some id := by
  cases h with
  | greeter hi h => exact hi
  | broker => rfl

/-- What a callback that is not silent reads. -/
theorem silent_eq_false {s : HalmasuitState} {i : Input} (h : silent fromSlice s i = false) :
    (∃ id r cs, i = .connectionReady id r ∧ s.connections.lookup id = some cs ∧
      Source.greeter id ∈ s.sources ∧ r.readable = true ∧ (quietReads fromSlice cs r.reads = false ∨
        (readReports fromSlice cs r.reads ≠ [] ∧ cs.terminate = true))) ∨
    (∃ id env recv w cs, i = .brokerReady id true env recv w ∧ s.connections.lookup id = some cs ∧
      Source.broker id ∈ s.sources ∧ cs.terminate = true ∧
      (cs.episode.onBrokerReadable fromSlice env recv).out.spawned ≠ none) := by
  cases i with
  | connectionReady id r =>
    unfold silent at h
    dsimp only at h
    split at h
    · rename_i cs hlook
      simp only [Bool.or_eq_false_iff, Bool.not_eq_false', Bool.and_eq_true, decide_eq_true_eq,
        Bool.and_eq_false_iff] at h
      obtain ⟨⟨hsrc, hr⟩, hq⟩ := h
      refine .inl ⟨id, r, cs, rfl, hlook, hsrc, hr, hq.imp_right ?_⟩
      rintro ⟨hne, ht⟩
      exact ⟨by simpa using hne, ht⟩
    · cases h
  | brokerReady id readable env recv w =>
    unfold silent at h
    dsimp only at h
    split at h
    · rename_i cs hlook
      simp only [Bool.or_eq_false_iff, Bool.not_eq_false', Bool.and_eq_true, decide_eq_true_eq] at h
      obtain ⟨⟨hsrc, rfl⟩, hne, ht⟩ := h
      refine .inr ⟨id, env, recv, w, cs, rfl, hlook, hsrc, ht, ?_⟩
      rintro hn
      simp [hn] at hne
    · cases h
  | _ => cases h

theorem silent_conn {s : HalmasuitState} {i : Input} (h : silent fromSlice s i = false) :
    ∃ id, i.conn = some id := by
  rcases silent_eq_false fromSlice h with ⟨id, r, cs, rfl, -⟩ | ⟨id, env, recv, w, cs, rfl, -⟩
  · exact ⟨id, rfl⟩
  · exact ⟨id, rfl⟩

/-- The end of a started session that the gate is not told of, or too early. -/
theorem Ends.unreverted {s : HalmasuitState} {id : Nat} {i : Input} (h : Ends fromSlice s id i) :
    ∀ c ∈ s.gateCall i, (s.swap.call c).1 ≠ .revert := by
  cases h with
  | greeter hi h =>
    intro c hc
    rcases silent_eq_false fromSlice h with ⟨id', r, cs, rfl, -⟩ |
      ⟨id', env, recv, w, cs, rfl, hlook, hsrc, -, hne⟩
    · cases hc
    · have hrep := reports_of_gateCall fromSlice hc
      simp only [reports, hlook, hsrc, and_self, if_true] at hrep
      exact absurd (Option.toList_eq_nil_iff.mp hrep) hne
  | broker hlook hsrc hs hrecv hopen hend =>
    intro c hc hrev
    obtain ⟨htrigger, hp⟩ := Scene.call_revert hrev
    simp only [gateCall, hsrc, and_self, if_true, hlook, Option.bind_some, Option.mem_def] at hc
    split at hc
    · cases hc
      cases htrigger
    · rename_i outcome hev
      exact hend outcome hev hp
    · cases hc

/-- A byte read after the hand-off ends the episode. -/
theorem afterReads_loud (reads : List ReadResult) : ∀ {cs : ConnState}, Fits cs →
    quietReads fromSlice cs reads = false → (cs.afterReads fromSlice reads).terminate = true := by
  induction reads with
  | nil =>
    intro cs _ hq
    simp [quietReads] at hq
  | cons r reads ih =>
    intro cs hf hq
    cases r with
    | wouldBlock => simp [quietReads] at hq
    | error => simp [quietReads] at hq
    | ok env bytes =>
      unfold quietReads at hq
      unfold ConnState.afterReads
      split
      · rename_i hnil
        rw [if_pos hnil] at hq
        cases hq
      · rename_i hne
        rw [if_neg hne] at hq
        dsimp only at hq ⊢
        cases hterm : (cs.episode.onGreeterBytes fromSlice env bytes).out.terminate with
        | true => simp [ConnState.fed, hterm]
        | false =>
          rw [if_neg (by simp)]
          refine ih (hf.greeter fromSlice env bytes) ?_
          rw [hterm, Bool.false_or] at hq
          cases hs : cs.spawned with
          | false => simpa [hs] using hq
          | true =>
            obtain ⟨u, hh⟩ := hf.handed hs
            rw [(hh.onGreeterBytes fromSlice env bytes).2] at hterm
            cases hterm

/-- What it leaves is not live. -/
theorem Ends.over {s : HalmasuitState} {id : Nat} {i : Input} (h : Ends fromSlice s id i)
    (hf : AllFit s) (u : UInt32) : ¬ (s.step fromSlice i).1.Live id u := by
  rintro ⟨cs', hlook', -, hlive, -⟩
  have hread : ∀ {r cs}, s.connections.lookup id = some cs → Source.greeter id ∈ s.sources →
      (s.step fromSlice (.connectionReady id r)).1.connections.lookup id = some cs' →
      (cs.afterReady fromSlice r).terminate = true → False := by
    intro r cs hlook hsrc hlook' hterm
    simp only [step, hsrc, if_true] at hlook'
    rcases s.handleConnectionReady_lookup fromSlice r hlook with ⟨hnone, -⟩ | ⟨cs'', hsome, hag⟩
    · rw [hnone] at hlook'
      cases hlook'
    · obtain rfl : cs'' = cs' := Option.some.inj (hsome.symm.trans hlook')
      rw [hag.terminate, hterm] at hlive
      cases hlive
  have hbroker : ∀ {env recv w cs}, s.connections.lookup id = some cs →
      Source.broker id ∈ s.sources →
      (s.step fromSlice (.brokerReady id true env recv w)).1.connections.lookup id = some cs' →
      (cs.terminate = true ∨
      (cs.episode.onBrokerReadable fromSlice env recv).out.terminate = true) →
      False := by
    intro env recv w cs hlook hsrc hlook' hterm
    simp only [step, hsrc, if_true] at hlook'
    obtain ⟨cs'', hsome, hag⟩ := s.handleBrokerReady_lookup fromSlice env recv w hlook
    obtain rfl : cs'' = cs' := Option.some.inj (hsome.symm.trans hlook')
    rw [hag.terminate] at hlive
    rcases hterm with hterm | hterm <;> simp [ConnState.fed, hterm] at hlive
  cases h with
  | greeter hi h =>
    rcases silent_eq_false fromSlice h with ⟨id', r, cs, rfl, hlook, hsrc, hr, hq⟩ |
      ⟨id', env, recv, w, cs, rfl, hlook, hsrc, ht, -⟩
    · obtain rfl : id' = id := Option.some.inj hi
      refine hread hlook hsrc hlook' ?_
      rcases hq with hq | ⟨-, ht⟩
      · unfold ConnState.afterReady
        dsimp only
        rw [if_pos hr]
        split
        · exact writeLoop_terminate _ (afterReads_loud fromSlice r.reads (hf id' cs hlook) hq)
        · exact afterReads_loud fromSlice r.reads (hf id' cs hlook) hq
      · exact afterReady_terminate fromSlice r ht
    · obtain rfl : id' = id := Option.some.inj hi
      exact hbroker hlook hsrc hlook' (.inl ht)
  | broker hlook hsrc hs hrecv hopen hend =>
    rename_i env recv w cs
    obtain ⟨u', hh⟩ := (hf id cs hlook).handed hs
    refine hbroker hlook hsrc hlook' (.inr ?_)
    rcases (hh.onBrokerReadable fromSlice env recv).2 with ⟨hn, -⟩ | ⟨hev, -⟩ | ⟨_, -, hout⟩ |
      ⟨-, -, hout⟩
    · exact absurd hn hrecv
    · exact absurd hev hopen
    · rw [hout]
    · rw [hout]

/-- A live episode is live after a callback that does not end it. -/
theorem live_step {s : HalmasuitState} {i : Input} {id : Nat} {u : UInt32} (hw : Wired s)
    (hf : AllFit s) (h : s.Live id u) (hno : ¬ Ends fromSlice s id i)
    (hrev : ∀ c ∈ s.gateCall i, (s.swap.call c).1 ≠ .revert) :
    (s.step fromSlice i).1.Live id u := by
  obtain ⟨cs, hlook, hs, hlive, hu, -⟩ := h
  rw [live_iff (s.wired_step fromSlice i hw)]
  obtain ⟨u', hh⟩ := (hf id cs hlook).handed hs
  obtain rfl : u' = u := Option.some.inj (hh.startedFor.symm.trans hu)
  by_cases hi : ∃ id', i.conn = some id' ∧ id' ≠ id
  · obtain ⟨id', hi, hne⟩ := hi
    exact ⟨cs, (s.step_conn_ne fromSlice hi hne.symm).trans hlook, hs, hlive, hu⟩
  · have hsil : silent fromSlice s i = true := by
      by_contra hsil
      have hloud : silent fromSlice s i = false := by simpa using hsil
      obtain ⟨id', hi'⟩ := silent_conn fromSlice hloud
      obtain rfl : id' = id := by
        by_contra hne
        exact hi ⟨id', hi', hne⟩
      exact hno (.greeter hi' hloud)
    rcases (s.step_conn fromSlice i id).goes_on fromSlice hsil hw hlook hs hlive hh with
      ⟨env, recv, w, rfl, hsrc, hterm, -⟩ | ⟨cs', hlook', hs', hlive', hh'⟩
    · exfalso
      have hover := hh.over fromSlice hterm
      refine hno (.broker hlook hsrc hs ?_ ?_ ?_)
      · rintro rfl
        cases hterm
      · intro hev
        rcases hover with ⟨_, hev', -⟩ | ⟨-, hev', -⟩
        · rw [hev] at hev'
          cases hev'
        · rw [hev] at hev'
          cases hev'
      · intro outcome hev hp
        have hc : s.gateCall (.brokerReady id true env recv w) = some (.sessionEnded id) := by
          simp [gateCall, hsrc, hlook, hev]
        refine hrev _ hc ?_
        rcases Scene.call_cases s.swap (.sessionEnded id) with ⟨ht, -⟩ | ⟨ht, -⟩ | ⟨ht, -⟩ |
          ⟨-, -, heq⟩ | ⟨-, hp', -⟩
        · cases ht
        · cases ht
        · cases ht
        · rw [heq]
        · exact absurd hp hp'
    · exact ⟨cs', hlook', hs', hlive', hh'.startedFor⟩

/-- A session that a callback reports is live after it, unless the callback ends it at once. -/
theorem reported_live {s : HalmasuitState} {i : Input} {id : Nat} {spawn : SpawnRequest}
    (hw : Wired s)
    (hi : i.conn = some id) {left : Option UInt32} {gate : SwapGate}
    (hm : .spawned id spawn left gate ∈ (s.step fromSlice i).2) (hno : ¬ Ends fromSlice s id i) :
    (s.step fromSlice i).1.Live id spawn.uid := by
  have hsil : silent fromSlice s i = true := by
    by_contra hsil
    exact hno (.greeter hi (by simpa using hsil))
  obtain ⟨cs', hlook', hs', hlive', hh'⟩ :=
    (s.step_conn fromSlice i id).hands_over fromSlice hsil hm
  rw [live_iff (s.wired_step fromSlice i hw)]
  exact ⟨cs', hlook', hs', hlive', hh'.startedFor⟩

/-- The other connections are as live as they were. -/
theorem live_iff_of_ne {s : HalmasuitState} (hw : Wired s) {i : Input} {id id' : Nat}
    (hi : i.conn = some id) (hne : id' ≠ id) {u : UInt32} :
    (s.step fromSlice i).1.Live id' u ↔ s.Live id' u := by
  rw [live_iff (s.wired_step fromSlice i hw), live_iff hw, s.step_conn_ne fromSlice hi hne]

/-- The state between callbacks. -/
structure Kept (s : HalmasuitState) : Prop where
  table : Wired s
  fit : AllFit s
  live : ∀ u, s.sessionUid = some u → ∃ id, s.Live id u

theorem admits_iff {s : HalmasuitState} (h : ∀ u, s.sessionUid = some u → ∃ id, s.Live id u)
    (p : UInt32) : waylandPeerAuthorized p s.greeterUid s.sessionUid = true ↔
      p = s.greeterUid ∨ (s.sessionUid = some p ∧ ∃ id, s.Live id p) := by
  unfold waylandPeerAuthorized
  rw [Bool.or_eq_true, decide_eq_true_eq, decide_eq_true_eq]
  refine or_congr_right ⟨fun hu => ⟨hu, h p hu⟩, And.left⟩

/-- **One callback.** From a state whose recorded uid is that of a live episode, the uid is tracked
after the callback if and only if the callback accounts for it. -/
theorem tracks_step_iff (s : HalmasuitState) (i : Input) (h : Kept s) :
    Tracks (s.step fromSlice i).1 (s.step fromSlice i).2 ↔ Accounted fromSlice s i := by
  constructor
  · intro ht
    constructor
    · intro spawn hm
      have hrep : s.reports fromSlice i = [spawn] := by
        rcases s.reports_single fromSlice i with hnil | ⟨spawn', heq⟩
        · rw [hnil] at hm
          cases hm
        · rw [heq] at hm
          rw [heq, List.mem_singleton.mp hm]
      obtain ⟨id, -, hev⟩ := s.spawned_of_reports fromSlice hrep
      have hu := ht.recorded id spawn _ _ hev
      rw [s.step_recorded fromSlice (show _ = some spawn by rw [hrep]; rfl)] at hu
      cases hs : s.sessionUid with
      | none => exact .inl rfl
      | some u => exact .inr (by simpa [hs] using hu)
    · intro id u hends hu
      rw [← s.step_sessionUid_unreverted fromSlice (hends.unreverted fromSlice)] at hu
      obtain ⟨id', hlive⟩ := ht.live u hu
      have hne : id' ≠ id := by
        rintro rfl
        exact hends.over fromSlice h.fit u hlive
      exact ⟨id', hne, (live_iff_of_ne fromSlice h.table (hends.conn fromSlice) hne).mp hlive⟩
  · intro ha
    have hlive : ∀ u, (s.step fromSlice i).1.sessionUid = some u →
        ∃ id, (s.step fromSlice i).1.Live id u := by
      intro u hu
      have hrev : ∀ c ∈ s.gateCall i, (s.swap.call c).1 ≠ .revert := by
        intro c hc hr
        rw [s.step_sessionUid_some fromSlice hc, if_pos hr] at hu
        cases hu
      rw [s.step_sessionUid_unreverted fromSlice hrev] at hu
      by_cases hends : ∃ id, Ends fromSlice s id i
      · obtain ⟨id, hends⟩ := hends
        obtain ⟨id', hne, hl⟩ := ha.ended id u hends hu
        exact ⟨id', (live_iff_of_ne fromSlice h.table (hends.conn fromSlice) hne).mpr hl⟩
      · have hno : ∀ id, ¬ Ends fromSlice s id i := fun id he => hends ⟨id, he⟩
        cases hs : s.sessionUid with
        | some u' =>
          obtain rfl : u' = u := by simpa [hs] using hu
          obtain ⟨id, hl⟩ := h.live u' hs
          exact ⟨id, live_step fromSlice h.table h.fit hl (hno id) hrev⟩
        | none =>
          rcases s.reports_single fromSlice i with hnil | ⟨spawn, hrep⟩
          · rw [hs, hnil] at hu
            cases hu
          · rw [hs, hrep] at hu
            cases hu
            obtain ⟨id, hi, hev⟩ := s.spawned_of_reports fromSlice hrep
            exact ⟨id, reported_live fromSlice h.table hi hev (hno id)⟩
    refine ⟨hlive, ?_, admits_iff hlive⟩
    intro id spawn left gate hm
    obtain ⟨hrep, -, -, -⟩ := s.step_spawned fromSlice hm
    rw [s.step_recorded fromSlice (show _ = some spawn by rw [hrep]; rfl)]
    rcases ha.recorded spawn (by simp [hrep]) with hs | hs <;> simp [hs]

/-- **Session identity.** Over every run of the compositor: the recorded uid is tracked after every
callback if and only if every callback accounts for it. -/
theorem tracks_run_iff (inInitramfs : Bool) (greeterUid : UInt32) (pamService : String)
    (greeter : Option UInt32) (is : List Input) :
    (∀ pre i post, is = pre ++ i :: post →
      let s := (run (step fromSlice) (start inInitramfs greeterUid pamService greeter) pre).1
      Tracks (s.step fromSlice i).1 (s.step fromSlice i).2) ↔
    Along (step fromSlice) (Accounted fromSlice)
      (start inInitramfs greeterUid pamService greeter) is := by
  have hall : Along (step fromSlice)
      (fun s i => Tracks (s.step fromSlice i).1 (s.step fromSlice i).2)
      (start inInitramfs greeterUid pamService greeter) is ↔ _ := along_iff_forall is _
  rw [← hall]
  refine along_congr Kept ?_ ?_ is _ ?_
  · exact fun s i => s.tracks_step_iff fromSlice i
  · intro s i h ht
    exact ⟨s.wired_step fromSlice i h.table, s.allFit_step fromSlice i h.fit, ht.live⟩
  · exact ⟨wired_start _ _ _ _, allFit_start _ _ _ _, by simp [start]⟩

/-- The broker closes the channel of `alice` before her session is opened: no episode is left, and
her uid stays recorded. The session of `bob`, who logs in next, is not recorded, and his client is
refused where one of `alice` is let in. -/
theorem dead_login_keeps_its_uid :
    let dead := run (step readRequest) booted (authenticate 0 "alice" 1000 ++
      [.brokerReady 0 true quietEnv (.error .closed) calm, .idle])
    let next := run (step readRequest) dead.1 (authenticate 1 "bob" 1001 ++
      [.waylandConnect 1001, .waylandConnect 1000])
    (dead.1.sessionUid = some 1000 ∧ ∀ id, ¬ dead.1.Live id 1000) ∧
    .spawned 1 ⟨"bob", 1001, 100, ["/bin/sway"], []⟩ (some 1000) .new ∈ next.2 ∧
      next.1.sessionUid = some 1000 ∧ .peer 1001 false ∈ next.2 ∧ .peer 1000 true ∈ next.2 := by
  intro dead next
  have hkeys : dead.1.connections.keys = [] := by decide +kernel
  refine ⟨⟨by decide +kernel, ?_⟩, by decide +kernel, by decide +kernel, by decide +kernel,
    by decide +kernel⟩
  rintro id ⟨cs, hlook, -⟩
  have hmem : id ∈ dead.1.connections := AList.lookup_isSome.mp (by rw [hlook]; rfl)
  rw [AList.mem_keys, hkeys] at hmem
  cases hmem

end

end HalmasuitState

end Halmasuit.Compositor
