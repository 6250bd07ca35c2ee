import Halmasuit.Compositor.Connections

/-!
# The hand-off of a connection

What becomes of a greetd connection once its episode has reported `spawned` (`halmasuit/src/main.rs`
2398–2616). The greeter's end is then meant to cost the session nothing: each I/O error site of
`handle_connection_ready` looks at `spawned`. The greetd connection is closed by then, and what it
makes of one more byte is `Demand::Close`, which ends the episode past those guards.

Headlines:
* `silent`: the greeter says nothing after the hand-off.
* `handoff_survives`: over runs in which the greeter is silent, only the broker ends the episode.
-/

namespace Halmasuit.Compositor

open Halmasuit.Greetd
open Halmasuit.SessionIpc
open Halmasuit.Lib

namespace HalmasuitState

section
variable (fromSlice : List UInt8 → Option Request)

/-! ## Surviving the greeter -/

/-- No byte is read from the greeter once the episode has reported `spawned`, not even later in the
same read loop. -/
def quietReads : ConnState → List ReadResult → Bool
  | cs, .ok env bytes :: reads =>
    if bytes = [] then true
    else
      let a := cs.episode.onGreeterBytes fromSlice env bytes
      !cs.spawned && (a.out.terminate || quietReads (cs.fed a) reads)
  | _, _ => true

/-- The greeter is silent after the hand-off, and an episode that is already over reports no
`spawned`. -/
def silent (s : HalmasuitState) : Input → Bool
  | .connectionReady id r =>
    match s.connections.lookup id with
    | some cs => !(decide (Source.greeter id ∈ s.sources) && r.readable) ||
        (quietReads fromSlice cs r.reads &&
          ((readReports fromSlice cs r.reads).isEmpty || !cs.terminate))
    | none => true
  | .brokerReady id readable env recv _ =>
    match s.connections.lookup id with
    | some cs => !(decide (Source.broker id ∈ s.sources) && readable) ||
        ((cs.episode.onBrokerReadable fromSlice env recv).out.spawned.isNone || !cs.terminate)
    | none => true
  | _ => true

/-- Silent reads of a connection that is handed over leave it as it was. -/
theorem afterReads_quiet (reads : List ReadResult) {cs : ConnState} (hs : cs.spawned = true)
    (hq : quietReads fromSlice cs reads = true) :
    (cs.afterReads fromSlice reads).spawned = true ∧
      (cs.afterReads fromSlice reads).terminate = cs.terminate ∧
      (cs.afterReads fromSlice reads).episode = cs.episode := by
  cases reads with
  | nil => exact ⟨hs, rfl, rfl⟩
  | cons r reads =>
    cases r with
    | wouldBlock => exact ⟨hs, rfl, rfl⟩
    | error => simp [ConnState.afterReads, ConnState.greeterGone, hs]
    | ok env bytes =>
      unfold quietReads at hq
      unfold ConnState.afterReads
      split
      · simp [ConnState.greeterGone, hs]
      · rename_i hne
        rw [if_neg hne] at hq
        simp [hs] at hq

/-- Silent reads that report a spawn leave a connection that is handed over and not over. -/
theorem afterReads_reports {spawn : SpawnRequest} (reads : List ReadResult) : ∀ {cs : ConnState},
    cs.terminate = false → quietReads fromSlice cs reads = true →
    spawn ∈ readReports fromSlice cs reads →
    (cs.afterReads fromSlice reads).spawned = true ∧
      (cs.afterReads fromSlice reads).terminate = false ∧
      Handed spawn.uid (cs.afterReads fromSlice reads).episode := by
  induction reads with
  | nil =>
    intro cs _ _ hm
    simp [readReports] at hm
  | cons r reads ih =>
    intro cs ht hq hm
    cases r with
    | wouldBlock => simp [readReports] at hm
    | error => simp [readReports] at hm
    | ok env bytes =>
      unfold readReports at hm
      unfold quietReads at hq
      unfold ConnState.afterReads
      split at hm
      · cases hm
      · rename_i hne
        rw [if_neg hne] at hq ⊢
        dsimp only at hm hq ⊢
        have hb := Bool.and_eq_true_iff.mp hq
        rcases List.mem_append.mp hm with hm | hm
        · have hsp : (cs.episode.onGreeterBytes fromSlice env bytes).out.spawned = some spawn := by
            simpa using hm
          have hterm := (onGreeterBytes_spawned fromSlice env hsp).2.1
          rw [hterm] at hb ⊢
          have hfed : (cs.fed (cs.episode.onGreeterBytes fromSlice env bytes)).spawned = true := by
            simp [ConnState.fed, hsp]
          obtain ⟨hs', ht', hep⟩ := afterReads_quiet fromSlice reads hfed (by simpa using hb.2)
          rw [if_neg (by simp), ht', hep]
          refine ⟨hs', by simp [ConnState.fed, ht, hterm], ?_⟩
          exact (onGreeterBytes_spawned fromSlice env hsp).1
        · cases hterm : (cs.episode.onGreeterBytes fromSlice env bytes).out.terminate with
          | true => simp [hterm] at hm
          | false =>
            rw [hterm] at hm hb
            exact ih (by simp [ConnState.fed, ht, hterm]) (by simpa using hb.2) (by simpa using hm)

/-- Writing to the greeter never ends an episode that is handed over. -/
theorem writeLoop_quiet (ws : List WriteResult) : ∀ {cs : ConnState}, cs.spawned = true →
    (writeLoop cs ws).terminate = cs.terminate := by
  induction ws with
  | nil => exact fun h => rfl
  | cons w ws ih =>
    intro cs h
    unfold writeLoop
    split
    · rfl
    · split
      · simp [ConnState.greeterGone, h]
      · exact ih h
      · rfl
      · simp [ConnState.greeterGone, h]

theorem afterReady_terminate_eq {r : StreamReady} {cs : ConnState}
    (h : (if r.readable then cs.afterReads fromSlice r.reads else cs).spawned = true) :
    (cs.afterReady fromSlice r).terminate
      = (if r.readable then cs.afterReads fromSlice r.reads else cs).terminate := by
  unfold ConnState.afterReady
  dsimp only
  split
  · exact writeLoop_quiet r.writes h
  · rfl

theorem afterReady_quiet {r : StreamReady} {cs : ConnState} (hs : cs.spawned = true)
    (hq : r.readable = true → quietReads fromSlice cs r.reads = true) :
    (cs.afterReady fromSlice r).spawned = true ∧
      (cs.afterReady fromSlice r).terminate = cs.terminate ∧
      (cs.afterReady fromSlice r).episode = cs.episode := by
  have hread : (if r.readable then cs.afterReads fromSlice r.reads else cs).spawned = true ∧
      (if r.readable then cs.afterReads fromSlice r.reads else cs).terminate = cs.terminate ∧
      (if r.readable then cs.afterReads fromSlice r.reads else cs).episode = cs.episode := by
    split
    · rename_i hr
      exact afterReads_quiet fromSlice r.reads hs (hq hr)
    · exact ⟨hs, rfl, rfl⟩
  obtain ⟨hep, hsp⟩ := afterReady_login fromSlice cs r
  rw [hep, hsp, afterReady_terminate_eq fromSlice hread.1]
  exact hread

theorem afterReady_reports {spawn : SpawnRequest} {r : StreamReady} {cs : ConnState}
    (ht : cs.terminate = false) (hr : r.readable = true)
    (hq : quietReads fromSlice cs r.reads = true) (hm : spawn ∈ readReports fromSlice cs r.reads) :
    (cs.afterReady fromSlice r).spawned = true ∧ (cs.afterReady fromSlice r).terminate = false ∧
      Handed spawn.uid (cs.afterReady fromSlice r).episode := by
  have hread := afterReads_reports fromSlice r.reads ht hq hm
  obtain ⟨hep, hsp⟩ := afterReady_login fromSlice cs r
  have hterm := afterReady_terminate_eq fromSlice (show (if r.readable then
    cs.afterReads fromSlice r.reads else cs).spawned = true by rw [if_pos hr]; exact hread.1)
  rw [hep, hsp, hterm, if_pos hr]
  exact hread

/-- The broker ended the episode: its session ended, or the channel failed or a frame was refused,
of which the episode says only that it is over. -/
def brokerEnded (id : Nat) (tr : List Event) : Prop :=
  ∃ recv out, .broker id recv out ∈ tr ∧ recv ≠ .ok none ∧
    ((∃ outcome, out =
        { EpisodeOutcome.default with sessionEnded := some outcome, terminate := true }) ∨
      out = { EpisodeOutcome.default with terminate := true })

/-- The episode of a connection goes on: it is handed over and not over, and its broker channel is
registered. -/
def goesOn (id : Nat) (s : HalmasuitState) : Prop :=
  ∃ cs, s.connections.lookup id = some cs ∧ cs.spawned = true ∧ cs.terminate = false ∧
    Source.broker id ∈ s.sources

/-- Every connection that was handed over goes on, or the broker ended it. -/
structure Survives (s : HalmasuitState) (tr : List Event) : Prop where
  table : Wired s
  survives : ∀ id spawn left gate, .spawned id spawn left gate ∈ tr →
    brokerEnded id tr ∨ ∃ cs, s.connections.lookup id = some cs ∧ cs.spawned = true ∧
      cs.terminate = false ∧ Handed spawn.uid cs.episode

theorem silent_read {s : HalmasuitState} {id : Nat} {r : StreamReady} {cs : ConnState}
    (h : silent fromSlice s (.connectionReady id r) = true)
    (hlook : s.connections.lookup id = some cs)
    (hsrc : Source.greeter id ∈ s.sources) (hr : r.readable = true) :
    quietReads fromSlice cs r.reads = true ∧
      (readReports fromSlice cs r.reads ≠ [] → cs.terminate = false) := by
  unfold silent at h
  simp only [hlook, hsrc, hr, decide_true, Bool.and_self, Bool.not_true, Bool.false_or] at h
  obtain ⟨hq, ht⟩ := Bool.and_eq_true_iff.mp h
  refine ⟨hq, fun hne => ?_⟩
  rcases Bool.or_eq_true_iff.mp ht with h' | h'
  · exact absurd (List.isEmpty_iff.mp h') hne
  · simpa using h'

theorem silent_broker {s : HalmasuitState} {id : Nat} {env : Env} {recv : Recv} {w : Answers}
    {cs : ConnState} (h : silent fromSlice s (.brokerReady id true env recv w) = true)
    (hlook : s.connections.lookup id = some cs) (hsrc : Source.broker id ∈ s.sources)
    (hne : (cs.episode.onBrokerReadable fromSlice env recv).out.spawned ≠ none) :
    cs.terminate = false := by
  unfold silent at h
  simp only [hlook, hsrc, decide_true, Bool.and_self, Bool.not_true, Bool.false_or] at h
  rcases Bool.or_eq_true_iff.mp h with h' | h'
  · exact absurd (Option.isNone_iff_eq_none.mp h') hne
  · simpa using h'

/-- What the broker can end a handed episode with. -/
theorem brokerEnded_of_handed {u : UInt32} {ep : BrokerEpisode} (h : Handed u ep)
    {id : Nat} {env : Env}
    {recv : Recv} {es : List Event}
    (hev : .broker id recv (ep.onBrokerReadable fromSlice env recv).out ∈ es)
    (hterm : (ep.onBrokerReadable fromSlice env recv).out.terminate = true) :
    brokerEnded id es := by
  refine ⟨recv, _, hev, ?_, ?_⟩
  · rintro rfl
    cases hterm
  · rcases h.over fromSlice hterm with ⟨outcome, -, hout⟩ | ⟨-, -, hout⟩
    · exact .inl ⟨outcome, hout⟩
    · exact .inr hout

/-- A connection that goes on, under a silent callback: only what the broker says ends its
episode. -/
theorem ConnMoves.goes_on {s : HalmasuitState} {id : Nat} {es : List Event} {i : Input}
    {o : Option ConnState} {cs : ConnState} {u : UInt32} (hm : ConnMoves fromSlice s id es i o)
    (hi : silent fromSlice s i = true) (ht : Wired s) (hlook : s.connections.lookup id = some cs)
    (hs : cs.spawned = true) (hlive : cs.terminate = false) (hh : Handed u cs.episode) :
    (∃ env recv w, i = .brokerReady id true env recv w ∧ Source.broker id ∈ s.sources ∧
      (cs.episode.onBrokerReadable fromSlice env recv).out.terminate = true ∧
      .broker id recv (cs.episode.onBrokerReadable fromSlice env recv).out ∈ es) ∨
    ∃ cs', o = some cs' ∧ cs'.spawned = true ∧ cs'.terminate = false ∧ Handed u cs'.episode := by
  cases hm with
  | same hsp => exact .inr ⟨cs, hlook, hs, hlive, hh⟩
  | accepted hid hes => exact absurd (ht.bounded id cs hlook) (by omega)
  | read hlook' hsrc hcs hsp =>
    obtain rfl := Option.some.inj (hlook.symm.trans hlook')
    obtain ⟨hs', ht', hep⟩ := afterReady_quiet fromSlice hs
      fun hr => (silent_read fromSlice hi hlook hsrc hr).1
    exact .inr ⟨_, rfl, hcs.spawned.trans hs', hcs.terminate.trans (ht'.trans hlive),
      Handed.agrees (hep ▸ hh) hcs⟩
  | tornDown hlook' hsrc hterm hsp =>
    obtain rfl := Option.some.inj (hlook.symm.trans hlook')
    obtain ⟨-, ht', -⟩ := afterReady_quiet fromSlice hs
      fun hr => (silent_read fromSlice hi hlook hsrc hr).1
    rw [ht', hlive] at hterm
    cases hterm
  | broker hlook' hsrc hcs hsp hev =>
    rename_i env recv w cs₀ cs'
    obtain rfl := Option.some.inj (hlook.symm.trans hlook')
    cases hterm : (cs.episode.onBrokerReadable fromSlice env recv).out.terminate with
    | true => exact .inl ⟨env, recv, w, rfl, hsrc, hterm, hev⟩
    | false =>
      refine .inr ⟨_, rfl, ?_, ?_, ?_⟩
      · rw [hcs.spawned]
        simp [ConnState.fed, hs]
      · rw [hcs.terminate]
        simp [ConnState.fed, hlive, hterm]
      · exact Handed.agrees (hh.onBrokerReadable fromSlice env recv).1 hcs
  | leader hlook' hcs hsp =>
    obtain rfl := Option.some.inj (hlook.symm.trans hlook')
    exact .inr ⟨_, rfl, hcs.spawned.trans hs, hcs.terminate.trans hlive, Handed.agrees hh hcs⟩
  | idled hid hsp =>
    have hover := (ht.idles id (List.mem_of_mem_head? hid)).2 cs hlook
    rw [hlive] at hover
    cases hover

/-- A connection that is handed over by a silent callback. -/
theorem ConnMoves.hands_over {s : HalmasuitState} {id : Nat} {es : List Event} {i : Input}
    {o : Option ConnState} (hm : ConnMoves fromSlice s id es i o) (hi : silent fromSlice s i = true)
    {spawn : SpawnRequest} {left : Option UInt32} {gate : SwapGate}
    (hsp : .spawned id spawn left gate ∈ es) :
    ∃ cs', o = some cs' ∧ cs'.spawned = true ∧ cs'.terminate = false ∧
      Handed spawn.uid cs'.episode := by
  cases hm with
  | same hno => exact absurd hsp (hno spawn left gate)
  | accepted hid hes =>
    rw [hes] at hsp
    cases hsp
  | read hlook hsrc hcs hrep =>
    obtain ⟨hr, hmem⟩ := hrep spawn left gate hsp
    obtain ⟨hq, ht⟩ := silent_read fromSlice hi hlook hsrc hr
    obtain ⟨hs', ht', hh⟩ := afterReady_reports fromSlice (ht (List.ne_nil_of_mem hmem)) hr hq hmem
    exact ⟨_, rfl, hcs.spawned.trans hs', hcs.terminate.trans ht', Handed.agrees hh hcs⟩
  | tornDown hlook hsrc hterm hrep =>
    obtain ⟨hr, hmem⟩ := hrep spawn left gate hsp
    obtain ⟨hq, ht⟩ := silent_read fromSlice hi hlook hsrc hr
    obtain ⟨-, ht', -⟩ := afterReady_reports fromSlice (ht (List.ne_nil_of_mem hmem)) hr hq hmem
    rw [ht'] at hterm
    cases hterm
  | broker hlook hsrc hcs hrep hev =>
    have hout := hrep spawn left gate hsp
    have hlive := silent_broker fromSlice hi hlook hsrc (by rw [hout]; simp)
    obtain ⟨hh, hterm, -⟩ := onBrokerReadable_spawned fromSlice _ hout
    refine ⟨_, rfl, ?_, ?_, ?_⟩
    · rw [hcs.spawned]
      simp [ConnState.fed, hout]
    · rw [hcs.terminate]
      simp [ConnState.fed, hlive, hterm]
    · exact Handed.agrees hh hcs
  | leader hlook hcs hno => exact absurd hsp (hno spawn left gate)
  | idled hid hno => exact absurd hsp (hno spawn left gate)

theorem survives_step (s : HalmasuitState) (tr : List Event) (i : Input)
    (hi : silent fromSlice s i = true) (h : Survives s tr) :
    Survives (s.step fromSlice i).1 (tr ++ (s.step fromSlice i).2) := by
  refine ⟨s.wired_step fromSlice i h.table, ?_⟩
  intro id spawn left gate hm
  have hmoves := s.step_conn fromSlice i id
  have hmono : ∀ tr', (∀ e ∈ tr', e ∈ tr ++ (s.step fromSlice i).2) → brokerEnded id tr' →
      brokerEnded id (tr ++ (s.step fromSlice i).2) := by
    rintro tr' hsub ⟨recv, out, hmem, hrest⟩
    exact ⟨recv, out, hsub _ hmem, hrest⟩
  rcases List.mem_append.mp hm with hold | hnew
  · rcases h.survives id spawn left gate hold with hended | ⟨cs, hlook, hs, hlive, hh⟩
    · exact .inl (hmono tr (fun _ => List.mem_append_left _) hended)
    · rcases hmoves.goes_on fromSlice hi h.table hlook hs hlive hh with
        ⟨env, recv, w, rfl, -, hterm, hev⟩ | hon
      · exact .inl (hmono _ (fun _ => List.mem_append_right _)
          (brokerEnded_of_handed fromSlice hh hev hterm))
      · exact .inr hon
  · exact .inr (hmoves.hands_over fromSlice hi hnew)

/-- **A session survives its greeter.** Over every run in which the greeter is silent after the
hand-off: a connection that has reported `spawned` goes on, its broker channel registered, until the
broker ends it. -/
theorem handoff_survives (inInitramfs : Bool) (greeterUid : UInt32) (pamService : String)
    (greeter : Option UInt32) (is : List Input)
    (h : Along (step fromSlice) (fun s i => silent fromSlice s i = true)
      (start inInitramfs greeterUid pamService greeter) is)
    (id : Nat) (spawn : SpawnRequest) (left : Option UInt32) (gate : SwapGate) :
    let r := run (step fromSlice) (start inInitramfs greeterUid pamService greeter) is
    .spawned id spawn left gate ∈ r.2 → brokerEnded id r.2 ∨ goesOn id r.1 := by
  intro r hm
  have hinv := run_invariant_along Survives (survives_step fromSlice) is _ [] h
    ⟨wired_start _ _ _ _, by simp⟩
  rw [List.nil_append] at hinv
  rcases hinv.survives id spawn left gate hm with hended | ⟨cs, hlook, hs, hlive, -⟩
  · exact .inl hended
  · exact .inr ⟨cs, hlook, hs, hlive, hinv.table.wired id cs hlook hlive⟩

/-- The greeter of `alice` sends `start_session` and closes its connection: the second `read` of the
loop that hands over finds its end. -/
theorem closed_greeter_survived :
    let is := [.accept ⟨990, true, true, true, true⟩, greeterSends 0 [.createSession "alice"],
      brokerSays 0 (.success "alice" 1000 100) none,
      .connectionReady 0 ⟨true, [.ok quietEnv (greeterFrames [.startSession ["/bin/sway"] []]),
        .ok quietEnv []], true, [.ok 65536]⟩]
    let r := run (step readRequest) booted is
    brokerEnded 0 r.2 ∨ goesOn 0 r.1 := by
  intro is r
  have hsilent : Along (step readRequest) (fun s i => silent readRequest s i = true) booted is := by
    decide +kernel
  have hspawned : .spawned 0 ⟨"alice", 1000, 100, ["/bin/sway"], []⟩ (some 1000) .new ∈ r.2 := by
    decide +kernel
  exact handoff_survives readRequest false 990 "halmasuit" (some 50) is hsilent 0 _ _ _ hspawned

/-- A greeter that sends `start_session` and then one more request before the compositor has read
the first: the second `read` of the same loop finds the greetd connection closed, and the session
that was just started is torn down. -/
theorem next_read_ends_session :
    let is := [.accept ⟨990, true, true, true, true⟩, greeterSends 0 [.createSession "alice"],
      brokerSays 0 (.success "alice" 1000 100) none,
      .connectionReady 0 ⟨true, [.ok quietEnv (greeterFrames [.startSession ["/bin/sway"] []]),
        .ok quietEnv (greeterFrames [.cancelSession])], true, [.ok 65536]⟩]
    let r := run (step readRequest) booted is
    .spawned 0 ⟨"alice", 1000, 100, ["/bin/sway"], []⟩ (some 1000) .new ∈ r.2 ∧ .removed 0 ∈ r.2 ∧
      ¬ brokerEnded 0 r.2 ∧ ¬ goesOn 0 r.1 := by
  intro is r
  have hquiet : ∀ e ∈ r.2, ∀ out ∈ e.brokerOut, out.terminate = false := by decide +kernel
  have hgone : r.1.connections.lookup 0 = none := by decide +kernel
  refine ⟨by decide +kernel, by decide +kernel, ?_, ?_⟩
  · rintro ⟨recv, out, hm, -, ⟨outcome, rfl⟩ | rfl⟩
    · cases hquiet _ hm _ rfl
    · cases hquiet _ hm _ rfl
  · rintro ⟨cs, hlook, -⟩
    rw [hgone] at hlook
    cases hlook

end

end HalmasuitState

end Halmasuit.Compositor
