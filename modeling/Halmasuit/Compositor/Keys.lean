import Halmasuit.Compositor.Connections

/-!
# Whose keys turn the gate

There is one swap gate (`halmasuit/src/swap_gate.rs`) and one `session_uid` for all connections. The
gate is fed from the broker source of each connection (`handle_broker_ready`,
`halmasuit/src/main.rs` 2539–2616), from the leader pidfds (2629–2704) and from the Wayland handlers
(1438–1460, 1755–1804), and none of its methods is told whose event it is; only `Revert` (1119–1160)
arms it again. The model's events say whose each call was, and `KeysMatch` what is meant: all calls
of the gate between two reverts are of one episode, which found the gate as `Revert` left it.

Headlines:
* `Single`: the invariant of one login at a time.
* `keys_match`: over runs in which logins come one by one, every call of the gate is the owner's.
-/

namespace Halmasuit.Compositor

open Halmasuit.Greetd
open Halmasuit.SessionIpc
open Halmasuit.Lib

/-! ## The calls of a trace -/

/-- The call is about the session of uid `o.2` that the connection `o.1` started. -/
def GateCall.of (o : Nat × UInt32) : GateCall → Bool
  | .sessionOpened id => decide (id = o.1)
  | .sessionFirstFrame u => decide (u = o.2)
  | .sessionEnded id => decide (id = o.1)
  | .leaderExited id => decide (id = o.1)
  | .toplevelGone u => decide (u = o.2)

/-- The connection a call is about, where it is about one. -/
def GateCall.conn : GateCall → Option Nat
  | .sessionOpened id => some id
  | .sessionEnded id => some id
  | .leaderExited id => some id
  | _ => none

/-- The sessions started since the last `Revert`. -/
def owners (tr : List Event) : List (Nat × UInt32) :=
  tr.foldl (fun os e => match e with
    | .spawned id spawn _ _ => os ++ [(id, spawn.uid)]
    | .gate _ .revert => []
    | _ => os) []

/-- The calls of the gate since the last `Revert`. -/
def calls (tr : List Event) : List GateCall :=
  tr.foldl (fun cs e => match e with
    | .gate _ .revert => []
    | .gate c _ => cs ++ [c]
    | _ => cs) []

/-- An event that goes with the ones before it: a session is started while the gate is armed and has
no key; a call of the gate is about the one session started since the last `Revert`; and what
completes the gate is the second key of that session, whose first key is among the calls. -/
def KeysMatch (pre : List Event) : Event → Prop
  | .spawned _ _ _ gate => gate = .new
  | .gate c a => ∃ o, owners pre = [o] ∧ c.of o = true ∧ (a = .swap →
      (∀ c' ∈ calls pre, c'.of o = true) ∧ .sessionOpened o.1 ∈ calls pre ++ [c] ∧
        .sessionFirstFrame o.2 ∈ calls pre ++ [c])
  | _ => True

/-- Events that neither start a session nor call the gate. -/
theorem owners_calls_quiet {es : List Event} (hsp : Scene.spawns es = [])
    (hg : Scene.gateCalls es = []) (tr : List Event) :
    owners (tr ++ es) = owners tr ∧ calls (tr ++ es) = calls tr := by
  induction es generalizing tr with
  | nil => simp
  | cons e es ih =>
    have hone : Scene.spawns [e] = [] ∧ Scene.gateCalls [e] = [] ∧ Scene.spawns es = [] ∧
        Scene.gateCalls es = [] := by
      have hs : Scene.spawns [e] ++ Scene.spawns es = [] := by rw [← Scene.spawns_append]; exact hsp
      have hc : Scene.gateCalls [e] ++ Scene.gateCalls es = [] := by
        rw [← Scene.gateCalls_append]; exact hg
      exact ⟨(List.append_eq_nil_iff.mp hs).1, (List.append_eq_nil_iff.mp hc).1,
        (List.append_eq_nil_iff.mp hs).2, (List.append_eq_nil_iff.mp hc).2⟩
    obtain ⟨hs1, hc1, hs2, hc2⟩ := hone
    have hhead : owners (tr ++ [e]) = owners tr ∧ calls (tr ++ [e]) = calls tr := by
      cases e with
      | spawned id spawn left gate => cases hs1
      | gate c a => cases hc1
      | _ => simp [owners, calls, List.foldl_append]
    have happ : tr ++ e :: es = (tr ++ [e]) ++ es := by simp
    rw [happ, (ih hs2 hc2 _).1, (ih hs2 hc2 _).2]
    exact hhead

theorem owners_gate (tr : List Event) (c : GateCall) (a : SwapAction) :
    owners (tr ++ [Event.gate c a]) = (if a = .revert then [] else owners tr) ∧
    calls (tr ++ [Event.gate c a]) = (if a = .revert then [] else calls tr ++ [c]) := by
  cases a <;> simp [owners, calls, List.foldl_append]

theorem owners_spawned (tr : List Event) (id : Nat) (spawn : SpawnRequest) (left : Option UInt32)
    (gate : SwapGate) :
    owners (tr ++ [Event.spawned id spawn left gate]) = owners tr ++ [(id, spawn.uid)] ∧
    calls (tr ++ [Event.spawned id spawn left gate]) = calls tr := by
  simp [owners, calls, List.foldl_append]

theorem keysMatch_quiet {es : List Event} (hsp : Scene.spawns es = [])
    (hg : Scene.gateCalls es = []) : ∀ e ∈ es, ∀ pre, KeysMatch pre e := by
  intro e he pre
  cases e with
  | spawned id spawn left gate =>
    have hm := HalmasuitState.mem_spawns he
    rw [hsp] at hm
    cases hm
  | gate c a =>
    have hm := Scene.mem_gateCalls.mpr he
    rw [hg] at hm
    cases hm
  | _ => trivial

theorem keysMatch_congr {tr tr' : List Event} (ho : owners tr' = owners tr)
    (hc : calls tr' = calls tr)
    {e : Event} (h : KeysMatch tr e) : KeysMatch tr' e := by
  cases e with
  | gate c a =>
    unfold KeysMatch at h ⊢
    rw [ho, hc]
    exact h
  | _ => exact h

/-- The trace after events of which one matters. -/
theorem keysMatch_around {tr pre post : List Event} {e : Event} (h : Always KeysMatch tr)
    (hsp : Scene.spawns pre = [] ∧ Scene.spawns post = [])
    (hg : Scene.gateCalls pre = [] ∧ Scene.gateCalls post = []) (he : KeysMatch tr e) :
    Always KeysMatch (tr ++ (pre ++ e :: post)) ∧
      owners (tr ++ (pre ++ e :: post)) = owners ((tr ++ pre) ++ [e]) ∧
      calls (tr ++ (pre ++ e :: post)) = calls ((tr ++ pre) ++ [e]) := by
  obtain ⟨ho, hc⟩ := owners_calls_quiet hsp.1 hg.1 tr
  have happ : tr ++ (pre ++ e :: post) = ((tr ++ pre) ++ [e]) ++ post := by simp
  rw [happ]
  refine ⟨?_, owners_calls_quiet hsp.2 hg.2 _⟩
  have hpre : Always KeysMatch (tr ++ pre) := h.append_of_forall (keysMatch_quiet hsp.1 hg.1)
  exact (hpre.snoc (keysMatch_congr ho hc he)).append_of_forall (keysMatch_quiet hsp.2 hg.2)

/-- A callback that calls the gate. -/
theorem keysMatch_gate {tr es : List Event} {c : GateCall} {a : SwapAction}
    (h : Always KeysMatch tr)
    (hg : Scene.gateCalls es = [(c, a)]) (hsp : Scene.spawns es = [])
    (he : KeysMatch tr (.gate c a)) :
    Always KeysMatch (tr ++ es) ∧ owners (tr ++ es) = (if a = .revert then [] else owners tr) ∧
      calls (tr ++ es) = (if a = .revert then [] else calls tr ++ [c]) := by
  obtain ⟨pre, post, rfl⟩ :=
    List.append_of_mem (Scene.mem_gateCalls.mp (hg ▸ List.mem_singleton_self _))
  have hsp' : Scene.spawns pre = [] ∧ Scene.spawns post = [] := by
    rw [Scene.spawns_append] at hsp
    obtain ⟨h1, h2⟩ := List.append_eq_nil_iff.mp hsp
    exact ⟨h1, h2⟩
  have hg' : Scene.gateCalls pre = [] ∧ Scene.gateCalls post = [] := by
    rw [Scene.gateCalls_append] at hg
    have hlen := congrArg List.length hg
    have hcons : Scene.gateCalls (.gate c a :: post) = (c, a) :: Scene.gateCalls post := rfl
    rw [hcons] at hlen
    simp only [List.length_append, List.length_cons, List.length_nil] at hlen
    exact ⟨List.length_eq_zero_iff.mp (by omega), List.length_eq_zero_iff.mp (by omega)⟩
  obtain ⟨hal, ho, hc⟩ := keysMatch_around h hsp' hg' he
  obtain ⟨hqo, hqc⟩ := owners_calls_quiet hsp'.1 hg'.1 tr
  rw [ho, hc, (owners_gate _ c a).1, (owners_gate _ c a).2, hqo, hqc]
  exact ⟨hal, rfl, rfl⟩

/-- A callback that reports a spawn. -/
theorem keysMatch_spawned {tr es : List Event} {id : Nat} {spawn : SpawnRequest}
    {left : Option UInt32}
    {gate : SwapGate} (h : Always KeysMatch tr) (hg : Scene.gateCalls es = [])
    (hsp : Scene.spawns es = [spawn]) (hm : .spawned id spawn left gate ∈ es)
    (hgate : gate = .new) :
    Always KeysMatch (tr ++ es) ∧ owners (tr ++ es) = owners tr ++ [(id, spawn.uid)] ∧
      calls (tr ++ es) = calls tr := by
  obtain ⟨pre, post, rfl⟩ := List.append_of_mem hm
  have hg' : Scene.gateCalls pre = [] ∧ Scene.gateCalls post = [] := by
    rw [Scene.gateCalls_append] at hg
    obtain ⟨h1, h2⟩ := List.append_eq_nil_iff.mp hg
    exact ⟨h1, h2⟩
  have hsp' : Scene.spawns pre = [] ∧ Scene.spawns post = [] := by
    rw [Scene.spawns_append] at hsp
    have hlen := congrArg List.length hsp
    have hcons :
        Scene.spawns (.spawned id spawn left gate :: post) = spawn :: Scene.spawns post := rfl
    rw [hcons] at hlen
    simp only [List.length_append, List.length_cons, List.length_nil] at hlen
    exact ⟨List.length_eq_zero_iff.mp (by omega), List.length_eq_zero_iff.mp (by omega)⟩
  obtain ⟨hal, ho, hc⟩ := keysMatch_around h hsp' hg'
    (show KeysMatch tr (.spawned id spawn left gate) from hgate)
  obtain ⟨hqo, hqc⟩ := owners_calls_quiet hsp'.1 hg'.1 tr
  rw [ho, hc, (owners_spawned _ id spawn left gate).1,
    (owners_spawned _ id spawn left gate).2, hqo, hqc]
  exact ⟨hal, rfl, rfl⟩

namespace HalmasuitState

section
variable (fromSlice : List UInt8 → Option Request)

/-! ## The relays that wait for `SessionOpened` -/

theorem afterReads_starting (reads : List ReadResult) : ∀ {cs : ConnState},
    Starting (cs.afterReads fromSlice reads).episode →
    readReports fromSlice cs reads ≠ [] ∨ Starting cs.episode := by
  induction reads with
  | nil => exact fun h => .inr h
  | cons r reads ih =>
    intro cs h
    cases r with
    | wouldBlock => exact .inr h
    | error => exact .inr h
    | ok env bytes =>
      unfold ConnState.afterReads at h
      unfold readReports
      split at h
      · exact .inr h
      · rename_i hne
        rw [if_neg hne]
        dsimp only at h ⊢
        have hfed : Starting (cs.fed (cs.episode.onGreeterBytes fromSlice env bytes)).episode →
            (cs.episode.onGreeterBytes fromSlice env bytes).out.spawned ≠ none ∨
            Starting cs.episode :=
          onGreeterBytes_starting fromSlice env
        have hrest : ∀ rest, ((cs.episode.onGreeterBytes fromSlice env bytes).out.spawned ≠ none ∨
            Starting cs.episode) →
              (cs.episode.onGreeterBytes fromSlice env bytes).out.spawned.toList
              ++ rest ≠ [] ∨ Starting cs.episode := by
          intro rest hor
          refine hor.imp_left fun hne' hnil => hne' ?_
          exact Option.toList_eq_nil_iff.mp (List.append_eq_nil_iff.mp hnil).1
        split at h
        · exact hrest _ (hfed h)
        · rename_i hterm
          rcases ih h with hrep | hst
          · left
            rw [if_neg hterm]
            intro hnil
            exact hrep (List.append_eq_nil_iff.mp hnil).2
          · exact hrest _ (hfed hst)

/-- A relay that waits for `SessionOpened` waited before, or its spawn was just reported. -/
theorem step_starting (s : HalmasuitState) {i : Input} {id : Nat} {cs' : ConnState}
    (hlook : (s.step fromSlice i).1.connections.lookup id = some cs') (h : Starting cs'.episode) :
    (s.reports fromSlice i ≠ [] ∧ i.conn = some id) ∨
      ∃ cs, s.connections.lookup id = some cs ∧ Starting cs.episode := by
  have hm := s.step_conn fromSlice i id
  rw [hlook] at hm
  generalize ho : some cs' = o at hm
  have hag : ∀ {cs : ConnState}, cs.Agrees cs' → Starting cs.episode := by
    rintro cs hag
    obtain ⟨r, hr, hp⟩ := h
    exact ⟨r, hag.relay ▸ hr, hp⟩
  cases hm with
  | same hsp => exact .inr ⟨cs', ho.symm, h⟩
  | accepted hid hes =>
    cases ho
    obtain ⟨r, hr, -⟩ := h
    cases hr
  | read hlook' hsrc hcs hsp =>
    rename_i r cs cs''
    cases ho
    have hst := hag hcs
    rw [(afterReady_login fromSlice cs r).1] at hst
    split at hst
    · rename_i hr
      rcases afterReads_starting fromSlice r.reads hst with hrep | hst'
      · refine .inl ⟨?_, rfl⟩
        simp only [reports, hlook', hsrc, hr, and_self, if_true]
        exact hrep
      · exact .inr ⟨cs, hlook', hst'⟩
    · exact .inr ⟨cs, hlook', hst⟩
  | tornDown => cases ho
  | broker hlook' hsrc hcs hsp hev =>
    rename_i env recv w cs cs''
    cases ho
    rcases onBrokerReadable_starting fromSlice env (hag hcs) with hne | ⟨hst, -⟩
    · refine .inl ⟨?_, rfl⟩
      simp only [reports, hlook', hsrc, and_self, if_true]
      exact fun hnil => hne (Option.toList_eq_nil_iff.mp hnil)
    · exact .inr ⟨cs, hlook', hst⟩
  | leader hlook' hcs hsp =>
    cases ho
    exact .inr ⟨_, hlook', hag hcs⟩
  | idled => cases ho

/-- `SessionOpened` reaches the gate from a relay that waits for it, and it does not wait after. -/
theorem opened_starting {s : HalmasuitState} {i : Input} {id : Nat}
    (hc : s.gateCall i = some (.sessionOpened id)) :
    (∃ cs, s.connections.lookup id = some cs ∧ Starting cs.episode) ∧
      ∀ cs', (s.step fromSlice i).1.connections.lookup id = some cs' → ¬ Starting cs'.episode := by
  cases i with
  | brokerReady id' readable env recv w =>
    unfold gateCall at hc
    dsimp only at hc
    split_ifs at hc with hsrc
    obtain ⟨hsrc, rfl⟩ := hsrc
    split at hc
    · rename_i hbind
      cases hc
      obtain ⟨cs, hlook, hev⟩ := Option.bind_eq_some_iff.mp hbind
      obtain ⟨r, frame, fd, r', hr, rfl, hf⟩ := event_eq_some hev
      refine ⟨⟨cs, hlook, r, hr, (onBrokerFrame_sessionOpened hf).1⟩, ?_⟩
      intro cs' hlook' hst
      simp only [step, hsrc, if_true] at hlook'
      obtain ⟨cs'', hsome, hag⟩ := s.handleBrokerReady_lookup fromSlice env _ w hlook
      obtain rfl : cs'' = cs' := Option.some.inj (hsome.symm.trans hlook')
      obtain ⟨r₂, hr₂, hp₂⟩ := hst
      rcases onBrokerReadable_starting fromSlice env ⟨r₂, hag.relay ▸ hr₂, hp₂⟩ with hne | ⟨-, hn⟩
      · rcases onBrokerReadable_out fromSlice env cs.episode (.ok (some (frame, fd))) with
          ⟨-, hout⟩ | ⟨_, hev', -⟩ | ⟨hpam, -⟩
        · rw [hout] at hne
          exact hne rfl
        · rw [hev] at hev'
          cases hev'
        · obtain ⟨_, hstep⟩ := hpam _ hev
          cases hstep
      · cases hn
    · cases hc
    · cases hc
  | leaderPidfdReady id' w =>
    unfold gateCall at hc
    dsimp only at hc
    split_ifs at hc
    cases hc
  | commit c w =>
    unfold gateCall Scene.commitCall at hc
    dsimp only at hc
    split_ifs at hc
    cases hc
  | toplevelDestroyed t live w =>
    unfold gateCall Scene.destroyedCall at hc
    dsimp only at hc
    split_ifs at hc
    cases hc
  | _ => cases hc

/-- A call that is about a Wayland client is about one of the recorded uid. -/
theorem gateCall_client {s : HalmasuitState} {i : Input} {c : GateCall} {u : UInt32}
    (hc : s.gateCall i = some c) (hu : c = .sessionFirstFrame u ∨ c = .toplevelGone u) :
    s.sessionUid = some u := by
  cases i with
  | brokerReady id readable env recv w =>
    unfold gateCall at hc
    dsimp only at hc
    split_ifs at hc
    split at hc <;> cases hc <;> rcases hu with hu | hu <;> cases hu
  | leaderPidfdReady id w =>
    unfold gateCall at hc
    dsimp only at hc
    split_ifs at hc
    cases hc
    rcases hu with hu | hu <;> cases hu
  | commit k w =>
    unfold gateCall Scene.commitCall at hc
    dsimp only at hc
    split_ifs at hc with hcl hk
    cases hc
    rcases hu with hu | hu <;> cases hu
    exact hk.2.2.1
  | toplevelDestroyed t live w =>
    unfold gateCall Scene.destroyedCall at hc
    dsimp only at hc
    split_ifs at hc with hcl hk
    cases hc
    rcases hu with hu | hu <;> cases hu
    exact hk.2.2.1
  | _ => cases hc

/-! ## One login at a time -/

/-- The gate holds the keys of `o` that are among the calls, and no other ones; once it is swapped
the first key is among them. -/
def Keyring (o : Nat × UInt32) (g : SwapGate) (cs : List GateCall) : Prop :=
  (∀ c ∈ cs, c.of o = true) ∧ match g.phase with
    | .arming opened framed => (opened = true → .sessionOpened o.1 ∈ cs) ∧
        (framed = true → .sessionFirstFrame o.2 ∈ cs)
    | .swapped => .sessionOpened o.1 ∈ cs
    | .done => False

/-- One more key. -/
theorem Keyring.key {o : Nat × UInt32} {g : SwapGate} {cs : List GateCall} (h : Keyring o g cs)
    {c : GateCall} (hc : c.isTrigger = false) (ho : c.of o = true) :
    Keyring o (g.call c).2 (cs ++ [c]) ∧ (g.call c).1 ≠ .revert ∧ ((g.call c).1 = .swap →
      .sessionOpened o.1 ∈ cs ++ [c] ∧ .sessionFirstFrame o.2 ∈ cs ++ [c]) := by
  obtain ⟨hof, hphase⟩ := h
  have hof' : ∀ c' ∈ cs ++ [c], c'.of o = true := by
    intro c' hm
    rcases List.mem_append.mp hm with hm | hm
    · exact hof c' hm
    · rw [List.mem_singleton.mp hm]
      exact ho
  have hopened : ∀ b : Bool, (b = true → .sessionOpened o.1 ∈ cs) → (b || c.isOpened) = true →
      .sessionOpened o.1 ∈ cs ++ [c] := by
    intro b hb hor
    rcases Bool.or_eq_true_iff.mp hor with hb' | hk
    · exact List.mem_append_left _ (hb hb')
    · cases c with
      | sessionOpened id =>
        obtain rfl : id = o.1 := by simpa [GateCall.of] using ho
        exact List.mem_append_right _ (List.mem_singleton_self _)
      | _ => cases hk
  have hframed : ∀ b : Bool, (b = true → .sessionFirstFrame o.2 ∈ cs) →
      (b || c.isFirstFrame) = true →
      .sessionFirstFrame o.2 ∈ cs ++ [c] := by
    intro b hb hor
    rcases Bool.or_eq_true_iff.mp hor with hb' | hk
    · exact List.mem_append_left _ (hb hb')
    · cases c with
      | sessionFirstFrame u =>
        obtain rfl : u = o.2 := by simpa [GateCall.of] using ho
        exact List.mem_append_right _ (List.mem_singleton_self _)
      | _ => cases hk
  rcases Scene.call_cases g c with ⟨-, ⟨a, f, hg, ha, hf⟩, heq⟩ | ⟨-, a, f, hg, -, heq⟩ |
    ⟨-, hg, heq⟩ | ⟨ht, -⟩ | ⟨ht, -⟩
  · rw [hg] at hphase
    have h1 := hopened a hphase.1 ha
    have h2 := hframed f hphase.2 hf
    rw [heq]
    exact ⟨⟨hof', h1⟩, by simp, fun _ => ⟨h1, h2⟩⟩
  · rw [hg] at hphase
    rw [heq]
    exact ⟨⟨hof', hopened a hphase.1, hframed f hphase.2⟩, by simp, by simp⟩
  · rw [heq]
    refine ⟨⟨hof', ?_⟩, by simp, by simp⟩
    rcases hg with hg | hg
    · rw [hg] at hphase ⊢
      exact List.mem_append_left _ hphase
    · rw [hg] at hphase
      exact hphase.elim
  · rw [hc] at ht
    cases ht
  · rw [hc] at ht
    cases ht

/-- Logins come one by one: a session is started while none is recorded, and a revert trigger comes
while the gate is swapped, from a connection whose session was started since the last `Revert`. -/
def OneByOne (p : HalmasuitState × List Event) (i : Input) : Prop :=
  (p.1.reports fromSlice i ≠ [] → p.1.sessionUid = none) ∧
  ∀ c ∈ p.1.gateCall i, c.isTrigger = true →
    p.1.swap.phase = .swapped ∧ ∀ id ∈ c.conn, id ∈ (owners p.2).map Prod.fst

instance (p : HalmasuitState × List Event) (i : Input) : Decidable (OneByOne fromSlice p i) :=
  inferInstanceAs (Decidable (_ ∧ ∀ c ∈ p.1.gateCall i, _))

/-- The state of one login at a time: where no session is recorded the gate is new and no relay
waits for `SessionOpened`; where one is, it was started by the one owner, whose keys the gate
has. -/
structure Single (s : HalmasuitState) (tr : List Event) : Prop where
  keys : Always KeysMatch tr
  idle : s.sessionUid = none → owners tr = [] ∧ calls tr = [] ∧ s.swap = .new ∧
    ∀ id cs, s.connections.lookup id = some cs → ¬ Starting cs.episode
  busy : ∀ u, s.sessionUid = some u → ∃ id, owners tr = [(id, u)] ∧
    Keyring (id, u) s.swap (calls tr) ∧ ∀ id' cs, s.connections.lookup id' = some cs →
      Starting cs.episode → id' = id ∧ .sessionOpened id ∉ calls tr

/-- The owner of a call, where logins come one by one. -/
theorem Single.owner {s : HalmasuitState} {tr : List Event} (h : Single s tr) {i : Input}
    {c : GateCall}
    (hi : OneByOne fromSlice (s, tr) i) (hc : s.gateCall i = some c) :
    ∃ id u, s.sessionUid = some u ∧ owners tr = [(id, u)] ∧ c.of (id, u) = true := by
  have htrigger := hi.2 c hc
  have hsome : ∃ u, s.sessionUid = some u := by
    cases hu : s.sessionUid with
    | some u => exact ⟨u, rfl⟩
    | none =>
      exfalso
      obtain ⟨-, -, hnew, hno⟩ := h.idle hu
      cases c with
      | sessionOpened id =>
        obtain ⟨cs, hlook, hst⟩ := (opened_starting fromSlice hc).1
        exact hno id cs hlook hst
      | sessionFirstFrame u =>
        rw [gateCall_client hc (.inl rfl)] at hu
        cases hu
      | _ =>
        have hp := (htrigger rfl).1
        rw [show (s, tr).1.swap = .new from hnew] at hp
        cases hp
  obtain ⟨u, hu⟩ := hsome
  obtain ⟨id, ho, -, hst⟩ := h.busy u hu
  refine ⟨id, u, hu, ho, ?_⟩
  have hconn : ∀ id', c.isTrigger = true → c.conn = some id' → id' = id := by
    intro id' ht hid
    have hm := (htrigger ht).2 id' hid
    rw [show owners (s, tr).2 = [(id, u)] from ho] at hm
    simpa using hm
  cases c with
  | sessionOpened id' =>
    obtain ⟨cs, hlook, hst'⟩ := (opened_starting fromSlice hc).1
    simp [GateCall.of, (hst id' cs hlook hst').1]
  | sessionFirstFrame u' =>
    have hu' := gateCall_client hc (.inl rfl)
    obtain rfl : u' = u := Option.some.inj (hu'.symm.trans hu)
    simp [GateCall.of]
  | sessionEnded id' => simp [GateCall.of, hconn id' rfl rfl]
  | leaderExited id' => simp [GateCall.of, hconn id' rfl rfl]
  | toplevelGone u' =>
    have hu' := gateCall_client hc (.inr rfl)
    obtain rfl : u' = u := Option.some.inj (hu'.symm.trans hu)
    simp [GateCall.of]

/-- A callback that calls the gate. -/
theorem Single.gate {s : HalmasuitState} {tr : List Event} (h : Single s tr) {i : Input}
    {c : GateCall}
    (hi : OneByOne fromSlice (s, tr) i) (hc : s.gateCall i = some c) :
    Single (s.step fromSlice i).1 (tr ++ (s.step fromSlice i).2) := by
  obtain ⟨id, u, hu, ho, hof⟩ := h.owner fromSlice hi hc
  obtain ⟨id', ho', hring, hst⟩ := h.busy u hu
  obtain rfl : id' = id := by
    rw [ho] at ho'
    simpa using ho'.symm
  have hrep : s.reports fromSlice i = [] := reports_of_gateCall fromSlice hc
  have hgc : Scene.gateCalls (s.step fromSlice i).2 = [(c, (s.swap.call c).1)] := by
    rw [step_gateCalls, hc]
    rfl
  have hsp : Scene.spawns (s.step fromSlice i).2 = [] := by rw [step_spawns, hrep]
  have hwas : ∀ id₁ cs', (s.step fromSlice i).1.connections.lookup id₁ = some cs' →
      Starting cs'.episode → id₁ = id' ∧ .sessionOpened id' ∉ calls tr := by
    intro id₁ cs' hlook hst'
    rcases s.step_starting fromSlice hlook hst' with ⟨hne, -⟩ | ⟨cs, hlook', hst''⟩
    · exact absurd hrep hne
    · exact hst id₁ cs hlook' hst''
  cases ht : c.isTrigger with
  | true =>
    have hp : s.swap.phase = .swapped := (hi.2 c hc ht).1
    have hrev : (s.swap.call c).1 = .revert := by
      rcases Scene.call_cases s.swap c with ⟨h', -⟩ | ⟨h', -⟩ | ⟨h', -⟩ | ⟨-, -, heq⟩ | ⟨-, hne, -⟩
      · simp [ht] at h'
      · simp [ht] at h'
      · simp [ht] at h'
      · rw [heq]
      · exact absurd hp hne
    have hkey : KeysMatch tr (.gate c (s.swap.call c).1) := ⟨(id', u), ho, hof, by simp [hrev]⟩
    obtain ⟨hal, howners, hcalls⟩ := keysMatch_gate h.keys hgc hsp hkey
    have hnone : (s.step fromSlice i).1.sessionUid = none := by
      rw [s.step_sessionUid_some fromSlice hc, if_pos hrev]
    have hopened : .sessionOpened id' ∈ calls tr := by
      have hphase := hring.2
      rw [hp] at hphase
      exact hphase
    refine ⟨hal, fun _ => ⟨?_, ?_, ?_, ?_⟩, fun u' hu' => ?_⟩
    · rw [howners, if_pos hrev]
    · rw [hcalls, if_pos hrev]
    · rw [s.step_swap fromSlice i, hc]
      simp [hrev]
    · intro id₁ cs' hlook hst'
      exact (hwas id₁ cs' hlook hst').2 hopened
    · rw [hnone] at hu'
      cases hu'
  | false =>
    obtain ⟨hring', hnrev, hswap⟩ := hring.key ht hof
    have hkey : KeysMatch tr (.gate c (s.swap.call c).1) :=
      ⟨(id', u), ho, hof, fun ha => ⟨hring.1, hswap ha⟩⟩
    obtain ⟨hal, howners, hcalls⟩ := keysMatch_gate h.keys hgc hsp hkey
    rw [if_neg hnrev] at howners hcalls
    have hsame : (s.step fromSlice i).1.sessionUid = some u := by
      rw [s.step_sessionUid_some fromSlice hc, if_neg hnrev, hu]
    refine ⟨hal, fun hnone => ?_, fun u' hu' => ?_⟩
    · rw [hsame] at hnone
      cases hnone
    · obtain rfl : u = u' := Option.some.inj (hsame.symm.trans hu')
      refine ⟨id', howners.trans ho, ?_, ?_⟩
      · rw [hcalls, s.step_swap fromSlice i, hc]
        simp only [if_neg hnrev]
        exact hring'
      · intro id₁ cs' hlook hst'
        obtain ⟨rfl, hno⟩ := hwas id₁ cs' hlook hst'
        refine ⟨rfl, ?_⟩
        rw [hcalls]
        intro hm
        rcases List.mem_append.mp hm with hm | hm
        · exact hno hm
        · rw [← List.mem_singleton.mp hm] at hc
          exact (opened_starting fromSlice hc).2 cs' hlook hst'

/-- **One callback of one login at a time.** -/
theorem single_step (s : HalmasuitState) (tr : List Event) (i : Input)
    (hi : OneByOne fromSlice (s, tr) i) (h : Single s tr) :
    Single (s.step fromSlice i).1 (tr ++ (s.step fromSlice i).2) := by
  cases hc : s.gateCall i with
  | some c => exact h.gate fromSlice hi hc
  | none =>
    have hgc : Scene.gateCalls (s.step fromSlice i).2 = [] := by
      rw [step_gateCalls, hc]
      rfl
    have hswap : (s.step fromSlice i).1.swap = s.swap := by rw [s.step_swap fromSlice i, hc]
    have hu := s.step_sessionUid_unreverted fromSlice (show ∀ c ∈ s.gateCall i, _ by simp [hc])
    rcases s.reports_single fromSlice i with hrep | ⟨spawn, hrep⟩
    · have hsp : Scene.spawns (s.step fromSlice i).2 = [] := by rw [step_spawns, hrep]
      obtain ⟨ho, hcalls⟩ := owners_calls_quiet hsp hgc tr
      have hsame : (s.step fromSlice i).1.sessionUid = s.sessionUid := by simpa [hrep] using hu
      have hwas : ∀ id cs', (s.step fromSlice i).1.connections.lookup id = some cs' →
          Starting cs'.episode → ∃ cs, s.connections.lookup id = some cs ∧ Starting cs.episode := by
        intro id cs' hlook hst
        rcases s.step_starting fromSlice hlook hst with ⟨hne, -⟩ | hold
        · exact absurd hrep hne
        · exact hold
      refine ⟨h.keys.append_of_forall (keysMatch_quiet hsp hgc), ?_, ?_⟩
      · rw [hsame, ho, hcalls, hswap]
        intro hn
        obtain ⟨h1, h2, h3, h4⟩ := h.idle hn
        refine ⟨h1, h2, h3, fun id cs' hlook hst => ?_⟩
        obtain ⟨cs, hlook', hst'⟩ := hwas id cs' hlook hst
        exact h4 id cs hlook' hst'
      · rw [hsame, ho, hcalls, hswap]
        intro u hs
        obtain ⟨id, h1, h2, h3⟩ := h.busy u hs
        refine ⟨id, h1, h2, fun id' cs' hlook hst => ?_⟩
        obtain ⟨cs, hlook', hst'⟩ := hwas id' cs' hlook hst
        exact h3 id' cs hlook' hst'
    · have hnone : s.sessionUid = none := hi.1 (by rw [hrep]; simp)
      obtain ⟨ho, hcalls, hnew, hno⟩ := h.idle hnone
      obtain ⟨id, hid, hev⟩ := s.spawned_of_reports fromSlice hrep
      have hsp : Scene.spawns (s.step fromSlice i).2 = [spawn] := by rw [step_spawns, hrep]
      obtain ⟨hal, ho', hcalls'⟩ := keysMatch_spawned h.keys hgc hsp hev hnew
      rw [ho, List.nil_append] at ho'
      rw [hcalls] at hcalls'
      have hsome : (s.step fromSlice i).1.sessionUid = some spawn.uid := by
        rw [hu, hnone, hrep]
        rfl
      refine ⟨hal, fun hn => ?_, fun u hs => ?_⟩
      · rw [hsome] at hn
        cases hn
      · obtain rfl : spawn.uid = u := Option.some.inj (hsome.symm.trans hs)
        rw [ho', hcalls', hswap, hnew]
        refine ⟨id, rfl, ⟨by simp, by simp [SwapGate.new]⟩, fun id' cs' hlook hst => ⟨?_, by simp⟩⟩
        rcases s.step_starting fromSlice hlook hst with ⟨-, hid'⟩ | ⟨cs, hlook', hst'⟩
        · exact Option.some.inj (hid'.symm.trans hid)
        · exact absurd hst' (hno id' cs hlook')

/-- **Swap keys belong together.** Over every run in which logins come one by one, whatever the
number of connections: every session finds the gate new, every call of the gate is about the one
session started since the last `Revert`, and both keys of a `Swap` are. -/
theorem keys_match (inInitramfs : Bool) (greeterUid : UInt32) (pamService : String)
    (greeter : Option UInt32) (is : List Input)
    (h : Along (recording (step fromSlice)) (OneByOne fromSlice)
      (start inInitramfs greeterUid pamService greeter, []) is) :
    Always KeysMatch
      (run (step fromSlice) (start inInitramfs greeterUid pamService greeter) is).2 := by
  have hinv := run_invariant_recording Single (single_step fromSlice) is _ [] h
    ⟨always_nil _, fun _ => ⟨rfl, rfl, rfl, by simp [start]⟩, by simp [start]⟩
  rw [List.nil_append] at hinv
  exact hinv.keys

/-- `alice` logs in and out, then `bob` logs in. -/
theorem logins_in_turn_match :
    let is := login 0 "alice" 1000 ++ [brokerSays 0 (.sessionEnded (.exited 0)) none, .idle] ++
      login 1 "bob" 1001
    let tr := (run (step readRequest) booted is).2
    .gate (.sessionFirstFrame 1000) .swap ∈ tr ∧ .gate (.sessionEnded 0) .revert ∈ tr ∧
      .spawned 1 ⟨"bob", 1001, 100, ["/bin/sway"], []⟩ (some 1001) .new ∈ tr ∧
      Always KeysMatch tr := by
  intro is tr
  have hone : Along (recording (step readRequest)) (OneByOne readRequest) (booted, []) is := by
    decide +kernel
  exact ⟨by decide +kernel, by decide +kernel, by decide +kernel,
    keys_match readRequest false 990 "halmasuit" (some 50) is hone⟩

/-- Two logins that do not come one by one. `alice` and `bob` both start a session; the
`SessionOpened` of `bob` and the first frame of `alice` complete the gate, though her session was
never opened. And where the broker closes the channel of `alice` after `SessionOpened`, `bob` finds
her key in the gate. -/
theorem mixed_keys_swap :
    let both := (run (step readRequest) booted (authenticate 0 "alice" 1000 ++
      authenticate 1 "bob" 1001 ++ [brokerSays 1 .sessionOpened (some 7), .waylandConnect 1000,
        .newToplevel ⟨0, 1000⟩, .commit (paint ⟨0, 1000⟩) calm])).2
    let late := (run (step readRequest) booted (authenticate 0 "alice" 1000 ++
      [brokerSays 0 .sessionOpened (some 7),
        .brokerReady 0 true quietEnv (.error .closed) calm, .idle] ++
      authenticate 1 "bob" 1001)).2
    (.gate (.sessionOpened 1) .none ∈ both ∧ .gate (.sessionFirstFrame 1000) .swap ∈ both ∧
      (∀ a, .gate (.sessionOpened 0) a ∉ both) ∧
      .spawned 1 ⟨"bob", 1001, 100, ["/bin/sway"], []⟩ (some 1000) .new ∈ both) ∧
    .spawned 1 ⟨"bob", 1001, 100, ["/bin/sway"], []⟩ (some 1000) ⟨.arming true false⟩ ∈ late := by
  intro both late
  refine ⟨⟨by decide +kernel, by decide +kernel, ?_, by decide +kernel⟩, by decide +kernel⟩
  intro a
  cases a <;> decide +kernel

end

end HalmasuitState

end Halmasuit.Compositor
