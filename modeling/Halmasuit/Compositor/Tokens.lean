import Halmasuit.Compositor.Keys

/-!
# The sources of the connections

A greetd connection has up to three calloop sources: the greeter's stream, which its source owns,
and the broker channel and the leader's pidfd, which the `ConnState` owns and the sources only
borrow (`BorrowedBrokerFd`, `BorrowedLeaderPidfd`, `halmasuit/src/main.rs` 2159–2240). A borrowed
source has to be gone before the `ConnState` is. Five callbacks register and remove them
(2257–2704): `inserts` and `removes` are what each call of `insert_source`, `loop_handle.remove` and
`PostAction::Remove` amounts to, and `leaves` the `ConnState` a callback writes.

A source is registered once in a run (`Sound.once`), so that it stands for its token.

Headlines:
* `step_lookup`, `mem_step_sources`, `step_idles`: the table, the sources and the idle callbacks
  after a callback.
* `tokens_sound`: over every run, at most four connections, no borrowed source without its
  `ConnState`, no token removed twice.
-/

namespace Halmasuit.Compositor

open Halmasuit.Greetd (Request SpawnRequest readRequest)
open Halmasuit.SessionIpc
open Halmasuit.Lib

/-- The connection a source is of. -/
def Source.conn : Source → Option Nat
  | .greeter id => some id
  | .broker id => some id
  | .leader id => some id
  | .pivotPoll => none

namespace ConnState

/-- `episode_over` of `handle_connection_ready`. -/
def episodeOver (cs : ConnState) : Bool := cs.terminate && cs.writeBuf.isEmpty

/-- `detach_greeter_only` of `handle_connection_ready`. -/
def detaches (cs : ConnState) : Bool :=
  !cs.terminate && cs.spawned && cs.greeterToken && cs.writeBuf.isEmpty

/-- The connection after `arm_leader_pidfd_backstop`. -/
def armed (cs : ConnState) (ok : Bool) : ConnState :=
  match cs.episode.leaderPidfd with
  | none => cs
  | some fd =>
    let cs := { cs with episode := { cs.episode with leaderPidfd := none } }
    if ok then { cs with leaderPidfd := some fd, leaderPidfdToken := true }
    else { cs with leaderPidfd := none }

/-- The connection after `handle_broker_ready`. -/
def afterBroker (fromSlice : List UInt8 → Option Request) (cs : ConnState) (readable : Bool)
    (env : Env) (recv : Recv) (w : Answers) : ConnState :=
  if readable then
    let a := cs.episode.onBrokerReadable fromSlice env recv
    if a.out.sessionOpened then (cs.fed a).armed w.armPidfd else cs.fed a
  else cs

end ConnState

namespace HalmasuitState

section
variable (fromSlice : List UInt8 → Option Request)

/-- `handle_listener_ready` gets to the registrations. -/
def admits (s : HalmasuitState) (a : Accept) : Bool :=
  decide (a.uid = s.greeterUid) && decide (s.connections.keys.length < maxGreetdConnections) &&
    a.setNonblocking && a.connectBroker

/-- What `arm_leader_pidfd_backstop` registers. -/
def armInserts (id : Nat) (cs : ConnState) (ok : Bool) : List (Source × Option Fd) :=
  match cs.episode.leaderPidfd with
  | none => []
  | some fd => if ok then [(.leader id, some fd)] else []

/-- The sources a callback registers; with the leader's, the descriptor it borrows. -/
def inserts (s : HalmasuitState) : Input → List (Source × Option Fd)
  | .accept a =>
    if s.admits a && a.insertGreeter then
      if a.insertBroker then [(.greeter s.nextConnId, none), (.broker s.nextConnId, none)]
      else [(.greeter s.nextConnId, none)]
    else []
  | .brokerReady id readable env recv w =>
    match s.connections.lookup id with
    | none => []
    | some cs =>
      let a := cs.episode.onBrokerReadable fromSlice env recv
      if Source.broker id ∈ s.sources ∧ readable = true ∧ a.out.sessionOpened = true then
        armInserts id (cs.fed a) w.armPidfd
      else []
  | _ => []

/-- The sources a callback removes, in order. -/
def removes (s : HalmasuitState) : Input → List Source
  | .accept a =>
    if s.admits a && a.insertGreeter && !a.insertBroker then [.greeter s.nextConnId] else []
  | .connectionReady id r =>
    if Source.greeter id ∈ s.sources then
      match s.connections.lookup id with
      | none => [.greeter id]
      | some cs =>
        let cs := cs.afterReady fromSlice r
        if cs.episodeOver then
          (if cs.brokerToken then [.broker id] else []) ++
            (if cs.leaderPidfdToken then [.leader id] else []) ++ [.greeter id]
        else if cs.detaches then [.greeter id]
        else []
    else []
  | .brokerReady id readable env recv w =>
    if Source.broker id ∈ s.sources then
      match s.connections.lookup id with
      | none => [.broker id]
      | some cs =>
        if (cs.afterBroker fromSlice readable env recv w).terminate && !cs.greeterToken then
          [.broker id]
        else []
    else []
  | .leaderPidfdReady id _ => if Source.leader id ∈ s.sources then [.leader id] else []
  | .idle =>
    match s.idles with
    | [] => []
    | id :: _ =>
      match s.connections.lookup id with
      | some cs => if cs.leaderPidfdToken then [.leader id] else []
      | none => []
  | .postPivotSetup _ _ _ => if Source.pivotPoll ∈ s.sources then [.pivotPoll] else []
  | _ => []

/-- The connection a callback writes, and what is there after it. -/
def leaves (s : HalmasuitState) : Input → Option (Nat × Option ConnState)
  | .accept a =>
    if s.admits a && a.insertGreeter && a.insertBroker then
      some (s.nextConnId, some (.new s.pamService))
    else none
  | .connectionReady id r =>
    if Source.greeter id ∈ s.sources then
      (s.connections.lookup id).map fun cs =>
        let cs := cs.afterReady fromSlice r
        (id, if cs.episodeOver then none
          else if cs.detaches then some { cs with greeterToken := false }
          else some cs)
    else none
  | .brokerReady id readable env recv w =>
    if Source.broker id ∈ s.sources then
      (s.connections.lookup id).map fun cs =>
        (id, some (cs.afterBroker fromSlice readable env recv w))
    else none
  | .leaderPidfdReady id _ =>
    if Source.leader id ∈ s.sources then
      (s.connections.lookup id).map fun cs => (id, some { cs with leaderPidfdToken := false })
    else none
  | .idle => s.idles.head?.map fun id => (id, none)
  | _ => none

/-! ## The table after a callback -/

theorem greeterEnd_connections (s : HalmasuitState) (id id' : Nat) (cs : ConnState) :
    (greeterEnd s id cs).1.connections.lookup id'
      = if id' = id then (if cs.episodeOver then none
          else if cs.detaches then some { cs with greeterToken := false } else some cs)
        else s.connections.lookup id' := by
  by_cases hid : id' = id
  · subst hid
    rw [if_pos rfl]
    unfold greeterEnd ConnState.episodeOver ConnState.detaches
    split_ifs
    · exact AList.lookup_erase _ _
    · exact AList.lookup_erase _ _
    · exact AList.lookup_erase _ _
    · exact AList.lookup_erase _ _
    · exact AList.lookup_insert _
    · exact AList.lookup_insert _
  · rw [if_neg hid]
    exact greeterEnd_lookup_ne s cs hid

theorem armLeaderPidfdBackstop_table (s : HalmasuitState) {id : Nat} (ok : Bool) {cs : ConnState}
    (h : s.connections.lookup id = some cs) :
    (s.armLeaderPidfdBackstop id ok).connections.lookup id = some (cs.armed ok) ∧
      (s.armLeaderPidfdBackstop id ok).sources = (armInserts id cs ok).map Prod.fst ++
      s.sources := by
  unfold armLeaderPidfdBackstop ConnState.armed armInserts
  rw [h]
  cases hfd : cs.episode.leaderPidfd with
  | none =>
    simp only [hfd]
    exact ⟨h, rfl⟩
  | some fd =>
    simp only [hfd]
    cases ok with
    | false => exact ⟨AList.lookup_insert _, rfl⟩
    | true => exact ⟨AList.lookup_insert _, rfl⟩

theorem feedOutcome_table (s : HalmasuitState) {id : Nat} (out : EpisodeOutcome) (w : Answers)
    {cs : ConnState} (h : s.connections.lookup id = some cs) :
    (s.feedOutcome id out w).1.connections.lookup id
      = some (if out.sessionOpened then cs.armed w.armPidfd else cs) ∧
    (s.feedOutcome id out w).1.sources
      = (if out.sessionOpened then (armInserts id cs w.armPidfd).map Prod.fst else []) ++
        s.sources := by
  have harm := armLeaderPidfdBackstop_table (s.feedGate (.sessionOpened id) w).1 w.armPidfd h
  unfold feedOutcome
  cases hopened : out.sessionOpened with
  | false =>
    cases out.sessionEnded with
    | none => exact ⟨h, rfl⟩
    | some _ => exact ⟨h, rfl⟩
  | true =>
    cases out.sessionEnded with
    | none => exact harm
    | some _ => exact harm

theorem mem_unregister_iff {s : HalmasuitState} {src src' : Source} :
    src' ∈ (s.unregister src).sources ↔ src' ∈ s.sources ∧ src' ≠ src := by
  unfold unregister
  rw [List.mem_filter]
  simp

theorem mem_brokerEnd_sources (s : HalmasuitState) (id : Nat) (terminate greeterAttached : Bool)
    (src : Source) : src ∈ (s.brokerEnd id terminate greeterAttached).sources ↔ src ∈ s.sources ∧
      src ∉ if terminate && !greeterAttached then [Source.broker id] else [] := by
  unfold brokerEnd
  split
  · rw [List.mem_singleton]
    exact mem_unregister_iff
  · simp

theorem brokerEnd_idles (s : HalmasuitState) (id : Nat) (terminate greeterAttached : Bool) :
    (s.brokerEnd id terminate greeterAttached).idles = s.idles ++
      (if terminate && !greeterAttached then [Source.broker id] else []).map fun _ => id := by
  unfold brokerEnd
  split
  · rfl
  · simp

@[simp] theorem armed_flags (cs : ConnState) (ok : Bool) :
    (cs.armed ok).terminate = cs.terminate ∧ (cs.armed ok).greeterToken = cs.greeterToken ∧
      (cs.armed ok).brokerToken = cs.brokerToken ∧ (cs.armed ok).spawned = cs.spawned := by
  unfold ConnState.armed
  split
  · exact ⟨rfl, rfl, rfl, rfl⟩
  · dsimp only
    split <;> exact ⟨rfl, rfl, rfl, rfl⟩

theorem afterBroker_terminate (cs : ConnState) (env : Env) (recv : Recv) (w : Answers) :
    (cs.afterBroker fromSlice true env recv w).terminate
      = (cs.fed (cs.episode.onBrokerReadable fromSlice env recv)).terminate := by
  unfold ConnState.afterBroker
  rw [if_pos rfl]
  dsimp only
  split
  · exact (armed_flags _ _).1
  · rfl

/-- The table and the sources after `handle_broker_ready`. -/
theorem handleBrokerReady_table (s : HalmasuitState) {id : Nat} (readable : Bool) (env : Env)
    (recv : Recv) (w : Answers) {cs : ConnState} (h : s.connections.lookup id = some cs)
    (hsrc : Source.broker id ∈ s.sources) :
    (s.handleBrokerReady fromSlice id readable env recv w).1.connections.lookup id
      = some (cs.afterBroker fromSlice readable env recv w) ∧
    (∀ src, src ∈ (s.handleBrokerReady fromSlice id readable env recv w).1.sources ↔
      (src ∈ (s.inserts fromSlice (.brokerReady id readable env recv w)).map Prod.fst ∨
        src ∈ s.sources) ∧ src ∉ s.removes fromSlice (.brokerReady id readable env recv w)) ∧
    (s.handleBrokerReady fromSlice id readable env recv w).1.idles
      = s.idles ++ (s.removes fromSlice (.brokerReady id readable env recv w)).map fun _ => id := by
  cases readable with
  | false =>
    have hafter : cs.afterBroker fromSlice false env recv w = cs := rfl
    unfold handleBrokerReady inserts removes
    simp only [h, hsrc, hafter, if_true, Bool.false_eq_true, if_false, false_and, and_false]
    rw [brokerEnd_connections]
    refine ⟨h, fun src => ?_, brokerEnd_idles _ _ _ _⟩
    simpa using mem_brokerEnd_sources s id cs.terminate cs.greeterToken src
  | true =>
    have htable := feedOutcome_table ({ s with toScene := (recorded s.toScene id
      (cs.episode.onBrokerReadable fromSlice env recv).out.spawned).1 }.setConn id
      (cs.fed (cs.episode.onBrokerReadable fromSlice env recv)))
      (cs.episode.onBrokerReadable fromSlice env recv).out w (AList.lookup_insert _)
    have hrest := feedOutcome_rest ({ s with toScene := (recorded s.toScene id
      (cs.episode.onBrokerReadable fromSlice env recv).out.spawned).1 }.setConn id
      (cs.fed (cs.episode.onBrokerReadable fromSlice env recv))) id
      (cs.episode.onBrokerReadable fromSlice env recv).out w
    unfold handleBrokerReady inserts removes
    simp only [h, hsrc, if_true, true_and]
    rw [brokerEnd_connections, afterBroker_terminate]
    refine ⟨?_, fun src => ?_, ?_⟩
    · rw [htable.1]
      unfold ConnState.afterBroker
      simp only [if_true]
    · rw [mem_brokerEnd_sources, htable.2]
      refine and_congr_left fun _ => ?_
      rw [List.mem_append]
      split <;> rfl
    · rw [brokerEnd_idles, hrest.2.1]
      rfl

theorem mem_greeterEnd_sources (s : HalmasuitState) (id : Nat) (cs : ConnState) (src : Source) :
    src ∈ (greeterEnd s id cs).1.sources ↔ src ∈ s.sources ∧
      src ∉ if cs.episodeOver then (if cs.brokerToken then [Source.broker id] else []) ++
          (if cs.leaderPidfdToken then [Source.leader id] else []) ++ [Source.greeter id]
        else if cs.detaches then [Source.greeter id] else [] := by
  unfold greeterEnd ConnState.episodeOver ConnState.detaches
  split
  · dsimp only
    rw [mem_unregister_iff]
    cases cs.brokerToken <;> cases cs.leaderPidfdToken <;>
      simp [mem_unregister_iff, and_assoc]
  · split
    · rw [List.mem_singleton]
      exact mem_unregister_iff
    · simp [setConn]

theorem handleBrokerReady_lookup_ne (s : HalmasuitState) {id id' : Nat}
    (readable : Bool) (env : Env)
    (recv : Recv) (w : Answers) (hid : id' ≠ id) :
    (s.handleBrokerReady fromSlice id readable env recv w).1.connections.lookup id'
      = s.connections.lookup id' := by
  unfold handleBrokerReady
  split
  · rfl
  · split
    · rw [brokerEnd_connections, feedOutcome_lookup_ne _ _ _ hid, setConn_lookup_ne _ _ hid]
    · rw [brokerEnd_connections]

/-- Every way `handle_listener_ready` can take one greeter. -/
theorem accept_cases (s : HalmasuitState) (a : Accept) :
    ((s.admits a && a.insertGreeter) = false ∧
      ∃ next, s.nextConnId ≤ next ∧ s.accept a = { s with nextConnId := next }) ∨
    ((s.admits a && a.insertGreeter) = true ∧ a.insertBroker = false ∧
      s.accept a = { s with nextConnId := s.nextConnId + 1 }) ∨
    ((s.admits a && a.insertGreeter) = true ∧ a.insertBroker = true ∧
      s.accept a = { s with
        nextConnId := s.nextConnId + 1
        connections := s.connections.insert s.nextConnId (.new s.pamService)
        sources := .greeter s.nextConnId :: .broker s.nextConnId :: s.sources }) := by
  unfold accept admits
  by_cases huid : a.uid = s.greeterUid
  · by_cases hcap : s.connections.keys.length < maxGreetdConnections
    · have hcap' : ¬ maxGreetdConnections ≤ s.connections.keys.length := Nat.not_le.mpr hcap
      cases hnb : a.setNonblocking with
      | false => exact .inl ⟨by simp, _, le_rfl, by simp [huid, hcap']⟩
      | true =>
        cases hc : a.connectBroker with
        | false => exact .inl ⟨by simp, _, Nat.le_succ _, by simp [huid, hcap']⟩
        | true =>
          cases hg : a.insertGreeter with
          | false => exact .inl ⟨by simp, _, Nat.le_succ _, by simp [huid, hcap']⟩
          | true =>
            cases hb : a.insertBroker with
            | false => exact .inr (.inl ⟨by simp [huid, hcap], rfl, by simp [huid, hcap']⟩)
            | true => exact .inr (.inr ⟨by simp [huid, hcap], rfl, by simp [huid, hcap']⟩)
    · exact .inl ⟨by simp [hcap], _, le_rfl, by simp [huid, Nat.not_lt.mp hcap]⟩
  · exact .inl ⟨by simp [huid], _, le_rfl, by simp [huid]⟩

theorem lookup_insert_eq {β : Type} (m : AList fun _ : Nat => β) (id id' : Nat) (v : β) :
    (m.insert id v).lookup id' = if id' = id then some v else m.lookup id' := by
  by_cases hid : id' = id
  · subst hid
    rw [if_pos rfl]
    exact AList.lookup_insert _
  · rw [if_neg hid]
    exact AList.lookup_insert_ne hid

theorem lookup_erase_eq {β : Type} (m : AList fun _ : Nat => β) (id id' : Nat) :
    (m.erase id).lookup id' = if id' = id then none else m.lookup id' := by
  by_cases hid : id' = id
  · subst hid
    rw [if_pos rfl]
    exact AList.lookup_erase _ _
  · rw [if_neg hid]
    exact AList.lookup_erase_ne hid

/-- **The table after a callback.** -/
theorem step_lookup (s : HalmasuitState) (i : Input) (id' : Nat) :
    (s.step fromSlice i).1.connections.lookup id' = match s.leaves fromSlice i with
      | some (id, o) => if id' = id then o else s.connections.lookup id'
      | none => s.connections.lookup id' := by
  cases i with
  | accept a =>
    rcases s.accept_cases a with ⟨had, next, -, heq⟩ | ⟨had, hok, heq⟩ | ⟨had, hok, heq⟩
    · simp [step, leaves, had, heq]
    · simp [step, leaves, hok, heq]
    · simp only [step, leaves, had, hok, heq, Bool.and_self, if_true]
      exact lookup_insert_eq _ _ _ _
  | connectionReady id r =>
    by_cases hsrc : Source.greeter id ∈ s.sources
    · cases h : s.connections.lookup id with
      | none => simp [step, hsrc, handleConnectionReady, leaves, h, unregister]
      | some cs =>
        obtain ⟨sc, heq⟩ := s.handleConnectionReady_eq fromSlice r h
        simp only [step, hsrc, if_true, leaves, h, Option.map_some]
        rw [heq, greeterEnd_connections]
    · simp [step, hsrc, leaves]
  | brokerReady id readable env recv w =>
    by_cases hsrc : Source.broker id ∈ s.sources
    · cases h : s.connections.lookup id with
      | none => simp [step, hsrc, handleBrokerReady, leaves, h, unregister]
      | some cs =>
        simp only [step, hsrc, if_true, leaves, h, Option.map_some]
        by_cases hid : id' = id
        · subst hid
          rw [if_pos rfl]
          exact (s.handleBrokerReady_table fromSlice readable env recv w h hsrc).1
        · rw [if_neg hid]
          exact s.handleBrokerReady_lookup_ne fromSlice readable env recv w hid
    · simp [step, hsrc, leaves]
  | leaderPidfdReady id w =>
    by_cases hsrc : Source.leader id ∈ s.sources
    · cases h : s.connections.lookup id with
      | none =>
        simp only [step, hsrc, if_true, handleLeaderPidfdReady, h, leaves, Option.map_none]
        rfl
      | some cs =>
        simp only [step, hsrc, if_true, handleLeaderPidfdReady, h, leaves, Option.map_some]
        exact lookup_insert_eq _ _ _ _
    · simp [step, hsrc, leaves]
  | idle =>
    unfold step idle leaves
    cases s.idles with
    | nil => rfl
    | cons id rest =>
      simp only [List.head?_cons, Option.map_some]
      exact lookup_erase_eq _ _ _
  | waylandConnect uid =>
    unfold step waylandConnect
    dsimp only
    split_ifs <;> rfl
  | postPivotSetup listener spawned dropped =>
    unfold step postPivotSetup
    dsimp only
    split_ifs
    · cases listener <;> rfl
    · rfl
  | prepareForShutdown arming w => rfl
  | stopSignal w => rfl
  | childReaped pid => rfl
  | _ =>
    unfold step
    dsimp only
    split_ifs <;> rfl

/-- A connection that is there after a callback was there as it is, or is what the callback left. -/
theorem step_leaves {s : HalmasuitState} {i : Input} {id : Nat} {cs' : ConnState}
    (h : (s.step fromSlice i).1.connections.lookup id = some cs') :
    s.connections.lookup id = some cs' ∨ s.leaves fromSlice i = some (id, some cs') := by
  rw [step_lookup] at h
  split at h
  · rename_i id' o hleaves
    split_ifs at h with hid
    · subst hid h
      exact .inr hleaves
    · exact .inl h
  · exact .inl h

/-- The sources of the table are of connections that were accepted. -/
def Known (s : HalmasuitState) : Prop := ∀ src ∈ s.sources, ∀ id ∈ src.conn, id < s.nextConnId

theorem mem_accept_sources (s : HalmasuitState) (a : Accept) (hknown : s.Known) (src : Source) :
    src ∈ (s.step fromSlice (.accept a)).1.sources ↔
      (src ∈ (s.inserts fromSlice (.accept a)).map Prod.fst ∨ src ∈ s.sources) ∧
        src ∉ s.removes fromSlice (.accept a) := by
  rcases s.accept_cases a with ⟨had, next, -, heq⟩ | ⟨had, hok, heq⟩ | ⟨had, hok, heq⟩
  · simp [step, inserts, removes, had, heq]
  · simp only [step, inserts, removes, had, hok, heq, Bool.not_false, Bool.and_self, if_true,
      Bool.false_eq_true, if_false, List.map_cons, List.map_nil, List.mem_singleton]
    constructor
    · intro hm
      refine ⟨.inr hm, ?_⟩
      -- A connection that is not accepted yet has no source.
      rintro rfl
      exact absurd (hknown _ hm s.nextConnId rfl) (lt_irrefl _)
    · rintro ⟨hm | hm, hne⟩
      · exact absurd hm hne
      · exact hm
  · simp [step, inserts, removes, had, hok, heq, or_assoc]

theorem mem_idle_sources (s : HalmasuitState) (src : Source) :
    src ∈ (s.step fromSlice .idle).1.sources ↔
      (src ∈ (s.inserts fromSlice .idle).map Prod.fst ∨ src ∈ s.sources) ∧
        src ∉ s.removes fromSlice .idle := by
  unfold step idle inserts removes
  cases s.idles with
  | nil => simp
  | cons id rest =>
    dsimp only
    cases s.connections.lookup id with
    | none => simp
    | some cs =>
      by_cases htoken : cs.leaderPidfdToken = true
      · simp [htoken, mem_unregister_iff]
      · simp [htoken]

/-- **The sources after a callback.** -/
theorem mem_step_sources (s : HalmasuitState) (i : Input) (hknown : s.Known) (src : Source) :
    src ∈ (s.step fromSlice i).1.sources ↔
      (src ∈ (s.inserts fromSlice i).map Prod.fst ∨ src ∈ s.sources) ∧
        src ∉ s.removes fromSlice i := by
  cases i with
  | accept a => exact s.mem_accept_sources fromSlice a hknown src
  | connectionReady id r =>
    by_cases hsrc : Source.greeter id ∈ s.sources
    · cases h : s.connections.lookup id with
      | none =>
        simp only [step, hsrc, if_true, handleConnectionReady, h, inserts, removes,
          mem_unregister_iff]
        simp
      | some cs =>
        obtain ⟨sc, heq⟩ := s.handleConnectionReady_eq fromSlice r h
        simp only [step, hsrc, if_true, inserts, removes, h]
        rw [heq, mem_greeterEnd_sources]
        simp
    · simp [step, hsrc, inserts, removes]
  | brokerReady id readable env recv w =>
    by_cases hsrc : Source.broker id ∈ s.sources
    · cases h : s.connections.lookup id with
      | none =>
        simp only [step, hsrc, if_true, handleBrokerReady, h, inserts, removes, mem_unregister_iff]
        simp
      | some cs =>
        have htable := s.handleBrokerReady_table fromSlice readable env recv w h hsrc
        simp only [step, hsrc, if_true]
        exact htable.2.1 src
    · cases h : s.connections.lookup id <;> simp [step, hsrc, inserts, removes, h]
  | leaderPidfdReady id w =>
    by_cases hsrc : Source.leader id ∈ s.sources
    · simp only [step, hsrc, if_true, handleLeaderPidfdReady, inserts, removes, mem_unregister_iff]
      cases s.connections.lookup id <;> simp [feedGate, setConn]
    · simp [step, hsrc, inserts, removes]
  | idle => exact s.mem_idle_sources fromSlice src
  | postPivotSetup listener spawned dropped =>
    by_cases hsrc : Source.pivotPoll ∈ s.sources
    · have hun : (s.step fromSlice (.postPivotSetup listener spawned dropped)).1.sources
          = (s.unregister .pivotPoll).sources := by
        simp only [step, hsrc, if_true, postPivotSetup, onScene]
        cases listener <;> rfl
      rw [hun, mem_unregister_iff]
      simp [inserts, removes, hsrc]
    · simp [step, hsrc, inserts, removes]
  | waylandConnect uid =>
    unfold step waylandConnect
    dsimp only
    split_ifs <;> simp [inserts, removes]
  | prepareForShutdown arming w => simp [step, onScene, inserts, removes]
  | stopSignal w => simp [step, onScene, inserts, removes]
  | childReaped pid => simp [step, onScene, inserts, removes]
  | _ =>
    unfold step
    dsimp only
    split_ifs <;> simp [onScene, inserts, removes]

/-- The idle callbacks pending after a callback. -/
def idlesAfter (s : HalmasuitState) : Input → List Nat
  | .brokerReady id readable env recv w =>
    if Source.broker id ∈ s.sources then
      match s.connections.lookup id with
      | none => s.idles
      | some cs =>
        if (cs.afterBroker fromSlice readable env recv w).terminate && !cs.greeterToken then
          s.idles ++ [id]
        else s.idles
    else s.idles
  | .idle => s.idles.tail
  | _ => s.idles

theorem step_idles (s : HalmasuitState) (i : Input) :
    (s.step fromSlice i).1.idles = s.idlesAfter fromSlice i := by
  cases i with
  | accept a =>
    rcases s.accept_cases a with ⟨-, next, -, heq⟩ | ⟨-, -, heq⟩ | ⟨-, -, heq⟩ <;>
      simp [step, idlesAfter, heq]
  | connectionReady id r =>
    by_cases hsrc : Source.greeter id ∈ s.sources
    · cases h : s.connections.lookup id with
      | none => simp [step, hsrc, handleConnectionReady, h, idlesAfter, unregister]
      | some cs =>
        obtain ⟨sc, heq⟩ := s.handleConnectionReady_eq fromSlice r h
        simp only [step, hsrc, if_true, idlesAfter]
        rw [heq, (greeterEnd_rest _ _ _).1]
    · simp [step, hsrc, idlesAfter]
  | brokerReady id readable env recv w =>
    by_cases hsrc : Source.broker id ∈ s.sources
    · cases h : s.connections.lookup id with
      | none => simp [step, hsrc, handleBrokerReady, h, idlesAfter, unregister]
      | some cs =>
        have htable := s.handleBrokerReady_table fromSlice readable env recv w h hsrc
        simp only [step, hsrc, if_true, idlesAfter, h]
        rw [htable.2.2]
        simp only [removes, hsrc, if_true, h]
        split <;> simp
    · simp [step, hsrc, idlesAfter]
  | leaderPidfdReady id w =>
    by_cases hsrc : Source.leader id ∈ s.sources
    · simp only [step, hsrc, if_true, handleLeaderPidfdReady, idlesAfter]
      cases s.connections.lookup id <;> rfl
    · simp [step, hsrc, idlesAfter]
  | idle =>
    unfold step idle idlesAfter
    cases h : s.idles with
    | nil => simpa using h
    | cons id rest => rfl
  | waylandConnect uid =>
    unfold step waylandConnect
    dsimp only
    split_ifs <;> rfl
  | postPivotSetup listener spawned dropped =>
    unfold step postPivotSetup
    dsimp only
    split_ifs
    · cases listener <;> rfl
    · rfl
  | prepareForShutdown arming w => rfl
  | stopSignal w => rfl
  | childReaped pid => rfl
  | _ =>
    unfold step
    dsimp only
    split_ifs <;> rfl

/-! ## The books of one connection -/

/-- What the tokens of a connection in the table stand for. -/
structure ConnBooked (s : HalmasuitState) (id : Nat) (cs : ConnState) : Prop where
  greeter : .greeter id ∈ s.sources ↔ cs.greeterToken = true
  broker : .broker id ∈ s.sources ↔ id ∉ s.idles
  brokerToken : cs.brokerToken = true
  leader : .leader id ∈ s.sources ↔ cs.leaderPidfdToken = true
  idle : id ∈ s.idles → cs.greeterToken = false

/-- What is left of a connection that is not in the table. -/
structure Gone (s : HalmasuitState) (id : Nat) : Prop where
  sources : ∀ src ∈ s.sources, src.conn ≠ some id
  idles : id ∉ s.idles

/-- The books of a connection. -/
structure Booked (s : HalmasuitState) (id : Nat) : Prop where
  present : ∀ cs, s.connections.lookup id = some cs → ConnBooked s id cs
  gone : s.connections.lookup id = none → Gone s id

/-- The books depend on the sources, the entry and the idle callbacks of the connection. -/
theorem Booked.congr {s s' : HalmasuitState} {id : Nat} (h : Booked s id)
    (hlook : s'.connections.lookup id = s.connections.lookup id)
    (hsrc : ∀ src, src.conn = some id → (src ∈ s'.sources ↔ src ∈ s.sources))
    (hidle : id ∈ s'.idles ↔ id ∈ s.idles) : Booked s' id := by
  constructor
  · intro cs hcs
    have hb := h.present cs (hlook ▸ hcs)
    refine ⟨?_, ?_, hb.brokerToken, ?_, ?_⟩
    · rw [hsrc _ rfl, hb.greeter]
    · rw [hsrc _ rfl, hb.broker, hidle]
    · rw [hsrc _ rfl, hb.leader]
    · rw [hidle]
      exact hb.idle
  · intro hnone
    have hg := h.gone (hlook ▸ hnone)
    refine ⟨fun src hm hconn => hg.sources src ((hsrc src hconn).mp hm) hconn, ?_⟩
    rw [hidle]
    exact hg.idles

/-- The connection a callback is about. -/
def touched (s : HalmasuitState) : Input → Option Nat
  | .accept _ => some s.nextConnId
  | .connectionReady id _ => some id
  | .brokerReady id _ _ _ _ => some id
  | .leaderPidfdReady id _ => some id
  | .idle => s.idles.head?
  | _ => none

theorem armInserts_conn {id : Nat} {cs : ConnState} {ok : Bool} :
    ∀ x ∈ armInserts id cs ok, x.1 = .leader id := by
  unfold armInserts
  split
  · simp
  · split <;> simp

theorem inserts_conn (s : HalmasuitState) (i : Input) :
    ∀ x ∈ s.inserts fromSlice i, x.1.conn = s.touched i := by
  cases i with
  | accept a =>
    simp only [inserts]
    split_ifs <;> simp [Source.conn, touched]
  | brokerReady id readable env recv w =>
    simp only [inserts]
    split
    · simp
    · split_ifs
      · intro x hx
        rw [armInserts_conn x hx]
        rfl
      · simp
  | _ => simp [inserts]

/-- A callback removes sources of the connection it is about, or the pivot poll. -/
theorem removes_conn (s : HalmasuitState) (i : Input) :
    ∀ src ∈ s.removes fromSlice i, src.conn = s.touched i := by
  cases i with
  | accept a =>
    simp only [removes]
    split_ifs <;> simp [Source.conn, touched]
  | connectionReady id r =>
    simp only [removes]
    split_ifs
    · split
      · simp [Source.conn, touched]
      · split_ifs <;> simp [Source.conn, touched]
    · simp
  | brokerReady id readable env recv w =>
    simp only [removes]
    split_ifs
    · split
      · simp [Source.conn, touched]
      · split_ifs <;> simp [Source.conn, touched]
    · simp
  | leaderPidfdReady id w =>
    simp only [removes]
    split_ifs <;> simp [Source.conn, touched]
  | idle =>
    cases hidles : s.idles with
    | nil => simp [removes, hidles]
    | cons id rest =>
      simp only [removes, touched, hidles, List.head?_cons]
      split
      · split_ifs <;> simp [Source.conn]
      · simp
  | postPivotSetup listener spawned dropped =>
    simp only [removes]
    split_ifs <;> simp [Source.conn, touched]
  | _ => simp [removes]

theorem leaves_conn (s : HalmasuitState) (i : Input) :
    ∀ x ∈ s.leaves fromSlice i, s.touched i = some x.1 := by
  cases i with
  | accept a =>
    simp only [leaves]
    split_ifs <;> simp [touched]
  | connectionReady id r =>
    simp only [leaves]
    split_ifs
    · cases s.connections.lookup id <;> simp [touched]
    · simp
  | brokerReady id readable env recv w =>
    simp only [leaves]
    split_ifs
    · cases s.connections.lookup id <;> simp [touched]
    · simp
  | leaderPidfdReady id w =>
    simp only [leaves]
    split_ifs
    · cases s.connections.lookup id <;> simp [touched]
    · simp
  | idle => cases h : s.idles <;> simp [leaves, touched, h]
  | _ => simp [leaves]

theorem mem_idlesAfter (s : HalmasuitState) (i : Input) {id : Nat} (h : s.touched i ≠ some id) :
    id ∈ s.idlesAfter fromSlice i ↔ id ∈ s.idles := by
  cases i with
  | brokerReady id' readable env recv w =>
    have hid : id ≠ id' := by
      rintro rfl
      exact h rfl
    simp only [idlesAfter]
    split_ifs
    · split
      · exact Iff.rfl
      · split_ifs <;> simp [hid]
    · exact Iff.rfl
  | idle =>
    simp only [idlesAfter]
    cases hidles : s.idles with
    | nil => simp
    | cons id' rest =>
      have hid : id ≠ id' := by
        rintro rfl
        exact h (by simp [touched, hidles])
      simp [hid]
  | _ => exact Iff.rfl

/-- The books of the connections a callback is not about. -/
theorem booked_frame {s : HalmasuitState} (i : Input) {id : Nat} (hknown : s.Known)
    (h : Booked s id) (hid : s.touched i ≠ some id) : Booked (s.step fromSlice i).1 id := by
  refine h.congr ?_ ?_ ?_
  · rw [step_lookup]
    split
    · rename_i id' o hleaves
      have hne : id ≠ id' := by
        rintro rfl
        exact hid (s.leaves_conn fromSlice i _ hleaves)
      rw [if_neg hne]
    · rfl
  · intro src hsrc
    rw [mem_step_sources fromSlice s i hknown]
    have hins : src ∉ (s.inserts fromSlice i).map Prod.fst := by
      intro hm
      obtain ⟨x, hx, rfl⟩ := List.mem_map.mp hm
      exact hid ((s.inserts_conn fromSlice i x hx).symm.trans hsrc)
    have hrem : src ∉ s.removes fromSlice i := by
      intro hm
      exact hid ((s.removes_conn fromSlice i src hm).symm.trans hsrc)
    simp [hins, hrem]
  · rw [step_idles]
    exact s.mem_idlesAfter fromSlice i hid

theorem conn_eq_some {src : Source} {id : Nat} (h : src.conn = some id) :
    src = .greeter id ∨ src = .broker id ∨ src = .leader id := by
  cases src with
  | greeter id' => exact .inl (by rw [Option.some.inj h])
  | broker id' => exact .inr (.inl (by rw [Option.some.inj h]))
  | leader id' => exact .inr (.inr (by rw [Option.some.inj h]))
  | pivotPoll => cases h

/-- Two states of a connection with the same tokens and the same pidfd. -/
structure SameTokens (cs cs' : ConnState) : Prop where
  greeterToken : cs'.greeterToken = cs.greeterToken
  brokerToken : cs'.brokerToken = cs.brokerToken
  leaderPidfdToken : cs'.leaderPidfdToken = cs.leaderPidfdToken
  leaderPidfd : cs'.leaderPidfd = cs.leaderPidfd

theorem SameTokens.trans {cs cs' cs'' : ConnState} (h : SameTokens cs cs')
    (h' : SameTokens cs' cs'') : SameTokens cs cs'' :=
  ⟨h'.1.trans h.1, h'.2.trans h.2, h'.3.trans h.3, h'.4.trans h.4⟩

theorem afterReads_tokens (reads : List ReadResult) : ∀ cs : ConnState,
    SameTokens cs (cs.afterReads fromSlice reads) := by
  induction reads with
  | nil => exact fun cs => ⟨rfl, rfl, rfl, rfl⟩
  | cons r reads ih =>
    intro cs
    cases r with
    | wouldBlock => exact ⟨rfl, rfl, rfl, rfl⟩
    | error => exact ⟨rfl, rfl, rfl, rfl⟩
    | ok env bytes =>
      unfold ConnState.afterReads
      split
      · exact ⟨rfl, rfl, rfl, rfl⟩
      · have hfed : SameTokens cs (cs.fed (cs.episode.onGreeterBytes fromSlice env bytes)) :=
          ⟨rfl, rfl, rfl, rfl⟩
        dsimp only
        split
        · exact hfed
        · exact hfed.trans (ih _)

theorem writeLoop_tokens (ws : List WriteResult) : ∀ cs : ConnState,
    SameTokens cs (writeLoop cs ws) := by
  induction ws with
  | nil => exact fun cs => ⟨rfl, rfl, rfl, rfl⟩
  | cons w ws ih =>
    intro cs
    unfold writeLoop
    split
    · exact ⟨rfl, rfl, rfl, rfl⟩
    · split
      · exact ⟨rfl, rfl, rfl, rfl⟩
      · rename_i n
        obtain ⟨hg, hb, ht, hp⟩ := ih { cs with writeBuf := cs.writeBuf.drop (n + 1) }
        exact ⟨hg, hb, ht, hp⟩
      · exact ⟨rfl, rfl, rfl, rfl⟩
      · exact ⟨rfl, rfl, rfl, rfl⟩

/-- The loops of `handle_connection_ready` leave the tokens. -/
theorem afterReady_tokens (cs : ConnState) (r : StreamReady) :
    SameTokens cs (cs.afterReady fromSlice r) := by
  have hread : SameTokens cs (if r.readable then cs.afterReads fromSlice r.reads else cs) := by
    split
    · exact afterReads_tokens fromSlice r.reads cs
    · exact ⟨rfl, rfl, rfl, rfl⟩
  unfold ConnState.afterReady
  dsimp only
  split
  · exact hread.trans (writeLoop_tokens _ _)
  · exact hread

/-- `handle_broker_ready` leaves the tokens of the greeter and the broker. -/
theorem afterBroker_tokens (cs : ConnState) (readable : Bool) (env : Env) (recv : Recv)
    (w : Answers) :
    (cs.afterBroker fromSlice readable env recv w).greeterToken = cs.greeterToken ∧
    (cs.afterBroker fromSlice readable env recv w).brokerToken = cs.brokerToken := by
  unfold ConnState.afterBroker
  split
  · dsimp only
    split
    · obtain ⟨-, hg, hb, -⟩ := armed_flags
        (cs.fed (cs.episode.onBrokerReadable fromSlice env recv)) w.armPidfd
      exact ⟨hg, hb⟩
    · exact ⟨rfl, rfl⟩
  · exact ⟨rfl, rfl⟩

/-- The leader's token and pidfd after `handle_broker_ready`: they are set with the source, and
change only when the session opens. -/
theorem afterBroker_leader {s : HalmasuitState} {id : Nat} {cs : ConnState} (readable : Bool)
    (env : Env) (recv : Recv) (w : Answers) (h : s.connections.lookup id = some cs)
    (hsrc : Source.broker id ∈ s.sources) :
    (s.inserts fromSlice (.brokerReady id readable env recv w) = [] ∧
      (cs.afterBroker fromSlice readable env recv w).leaderPidfdToken = cs.leaderPidfdToken ∧
      ((cs.afterBroker fromSlice readable env recv w).leaderPidfd = cs.leaderPidfd ∨
        (readable = true ∧
        (cs.episode.onBrokerReadable fromSlice env recv).out.sessionOpened = true))) ∨
    (readable = true ∧ (cs.episode.onBrokerReadable fromSlice env recv).out.sessionOpened = true ∧
      ∃ fd, s.inserts fromSlice (.brokerReady id readable env recv w) = [(.leader id, some fd)] ∧
      (cs.afterBroker fromSlice readable env recv w).leaderPidfdToken = true ∧
      (cs.afterBroker fromSlice readable env recv w).leaderPidfd = some fd) := by
  cases readable with
  | false => exact .inl ⟨by simp [inserts, h], rfl, .inl rfl⟩
  | true =>
    cases hopened : (cs.episode.onBrokerReadable fromSlice env recv).out.sessionOpened with
    | false =>
      left
      simp [inserts, h, hopened, ConnState.afterBroker, ConnState.fed]
    | true =>
      simp only [inserts, h, hsrc, hopened, ConnState.afterBroker, armInserts,
        ConnState.armed, and_self,
        if_true]
      cases hfd : (cs.fed (cs.episode.onBrokerReadable fromSlice env recv)).episode.leaderPidfd with
      | none => exact .inl ⟨rfl, rfl, .inl rfl⟩
      | some fd =>
        cases w.armPidfd with
        | false => exact .inl ⟨rfl, rfl, .inr trivial⟩
        | true => exact .inr ⟨trivial, trivial, fd, rfl, rfl, rfl⟩

/-- The books of an accepted greeter. -/
theorem booked_accept {s : HalmasuitState} (a : Accept)
    (hnone : s.connections.lookup s.nextConnId = none) (h : Booked s s.nextConnId) :
    Booked (s.step fromSlice (.accept a)).1 s.nextConnId := by
  have hg := h.gone hnone
  rcases s.accept_cases a with ⟨-, next, -, heq⟩ | ⟨-, -, heq⟩ | ⟨-, -, heq⟩
  · simp only [step, heq]
    exact h.congr rfl (fun _ _ => Iff.rfl) Iff.rfl
  · simp only [step, heq]
    exact h.congr rfl (fun _ _ => Iff.rfl) Iff.rfl
  · simp only [step, heq]
    have hlook : (s.connections.insert s.nextConnId (.new s.pamService)).lookup s.nextConnId
        = some (ConnState.new s.pamService) := AList.lookup_insert _
    constructor
    · intro cs hcs
      obtain rfl : ConnState.new s.pamService = cs := Option.some.inj (hlook.symm.trans hcs)
      refine ⟨by simp [ConnState.new], by simpa using hg.idles, rfl, ?_, fun hm =>
        absurd hm hg.idles⟩
      refine iff_of_false ?_ (by simp [ConnState.new])
      intro hm
      exact hg.sources (.leader s.nextConnId) (by simpa using hm) rfl
    · intro hn
      rw [hlook] at hn
      cases hn

/-- The books after the greeter's callback. -/
theorem booked_connectionReady {s : HalmasuitState} {id : Nat} (r : StreamReady) (hknown : s.Known)
    (h : Booked s id) : Booked (s.step fromSlice (.connectionReady id r)).1 id := by
  by_cases hsrc : Source.greeter id ∈ s.sources
  · cases hcs : s.connections.lookup id with
    | none => exact absurd rfl ((h.gone hcs).sources _ hsrc)
    | some cs =>
      have hb := h.present cs hcs
      have htok := afterReady_tokens fromSlice cs r
      have hgreeter : cs.greeterToken = true := hb.greeter.mp hsrc
      have hidle : id ∉ s.idles := by
        intro hm
        rw [hb.idle hm] at hgreeter
        cases hgreeter
      have hlook := s.step_lookup fromSlice (.connectionReady id r) id
      have hmem := s.mem_step_sources fromSlice (.connectionReady id r) hknown
      have hidles := s.step_idles fromSlice (.connectionReady id r)
      simp only [leaves, hsrc, if_true, hcs, Option.map_some] at hlook
      simp only [inserts, List.map_nil, List.not_mem_nil, false_or, removes, hsrc, if_true, hcs,
        htok.brokerToken, htok.leaderPidfdToken, hb.brokerToken] at hmem
      simp only [idlesAfter] at hidles
      by_cases hover : (cs.afterReady fromSlice r).episodeOver = true
      · simp only [hover, if_true] at hlook hmem
        refine ⟨fun cs' hcs' => ?_, fun _ => ⟨fun src hm hconn => ?_, by rwa [hidles]⟩⟩
        · rw [hlook] at hcs'
          cases hcs'
        · obtain ⟨hm, hne⟩ := (hmem src).mp hm
          rcases conn_eq_some hconn with rfl | rfl | rfl
          · simp at hne
          · simp at hne
          · have htoken := hb.leader.mp hm
            simp [htoken] at hne
      · by_cases hdet : (cs.afterReady fromSlice r).detaches = true
        · simp only [hover, hdet, if_true, Bool.false_eq_true, if_false, List.mem_singleton]
            at hlook hmem
          refine ⟨fun cs' hcs' => ?_, fun hn => ?_⟩
          · rw [hlook] at hcs'
            obtain rfl := Option.some.inj hcs'
            refine ⟨?_, ?_, htok.brokerToken.trans hb.brokerToken, ?_, fun _ => rfl⟩
            · rw [hmem]
              simp
            · rw [hmem, hidles]
              simpa using hb.broker
            · rw [hmem]
              simpa [htok.leaderPidfdToken] using hb.leader
          · rw [hlook] at hn
            cases hn
        · simp only [hover, hdet, Bool.false_eq_true, if_false, List.not_mem_nil, not_false_eq_true,
            and_true] at hlook hmem
          refine ⟨fun cs' hcs' => ?_, fun hn => ?_⟩
          · rw [hlook] at hcs'
            obtain rfl := Option.some.inj hcs'
            refine ⟨?_, ?_, htok.brokerToken.trans hb.brokerToken, ?_, ?_⟩
            · rw [hmem, htok.greeterToken]
              exact hb.greeter
            · rw [hmem, hidles]
              exact hb.broker
            · rw [hmem, htok.leaderPidfdToken]
              exact hb.leader
            · rw [hidles, htok.greeterToken]
              exact hb.idle
          · rw [hlook] at hn
            cases hn
  · simpa [step, hsrc] using h

/-- The books after the broker's callback. -/
theorem booked_brokerReady {s : HalmasuitState} {id : Nat} (readable : Bool) (env : Env)
    (recv : Recv)
    (w : Answers) (hknown : s.Known) (h : Booked s id) :
    Booked (s.step fromSlice (.brokerReady id readable env recv w)).1 id := by
  by_cases hsrc : Source.broker id ∈ s.sources
  · cases hcs : s.connections.lookup id with
    | none => exact absurd rfl ((h.gone hcs).sources _ hsrc)
    | some cs =>
      have hb := h.present cs hcs
      obtain ⟨hgtok, hbtok⟩ := afterBroker_tokens fromSlice cs readable env recv w
      have hidle : id ∉ s.idles := hb.broker.mp hsrc
      have hlook := s.step_lookup fromSlice (.brokerReady id readable env recv w) id
      have hmem := s.mem_step_sources fromSlice (.brokerReady id readable env recv w) hknown
      have hidles := s.step_idles fromSlice (.brokerReady id readable env recv w)
      simp only [leaves, hsrc, if_true, hcs, Option.map_some] at hlook
      simp only [removes, hsrc, if_true, hcs] at hmem
      simp only [idlesAfter, hsrc, if_true, hcs] at hidles
      have hgreeter : ∀ x ∈ s.inserts fromSlice (.brokerReady id readable env recv w),
          x.1 = .leader id := by
        intro x hx
        simp only [inserts, hcs] at hx
        split_ifs at hx
        · exact armInserts_conn x hx
        · cases hx
      have hother : ∀ src, src ≠ .leader id →
          src ∉ (s.inserts fromSlice (.brokerReady id readable env recv w)).map Prod.fst := by
        rintro src hne hm
        obtain ⟨x, hx, rfl⟩ := List.mem_map.mp hm
        exact hne (hgreeter x hx)
      refine ⟨fun cs' hcs' => ?_, fun hn => ?_⟩
      · rw [hlook] at hcs'
        obtain rfl := Option.some.inj hcs'
        refine ⟨?_, ?_, hbtok.trans hb.brokerToken, ?_, ?_⟩
        · rw [hmem, hgtok]
          have hne : Source.greeter id ∉
              if ((cs.afterBroker fromSlice readable env recv w).terminate &&
              !cs.greeterToken) = true then [Source.broker id] else [] := by
            split <;> simp
          simpa [hother (.greeter id) (by simp), hne] using hb.greeter
        · rw [hmem, hidles]
          simp only [hother (.broker id) (by simp), hsrc, false_or, true_and]
          split
          · simp
          · simpa using hidle
        · rw [hmem]
          have hne : Source.leader id ∉
              if ((cs.afterBroker fromSlice readable env recv w).terminate &&
              !cs.greeterToken) = true then [Source.broker id] else [] := by
            split <;> simp
          rcases afterBroker_leader fromSlice readable env recv w hcs hsrc with
            ⟨hins, htoken, -⟩ | ⟨-, -, fd, hins, htoken, -⟩
          · simpa [hins, hne, htoken] using hb.leader
          · simp [hins, htoken]
        · rw [hidles, hgtok]
          split
          · rename_i hend
            intro _
            simpa using (Bool.and_eq_true_iff.mp hend).2
          · exact fun hm => absurd hm hidle
      · rw [hlook] at hn
        cases hn
  · simpa [step, hsrc] using h

/-- The books after the leader's callback. -/
theorem booked_leaderPidfdReady {s : HalmasuitState} {id : Nat} (w : Answers) (hknown : s.Known)
    (h : Booked s id) : Booked (s.step fromSlice (.leaderPidfdReady id w)).1 id := by
  by_cases hsrc : Source.leader id ∈ s.sources
  · cases hcs : s.connections.lookup id with
    | none => exact absurd rfl ((h.gone hcs).sources _ hsrc)
    | some cs =>
      have hb := h.present cs hcs
      have hlook := s.step_lookup fromSlice (.leaderPidfdReady id w) id
      have hmem := s.mem_step_sources fromSlice (.leaderPidfdReady id w) hknown
      have hidles := s.step_idles fromSlice (.leaderPidfdReady id w)
      simp only [leaves, hsrc, if_true, hcs, Option.map_some] at hlook
      simp only [inserts, List.map_nil, List.not_mem_nil, false_or, removes, hsrc, if_true,
        List.mem_singleton] at hmem
      simp only [idlesAfter] at hidles
      refine ⟨fun cs' hcs' => ?_, fun hn => ?_⟩
      · rw [hlook] at hcs'
        obtain rfl := Option.some.inj hcs'
        refine ⟨?_, ?_, hb.brokerToken, ?_, ?_⟩
        · rw [hmem]
          simpa using hb.greeter
        · rw [hmem, hidles]
          simpa using hb.broker
        · rw [hmem]
          simp
        · rw [hidles]
          exact hb.idle
      · rw [hlook] at hn
        cases hn
  · simpa [step, hsrc] using h

/-- The books after the idle callback: the broker's source went with the callback that scheduled
it. -/
theorem booked_idle {s : HalmasuitState} {id : Nat} {rest : List Nat}
    (hidles : s.idles = id :: rest)
    (hnodup : s.idles.Nodup) (hknown : s.Known) (h : Booked s id) :
    Booked (s.step fromSlice .idle).1 id := by
  have hm : id ∈ s.idles := by simp [hidles]
  have hrest : id ∉ rest := by
    rw [hidles] at hnodup
    exact (List.nodup_cons.mp hnodup).1
  cases hcs : s.connections.lookup id with
  | none => exact absurd hm (h.gone hcs).idles
  | some cs =>
    have hb := h.present cs hcs
    have hlook := s.step_lookup fromSlice .idle id
    have hmem := s.mem_step_sources fromSlice .idle hknown
    have hafter := s.step_idles fromSlice .idle
    simp only [leaves, hidles, List.head?_cons, Option.map_some, if_true] at hlook
    simp only [inserts, List.map_nil, List.not_mem_nil, false_or, removes, hidles, hcs] at hmem
    simp only [idlesAfter, hidles, List.tail_cons] at hafter
    refine ⟨fun cs' hcs' => ?_, fun _ => ⟨fun src hsrc hconn => ?_, by rwa [hafter]⟩⟩
    · rw [hlook] at hcs'
      cases hcs'
    · obtain ⟨hsrc, hne⟩ := (hmem src).mp hsrc
      rcases conn_eq_some hconn with rfl | rfl | rfl
      · have hgreeter := hb.greeter.mp hsrc
        rw [hb.idle hm] at hgreeter
        cases hgreeter
      · exact absurd hm (hb.broker.mp hsrc)
      · simp [hb.leader.mp hsrc] at hne

/-- **The books after a callback.** -/
theorem booked_step {s : HalmasuitState} (i : Input) (hknown : s.Known) (hnodup : s.idles.Nodup)
    (hnone : s.connections.lookup s.nextConnId = none) (h : ∀ id, Booked s id) (id : Nat) :
    Booked (s.step fromSlice i).1 id := by
  by_cases hid : s.touched i = some id
  · cases i with
    | accept a =>
      obtain rfl := Option.some.inj hid
      exact booked_accept fromSlice a hnone (h _)
    | connectionReady id' r =>
      obtain rfl := Option.some.inj hid
      exact booked_connectionReady fromSlice r hknown (h _)
    | brokerReady id' readable env recv w =>
      obtain rfl := Option.some.inj hid
      exact booked_brokerReady fromSlice readable env recv w hknown (h _)
    | leaderPidfdReady id' w =>
      obtain rfl := Option.some.inj hid
      exact booked_leaderPidfdReady fromSlice w hknown (h _)
    | idle =>
      obtain ⟨rest, hidles⟩ := List.head?_eq_some_iff.mp hid
      exact booked_idle fromSlice hidles hnodup hknown (h _)
    | _ => cases hid
  · exact booked_frame fromSlice i hknown (h id) hid

/-! ## The books of the whole table -/

theorem idlesAfter_nodup {s : HalmasuitState} (i : Input) (h : ∀ id, Booked s id)
    (hnodup : s.idles.Nodup) : (s.idlesAfter fromSlice i).Nodup := by
  cases i with
  | brokerReady id readable env recv w =>
    simp only [idlesAfter]
    split_ifs with hsrc
    · split
      · exact hnodup
      · rename_i cs hcs
        split_ifs
        · have hidle : id ∉ s.idles := (((h id).present cs hcs).broker).mp hsrc
          refine List.nodup_append.mpr ⟨hnodup, List.nodup_singleton _, ?_⟩
          rintro x hx y hy rfl
          rw [List.mem_singleton.mp hy] at hx
          exact hidle hx
        · exact hnodup
    · exact hnodup
  | idle => exact hnodup.tail
  | _ => exact hnodup

/-- The callback that writes a connection finds it in the table, or accepts it. -/
theorem leaves_old (s : HalmasuitState) {i : Input} {id : Nat} {cs' : ConnState}
    (h : s.leaves fromSlice i = some (id, some cs')) : s.connections.lookup id ≠ none ∨
      ∃ a, i = .accept a ∧ id = s.nextConnId ∧ cs' = .new s.pamService ∧
        s.connections.keys.length < maxGreetdConnections := by
  cases i with
  | accept a =>
    simp only [leaves] at h
    split_ifs at h with had
    simp only [admits, Bool.and_eq_true, decide_eq_true_eq] at had
    obtain ⟨rfl, hcs⟩ := Prod.mk.inj (Option.some.inj h)
    exact .inr ⟨a, rfl, rfl, (Option.some.inj hcs).symm, had.1.1.1.1.2⟩
  | connectionReady id' r =>
    simp only [leaves] at h
    split_ifs at h
    obtain ⟨cs, hcs, heq⟩ := Option.map_eq_some_iff.mp h
    obtain ⟨rfl, -⟩ := Prod.mk.inj heq
    exact .inl (by simp [hcs])
  | brokerReady id' readable env recv w =>
    simp only [leaves] at h
    split_ifs at h
    obtain ⟨cs, hcs, heq⟩ := Option.map_eq_some_iff.mp h
    obtain ⟨rfl, -⟩ := Prod.mk.inj heq
    exact .inl (by simp [hcs])
  | leaderPidfdReady id' w =>
    simp only [leaves] at h
    split_ifs at h
    obtain ⟨cs, hcs, heq⟩ := Option.map_eq_some_iff.mp h
    obtain ⟨rfl, -⟩ := Prod.mk.inj heq
    exact .inl (by simp [hcs])
  | idle =>
    simp only [leaves] at h
    obtain ⟨_, -, heq⟩ := Option.map_eq_some_iff.mp h
    cases (Prod.mk.inj heq).2
  | _ => cases h

/-- The table does not outgrow its limit. -/
theorem step_cap (s : HalmasuitState) (i : Input)
    (h : s.connections.keys.length ≤ maxGreetdConnections) :
    (s.step fromSlice i).1.connections.keys.length ≤ maxGreetdConnections := by
  have hkeys :
      ∀ t : HalmasuitState, ∀ id, id ∈ t.connections.keys ↔ t.connections.lookup id ≠ none :=
    fun t id => by rw [← AList.mem_keys, ← AList.lookup_isSome, Option.isSome_iff_ne_none]
  have hnodup := AList.keys_nodup (s.step fromSlice i).1.connections
  by_cases haccept : ∃ a, i = .accept a ∧ s.connections.keys.length < maxGreetdConnections
  · have hsub : (s.step fromSlice i).1.connections.keys ⊆ s.nextConnId :: s.connections.keys := by
      obtain ⟨a, rfl, -⟩ := haccept
      intro id hid
      obtain ⟨cs', hcs'⟩ := Option.ne_none_iff_exists'.mp ((hkeys _ id).mp hid)
      rcases step_leaves fromSlice hcs' with hsame | hleaves
      · exact List.mem_cons_of_mem _ ((hkeys s id).mpr (by simp [hsame]))
      · have htouch := s.leaves_conn fromSlice _ _ hleaves
        obtain rfl := Option.some.inj htouch
        exact List.mem_cons_self
    obtain ⟨-, -, hlt⟩ := haccept
    have hle := (List.subperm_of_subset hnodup hsub).length_le
    rw [List.length_cons] at hle
    omega
  · have hsub : (s.step fromSlice i).1.connections.keys ⊆ s.connections.keys := by
      intro id hid
      obtain ⟨cs', hcs'⟩ := Option.ne_none_iff_exists'.mp ((hkeys _ id).mp hid)
      rcases step_leaves fromSlice hcs' with hsame | hleaves
      · exact (hkeys s id).mpr (by simp [hsame])
      · rcases s.leaves_old fromSlice hleaves with hold | ⟨a, hi, -, -, hlt⟩
        · exact (hkeys s id).mpr hold
        · exact absurd ⟨a, hi, hlt⟩ haccept
    exact Nat.le_trans (List.subperm_of_subset hnodup hsub).length_le h

/-- A session that opens was waited for, and is not waited for after. -/
theorem sessionOpened_starting {s : HalmasuitState} {id : Nat} {env : Env} {recv : Recv}
    {w : Answers}
    {cs : ConnState} (hcs : s.connections.lookup id = some cs) (hsrc : Source.broker id ∈ s.sources)
    (h : (cs.episode.onBrokerReadable fromSlice env recv).out.sessionOpened = true) :
    Starting cs.episode ∧
      ∀ cs', (s.step fromSlice (.brokerReady id true env recv w)).1.connections.lookup
      id = some cs' → ¬ Starting cs'.episode := by
  have hcall : s.gateCall (.brokerReady id true env recv w) = some (.sessionOpened id) := by
    rcases onBrokerReadable_out fromSlice env cs.episode recv with
      ⟨hev, -⟩ | ⟨_, -, hout⟩ | ⟨-, hno, -⟩
    · simp [gateCall, hsrc, hcs, hev]
    · rw [hout] at h
      cases h
    · rw [hno] at h
      cases h
  obtain ⟨⟨cs₀, hcs₀, hst⟩, hafter⟩ := opened_starting fromSlice hcall
  obtain rfl : cs = cs₀ := Option.some.inj (hcs.symm.trans hcs₀)
  exact ⟨hst, hafter⟩

theorem afterReads_spawned (reads : List ReadResult) : ∀ {cs : ConnState}, cs.spawned = true →
    (cs.afterReads fromSlice reads).spawned = true := by
  induction reads with
  | nil => exact fun h => h
  | cons r reads ih =>
    intro cs h
    cases r with
    | wouldBlock => exact h
    | error => exact h
    | ok env bytes =>
      have hfed : (cs.fed (cs.episode.onGreeterBytes fromSlice env bytes)).spawned = true := by
        simp [ConnState.fed, h]
      unfold ConnState.afterReads
      split
      · exact h
      · dsimp only
        split
        · exact hfed
        · exact ih hfed

theorem afterReady_spawned {cs : ConnState} (r : StreamReady) (h : cs.spawned = true) :
    (cs.afterReady fromSlice r).spawned = true := by
  rw [(afterReady_login fromSlice cs r).2]
  split
  · exact afterReads_spawned fromSlice r.reads h
  · exact h

/-- An episode past `SessionOpened` stays past it. -/
theorem step_past {s : HalmasuitState} {i : Input} {id : Nat} {cs cs' : ConnState} (hfit : AllFit s)
    (hcs : s.connections.lookup id = some cs) (hid : id < s.nextConnId)
    (hcs' : (s.step fromSlice i).1.connections.lookup id = some cs')
    (h : cs.spawned = true ∧ ¬ Starting cs.episode) :
    cs'.spawned = true ∧ ¬ Starting cs'.episode := by
  obtain ⟨u, hh⟩ := (hfit id cs hcs).handed h.1
  have hquiet : i.conn = some id → s.reports fromSlice i = [] := by
    intro hi
    cases i with
    | connectionReady id' r =>
      obtain rfl := Option.some.inj hi
      simp [reports, hcs, readReports_handed fromSlice hh]
    | brokerReady id' readable env recv w =>
      obtain rfl := Option.some.inj hi
      simp only [reports, hcs]
      split_ifs
      · rcases (hh.onBrokerReadable fromSlice env recv).2 with ⟨-, ho⟩ | ⟨-, ho⟩ | ⟨_, -, ho⟩ |
          ⟨-, -, ho⟩ <;> simp [ho, EpisodeOutcome.default]
      · rfl
    | _ => cases hi
  refine ⟨?_, fun hst => ?_⟩
  · have hm := s.step_conn fromSlice i id
    rw [hcs'] at hm
    generalize ho : some cs' = o at hm
    cases hm with
    | same hsp =>
      obtain rfl : cs = cs' := Option.some.inj (hcs.symm.trans ho.symm)
      exact h.1
    | accepted hid' hes => exact absurd hid (by omega)
    | read hlook hsrc hag hsp =>
      obtain rfl := Option.some.inj (hcs.symm.trans hlook)
      obtain rfl := Option.some.inj ho
      rw [hag.spawned]
      exact afterReady_spawned fromSlice _ h.1
    | tornDown => cases ho
    | broker hlook hsrc hag hsp hev =>
      obtain rfl := Option.some.inj (hcs.symm.trans hlook)
      obtain rfl := Option.some.inj ho
      rw [hag.spawned]
      simp [ConnState.fed, h.1]
    | leader hlook hag hsp =>
      obtain rfl := Option.some.inj (hcs.symm.trans hlook)
      obtain rfl := Option.some.inj ho
      rw [hag.spawned, h.1]
    | idled => cases ho
  · rcases s.step_starting fromSlice hcs' hst with ⟨hne, hi⟩ | ⟨cs₀, hcs₀, hst₀⟩
    · exact hne (hquiet hi)
    · obtain rfl : cs = cs₀ := Option.some.inj (hcs.symm.trans hcs₀)
      exact h.2 hst₀

end

end HalmasuitState

/-! ## Whole runs -/

/-- The compositor, with every registration and every removal of a source so far. -/
structure Tokens where
  state : HalmasuitState
  inserted : List (Source × Option Fd)
  removed : List Source

namespace Tokens

open HalmasuitState

/-- The start, where the pivot poll may be registered. -/
def start (inInitramfs : Bool) (greeterUid : UInt32) (pamService : String)
    (greeter : Option UInt32) : Tokens where
  state := .start inInitramfs greeterUid pamService greeter
  inserted := (HalmasuitState.start inInitramfs greeterUid pamService greeter).sources.map (·, none)
  removed := []

/-- One callback. -/
def step (fromSlice : List UInt8 → Option Request) (p : Tokens) (i : Input) : Tokens × List Event :=
  (⟨(p.state.step fromSlice i).1, p.inserted ++ p.state.inserts fromSlice i,
    p.removed ++ p.state.removes fromSlice i⟩, (p.state.step fromSlice i).2)

/-- What holds of the connections and their sources. -/
structure Sound (p : Tokens) : Prop where
  cap : p.state.connections.keys.length ≤ maxGreetdConnections
  /-- A source is registered once: it names its token. -/
  once : (p.inserted.map Prod.fst).Nodup
  registered : ∀ src, src ∈ p.state.sources ↔ src ∈ p.inserted.map Prod.fst ∧ src ∉ p.removed
  removedOnce : p.removed.Nodup
  /-- The broker channel is owned by the episode of the `ConnState`. -/
  broker : ∀ id, .broker id ∈ p.state.sources → ∃ cs, p.state.connections.lookup id = some cs
  /-- The pidfd the source borrows is the one its `ConnState` owns. -/
  leader : ∀ id fd, .leader id ∈ p.state.sources → (.leader id, some fd) ∈ p.inserted →
    ∃ cs, p.state.connections.lookup id = some cs ∧ cs.leaderPidfd = some fd

/-- The invariant behind it. -/
structure Accounts (p : Tokens) : Prop where
  books : ∀ id, Booked p.state id
  wired : Wired p.state
  fit : AllFit p.state
  idles : p.state.idles.Nodup
  cap : p.state.connections.keys.length ≤ maxGreetdConnections
  known : ∀ x ∈ p.inserted, ∀ id ∈ x.1.conn, id < p.state.nextConnId
  armed : ∀ id cs, p.state.connections.lookup id = some cs → .leader id ∈ p.inserted.map Prod.fst →
    cs.spawned = true ∧ ¬ Starting cs.episode
  pidfd : ∀ id cs, p.state.connections.lookup id = some cs → cs.leaderPidfdToken = true →
    ∃ fd, cs.leaderPidfd = some fd ∧ (.leader id, some fd) ∈ p.inserted
  once : (p.inserted.map Prod.fst).Nodup
  removedOnce : p.removed.Nodup
  removedKnown : ∀ src ∈ p.removed, src ∈ p.inserted.map Prod.fst
  registered : ∀ src, src ∈ p.state.sources ↔ src ∈ p.inserted.map Prod.fst ∧ src ∉ p.removed

theorem Accounts.sound {p : Tokens} (h : Accounts p) : Sound p := by
  have hpresent : ∀ id src, src ∈ p.state.sources → src.conn = some id →
      ∃ cs, p.state.connections.lookup id = some cs := by
    intro id src hm hconn
    cases hcs : p.state.connections.lookup id with
    | none => exact absurd hconn (((h.books id).gone hcs).sources src hm)
    | some cs => exact ⟨cs, rfl⟩
  refine ⟨h.cap, h.once, h.registered, h.removedOnce, fun id hm => hpresent id _ hm rfl, ?_⟩
  intro id fd hm hins
  obtain ⟨cs, hcs⟩ := hpresent id _ hm rfl
  obtain ⟨fd', hfd, hins'⟩ := h.pidfd id cs hcs ((((h.books id).present cs hcs).leader).mp hm)
  have heq := List.inj_on_of_nodup_map h.once hins hins' rfl
  obtain rfl : fd = fd' := Option.some.inj (Prod.mk.inj heq).2
  exact ⟨cs, hcs, hfd⟩

theorem Accounts.known_sources {p : Tokens} (h : Accounts p) : p.state.Known := by
  intro src hm id hid
  obtain ⟨x, hx, rfl⟩ := List.mem_map.mp ((h.registered src).mp hm).1
  exact h.known x hx id hid

theorem Accounts.next_none {p : Tokens} (h : Accounts p) :
    p.state.connections.lookup p.state.nextConnId = none := by
  cases hcs : p.state.connections.lookup p.state.nextConnId with
  | none => rfl
  | some cs => exact absurd (h.wired.bounded _ cs hcs) (lt_irrefl _)

section
variable (fromSlice : List UInt8 → Option Request)

/-- Only the callback of a session that opens registers a leader. -/
theorem inserts_leader {s : HalmasuitState} {i : Input} {id : Nat}
    (h : .leader id ∈ (s.inserts fromSlice i).map Prod.fst) : ∃ env recv w cs,
      i = .brokerReady id true env recv w ∧ s.connections.lookup id = some cs ∧
      Source.broker id ∈ s.sources ∧
      (cs.episode.onBrokerReadable fromSlice env recv).out.sessionOpened = true := by
  obtain ⟨x, hx, hleader⟩ := List.mem_map.mp h
  cases i with
  | accept a =>
    simp only [inserts] at hx
    split_ifs at hx
    · rcases List.mem_pair.mp hx with rfl | rfl <;> cases hleader
    · rw [List.mem_singleton.mp hx] at hleader
      cases hleader
    · cases hx
  | brokerReady id' readable env recv w =>
    simp only [inserts] at hx
    split at hx
    · cases hx
    · rename_i cs hcs
      split_ifs at hx with hopen
      · obtain ⟨hsrc, rfl, hopened⟩ := hopen
        have hid := armInserts_conn x hx
        rw [hleader] at hid
        cases hid
        exact ⟨env, recv, w, cs, rfl, hcs, hsrc, hopened⟩
      · cases hx
  | _ => simp [inserts] at hx

/-- What a callback registers is new. -/
theorem Accounts.inserts_new {p : Tokens} (h : Accounts p) (i : Input) :
    ((p.state.inserts fromSlice i).map Prod.fst).Nodup ∧
      ∀ src ∈ (p.state.inserts fromSlice i).map Prod.fst, src ∉ p.inserted.map Prod.fst := by
  have hfresh : ∀ src, src.conn = some p.state.nextConnId → src ∉ p.inserted.map Prod.fst := by
    intro src hconn hm
    obtain ⟨x, hx, rfl⟩ := List.mem_map.mp hm
    exact absurd (h.known x hx _ hconn) (lt_irrefl _)
  cases i with
  | accept a =>
    simp only [inserts]
    split_ifs
    · refine ⟨by simp, fun src hm => ?_⟩
      simp only [List.map_cons, List.map_nil, List.mem_cons, List.not_mem_nil, or_false] at hm
      rcases hm with rfl | rfl
      · exact hfresh _ rfl
      · exact hfresh _ rfl
    · refine ⟨by simp, fun src hm => ?_⟩
      rw [List.map_cons, List.map_nil, List.mem_singleton] at hm
      rw [hm]
      exact hfresh _ rfl
    · simp
  | brokerReady id readable env recv w =>
    have hleader : ∀ src ∈ (p.state.inserts fromSlice (.brokerReady id readable env recv w)).map
        Prod.fst, src = .leader id := by
      intro src hm
      obtain ⟨x, hx, rfl⟩ := List.mem_map.mp hm
      simp only [inserts] at hx
      split at hx
      · cases hx
      · split_ifs at hx
        · exact armInserts_conn x hx
        · cases hx
    constructor
    · simp only [inserts]
      split
      · simp
      · split_ifs
        · unfold armInserts
          split
          · simp
          · split_ifs <;> simp
        · simp
    · intro src hm hold
      obtain rfl := hleader src hm
      obtain ⟨env', recv', w', cs, -, hcs, hsrc, hopened⟩ := inserts_leader fromSlice hm
      have hst := (@sessionOpened_starting fromSlice p.state id env' recv' w' cs hcs hsrc hopened).1
      exact (h.armed id cs hcs hold).2 hst
  | _ => simp [inserts]

/-- What a callback removes is registered, and is removed once. -/
theorem Accounts.removes_registered {p : Tokens} (h : Accounts p) (i : Input) :
    (p.state.removes fromSlice i).Nodup ∧ ∀ src ∈ p.state.removes fromSlice i,
      src ∈ p.state.sources ∨ src ∈ (p.state.inserts fromSlice i).map Prod.fst := by
  cases i with
  | accept a =>
    simp only [removes, inserts]
    by_cases had : (p.state.admits a && a.insertGreeter) = true
    · cases a.insertBroker <;> simp [had]
    · simp [had]
  | connectionReady id r =>
    simp only [removes]
    split_ifs with hsrc
    · split
      · simpa using .inl hsrc
      · rename_i cs hcs
        have hb := (h.books id).present cs hcs
        have htok := afterReady_tokens fromSlice cs r
        have hbroker : Source.broker id ∈ p.state.sources := by
          refine hb.broker.mpr fun hm => ?_
          have hgreeter := hb.greeter.mp hsrc
          rw [hb.idle hm] at hgreeter
          cases hgreeter
        rw [htok.brokerToken, htok.leaderPidfdToken, hb.brokerToken, if_pos rfl]
        split_ifs with hover htoken hdet
        · have hleader : Source.leader id ∈ p.state.sources := hb.leader.mpr htoken
          simp [hsrc, hbroker, hleader]
        · simp [hsrc, hbroker]
        · simpa using .inl hsrc
        · simp
    · simp
  | brokerReady id readable env recv w =>
    simp only [removes]
    split_ifs with hsrc
    · split
      · simpa using .inl hsrc
      · split_ifs
        · simpa using .inl hsrc
        · simp
    · simp
  | leaderPidfdReady id w =>
    simp only [removes]
    split_ifs with hsrc
    · simpa using .inl hsrc
    · simp
  | idle =>
    simp only [removes]
    split
    · simp
    · split
      · rename_i cs hcs
        split_ifs with htoken
        · have hleader := (((h.books _).present cs hcs).leader).mpr htoken
          simpa using .inl hleader
        · simp
      · simp
  | postPivotSetup listener spawned dropped =>
    simp only [removes]
    split_ifs with hsrc
    · simpa using .inl hsrc
    · simp
  | _ => simp [removes]

/-- The pidfd of a leader that is registered is the one it was registered with. -/
theorem Accounts.pidfd_step {p : Tokens} (h : Accounts p) (i : Input) {id : Nat} {cs' : ConnState}
    (hcs' : (p.state.step fromSlice i).1.connections.lookup id = some cs')
    (htoken : cs'.leaderPidfdToken = true) : ∃ fd, cs'.leaderPidfd = some fd ∧
      (.leader id, some fd) ∈ p.inserted ++ p.state.inserts fromSlice i := by
  have hold : ∀ cs, p.state.connections.lookup id = some cs → cs.leaderPidfdToken = true →
      cs'.leaderPidfd = cs.leaderPidfd → ∃ fd, cs'.leaderPidfd = some fd ∧
        (.leader id, some fd) ∈ p.inserted ++ p.state.inserts fromSlice i := by
    intro cs hcs htok heq
    obtain ⟨fd, hfd, hins⟩ := h.pidfd id cs hcs htok
    exact ⟨fd, heq.trans hfd, List.mem_append_left _ hins⟩
  rcases step_leaves fromSlice hcs' with hsame | hleaves
  · exact hold cs' hsame htoken rfl
  cases i with
  | accept a =>
    simp only [leaves] at hleaves
    split_ifs at hleaves
    cases hleaves
    cases htoken
  | connectionReady id' r =>
    simp only [leaves] at hleaves
    split_ifs at hleaves
    obtain ⟨cs, hcs, heq⟩ := Option.map_eq_some_iff.mp hleaves
    obtain ⟨rfl, hafter⟩ := Prod.mk.inj heq
    have htok := afterReady_tokens fromSlice cs r
    split_ifs at hafter
    · obtain rfl := Option.some.inj hafter
      exact hold cs hcs (htok.leaderPidfdToken ▸ htoken) htok.leaderPidfd
    · obtain rfl := Option.some.inj hafter
      exact hold cs hcs (htok.leaderPidfdToken ▸ htoken) htok.leaderPidfd
  | brokerReady id' readable env recv w =>
    simp only [leaves] at hleaves
    split_ifs at hleaves with hsrc
    obtain ⟨cs, hcs, heq⟩ := Option.map_eq_some_iff.mp hleaves
    obtain ⟨rfl, hafter⟩ := Prod.mk.inj heq
    obtain rfl := Option.some.inj hafter
    rcases afterBroker_leader fromSlice readable env recv w hcs hsrc with
      ⟨-, htok, hpidfd⟩ | ⟨-, -, fd, hins, -, hfd⟩
    · rw [htok] at htoken
      rcases hpidfd with hpidfd | ⟨-, hopened⟩
      · exact hold cs hcs htoken hpidfd
      · -- A leader that is registered was registered when the session opened.
        obtain ⟨fd, -, hins⟩ := h.pidfd _ cs hcs htoken
        have hpast := (h.armed _ cs hcs (List.mem_map.mpr ⟨_, hins, rfl⟩)).2
        have hstarting :=
          @sessionOpened_starting fromSlice p.state _ env recv w cs hcs hsrc hopened
        exact absurd hstarting.1 hpast
    · exact ⟨fd, hfd, List.mem_append_right _
        (by rw [hins]; exact List.mem_singleton.mpr rfl)⟩
  | leaderPidfdReady id' w =>
    simp only [leaves] at hleaves
    split_ifs at hleaves
    obtain ⟨cs, hcs, heq⟩ := Option.map_eq_some_iff.mp hleaves
    obtain ⟨rfl, hafter⟩ := Prod.mk.inj heq
    obtain rfl := Option.some.inj hafter
    cases htoken
  | idle => simp [leaves] at hleaves
  | _ => cases hleaves

/-- A leader that is registered has opened its session. -/
theorem Accounts.armed_step {p : Tokens} (h : Accounts p) (i : Input) {id : Nat} {cs' : ConnState}
    (hcs' : (p.state.step fromSlice i).1.connections.lookup id = some cs')
    (hins : .leader id ∈ (p.inserted ++ p.state.inserts fromSlice i).map Prod.fst) :
    cs'.spawned = true ∧ ¬ Starting cs'.episode := by
  rw [List.map_append, List.mem_append] at hins
  rcases hins with hins | hins
  · obtain ⟨x, hx, hleader⟩ := List.mem_map.mp hins
    have hid : id < p.state.nextConnId := h.known x hx id (by rw [hleader]; rfl)
    have hpast : ∀ cs, p.state.connections.lookup id = some cs →
        cs'.spawned = true ∧ ¬ Starting cs'.episode := fun cs hcs =>
      step_past fromSlice h.fit hcs hid hcs' (h.armed id cs hcs hins)
    rcases step_leaves fromSlice hcs' with hsame | hleaves
    · exact hpast cs' hsame
    · rcases p.state.leaves_old fromSlice hleaves with hne | ⟨-, -, heq, -⟩
      · obtain ⟨cs, hcs⟩ := Option.ne_none_iff_exists'.mp hne
        exact hpast cs hcs
      · omega
  · obtain ⟨env, recv, w, cs, rfl, hcs, hsrc, hopened⟩ := inserts_leader fromSlice hins
    obtain ⟨hst, hafter⟩ :=
      @sessionOpened_starting fromSlice p.state id env recv w cs hcs hsrc hopened
    refine ⟨?_, hafter cs' hcs'⟩
    have hlook := hcs'
    rw [step_lookup] at hlook
    simp only [leaves, hsrc, if_true, hcs, Option.map_some] at hlook
    obtain rfl := Option.some.inj hlook
    simp only [ConnState.afterBroker, if_true, hopened]
    rw [(armed_flags _ _).2.2.2]
    simp [ConnState.fed, (h.fit id cs hcs).waiting hst]

theorem Accounts.known_step {p : Tokens} (h : Accounts p) (i : Input) :
    ∀ x ∈ p.inserted ++ p.state.inserts fromSlice i, ∀ id ∈ x.1.conn,
      id < (p.state.step fromSlice i).1.nextConnId := by
  intro x hx id hid
  have hnext := (p.state.step_keeps fromSlice i).next
  rcases List.mem_append.mp hx with hx | hx
  · exact Nat.lt_of_lt_of_le (h.known x hx id hid) hnext
  · cases i with
    | accept a =>
      have htouch := p.state.inserts_conn fromSlice _ x hx
      obtain rfl : p.state.nextConnId = id := Option.some.inj (htouch.symm.trans hid)
      rcases p.state.accept_cases a with ⟨had, -⟩ | ⟨-, -, heq⟩ | ⟨-, -, heq⟩
      · simp [inserts, had] at hx
      · simp [HalmasuitState.step, heq]
      · simp [HalmasuitState.step, heq]
    | brokerReady id' readable env recv w =>
      have htouch := p.state.inserts_conn fromSlice _ x hx
      obtain rfl : id' = id := Option.some.inj (htouch.symm.trans hid)
      have hcs : ∃ cs, p.state.connections.lookup id' = some cs := by
        cases hcs : p.state.connections.lookup id' with
        | none => simp [inserts, hcs] at hx
        | some cs => exact ⟨cs, rfl⟩
      obtain ⟨cs, hcs⟩ := hcs
      exact Nat.lt_of_lt_of_le (h.wired.bounded id' cs hcs) hnext
    | _ => simp [inserts] at hx

/-- **One callback keeps the accounts.** -/
theorem accounts_step (p : Tokens) (i : Input) (h : Accounts p) :
    Accounts (p.step fromSlice i).1 := by
  obtain ⟨hnodup, hnew⟩ := h.inserts_new fromSlice i
  obtain ⟨hrem, hreg⟩ := h.removes_registered fromSlice i
  have hmem := p.state.mem_step_sources fromSlice i h.known_sources
  have hlive : ∀ src ∈ p.state.removes fromSlice i, src ∉ p.removed := by
    intro src hm hgone
    rcases hreg src hm with hsrc | hins
    · exact ((h.registered src).mp hsrc).2 hgone
    · exact hnew src hins (h.removedKnown src hgone)
  constructor
  · exact booked_step fromSlice i h.known_sources h.idles h.next_none h.books
  · exact p.state.wired_step fromSlice i h.wired
  · exact p.state.allFit_step fromSlice i h.fit
  · show (p.state.step fromSlice i).1.idles.Nodup
    rw [step_idles]
    exact idlesAfter_nodup fromSlice i h.books h.idles
  · exact p.state.step_cap fromSlice i h.cap
  · exact h.known_step fromSlice i
  · intro id cs' hcs' hins
    exact h.armed_step fromSlice i hcs' hins
  · intro id cs' hcs' htoken
    exact h.pidfd_step fromSlice i hcs' htoken
  · show ((p.inserted ++ p.state.inserts fromSlice i).map Prod.fst).Nodup
    rw [List.map_append]
    refine List.nodup_append.mpr ⟨h.once, hnodup, ?_⟩
    rintro src hold src' hnew' rfl
    exact hnew src hnew' hold
  · refine List.nodup_append.mpr ⟨h.removedOnce, hrem, ?_⟩
    rintro src hold src' hnew' rfl
    exact hlive src hnew' hold
  · intro src hm
    show src ∈ (p.inserted ++ p.state.inserts fromSlice i).map Prod.fst
    rw [List.map_append, List.mem_append]
    rcases List.mem_append.mp hm with hm | hm
    · exact .inl (h.removedKnown src hm)
    · rcases hreg src hm with hsrc | hins
      · exact .inl ((h.registered src).mp hsrc).1
      · exact .inr hins
  · intro src
    show src ∈ (p.state.step fromSlice i).1.sources ↔
      src ∈ (p.inserted ++ p.state.inserts fromSlice i).map Prod.fst ∧
        src ∉ p.removed ++ p.state.removes fromSlice i
    rw [hmem, List.map_append, List.mem_append, List.mem_append, h.registered src]
    constructor
    · rintro ⟨hins | ⟨hold, hkept⟩, hne⟩
      · exact ⟨.inr hins, fun hor => hor.elim (fun hm => hnew src hins (h.removedKnown src hm)) hne⟩
      · exact ⟨.inl hold, fun hor => hor.elim hkept hne⟩
    · rintro ⟨hold | hins, hne⟩
      · exact ⟨.inr ⟨hold, fun hm => hne (.inl hm)⟩, fun hm => hne (.inr hm)⟩
      · exact ⟨.inl hins, fun hm => hne (.inr hm)⟩

theorem accounts_start (inInitramfs : Bool) (greeterUid : UInt32) (pamService : String)
    (greeter : Option UInt32) : Accounts (start inInitramfs greeterUid pamService greeter) := by
  have hconn : ∀ src ∈ (HalmasuitState.start inInitramfs greeterUid pamService greeter).sources,
      src.conn = none := by
    cases inInitramfs <;> simp [HalmasuitState.start, Source.conn]
  have hempty : ∀ id, (HalmasuitState.start inInitramfs greeterUid pamService
      greeter).connections.lookup id = none := by
    intro id
    simp [HalmasuitState.start]
  refine ⟨fun id => ⟨fun cs hcs => ?_, fun _ => ⟨fun src hm heq => ?_, ?_⟩⟩, wired_start _ _ _ _,
    allFit_start _ _ _ _, ?_, ?_, ?_, ?_, ?_, ?_, ?_, ?_, ?_⟩
  · exact absurd (hcs.symm.trans (hempty id)) (by simp)
  · rw [hconn src hm] at heq
    cases heq
  · simp [start, HalmasuitState.start]
  · simp [start, HalmasuitState.start]
  · simp [start, HalmasuitState.start]
  · intro x hx id hid
    obtain ⟨src, hsrc, rfl⟩ := List.mem_map.mp hx
    rw [hconn src hsrc] at hid
    cases hid
  · intro id cs hcs
    exact absurd (hcs.symm.trans (hempty id)) (by simp)
  · intro id cs hcs
    exact absurd (hcs.symm.trans (hempty id)) (by simp)
  · cases inInitramfs <;> simp [start, HalmasuitState.start]
  · simp [start]
  · simp [start]
  · intro src
    simp [start]

/-- **The connections and their sources.** Over every run of the compositor, with any failure of a
registration or of the connection to the broker: there are four connections at most; a source is
registered once and removed once at most, so that no token is removed twice; a registered broker or
leader source has its `ConnState`, which owns the descriptor the source borrows; and a callback that
takes a `ConnState` out of the table leaves neither of its borrowed sources registered. -/
theorem tokens_sound (inInitramfs : Bool) (greeterUid : UInt32) (pamService : String)
    (greeter : Option UInt32) (is : List Input) (i : Input) :
    let p := (run (step fromSlice) (start inInitramfs greeterUid pamService greeter) is).1
    Sound p ∧ ∀ id, p.state.connections.lookup id ≠ none →
      (p.step fromSlice i).1.state.connections.lookup id = none →
        .broker id ∉ (p.step fromSlice i).1.state.sources ∧
        .leader id ∉ (p.step fromSlice i).1.state.sources := by
  intro p
  have hp : Accounts p := run_invariant_init (fun p _ => Accounts p) (accounts_start _ _ _ _)
    (fun p _ i h => accounts_step fromSlice p i h) is
  refine ⟨hp.sound, fun id _ hnone => ?_⟩
  have hgone := ((accounts_step fromSlice p i hp).books id).gone hnone
  exact ⟨fun hm => hgone.sources _ hm rfl, fun hm => hgone.sources _ hm rfl⟩

end

end Tokens

end Halmasuit.Compositor
